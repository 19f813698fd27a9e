import Mos6502.Monitor.Command
import Mos6502.Metrics.Exposition
import Mos6502.World.Setup

/-!
Performing commands. Hooks perform commands of their own, which may invoke hooks again; the host that answers
them is built up by nesting depth, so that every command comes to an end.
-/

namespace Mos6502.Monitor

/-- The bound on the nesting of hooks. -/
def depthBound : Nat := 100000

/-- What is known of the flags of a mask. -/
def flagView (regs : Registers) (mask : UInt8) : FlagView :=
  { flags := regs.flagsText
    line := regs.text
    anySet := regs.status.meets (Flags.ofByte mask)
    allKnown := !regs.unknown.meets (Flags.ofByte mask) }

/-- Steps a number of times, whatever faults come; `views` holds the views so far, last first. -/
def stepMany (host : Host Session) :
    Nat → List StepView → World Session → List StepView × World Session
  | 0, views, w => (views.reverse, w)
  | count + 1, views, w =>
    let (fault, w) := w.step host
    stepMany host count ({ fault, registers := w.machine.regs, cycles := w.machine.cycles } :: views) w

/-- Takes a snapshot by way of its JSON form and keeps it. The monitor gives its snapshots a fixed identity
and time, so that sessions can be repeated. -/
def takeSnapshot (slot name : String) (w : World Session) : Answer × World Session :=
  match Snapshot.ofJson? (Snapshot.ofMachine "ID" name {} w.machine).toJson with
  | none => (.restoreFailure .badJson, w)
  | some snapshot =>
    let others := w.host.snapshots.filter (·.1 != slot)
    (.snapshot snapshot, { w with host := { w.host with snapshots := (slot, snapshot) :: others } })

/-- Restores a snapshot. -/
def restoreSnapshot (snapshot : Snapshot) (w : World Session) : Answer × World Session :=
  match w.restore snapshot with
  | (.ok (), w) => (.done, w)
  | (.error error, w) => (.restoreFailure error, w)

/-- Adds a hook and binds it to a range of addresses. -/
def addHook (kind : AccessKind) (start length : Nat) (script : Script) (w : World Session) :
    World Session :=
  let hook := w.host.scripts.size
  ({ w with host := { w.host with scripts := w.host.scripts.push script } }).mapMem
    (·.bind kind start length hook)

/-- Renders the registered counters; a failure is logged. -/
def renderMetrics (w : World Session) : Answer × World Session :=
  let (text, failed) := w.metrics.render
  (.text text, if failed then w.log .expositionFailed else w)

/-- Runs a program of micro-operations from outside of any instruction. -/
def runMicro {α : Type} (host : Host Session) (program : Micro α) (answer : α → Answer)
    (w : World Session) : Answer × World Session :=
  match program.run host w with
  | (result, w) => (answer result, w)

/-- Performs a command with a host that answers hooks. -/
def perform (host : Host Session) (command : Command) (w : World Session) :
    Answer × World Session :=
  let mem := w.machine.mem
  let labels := w.instruments.labels
  match command with
  | .registers command => (.done, w.mapRegs (RegisterCommand.apply · command))
  | .showFlags mask => (.flags (flagView w.machine.regs mask), w)
  | .declareRam start length zeroed => (.done, w.mapMem (·.declareRam start length zeroed))
  | .declareData start bytes => (.done, w.mapMem (·.declareData start bytes))
  | .declareRom start bytes => (.done, w.mapMem (·.declareRom start bytes))
  | .setLabel addr name => (.done, w.setLabel addr name)
  | .loadLabels bytes =>
    match w.loadLabels bytes with
    | (.ok count, w) => (.number count, w)
    | (.error message, w) => (.labelFailure message, w)
  | .markInitialized addr =>
    (.truth (mem.state addr).uninitialized, w.mapMem (·.markInitialized addr))
  | .showByte addr => (.numberOrNone ((mem.byte? addr).map (·.toNat)), w)
  | .showRaw addr => (.number (mem.raw addr).toNat, w)
  | .dump addr length =>
    (.bytes ((List.range length).map fun i => mem.raw (addr + UInt16.ofNat i)), w)
  | .showState addr => (.number (mem.state addr).toByte.toNat, w)
  | .showSize => (.number mem.size, w)
  | .hasHook kind addr => (.truth (mem.hook? kind addr).isSome, w)
  | .labelAt addr => (.textOrNone (labels.find? addr), w)
  | .findLabel name => (.numberOrNone ((labels.addressOf? name).map (·.toNat)), w)
  | .nearestLabel addr => (.labelDistance (labels.nearest? addr), w)
  | .showLabels => (.labels labels.entries, w)
  | .inspect addr => (.entry (inspect mem labels addr), w)
  | .disassemble addr count => (.texts ((disassemble mem labels addr count).map (·.line)), w)
  | .showTraceLine addr =>
    (.text (traceLine mem labels w.machine.regs w.machine.cycles addr), w)
  | .setLevel name =>
    match ErrorLevel.parse name with
    | .ok level => (.done, { w with machine := { w.machine with level } })
    | .error message => (.levelFailure message, w)
  | .showLevel => (.text w.machine.level.name, w)
  | .setLimit limit => (.done, { w with machine := { w.machine with limit } })
  | .setSink sink => (.done, w.setSink sink)
  | .enableMetrics => (.done, w.enableMetrics)
  | .renderMetrics => renderMetrics w
  | .enableProfile => (.done, w.enableProfile)
  | .saveProfile => (.profileBytes (w.instruments.profile.map (·.encode)), w)
  | .loadProfile bytes =>
    match w.loadProfile bytes with
    | (.ok (), w) => (.done, w)
    | (.error error, w) => (.profileFailure error, w)
  | .showProfile addr => (.counters (w.instruments.profile.map (·.cell addr)), w)
  | .report top => (.report (w.instruments.profile.map (·.report labels top)), w)
  | .step count =>
    let (views, w) := stepMany host count [] w
    (.steps views, w)
  | .run addr =>
    let (outcome, w) := w.run host windowBound addr
    (.outcome outcome, w)
  | .call addr =>
    let (outcome, w) := w.call host windowBound addr
    (.outcome outcome, w)
  | .read addr => runMicro host (.load addr) (.number ·.toNat) w
  | .write addr value => runMicro host (.store addr value) (fun _ => .done) w
  | .push value => runMicro host (.push value) (fun _ => .done) w
  | .pull => runMicro host .pull (.number ·.toNat) w
  | .pushWord value => runMicro host (.pushWord value) (fun _ => .done) w
  | .pullWord => runMicro host .pullWord (.number ·.toNat) w
  | .raise kind addr => (.done, w.raise kind addr)
  | .clearFault => (.done, { w with machine := { w.machine with slot := {} } })
  | .showFault => (.fault w.machine.slot.fault, w)
  | .snapshot slot name => takeSnapshot slot name w
  | .restore slot patch =>
    match w.host.snapshots.lookup slot with
    | some snapshot => restoreSnapshot (patch.apply snapshot) w
    | none => (.restoreFailure .badJson, w)
  | .restoreJson text =>
    match Snapshot.ofJson? text with
    | some snapshot => restoreSnapshot snapshot w
    | none => (.restoreFailure .badJson, w)
  | .hook kind start length reply acts =>
    (.done, addHook kind start length { reply, acts } w)

/-- The byte of an intercepted write. -/
def writtenByte? : Access → Option UInt8
  | .write value => some value
  | .read | .exec => none

/-- Performs the actions of a hook in order. The second component is the fault of an attempted call, which
leaves out the actions behind it. -/
def performActs (host : Host Session) (access : Access) :
    List Act → World Session → List Answer × Option FaultKind × World Session
  | [], w => ([], none, w)
  | .perform command :: rest, w =>
    let (answer, w) := perform host command w
    let (answers, failed, w) := performActs host access rest w
    (answer :: answers, failed, w)
  | .keep addr :: rest, w =>
    let w := w.write host addr ((writtenByte? access).getD 0)
    let (answers, failed, w) := performActs host access rest w
    (.done :: answers, failed, w)
  | .attempt addr :: rest, w =>
    let (outcome, w) := w.call host windowBound addr
    match outcome with
    | .stopped fault => ([.outcome outcome], some fault.kind, w)
    | _ =>
      let (answers, failed, w) := performActs host access rest w
      (.outcome outcome :: answers, failed, w)

/-- What a hook replies after `hits` earlier invocations. -/
def Reply.answer (reply : Reply) (hits : Nat) (addr : UInt16) (w : World Session) :
    Except FaultKind UInt8 :=
  match reply with
  | .byte value => .ok value
  | .fault kind => .error kind
  | .cycle bytes => .ok (bytes.getD (hits % bytes.length) 0)
  | .lowAddress amount => .ok (UInt8.ofNat (addr.toNat + amount))
  | .accumulator => .ok w.machine.regs.a

/-- Answers an access with the script of a hook, whose own accesses are answered with one level of nesting
less. -/
def respond : Nat → Nat → UInt16 → Access → World Session →
    Except FaultKind UInt8 × World Session
  | 0, _, _, _, w => (.error .user, w)
  | depth + 1, hook, addr, access, w =>
    match w.host.scripts[hook]? with
    | none => (.ok 0, w)
    | some script =>
      let scripts := w.host.scripts.modify hook fun script =>
        { script with hits := script.hits + 1 }
      let w := { w with host := { w.host with scripts } }
      let (answers, failed, w) := performActs ⟨respond depth⟩ access script.acts w
      let reply := match failed with
        | some kind => .error kind
        | none => script.reply.answer script.hits addr w
      let event : Event :=
        { kind := access.kind, addr, written := writtenByte? access, answers, reply }
      (reply, { w with host := { w.host with events := w.host.events.push event } })

/-- The host that answers hooks by their scripts. -/
def scriptHost : Host Session :=
  ⟨respond depthBound⟩

/-- Performs a command of a session. -/
def execute (command : Command) (w : World Session) : Answer × World Session :=
  perform scriptHost command w

/-- The world at the start of a session: the collectors of the simulator are registered, and settings are
as given or else the defaults. -/
def start (settings : Settings) : World Session :=
  World.ofSettings settings ({} : Metrics).install.1 {}

/-- Empties the journal and the list of events. -/
def collect (w : World Session) : World Session :=
  { w with journal := {}, host := { w.host with events := #[] } }

end Mos6502.Monitor
