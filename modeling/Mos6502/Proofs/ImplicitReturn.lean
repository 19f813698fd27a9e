import Mos6502.CommandLine.Program
import Mos6502.Proofs.Bare.Unseen
import Mos6502.Proofs.Footprint
import Mos6502.Proofs.HookChain
import Mos6502.Proofs.SubroutineCall
import Mos6502.World.Setup

/-!
# An idle exec hook is an RTS for nothing

Where an exec hook does nothing, the machine returns from a subroutine without a look at memory. If an RTS lies there,
the machine without the hook does just the same in that window, but for the six cycles that the RTS costs. It finds the
same words on the stack, reports the same faults for them, and is at the sentinel in the same windows. So the two
machines go side by side for as long as the program leaves those bytes alone.
-/

namespace Mos6502

variable {σ : Type}

namespace Machine

/-- The same machine without hooks, and with some cycles more. -/
def unhooked (ahead : UInt64) (m : Machine) : Machine :=
  { m with mem := { m.mem with hooks := [] }, cycles := m.cycles + ahead }

/-- Microcode looks neither at exec hooks nor at the cycle counter. -/
theorem unseen_unhooked (ahead : UInt64) : Unseen (unhooked ahead) where
  state _ _ := rfl
  raise _ _ _ := rfl
  mark _ _ := rfl
  put _ _ _ := rfl
  regs _ := rfl
  raw _ _ := rfl
  current _ := rfl
  mapRegs _ _ := rfl
  charge m cycles :=
    congrArg (fun n : Machine => { n with mem := { n.mem with hooks := [] } })
      ((unseen_ahead ahead).charge m cycles)

theorem settle_unhooked (ahead : UInt64) (m : Machine) :
    (m.unhooked ahead).settle = (m.settle.1, m.settle.2.unhooked ahead) := rfl

/-- A return address is pulled without a look at the program counter. -/
theorem aside_startAt (addr : UInt16) : Aside (startAt addr) where
  state _ _ := rfl
  raise _ _ _ := rfl
  mark _ _ := rfl
  put _ _ _ := rfl

end Machine

namespace Micro

theorem exec_pull_startAt (m : Machine) (addr : UInt16) :
    (pull.exec (m.startAt addr)).2 = (pull.exec m).2.startAt addr :=
  (Machine.aside_startAt addr).noteRead (m.mapRegs ({ · with sp := m.regs.sp + 1 }))
    .readUndefined .readUninitialized (stackAddress (m.regs.sp + 1))

theorem exec_returnFromSubroutine_startAt (m : Machine) (addr : UInt16) :
    (returnFromSubroutine.exec (m.startAt addr)).2 = (returnFromSubroutine.exec m).2 := by
  rw [exec_returnFromSubroutine, exec_returnFromSubroutine, exec_pull_startAt, exec_pull_startAt]
  rfl

end Micro

namespace Machine

/-- The byte at an address is that of an RTS, and it can be fetched without a fault. -/
structure HoldsReturn (m : Machine) (addr : UInt16) : Prop where
  byte : m.mem.raw addr = 0x60
  declared : (m.mem.state addr).undefined = false
  written : (m.mem.state addr).uninitialized = false

/-- The next window stores to an address, and the cell takes the byte. -/
def Writes (m : Machine) (addr : UInt16) : Prop :=
  m.limitReached = false ∧ m.atSentinel = false ∧ addr ∈ m.storedCells ∧ (m.mem.state addr).rom = false

instance (m : Machine) (addr : UInt16) : Decidable (m.Writes addr) :=
  inferInstanceAs (Decidable (_ ∧ _))

variable {m : Machine} {addr : UInt16}

theorem below_of_unlimited (unlimited : m.limit = 0) : m.limitReached = false := by
  simp [limitReached, unlimited]

/-- A byte stays as it is in every window that does not write it. -/
theorem raw_step_of_not_writes (unwritten : ¬m.Writes addr) :
    m.step.2.mem.raw addr = m.mem.raw addr := by
  change m.window.mem.raw addr = m.mem.raw addr
  cases limit : m.limitReached with
  | true =>
    rw [window_of_limitReached limit]
    rfl
  | false =>
    cases sentinel : m.atSentinel with
    | true =>
      rw [window_of_atSentinel limit sentinel]
      rfl
    | false =>
      by_cases stored : addr ∈ m.storedCells
      · have readOnly : (m.mem.state addr).rom = true := by
          by_contra writable
          exact unwritten ⟨limit, sentinel, stored, eq_false_of_ne_true writable⟩
        rw [window_of_instruction limit sentinel]
        exact Micro.raw_exec_of_rom (m := m.enter m.regs.pc) _ readOnly
      · exact raw_window limit sentinel stored

theorem exists_state_step (m : Machine) (addr : UInt16) :
    ∃ written, m.step.2.mem.state addr = (m.mem.state addr).after written := by
  change ∃ written, m.window.mem.state addr = _
  cases limit : m.limitReached with
  | true =>
    refine ⟨false, ?_⟩
    rw [window_of_limitReached limit, CellState.after_false]
    rfl
  | false =>
    cases sentinel : m.atSentinel with
    | true =>
      refine ⟨false, ?_⟩
      rw [window_of_atSentinel limit sentinel, CellState.after_false]
      rfl
    | false => exact ⟨m.marks addr, state_window limit sentinel addr⟩

theorem HoldsReturn.step (holds : m.HoldsReturn addr) (unwritten : ¬m.Writes addr) :
    m.step.2.HoldsReturn addr := by
  obtain ⟨written, state⟩ := m.exists_state_step addr
  constructor
  · rw [raw_step_of_not_writes unwritten]
    exact holds.byte
  · rw [state]
    exact holds.declared
  · rw [state]
    simp [CellState.after, holds.written]

section

variable (unlimited : m.limit = 0) (ahead : UInt64)

include unlimited

theorem window_unhooked : (m.unhooked ahead).window = m.window.unhooked ahead :=
  window_unseen (unseen_unhooked ahead) rfl rfl (below_of_unlimited unlimited) (below_of_unlimited unlimited)

/-- Without the hook, the RTS that lies there is fetched, costs its cycles, and returns. -/
theorem window_unhooked_of_return (away : m.atSentinel = false)
    (holds : (m.unhooked ahead).HoldsReturn m.regs.pc) :
    (m.unhooked ahead).window =
      (Micro.returnFromSubroutine.exec (m.enter m.regs.pc)).2.unhooked (ahead + 6) := by
  have below : (m.unhooked ahead).limitReached = false := below_of_unlimited unlimited
  have rts : (m.unhooked ahead).nextMnemonic = .rts := by
    have byte : (m.unhooked ahead).mem.raw (m.unhooked ahead).regs.pc = 0x60 := holds.byte
    rw [nextMnemonic, byte]
    decide +kernel
  have before : (m.unhooked ahead).beforeReturn =
      ((m.enter m.regs.pc).startAt (m.regs.pc + 1)).unhooked (ahead + 6) := by
    have silent := noteRead_of_readable (m := (m.unhooked ahead).enter m.regs.pc) holds.declared
      holds.written .executeUndefined .executeUninitialized
    have pc : (m.unhooked ahead).regs.pc = m.regs.pc := rfl
    simp only [beforeReturn, pc, silent]
    simp only [unhooked, enter, startAt, mapRegs, UInt64.add_assoc]
  rw [window_of_rts below away rts, before, Micro.exec_unseen (unseen_unhooked (ahead + 6)),
    Micro.exec_returnFromSubroutine_startAt]

end

end Machine

/-- An exec hook is bound to an address. -/
def Memory.Hooked (mem : Memory) (addr : UInt16) : Prop :=
  (mem.hook? .exec addr).isSome = true

namespace World

variable {host : Host σ} {v : World σ} {m : Machine} {ahead : UInt64}

/-- A machine without hooks goes beside a world in which hooks on execution do nothing. It is some cycles ahead, and has
an RTS wherever the world has a hook. -/
structure Beside (host : Host σ) (ahead : UInt64) (v : World σ) (m : Machine) : Prop where
  same : m = v.machine.unhooked ahead
  unlimited : v.machine.limit = 0
  idle : v.machine.mem.HooksIdle host
  returns : ∀ addr, v.machine.mem.Hooked addr → m.HoldsReturn addr

/-- Both have the same outcome in a window. The machine is six cycles further ahead if there was a hook. -/
theorem Beside.step_eq (beside : Beside host ahead v m) :
    m.step = ((v.step host).1,
      (v.step host).2.machine.unhooked (ahead + if v.machine.AtHook then 6 else 0)) := by
  have unlimited := beside.unlimited
  by_cases atHook : v.machine.AtHook
  · obtain ⟨away, isBound⟩ := id atHook
    obtain ⟨hook, bound⟩ := Option.isSome_iff_exists.mp isBound
    obtain ⟨stopped, machine⟩ := (v.window host).settle_bare
    have window := window_of_idle beside.idle.direct (beside.idle.of_hook? bound).2
      (Machine.below_of_unlimited unlimited) away bound
    have holds := beside.returns v.machine.regs.pc isBound
    rw [beside.same] at holds ⊢
    rw [if_pos atHook, Machine.step, Machine.window_unhooked_of_return unlimited ahead away holds,
      Machine.settle_unhooked, step, stopped, machine, window]
  · have away : (v.machine.limitReached || v.machine.atSentinel) = true ∨
        v.machine.mem.hook? .exec v.machine.regs.pc = none := by
      rcases not_and_or.mp atHook with sentinel | unbound
      · exact .inl (by rw [eq_true_of_ne_false sentinel, Bool.or_true])
      · exact .inr (Option.not_isSome_iff_eq_none.mp unbound)
    obtain ⟨stopped, machine⟩ : (v.step host).1 = v.machine.step.1 ∧
        (v.step host).2.machine = v.machine.step.2 := step_of_no_hook beside.idle.direct away
    rw [if_neg atHook, UInt64.add_zero, stopped, machine, beside.same, Machine.step,
      Machine.window_unhooked unlimited, Machine.settle_unhooked]
    rfl

/-- Unless the program overwrites an RTS beside a hook, they go on side by side. -/
theorem Beside.step (beside : Beside host ahead v m)
    (unwritten : ∀ addr, v.machine.mem.Hooked addr → ¬m.Writes addr) :
    Beside host (ahead + if v.machine.AtHook then 6 else 0) (v.step host).2 m.step.2 := by
  have same := congrArg Prod.snd beside.step_eq
  have hooks : (v.step host).2.machine.mem.hooks = v.machine.mem.hooks := beside.idle.kept.step rfl
  have limit : m.limit = v.machine.limit := by
    rw [beside.same]
    rfl
  constructor
  · exact same
  · have later := m.limit_step
    rw [same, limit] at later
    exact later.trans beside.unlimited
  · unfold Memory.HooksIdle
    rw [hooks]
    exact beside.idle
  · intro addr hooked
    have before : v.machine.mem.Hooked addr := by
      unfold Memory.Hooked Memory.hook? at hooked ⊢
      rwa [hooks] at hooked
    exact (beside.returns addr before).step (unwritten addr before)

theorem hooks_afterSteps (idle : v.machine.mem.HooksIdle host) (count : Nat) :
    (v.afterSteps host count).machine.mem.hooks = v.machine.mem.hooks := by
  induction count with
  | zero => rfl
  | succ count inductionHypothesis => exact idle.kept.step inductionHypothesis

/-- How many of the first windows of a world are at a hook. -/
def hookedWindows (host : Host σ) (count : Nat) (v : World σ) : Nat :=
  (List.range count).countP fun index => (v.afterSteps host index).machine.AtHook

theorem hookedWindows_succ (host : Host σ) (count : Nat) (v : World σ) :
    v.hookedWindows host (count + 1) =
      v.hookedWindows host count + if (v.afterSteps host count).machine.AtHook then 1 else 0 := by
  simp [hookedWindows, List.range_succ, List.countP_singleton]

/-- A world whose hooks on execution do nothing, and one without hooks that has an RTS at each of their addresses, go
side by side: in every window they have the same outcome, and their machines stay the same but for the cycles, of which
the second takes six more whenever the first is at a hook. -/
theorem idle_hooks_return_for_free (host : Host σ) {τ : Type} (otherHost : Host τ) {v : World σ}
    {w : World τ} (same : w.machine = v.machine.unhooked 0) (unlimited : v.machine.limit = 0)
    (idle : v.machine.mem.HooksIdle host)
    (returns : ∀ addr, v.machine.mem.Hooked addr → w.machine.HoldsReturn addr) {count : Nat}
    (unwritten : ∀ index < count, ∀ addr, v.machine.mem.Hooked addr →
      ¬(w.afterSteps otherHost index).machine.Writes addr) :
    (w.afterSteps otherHost count).machine =
        (v.afterSteps host count).machine.unhooked (UInt64.ofNat (6 * v.hookedWindows host count)) ∧
      ((w.afterSteps otherHost count).step otherHost).1 = ((v.afterSteps host count).step host).1 := by
  have free : w.machine.HookFree := by
    rw [same]
    rfl
  have bare (index : Nat) : (w.afterSteps otherHost index).machine = w.machine.afterSteps index :=
    afterSteps_bare otherHost index free
  have beside : Beside host (UInt64.ofNat (6 * v.hookedWindows host count)) (v.afterSteps host count)
      (w.machine.afterSteps count) := by
    induction count with
    | zero => exact ⟨same, unlimited, idle, returns⟩
    | succ count inductionHypothesis =>
      have earlier := inductionHypothesis fun index below => unwritten index (by omega)
      have cost : UInt64.ofNat (6 * v.hookedWindows host (count + 1)) =
          UInt64.ofNat (6 * v.hookedWindows host count) +
            if (v.afterSteps host count).machine.AtHook then 6 else 0 := by
        rw [hookedWindows_succ, Nat.mul_add, UInt64.ofNat_add]
        split <;> rfl
      rw [cost]
      apply earlier.step
      intro addr hooked
      unfold Memory.Hooked Memory.hook? at hooked
      rw [hooks_afterSteps idle] at hooked
      have apart := unwritten count (Nat.lt_succ_self count) addr hooked
      rwa [bare] at apart
  have stillFree : (w.afterSteps otherHost count).machine.HookFree := by
    rw [bare]
    exact Machine.hookFree_afterSteps free count
  rw [(step_bare otherHost stillFree).1, bare]
  exact ⟨beside.same, congrArg Prod.fst beside.step_eq⟩

/-- Calls an RTS that has a hook, and then counts up. -/
def hookedReturn : World Unit where
  machine := {
    mem := {
      cells := ([0x20, 0x06, 0x00, 0xE8, 0x00, 0x00, 0x60].map (⟨·, {}⟩) ++
        List.replicate 0xFB ⟨0, {}⟩ : List Cell).toArray
      hooks := [⟨.exec, 6, 7, 0⟩] }
    regs := { sp := 1 } }
  host := ()

def plainReturn : World Unit :=
  { hookedReturn with machine := hookedReturn.machine.unhooked 0 }

theorem plainReturn_ahead :
    (plainReturn.afterSteps CommandLine.hooklessHost 3).machine =
        (hookedReturn.afterSteps bystander 3).machine.unhooked 6 ∧
      (hookedReturn.afterSteps bystander 3).machine.cycles = 8 := by
  have hooks : hookedReturn.machine.mem.hooks = [⟨.exec, 6, 7, 0⟩] := rfl
  have idle : hookedReturn.machine.mem.HooksIdle bystander := by
    intro binding bound
    rw [hooks] at bound
    refine ⟨congrArg HookBinding.kind (List.mem_singleton.mp bound), ?_⟩
    intro addr w
    exact ⟨0, w, rfl, rfl⟩
  have only (addr : UInt16) (hooked : hookedReturn.machine.mem.Hooked addr) : addr = 6 := by
    unfold Memory.Hooked Memory.hook? at hooked
    rw [hooks] at hooked
    simp [HookBinding.covers] at hooked
    apply UInt16.toNat.inj
    change addr.toNat = 6
    omega
  have returns (addr : UInt16) (hooked : hookedReturn.machine.mem.Hooked addr) :
      plainReturn.machine.HoldsReturn addr := by
    rw [only addr hooked]
    constructor <;> decide +kernel
  have others : ∀ index < 3, ¬(plainReturn.afterSteps CommandLine.hooklessHost index).machine.Writes 6 := by
    decide +kernel
  have unwritten : ∀ index < 3, ∀ addr, hookedReturn.machine.mem.Hooked addr →
      ¬(plainReturn.afterSteps CommandLine.hooklessHost index).machine.Writes addr := by
    intro index below addr hooked
    rw [only addr hooked]
    exact others index below
  have once : hookedReturn.hookedWindows bystander 3 = 1 := by decide +kernel
  have same : plainReturn.machine = hookedReturn.machine.unhooked 0 := rfl
  have unlimited : hookedReturn.machine.limit = 0 := rfl
  have beside := (idle_hooks_return_for_free bystander CommandLine.hooklessHost same unlimited idle returns
    unwritten).1
  rw [once] at beside
  exact ⟨beside, by decide +kernel⟩

end World

end Mos6502
