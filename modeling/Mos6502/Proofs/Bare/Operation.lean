import Mos6502.Proofs.Operation

/-!
# Operations of bare machines

Operations of a world without hooks are operations of its bare machine: replies and machine are the same whatever
host, instruments and journal are.
-/

namespace Mos6502

variable {σ : Type}

namespace Machine

def beginCall (m : Machine) : Machine :=
  ((Micro.pushWord (callSentinel - 1)).exec { m with inCall := true, slot := {} }).2

def call (bound : Nat) (addr : UInt16) (m : Machine) : Outcome × Machine :=
  (m.beginCall.run bound addr).map id (·.resume m.frame)

def operate (operation : Operation) (m : Machine) : Reply × Machine :=
  match operation with
  | .step => m.step.map .stepped id
  | .run bound addr => (m.run bound addr).map .ended id
  | .call bound addr => (m.call bound addr).map .ended id
  | .read addr => ((Micro.load addr).exec m).map .byte id
  | .write addr value => (.done, m.write addr value)
  | .push value => ((Micro.push value).exec m).map (fun _ => .done) id
  | .pull => (Micro.pull.exec m).map .byte id

def operateAll : List Operation → Machine → List Reply × Machine
  | [], m => ([], m)
  | operation :: rest, m =>
    match m.operate operation with
    | (reply, m) => (m.operateAll rest).map (reply :: ·) id

@[simp]
theorem operateAll_cons (operation : Operation) (rest : List Operation) (m : Machine) :
    m.operateAll (operation :: rest) =
      ((m.operate operation).1 :: ((m.operate operation).2.operateAll rest).1,
        ((m.operate operation).2.operateAll rest).2) := rfl

end Machine

/-- Without hooks, memory keeps them away. -/
theorem Memory.kept_hookFree (host : Host σ) : Kept (fun mem => mem.hooks = []) host where
  mark _ free := free
  put _ _ _ free := free
  respond bound free := by
    rw [hook?_of_hooks_eq_nil free] at bound
    cases bound

namespace World

theorem beginCall_bare (host : Host σ) {w : World σ} (free : w.machine.HookFree) :
    (w.beginCall host).machine = w.machine.beginCall := by
  have armedFree :
      { w with machine := { w.machine with inCall := true, slot := {} } }.machine.HookFree := free
  exact ((Micro.pushWord (callSentinel - 1)).run_bare host armedFree.direct).2

theorem call_bare (host : Host σ) (bound : Nat) (addr : UInt16) {w : World σ}
    (free : w.machine.HookFree) :
    (w.call host bound addr).1 = (w.machine.call bound addr).1 ∧
      (w.call host bound addr).2.machine = (w.machine.call bound addr).2 := by
  have begunFree : (w.beginCall host).machine.HookFree :=
    (Memory.kept_hookFree host).microcode _ free
  obtain ⟨outcome, machine⟩ := run_bare host bound addr begunFree
  rw [beginCall_bare host free] at outcome machine
  exact ⟨outcome, congrArg (·.resume w.machine.frame) machine⟩

/-- Operations of a world without hooks act on its bare machine. -/
theorem operate_bare (host : Host σ) (operation : Operation) {w : World σ}
    (free : w.machine.HookFree) :
    (w.operate host operation).1 = (w.machine.operate operation).1 ∧
      (w.operate host operation).2.machine = (w.machine.operate operation).2 := by
  cases operation with
  | step =>
    obtain ⟨stopped, machine⟩ := w.step_bare host free
    exact ⟨congrArg Reply.stepped stopped, machine⟩
  | run bound addr =>
    obtain ⟨outcome, machine⟩ := w.run_bare host bound addr free
    exact ⟨congrArg Reply.ended outcome, machine⟩
  | call bound addr =>
    obtain ⟨outcome, machine⟩ := w.call_bare host bound addr free
    exact ⟨congrArg Reply.ended outcome, machine⟩
  | read addr =>
    obtain ⟨value, machine⟩ := (Micro.load addr).run_bare host free.direct
    exact ⟨congrArg Reply.byte value, machine⟩
  | write addr value => exact ⟨rfl, write_bare host free.direct addr value⟩
  | push value => exact ⟨rfl, ((Micro.push value).run_bare host free.direct).2⟩
  | pull =>
    obtain ⟨value, machine⟩ := Micro.pull.run_bare host free.direct
    exact ⟨congrArg Reply.byte value, machine⟩

theorem operateAll_bare (host : Host σ) (operations : List Operation) {w : World σ}
    (free : w.machine.HookFree) :
    (w.operateAll host operations).1 = (w.machine.operateAll operations).1 ∧
      (w.operateAll host operations).2.machine = (w.machine.operateAll operations).2 := by
  induction operations generalizing w with
  | nil => exact ⟨rfl, rfl⟩
  | cons operation rest inductionHypothesis =>
    obtain ⟨reply, machine⟩ := w.operate_bare host operation free
    have stillFree : (w.operate host operation).2.machine.HookFree :=
      (Memory.kept_hookFree host).operate operation free
    obtain ⟨replies, finalMachine⟩ := inductionHypothesis stillFree
    rw [machine] at replies finalMachine
    simp only [operateAll_cons, Machine.operateAll_cons, reply, replies, finalMachine, and_self]

end World

end Mos6502
