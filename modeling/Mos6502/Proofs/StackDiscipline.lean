import Mos6502.CommandLine.Program
import Mos6502.Proofs.AccessTrace
import Mos6502.Proofs.SubroutineCall
import Mos6502.Proofs.Word
import Mos6502.World.Setup

/-!
# Last in, first out

Bytes and words can be pushed and pulled in any order, as long as no more is pulled than was pushed and no more than a
page is pushed at a time. Then the stack behaves like a list, whatever the stack pointer is at the start: the pointer
wraps within the page, and the cells between it and its first value are those of the list. Cells that nobody has written
are no exception, since all that is pulled was pushed before.
-/

namespace Mos6502

variable {σ α : Type}

/-- What can be asked of the stack. -/
inductive StackOperation where
  | push (byte : UInt8)
  | pushWord (word : UInt16)
  | pull
  | pullWord
deriving DecidableEq, Repr

inductive StackReply where
  | done
  | byte (value : UInt8)
  | word (value : UInt16)
deriving DecidableEq, Repr

namespace StackOperation

def perform : StackOperation → Micro StackReply
  | .push byte => do
    Micro.push byte
    return .done
  | .pushWord word => do
    Micro.pushWord word
    return .done
  | .pull => return .byte (← Micro.pull)
  | .pullWord => return .word (← Micro.pullWord)

def performAll : List StackOperation → Micro (List StackReply)
  | [] => return []
  | operation :: rest => do
    let reply ← operation.perform
    return reply :: (← performAll rest)

theorem exec_performAll_cons (operation : StackOperation) (rest : List StackOperation) (m : Machine) :
    (performAll (operation :: rest)).exec m =
      ((operation.perform.exec m).1 ::
          ((performAll rest).exec (operation.perform.exec m).2).1,
        ((performAll rest).exec (operation.perform.exec m).2).2) := by
  simp only [performAll, Micro.exec_bind, Micro.pure_eq_done, Micro.exec_done]

/-- The depth of the stack after an operation, if the operation stays within the page. -/
def depth? : StackOperation → Nat → Option Nat
  | .push _, depth => if depth + 1 ≤ 256 then some (depth + 1) else none
  | .pushWord _, depth => if depth + 2 ≤ 256 then some (depth + 2) else none
  | .pull, depth => if 1 ≤ depth then some (depth - 1) else none
  | .pullWord, depth => if 2 ≤ depth then some (depth - 2) else none

def depthAll? : List StackOperation → Nat → Option Nat
  | [], depth => some depth
  | operation :: rest, depth => do depthAll? rest (← operation.depth? depth)

/-- What an operation answers and leaves of a list, in which the byte that was pushed last comes first. -/
def onList? : StackOperation → List UInt8 → Option (StackReply × List UInt8)
  | .push byte, stack => some (.done, byte :: stack)
  | .pushWord word, stack => some (.done, lowByte word :: highByte word :: stack)
  | .pull, byte :: stack => some (.byte byte, stack)
  | .pullWord, low :: high :: stack => some (.word (wordOf low high), stack)
  | _, _ => none

def onListAll? : List StackOperation → List UInt8 → Option (List StackReply × List UInt8)
  | [], stack => some ([], stack)
  | operation :: rest, stack => do
    let (reply, stack) ← operation.onList? stack
    let (replies, stack) ← onListAll? rest stack
    return (reply :: replies, stack)

end StackOperation

theorem sub_ofNat_succ (pointer : UInt8) (count : Nat) :
    pointer - UInt8.ofNat (count + 1) = pointer - UInt8.ofNat count - 1 := by
  have one : UInt8.ofNat 1 = 1 := rfl
  rw [UInt8.ofNat_add, one]
  grind

theorem highByte_stackAddress (pointer : UInt8) : highByte (Micro.stackAddress pointer) = 1 := by
  have below := pointer.toNat_lt
  apply UInt8.toNat.inj
  simp only [highByte, Micro.stackAddress, UInt16.toNat_add, UInt8.toNat_toUInt16, UInt8.toNat_ofNat',
    UInt16.reduceToNat, UInt8.reduceToNat]
  omega

namespace Memory

/-- The cells above a stack pointer hold the bytes of a list, which were written there. -/
def Holds (mem : Memory) : UInt8 → List UInt8 → Prop
  | _, [] => True
  | pointer, byte :: rest =>
    mem.byte? (Micro.stackAddress (pointer + 1)) = some byte ∧ mem.Holds (pointer + 1) rest

theorem byte?_store {mem : Memory} {addr : UInt16} (declared : (mem.state addr).undefined = false)
    (value : UInt8) (other : UInt16) :
    ((mem.store addr value).markInitialized addr).byte? other =
      if addr = other then some value else mem.byte? other := by
  rw [markInitialized_store]
  unfold byte?
  rw [cell?_modify]
  by_cases here : addr = other
  · subst other
    obtain ⟨cell, found⟩ := cell?_of_defined declared
    simp [found, Cell.withByte, Cell.asInitialized]
  · rw [if_neg here, if_neg here]

/-- What lies above the pointer, at most up to the end of the page, is not overwritten by a push. -/
theorem Holds.store {mem : Memory} {pointer : UInt8}
    (declared : (mem.state (Micro.stackAddress pointer)).undefined = false) (value : UInt8)
    (distance : Nat) {stack : List UInt8} (room : distance + stack.length < 256)
    (holds : mem.Holds (pointer + UInt8.ofNat distance) stack) :
    ((mem.store (Micro.stackAddress pointer) value).markInitialized
      (Micro.stackAddress pointer)).Holds (pointer + UInt8.ofNat distance) stack := by
  induction stack generalizing distance with
  | nil => trivial
  | cons byte rest inductionHypothesis =>
    obtain ⟨here, above⟩ := holds
    have next : pointer + UInt8.ofNat distance + 1 = pointer + UInt8.ofNat (distance + 1) := by
      rw [UInt8.ofNat_add, ← UInt8.add_assoc]
      rfl
    rw [List.length_cons] at room
    rw [next] at here above
    have apart : Micro.stackAddress pointer ≠ Micro.stackAddress (pointer + UInt8.ofNat (distance + 1)) := by
      rw [Ne, stackAddress_inj]
      intro same
      have numbers := congrArg UInt8.toNat same
      have below := pointer.toNat_lt
      rw [UInt8.toNat_add, UInt8.toNat_ofNat'] at numbers
      omega
    refine ⟨?_, ?_⟩
    · rw [next, byte?_store declared, if_neg apart]
      exact here
    · rw [next]
      exact inductionHypothesis (distance + 1) (by omega) above

end Memory

namespace Machine

/-- Nothing differs but the stack pointer and the content of page one. -/
structure SameOffStack (m n : Machine) : Prop where
  rest : ∃ mem sp, n = { m with mem, regs := { m.regs with sp } }
  hooks : n.mem.hooks = m.mem.hooks
  cells : ∀ addr, highByte addr ≠ 1 → n.mem.cell? addr = m.mem.cell? addr

namespace SameOffStack

variable {m n : Machine}

theorem refl (m : Machine) : m.SameOffStack m :=
  ⟨⟨m.mem, m.regs.sp, rfl⟩, rfl, fun _ _ => rfl⟩

theorem setPointer (same : m.SameOffStack n) (sp : UInt8) :
    m.SameOffStack (n.mapRegs ({ · with sp })) := by
  obtain ⟨⟨mem, before, rfl⟩, hooks, cells⟩ := same
  exact ⟨⟨mem, sp, rfl⟩, hooks, cells⟩

theorem put (same : m.SameOffStack n) (pointer value : UInt8) :
    m.SameOffStack (n.put (Micro.stackAddress pointer) value) := by
  obtain ⟨⟨mem, sp, rfl⟩, hooks, cells⟩ := same
  refine ⟨⟨_, sp, rfl⟩, hooks, ?_⟩
  intro addr outside
  have apart : Micro.stackAddress pointer ≠ addr := by
    rintro rfl
    exact outside (highByte_stackAddress pointer)
  change ((mem.store _ value).markInitialized _).cell? addr = _
  rw [Memory.markInitialized_store, Memory.cell?_modify, if_neg apart]
  exact cells addr outside

end SameOffStack

/-- Page one is declared as RAM, written or not, and neither reading nor writing comes to a hook there. -/
structure StackIsOwn (m : Machine) : Prop where
  ram : m.StackIsRam
  unhooked : ∀ pointer kind, kind ≠ .exec → m.mem.hook? kind (Micro.stackAddress pointer) = none

/-- Bytes were pushed since a machine was in some state: they lie above the stack pointer, and that has moved by as
much. -/
structure Pushed (start : Machine) (stack : List UInt8) (m : Machine) : Prop where
  ram : m.StackIsRam
  holds : m.mem.Holds m.regs.sp stack
  pointer : m.regs.sp = start.regs.sp - UInt8.ofNat stack.length
  same : start.SameOffStack m

namespace Pushed

variable {start m : Machine} {stack : List UInt8}

theorem refl (ram : start.StackIsRam) : start.Pushed [] start :=
  ⟨ram, trivial, (UInt8.sub_zero start.regs.sp).symm, .refl start⟩

theorem push (pushed : start.Pushed stack m) (room : stack.length + 1 ≤ 256) (byte : UInt8) :
    start.Pushed (byte :: stack) ((Micro.push byte).exec m).2 := by
  have declared := (pushed.ram m.regs.sp).2
  have back : m.regs.sp - 1 + 1 = m.regs.sp := UInt8.sub_add_cancel m.regs.sp 1
  have kept : ((m.mem.store (Micro.stackAddress m.regs.sp) byte).markInitialized
      (Micro.stackAddress m.regs.sp)).Holds m.regs.sp stack := by
    have base : m.regs.sp + UInt8.ofNat 0 = m.regs.sp := UInt8.add_zero m.regs.sp
    have above := pushed.holds
    rw [← base] at above
    have stored := above.store declared byte 0 (by omega)
    rwa [base] at stored
  have ram := pushed.ram.push byte
  rw [Micro.exec_push_of_ram (pushed.ram m.regs.sp)] at ram ⊢
  refine ⟨ram, ⟨?_, ?_⟩, ?_, (pushed.same.put m.regs.sp byte).setPointer _⟩
  · change ((m.mem.store _ byte).markInitialized _).byte? (Micro.stackAddress (m.regs.sp - 1 + 1)) = _
    rw [back, Memory.byte?_store declared, if_pos rfl]
  · change ((m.mem.store _ byte).markInitialized _).Holds (m.regs.sp - 1 + 1) stack
    rw [back]
    exact kept
  · change m.regs.sp - 1 = _
    rw [pushed.pointer, List.length_cons, sub_ofNat_succ]

theorem pull {byte : UInt8} (pushed : start.Pushed (byte :: stack) m) :
    (Micro.pull.exec m).1 = byte ∧ start.Pushed stack (Micro.pull.exec m).2 := by
  obtain ⟨top, below⟩ := pushed.holds
  have readable : (m.mem.byte? (Micro.stackAddress (m.regs.sp + 1))).isSome = true := by
    rw [top]
    rfl
  obtain ⟨stored, written⟩ := Memory.written_of_readable readable
  have declared := (pushed.ram (m.regs.sp + 1)).2
  have silent : (Micro.pull.exec m).2 = m.mapRegs ({ · with sp := m.regs.sp + 1 }) :=
    noteRead_of_readable (m := m.mapRegs ({ · with sp := m.regs.sp + 1 })) declared written
      .readUndefined .readUninitialized
  refine ⟨?_, ?_⟩
  · rw [Micro.exec_pull]
    exact Option.some.inj (stored.symm.trans top)
  · rw [silent]
    refine ⟨pushed.ram, below, ?_, pushed.same.setPointer _⟩
    change m.regs.sp + 1 = _
    rw [pushed.pointer, List.length_cons, sub_ofNat_succ]
    exact UInt8.sub_add_cancel _ 1

theorem own (pushed : start.Pushed stack m) (own : start.StackIsOwn) : m.StackIsOwn := by
  refine ⟨pushed.ram, ?_⟩
  intro pointer kind other
  unfold Memory.hook?
  rw [pushed.same.hooks]
  exact own.unhooked pointer kind other

/-- An operation that stays within the page does on the machine what it does on the list. -/
theorem perform (pushed : start.Pushed stack m) {operation : StackOperation} {depth : Nat}
    (within : operation.depth? stack.length = some depth) :
    ∃ left, left.length = depth ∧
      operation.onList? stack = some ((operation.perform.exec m).1, left) ∧
      start.Pushed left (operation.perform.exec m).2 := by
  cases operation with
  | push byte =>
    obtain ⟨room, same⟩ := Option.ite_none_right_eq_some.mp within
    cases same
    exact ⟨byte :: stack, rfl, rfl, pushed.push room byte⟩
  | pushWord word =>
    obtain ⟨room, same⟩ := Option.ite_none_right_eq_some.mp within
    cases same
    have pushes : (StackOperation.pushWord word).perform.exec m =
        (.done, ((Micro.push (lowByte word)).exec ((Micro.push (highByte word)).exec m).2).2) := by
      simp only [StackOperation.perform, Micro.pushWord, Micro.exec_bind, Micro.pure_eq_done,
        Micro.exec_done]
    have high := pushed.push (by omega) (highByte word)
    have low := high.push (by rw [List.length_cons]; omega) (lowByte word)
    rw [pushes]
    exact ⟨lowByte word :: highByte word :: stack, rfl, rfl, low⟩
  | pull =>
    obtain ⟨enough, same⟩ := Option.ite_none_right_eq_some.mp within
    cases same
    obtain ⟨byte, rest, rfl⟩ := List.exists_cons_of_length_pos enough
    obtain ⟨answer, left⟩ := pushed.pull
    refine ⟨rest, rfl, ?_, left⟩
    change some (StackReply.byte byte, rest) = some (.byte (Micro.pull.exec m).1, rest)
    rw [answer]
  | pullWord =>
    obtain ⟨enough, same⟩ := Option.ite_none_right_eq_some.mp within
    cases same
    obtain ⟨low, above, rfl⟩ := List.exists_cons_of_length_pos (Nat.zero_lt_of_lt enough)
    obtain ⟨high, rest, rfl⟩ := List.exists_cons_of_length_pos (Nat.lt_of_succ_lt_succ enough)
    obtain ⟨lower, between⟩ := pushed.pull
    obtain ⟨upper, left⟩ := between.pull
    have pulls : StackOperation.pullWord.perform.exec m =
        (.word (wordOf (Micro.pull.exec m).1 (Micro.pull.exec (Micro.pull.exec m).2).1),
          (Micro.pull.exec (Micro.pull.exec m).2).2) := by
      simp only [StackOperation.perform, Micro.pullWord, Micro.exec_bind, Micro.pure_eq_done,
        Micro.exec_done]
    rw [pulls, lower, upper]
    exact ⟨rest, rfl, rfl, left⟩

theorem performAll (pushed : start.Pushed stack m) {operations : List StackOperation} {depth : Nat}
    (within : StackOperation.depthAll? operations stack.length = some depth) :
    ∃ left, left.length = depth ∧
      StackOperation.onListAll? operations stack =
        some (((StackOperation.performAll operations).exec m).1, left) ∧
      start.Pushed left ((StackOperation.performAll operations).exec m).2 := by
  induction operations generalizing stack m with
  | nil =>
    cases within
    exact ⟨stack, rfl, rfl, pushed⟩
  | cons operation rest inductionHypothesis =>
    obtain ⟨here, first, later⟩ := Option.bind_eq_some_iff.mp within
    obtain ⟨between, rfl, replied, kept⟩ := pushed.perform first
    obtain ⟨left, length, replies, final⟩ := inductionHypothesis kept later
    rw [StackOperation.exec_performAll_cons]
    refine ⟨left, length, ?_, final⟩
    simp only [StackOperation.onListAll?, replied, replies, Option.bind_eq_bind, Option.bind_some,
      Option.pure_def]

end Pushed

end Machine

/-- The micro-operations that read and write nothing but cells of page one. -/
def MicroOp.OnStack : MicroOp → Prop
  | .fetch _ => False
  | .load addr | .store addr _ => ∃ pointer, Micro.stackAddress pointer = addr
  | _ => True

namespace Micro

/-- Without hooks in page one, a program that keeps to it comes to no hook. -/
theorem passes_of_onStack (host : Host σ) {mem : Memory}
    (unhooked : ∀ pointer kind, kind ≠ .exec → mem.hook? kind (stackAddress pointer) = none)
    {program : Micro α} (onStack : program.Uses MicroOp.OnStack) (w : World σ) :
    mem.Passes (program.accesses host w) := by
  induction program generalizing w with
  | done result =>
    rw [accesses_done]
    exact fun _ made => absurd made List.not_mem_nil
  | step op next inductionHypothesis =>
    obtain ⟨here, later⟩ := onStack
    rw [accesses_step, Memory.passes_append]
    refine ⟨?_, inductionHypothesis _ (later _) _⟩
    intro access made
    cases op with
    | fetch addr => exact here.elim
    | load addr | store addr value =>
      obtain ⟨pointer, rfl⟩ := here
      obtain rfl := List.mem_singleton.mp made
      exact unhooked pointer _ AccessKind.noConfusion
    | _ => exact absurd made List.not_mem_nil

theorem onStack_push (value : UInt8) : (push value).Uses MicroOp.OnStack := by
  simp [push, MicroOp.OnStack]

theorem onStack_pull : pull.Uses MicroOp.OnStack := by
  simp [pull, MicroOp.OnStack]

end Micro

namespace StackOperation

theorem common_performAll (operations : List StackOperation) :
    (performAll operations).Uses MicroOp.Common := by
  induction operations with
  | nil => exact Micro.uses_done []
  | cons operation rest inductionHypothesis =>
    have common : operation.perform.Uses MicroOp.Common := by
      cases operation <;>
        simp [perform, Micro.pullWord, Micro.common_push, Micro.common_pushWord, Micro.common_pull]
    simp [performAll, common, inductionHypothesis]

theorem onStack_performAll (operations : List StackOperation) :
    (performAll operations).Uses MicroOp.OnStack := by
  induction operations with
  | nil => exact Micro.uses_done []
  | cons operation rest inductionHypothesis =>
    have onStack : operation.perform.Uses MicroOp.OnStack := by
      cases operation <;>
        simp [perform, Micro.pushWord, Micro.pullWord, Micro.onStack_push, Micro.onStack_pull]
    simp [performAll, onStack, inductionHypothesis]

/-- Where page one is without hooks, operations of the stack act on the bare machine. -/
theorem performAll_bare (host : Host σ) (operations : List StackOperation) {w : World σ}
    (own : w.machine.StackIsOwn) :
    ((performAll operations).run host w).1 = ((performAll operations).exec w.machine).1 ∧
      ((performAll operations).run host w).2.machine = ((performAll operations).exec w.machine).2 := by
  apply Micro.unassisted_of_common host (common_performAll operations)
  exact Micro.passes_of_onStack host own.unhooked (onStack_performAll operations) w

end StackOperation

namespace World

def performStack (host : Host σ) (operations : List StackOperation) (w : World σ) :
    List StackReply × World σ :=
  (StackOperation.performAll operations).run host w

/-- As long as the depth stays within the page, the stack answers like a list, and the stack pointer is below its first
value by the depth. Nothing else is different but the content of page one, so no fault is reported. Whatever was done
before, a word that is pushed can be pulled again. -/
theorem stack_is_lifo (host : Host σ) {w : World σ} (own : w.machine.StackIsOwn)
    {operations : List StackOperation} {depth : Nat}
    (within : StackOperation.depthAll? operations 0 = some depth) :
    ∃ stack, stack.length = depth ∧
      StackOperation.onListAll? operations [] = some ((w.performStack host operations).1, stack) ∧
      (w.performStack host operations).2.machine.regs.sp = w.machine.regs.sp - UInt8.ofNat depth ∧
      w.machine.SameOffStack (w.performStack host operations).2.machine ∧
      ∀ word, depth + 2 ≤ 256 →
        ((w.performStack host operations).2.performStack host [.pushWord word, .pullWord]).1 =
          [.done, .word word] := by
  obtain ⟨replies, machine⟩ := StackOperation.performAll_bare host operations own
  obtain ⟨stack, rfl, onList, pushed⟩ := (Machine.Pushed.refl own.ram).performAll within
  rw [← replies] at onList
  rw [← machine] at pushed
  refine ⟨stack, rfl, onList, pushed.pointer, pushed.same, ?_⟩
  intro word room
  have again : StackOperation.depthAll? [.pushWord word, .pullWord] stack.length = some stack.length := by
    simp [StackOperation.depthAll?, StackOperation.depth?, room]
  obtain ⟨left, -, answered, -⟩ := pushed.performAll again
  have bare := (StackOperation.performAll_bare host [.pushWord word, .pullWord] (pushed.own own)).1
  have listed : StackOperation.onListAll? [.pushWord word, .pullWord] stack =
      some ([.done, .word (wordOf (lowByte word) (highByte word))], stack) := rfl
  rw [listed, wordOf_bytes] at answered
  obtain ⟨again, -⟩ := Prod.mk.inj (Option.some.inj answered)
  exact bare.trans again.symm

/-- Nobody has written to page one, and the stack pointer is near its lower end. -/
def lowStack : World Unit where
  machine := {
    mem := { cells := (List.replicate 0x200 ⟨0x55, { uninitialized := true }⟩).toArray }
    regs := { sp := 1 } }
  host := ()

theorem lowStack_stackIsOwn : lowStack.machine.StackIsOwn := by
  constructor
  · apply Machine.stackIsRam_of_cells
    · simp only [Memory.size, lowStack, List.size_toArray, List.length_replicate]
      decide
    · intro cell member
      rw [List.eq_of_mem_replicate (Array.mem_toList_iff.mpr member)]
      exact ⟨rfl, rfl⟩
  · intro pointer kind _
    exact Memory.hook?_of_hooks_eq_nil rfl kind _

theorem lowStack_wraps :
    lowStack.machine.StackIsOwn ∧
      StackOperation.depthAll? [.push 0x11, .pushWord 0x2233, .pull] 0 = some 2 ∧
      (lowStack.performStack CommandLine.hooklessHost [.push 0x11, .pushWord 0x2233, .pull]).1 =
        [.done, .done, .byte 0x33] ∧
      (lowStack.performStack CommandLine.hooklessHost
        [.push 0x11, .pushWord 0x2233, .pull]).2.machine.regs.sp = 0xFF := by
  have within : StackOperation.depthAll? [.push 0x11, .pushWord 0x2233, .pull] 0 = some 2 := rfl
  obtain ⟨stack, -, onList, pointer, -⟩ :=
    stack_is_lifo CommandLine.hooklessHost lowStack_stackIsOwn within
  have listed : StackOperation.onListAll? [.push 0x11, .pushWord 0x2233, .pull] [] =
      some ([.done, .done, .byte 0x33], [0x22, 0x11]) := rfl
  have around : lowStack.machine.regs.sp - UInt8.ofNat 2 = 0xFF := rfl
  rw [listed] at onList
  rw [around] at pointer
  obtain ⟨replies, -⟩ := Prod.mk.inj (Option.some.inj onList)
  exact ⟨lowStack_stackIsOwn, within, replies.symm, pointer⟩

end World

end Mos6502
