import Mos6502.Microcode.Instruction
import Mos6502.World.Access

/-!
Interpretation of microcode: what each micro-operation does to the world, and what a program does, one
micro-operation after the other.
-/

namespace Mos6502

variable {σ α β : Type}

namespace World

/-- Reads a status flag. An unknown one is reported at the instruction at work and becomes known; the
answer is the stored value either way. -/
def readFlag (flag : Flag) (w : World σ) : Bool × World σ :=
  let regs := w.machine.regs
  if regs.unknown.get flag then
    let w := w.raise .readUninitialized w.machine.current
    (regs.status.get flag,
      w.mapRegs fun regs => { regs with unknown := regs.unknown.set flag false })
  else (regs.status.get flag, w)

/-- Whether a cell was never written and has no read hook. -/
def isBlank (addr : UInt16) (w : World σ) : Bool :=
  (w.machine.mem.state addr).uninitialized && (w.machine.mem.hook? .read addr).isNone

end World

/-- What a micro-operation answers and does. -/
def MicroOp.perform (host : Host σ) : (op : MicroOp) → World σ → op.Answer × World σ
  | .fetch addr, w => w.fetch host addr
  | .load addr, w => w.read host addr
  | .store addr value, w => ((), w.write host addr value)
  | .isBlank addr, w => (w.isBlank addr, w)
  | .register source, w => (w.machine.regs.get source, w)
  | .setRegister target value, w => ((), w.mapRegs (·.set target value))
  | .pc, w => (w.machine.regs.pc, w)
  | .setPc addr, w => ((), w.mapRegs fun regs => { regs with pc := addr })
  | .flag which, w => w.readFlag which
  | .setFlag which value, w => ((), w.mapRegs (·.setFlag which value))
  | .forget mask, w => ((), w.mapRegs (·.forget mask))
  | .status, w => (w.machine.regs.status, w)
  | .setStatus value, w => ((), w.mapRegs (·.setStatus value))
  | .here, w => (w.machine.current, w)
  | .raise kind, w => ((), w.raise kind w.machine.current)
  | .charge cycles, w => ((), w.charge cycles)
  | .observe observation, w => ((), w.mapSample (·.observe observation))

/-- What a program gives and does. -/
def Micro.run (host : Host σ) : Micro α → World σ → α × World σ
  | .done result, w => (result, w)
  | .step op next, w =>
    match op.perform host w with
    | (answer, w) => (next answer).run host w

namespace Micro

@[simp]
theorem run_done (host : Host σ) (result : α) (w : World σ) :
    (done result).run host w = (result, w) := rfl

@[simp]
theorem run_step (host : Host σ) (op : MicroOp) (next : op.Answer → Micro α) (w : World σ) :
    (step op next).run host w =
      (next (op.perform host w).1).run host (op.perform host w).2 := rfl

@[simp]
theorem run_bind (host : Host σ) (program : Micro α) (next : α → Micro β) (w : World σ) :
    (program >>= next).run host w =
      (next (program.run host w).1).run host (program.run host w).2 := by
  induction program generalizing w with
  | done result => rfl
  | step op rest ih => simp only [bind_step, run_step, ih]

end Micro

end Mos6502
