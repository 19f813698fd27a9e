import Mos6502.Registers
import Mos6502.Fault
import Mos6502.Profile.Basic

/-!
Microcode: the work of an instruction as a finite program of micro-operations, each of which asks the
machine for one thing and goes on with the answer. What a micro-operation does to a machine is defined
elsewhere; a law of single micro-operations carries over to all microcode by one induction.
-/

namespace Mos6502

/-- What an instruction tells the profile about itself. -/
inductive Observation where
  | indexCross
  | branchCross
  | branch (taken : Bool)
  | overflow (value : Bool)
deriving DecidableEq, Repr

def Sample.observe (sample : Sample) : Observation → Sample
  | .indexCross => { sample with indexCross := true }
  | .branchCross => { sample with branchCross := true }
  | .branch taken => { sample with branch := some taken }
  | .overflow value => { sample with overflow := value }

/-- One interaction of an instruction with the machine. -/
inductive MicroOp where
  /-- Reads a byte of an instruction. -/
  | fetch (addr : UInt16)
  /-- Reads a byte of data. -/
  | load (addr : UInt16)
  /-- Writes a byte of data. -/
  | store (addr : UInt16) (value : UInt8)
  /-- Asks whether a cell was never written and has no read hook. -/
  | isBlank (addr : UInt16)
  | register (register : Register)
  | setRegister (register : Register) (value : UInt8)
  | pc
  | setPc (addr : UInt16)
  /-- Reads a status flag; an unknown one is reported and becomes known. -/
  | flag (flag : Flag)
  | setFlag (flag : Flag) (value : Bool)
  /-- Marks flags as unknown. -/
  | forget (mask : Flags)
  /-- Reads the stored status, known or not. -/
  | status
  /-- Loads the status from a byte. -/
  | setStatus (value : UInt8)
  /-- Asks for the address of the instruction at work. -/
  | here
  /-- Records a fault at the address of the instruction at work. -/
  | raise (kind : FaultKind)
  | charge (cycles : Nat)
  | observe (observation : Observation)
deriving DecidableEq, Repr

def MicroOp.Answer : MicroOp → Type
  | .fetch _ | .load _ | .register _ => UInt8
  | .isBlank _ | .flag _ => Bool
  | .pc | .here => UInt16
  | .status => Flags
  | .store _ _ | .setRegister _ _ | .setPc _ | .setFlag _ _ | .forget _ | .setStatus _ | .raise _
  | .charge _ | .observe _ => Unit

/-- A program of micro-operations with a result. -/
inductive Micro (α : Type) where
  | done (result : α)
  | step (op : MicroOp) (next : op.Answer → Micro α)

namespace Micro

variable {α β : Type}

/-- Runs one program and then another that depends on its result. -/
def bind : Micro α → (α → Micro β) → Micro β
  | done result, next => next result
  | step op rest, next => step op fun answer => (rest answer).bind next

instance : Monad Micro where
  pure := done
  bind := bind

@[simp]
theorem pure_eq_done (result : α) : (pure result : Micro α) = done result := rfl

@[simp]
theorem bind_done (result : α) (next : α → Micro β) : (done result >>= next) = next result := rfl

@[simp]
theorem bind_step (op : MicroOp) (rest : op.Answer → Micro α) (next : α → Micro β) :
    (step op rest >>= next) = step op fun answer => rest answer >>= next := rfl

theorem bind_assoc {γ : Type} (program : Micro α) (first : α → Micro β) (second : β → Micro γ) :
    (program >>= first) >>= second = program >>= fun result => first result >>= second := by
  induction program with
  | done result => rfl
  | step op rest ih => simp only [bind_step, ih]

def fetch (addr : UInt16) : Micro UInt8 := step (.fetch addr) done

def load (addr : UInt16) : Micro UInt8 := step (.load addr) done

def store (addr : UInt16) (value : UInt8) : Micro Unit := step (.store addr value) done

def isBlank (addr : UInt16) : Micro Bool := step (.isBlank addr) done

def register (register : Register) : Micro UInt8 := step (.register register) done

def setRegister (register : Register) (value : UInt8) : Micro Unit :=
  step (.setRegister register value) done

def pc : Micro UInt16 := step .pc done

def setPc (addr : UInt16) : Micro Unit := step (.setPc addr) done

def flag (flag : Flag) : Micro Bool := step (.flag flag) done

def setFlag (flag : Flag) (value : Bool) : Micro Unit := step (.setFlag flag value) done

def forget (mask : Flags) : Micro Unit := step (.forget mask) done

def status : Micro Flags := step .status done

def setStatus (value : UInt8) : Micro Unit := step (.setStatus value) done

def here : Micro UInt16 := step .here done

def raise (kind : FaultKind) : Micro Unit := step (.raise kind) done

def charge (cycles : Nat) : Micro Unit := step (.charge cycles) done

def observe (observation : Observation) : Micro Unit := step (.observe observation) done

end Micro

end Mos6502
