/-!
The status byte as eight named flags. A set of flags is used both for the values of the flags and for
the marking of those whose value is unknown.
-/

namespace Mos6502

/-- The flags of the status byte, from bit 0 to bit 7. -/
inductive Flag where
  | carry
  | zero
  | interruptDisable
  | decimal
  | brk
  | unused
  | overflow
  | negative
deriving DecidableEq, Repr

/-- A truth value for each flag. -/
structure Flags where
  carry : Bool := false
  zero : Bool := false
  interruptDisable : Bool := false
  decimal : Bool := false
  brk : Bool := false
  unused : Bool := false
  overflow : Bool := false
  negative : Bool := false
deriving DecidableEq, Repr

namespace Flags

/-- The value of one flag. -/
def get (flags : Flags) : Flag → Bool
  | .carry => flags.carry
  | .zero => flags.zero
  | .interruptDisable => flags.interruptDisable
  | .decimal => flags.decimal
  | .brk => flags.brk
  | .unused => flags.unused
  | .overflow => flags.overflow
  | .negative => flags.negative

/-- Replaces the value of one flag. -/
def set (flags : Flags) (flag : Flag) (value : Bool) : Flags :=
  match flag with
  | .carry => { flags with carry := value }
  | .zero => { flags with zero := value }
  | .interruptDisable => { flags with interruptDisable := value }
  | .decimal => { flags with decimal := value }
  | .brk => { flags with brk := value }
  | .unused => { flags with unused := value }
  | .overflow => { flags with overflow := value }
  | .negative => { flags with negative := value }

/-- Combines two sets of flags flag by flag. -/
def combine (f : Bool → Bool → Bool) (left right : Flags) : Flags :=
  { carry := f left.carry right.carry
    zero := f left.zero right.zero
    interruptDisable := f left.interruptDisable right.interruptDisable
    decimal := f left.decimal right.decimal
    brk := f left.brk right.brk
    unused := f left.unused right.unused
    overflow := f left.overflow right.overflow
    negative := f left.negative right.negative }

def union (left right : Flags) : Flags :=
  combine (· || ·) left right

/-- The flags set on the left and not on the right. -/
def without (left right : Flags) : Flags :=
  combine (fun l r => l && !r) left right

/-- Whether some flag is set on both sides. -/
def meets (left right : Flags) : Bool :=
  combine (· && ·) left right != {}

/-- The flags of a status byte, bit 0 being the carry. -/
def ofByte (byte : UInt8) : Flags :=
  { carry := byte.toNat.testBit 0
    zero := byte.toNat.testBit 1
    interruptDisable := byte.toNat.testBit 2
    decimal := byte.toNat.testBit 3
    brk := byte.toNat.testBit 4
    unused := byte.toNat.testBit 5
    overflow := byte.toNat.testBit 6
    negative := byte.toNat.testBit 7 }

/-- The status byte with these flags. -/
def toByte (flags : Flags) : UInt8 :=
  UInt8.ofNat
    (flags.carry.toNat + 2 * flags.zero.toNat + 4 * flags.interruptDisable.toNat
      + 8 * flags.decimal.toNat + 16 * flags.brk.toNat + 32 * flags.unused.toNat
      + 64 * flags.overflow.toNat + 128 * flags.negative.toNat)

/-- The bits that read as set in every status byte that the processor stores. -/
def alwaysSet : Flags :=
  { brk := true, unused := true }

/-- The flags that nothing has established when a machine starts. -/
def arithmetic : Flags :=
  { carry := true, zero := true, decimal := true, overflow := true, negative := true }

@[simp]
theorem get_set_self (flags : Flags) (flag : Flag) (value : Bool) :
    (flags.set flag value).get flag = value := by
  cases flag <;> rfl

theorem get_set_of_ne (flags : Flags) {flag other : Flag} (value : Bool) (different : other ≠ flag) :
    (flags.set flag value).get other = flags.get other := by
  cases flag <;> cases other <;> simp_all [set, get]

@[simp]
theorem ofByte_toByte (flags : Flags) : ofByte flags.toByte = flags := by
  obtain ⟨c, z, i, d, b, u, v, n⟩ := flags
  cases c <;> cases z <;> cases i <;> cases d <;> cases b <;> cases u <;> cases v <;> cases n <;> rfl

end Flags

end Mos6502
