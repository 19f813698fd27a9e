import Mos6502.Flags
import Mos6502.Text.Numeral
import Mos6502.Alu

/-!
The working registers of the processor together with the marking of status flags whose value was never
established. Writing a flag makes it known; reading it is reported elsewhere.
-/

namespace Mos6502

/-- The 8-bit registers that instructions move data through. -/
inductive Register where
  | a
  | x
  | y
  | sp
deriving DecidableEq, Repr

/-- Program counter, 8-bit registers, status flags, and the flags whose value is unknown. -/
structure Registers where
  pc : UInt16 := 0
  a : UInt8 := 0
  x : UInt8 := 0
  y : UInt8 := 0
  sp : UInt8 := 0xFF
  status : Flags := { unused := true, brk := true, interruptDisable := true }
  unknown : Flags := Flags.arithmetic
deriving DecidableEq, Repr

namespace Registers

/-- The content of an 8-bit register. -/
def get (regs : Registers) : Register → UInt8
  | .a => regs.a
  | .x => regs.x
  | .y => regs.y
  | .sp => regs.sp

/-- Replaces the content of an 8-bit register. -/
def set (regs : Registers) (register : Register) (value : UInt8) : Registers :=
  match register with
  | .a => { regs with a := value }
  | .x => { regs with x := value }
  | .y => { regs with y := value }
  | .sp => { regs with sp := value }

/-- Writes one flag, which makes it known. -/
def setFlag (regs : Registers) (flag : Flag) (value : Bool) : Registers :=
  { regs with status := regs.status.set flag value, unknown := regs.unknown.set flag false }

/-- Writes every flag of `mask`, which makes them known. -/
def assign (regs : Registers) (mask : Flags) (value : Bool) : Registers :=
  { regs with
    status := if value then regs.status.union mask else regs.status.without mask
    unknown := regs.unknown.without mask }

/-- Marks the flags of `mask` as unknown and leaves their stored values alone. -/
def forget (regs : Registers) (mask : Flags) : Registers :=
  { regs with unknown := regs.unknown.union mask }

/-- Loads the whole status byte; every flag becomes known. -/
def setStatus (regs : Registers) (byte : UInt8) : Registers :=
  { regs with status := (Flags.ofByte byte).union Flags.alwaysSet, unknown := {} }

/-- Sets zero and negative after a result. -/
def setZeroNegative (regs : Registers) (result : UInt8) : Registers :=
  (regs.setFlag .zero (result == 0)).setFlag .negative (Alu.isNegative result)

/-- One character per flag, high bit first: its letter, a dot if it is clear, or a question mark if it
is unknown. -/
def flagsText (regs : Registers) : String :=
  String.ofList <|
    [(Flag.negative, 'N'), (.overflow, 'V'), (.unused, '-'), (.brk, 'B'), (.decimal, 'D'),
      (.interruptDisable, 'I'), (.zero, 'Z'), (.carry, 'C')].map fun (flag, letter) =>
        if regs.unknown.get flag then '?' else if regs.status.get flag then letter else '.'

/-- The registers on one line. -/
def text (regs : Registers) : String :=
  "A=" ++ Text.hex 2 regs.a.toNat ++ " X=" ++ Text.hex 2 regs.x.toNat
    ++ " Y=" ++ Text.hex 2 regs.y.toNat ++ " P=" ++ Text.hex 2 regs.status.toByte.toNat
    ++ " S=" ++ Text.hex 2 regs.sp.toNat ++ " PC=" ++ Text.hex 4 regs.pc.toNat

end Registers

/-- Values to be stored into registers, each optional, without any effect on the other registers. -/
structure RegisterPatch where
  pc : Option UInt16 := none
  a : Option UInt8 := none
  x : Option UInt8 := none
  y : Option UInt8 := none
  sp : Option UInt8 := none
  status : Option UInt8 := none
  unknown : Option UInt8 := none
deriving DecidableEq, Repr

/-- Stores the given values. -/
def RegisterPatch.apply (patch : RegisterPatch) (regs : Registers) : Registers :=
  { pc := patch.pc.getD regs.pc
    a := patch.a.getD regs.a
    x := patch.x.getD regs.x
    y := patch.y.getD regs.y
    sp := patch.sp.getD regs.sp
    status := (patch.status.map Flags.ofByte).getD regs.status
    unknown := (patch.unknown.map Flags.ofByte).getD regs.unknown }

end Mos6502
