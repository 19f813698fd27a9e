import Mos6502.Instruction.Table
import Mos6502.Memory.Basic
import Mos6502.Label.Table
import Mos6502.Registers
import Mos6502.Text.Blank
import Mos6502.Word

/-!
Listings: the instruction at an address as memory shows it without being touched, its assembly text, and
the line of an execution trace. Bytes that were never written are unreadable and print as question marks.
-/

namespace Mos6502

/-- The instruction at an address. -/
structure ListingEntry where
  addr : UInt16
  /-- The opcode byte, if it is readable. -/
  opcode : Option UInt8
  instruction : Instruction
  /-- The operand bytes, low byte first. -/
  operands : List (Option UInt8)
  label : Option String
  /-- The address that the operand refers to, as far as the bytes tell. -/
  target : Option UInt16
  /-- A label at or shortly below the target, with the distance. -/
  targetLabel : Option (String × Nat)
deriving DecidableEq, Repr

/-- The value of operand bytes, if all are readable. -/
def operandValue? : List (Option UInt8) → Option UInt16
  | [] => some 0
  | [some low] => some (wordOf low 0)
  | [some low, some high] => some (wordOf low high)
  | _ => none

/-- The address that an instruction of a mode at `addr` refers to with operand value `value`. -/
def staticTarget (mode : AddressingMode) (addr value : UInt16) : Option UInt16 :=
  match mode with
  | .implied | .accumulator | .immediate => none
  | .relative => some (branchTarget (addr + UInt16.ofNat mode.length) (lowByte value))
  | _ => some value

/-- Describes the instruction at an address. -/
def inspect (mem : Memory) (labels : Labels) (addr : UInt16) : ListingEntry :=
  let opcode := mem.byte? addr
  let instruction := match opcode with
    | some byte => Instruction.decode byte
    | none => Instruction.undocumented
  let operands := (List.range (instruction.length - 1)).map fun i =>
    mem.byte? (addr + UInt16.ofNat (i + 1))
  let target := (operandValue? operands).bind (staticTarget instruction.mode addr)
  { addr, opcode, instruction, operands
    label := labels.find? addr
    target
    targetLabel := target.bind labels.nearest? }

/-- Describes `count` instructions one after the other from an address on. -/
def disassemble (mem : Memory) (labels : Labels) : UInt16 → Nat → List ListingEntry
  | _, 0 => []
  | addr, count + 1 =>
    let entry := inspect mem labels addr
    entry :: disassemble mem labels (addr + UInt16.ofNat entry.instruction.length) count

namespace ListingEntry

/-- A byte in hexadecimal, question marks if it is unreadable. -/
def byteText : Option UInt8 → String
  | some byte => Text.hex 2 byte.toNat
  | none => "??"

/-- The bytes of the instruction. -/
def bytesText (entry : ListingEntry) : String :=
  " ".intercalate ((entry.opcode :: entry.operands).map byteText)

/-- The target as a label if there is one, else in `digits` hexadecimal digits. -/
def targetText (entry : ListingEntry) (digits : Nat) : String :=
  match entry.targetLabel with
  | some (name, 0) => name
  | some (name, distance) => name ++ "+" ++ Text.decimal distance
  | none =>
    match entry.target with
    | some target => "$" ++ Text.hex digits target.toNat
    | none => "$" ++ String.ofList (List.replicate digits '?')

/-- The operand in assembly notation; `none` for instructions without one. -/
def operandText (entry : ListingEntry) : Option String :=
  match entry.instruction.mode with
  | .implied => none
  | .accumulator => some "A"
  | .immediate =>
    match operandValue? entry.operands with
    | some value => some ("#$" ++ Text.hex 2 value.toNat)
    | none => some "#$??"
  | .zeroPage => some (entry.targetText 2)
  | .zeroPageX => some (entry.targetText 2 ++ ",X")
  | .zeroPageY => some (entry.targetText 2 ++ ",Y")
  | .absolute | .relative => some (entry.targetText 4)
  | .absoluteX => some (entry.targetText 4 ++ ",X")
  | .absoluteY => some (entry.targetText 4 ++ ",Y")
  | .indirect => some ("(" ++ entry.targetText 4 ++ ")")
  | .indexedIndirect => some ("(" ++ entry.targetText 2 ++ ",X)")
  | .indirectIndexed => some ("(" ++ entry.targetText 2 ++ "),Y")

/-- The instruction in assembly notation. -/
def text (entry : ListingEntry) : String :=
  match entry.opcode with
  | none => "???"
  | some _ =>
    match entry.operandText with
    | none => entry.instruction.mnemonic.name
    | some operand => entry.instruction.mnemonic.name ++ " " ++ operand

/-- The line of a listing: address, bytes, label, text. -/
def line (entry : ListingEntry) : String :=
  Text.hex 4 entry.addr.toNat ++ ": " ++ Text.padRight 8 entry.bytesText ++ " "
    ++ Text.padRight 10 (entry.label.getD "") ++ " " ++ entry.text

end ListingEntry

/-- The line of a trace: cycles, registers, and the instruction about to run. -/
def traceLine (mem : Memory) (labels : Labels) (regs : Registers) (cycles : UInt64) (pc : UInt16) :
    String :=
  let entry := inspect mem labels pc
  Text.padLeft 10 (Text.decimal cycles.toNat)
    ++ " A=" ++ Text.hex 2 regs.a.toNat ++ " X=" ++ Text.hex 2 regs.x.toNat
    ++ " Y=" ++ Text.hex 2 regs.y.toNat ++ " P=" ++ Text.hex 2 regs.status.toByte.toNat
    ++ " S=" ++ Text.hex 2 regs.sp.toNat ++ " PC=" ++ Text.hex 4 pc.toNat
    ++ ": " ++ Text.padRight 8 entry.bytesText ++ " " ++ entry.text

end Mos6502
