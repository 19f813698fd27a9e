import Mathlib.Data.List.Nodup
import Mos6502.Proofs.Inspection
import Mos6502.Proofs.Text

/-!
# What the text of an instruction tells

Without labels, the text of a listed instruction tells its bytes. It begins with the three letters of the mnemonic, and
what follows has an outline that is left when all digits are taken for alike. No two documented opcodes have both
mnemonic and outline in common, and once the opcode is known, the digits are in a known place. They give the value of the
operand or, for a branch, its target, which the displacement is told by because the address of the branch is given.
-/

namespace Mos6502

/-- The character with all hexadecimal digits alike. -/
def Text.outline (c : Char) : Char :=
  if (digitValue? c).any (· < 16) then '0' else c

theorem Text.map_outline_hex {width value : Nat} (positive : 0 < width) (small : value < 16 ^ width) :
    (hex width value).toList.map outline = List.replicate width '0' := by
  have digits : ∀ c ∈ (hex width value).toList, outline c = '0' := by
    intro c member
    obtain ⟨digit, small, isDigit⟩ :=
      exists_digitValue?_of_readDigits? (readDigits?_toList_hex width value) member
    simp [outline, isDigit, small]
  rw [List.eq_replicate_iff, List.length_map, length_toList_hex positive small]
  exact ⟨rfl, List.forall_mem_map.mpr digits⟩

theorem Text.hex_injective (width : Nat) : Function.Injective (hex width) := by
  intro value other same
  have read := readDigits?_toList_hex width value
  rw [same, readDigits?_toList_hex] at read
  exact (Option.some.inj read).symm

/-- How an operand is written around its digits. -/
structure OperandForm where
  before : List Char
  digits : Nat
  after : List Char

namespace AddressingMode

def form? : AddressingMode → Option OperandForm
  | .implied | .accumulator => none
  | .immediate => some ⟨['#', '$'], 2, []⟩
  | .zeroPage => some ⟨['$'], 2, []⟩
  | .zeroPageX => some ⟨['$'], 2, [',', 'X']⟩
  | .zeroPageY => some ⟨['$'], 2, [',', 'Y']⟩
  | .absolute | .relative => some ⟨['$'], 4, []⟩
  | .absoluteX => some ⟨['$'], 4, [',', 'X']⟩
  | .absoluteY => some ⟨['$'], 4, [',', 'Y']⟩
  | .indirect => some ⟨['(', '$'], 4, [')']⟩
  | .indexedIndirect => some ⟨['(', '$'], 2, [',', 'X', ')']⟩
  | .indirectIndexed => some ⟨['(', '$'], 2, [')', ',', 'Y']⟩

/-- What stands behind the mnemonic, given digits in any number. -/
def suffix (mode : AddressingMode) (digits : Nat → List Char) : List Char :=
  match mode.form? with
  | some form => ' ' :: (form.before ++ (digits form.digits ++ form.after))
  | none => if mode = .accumulator then [' ', 'A'] else []

/-- What stands behind the mnemonic, digits left open. -/
def outline (mode : AddressingMode) : List Char :=
  (mode.suffix fun width => List.replicate width '0').map Text.outline

/-- The number that the text gives for the value of the operand: the address that it refers to if there is one. -/
def shownNumber (mode : AddressingMode) (addr value : UInt16) : UInt16 :=
  (staticTarget mode addr value).getD value

theorem shownNumber_lt {mode : AddressingMode} {form : OperandForm} (written : mode.form? = some form)
    (addr : UInt16) {value : UInt16} (fits : value.toNat < 256 ^ (mode.length - 1)) :
    0 < form.digits ∧ (mode.shownNumber addr value).toNat < 16 ^ form.digits := by
  have below := (mode.shownNumber addr value).toNat_lt
  cases mode
  case implied | accumulator => cases written
  case relative | absolute | absoluteX | absoluteY | indirect =>
    -- Four digits are enough for every address.
    cases written
    exact ⟨by decide, below⟩
  all_goals
    cases written
    exact ⟨by decide, fits⟩

theorem shownNumber_injective {mode : AddressingMode} {addr value other : UInt16}
    (fits : value.toNat < 256 ^ (mode.length - 1)) (fitsToo : other.toNat < 256 ^ (mode.length - 1))
    (same : mode.shownNumber addr value = mode.shownNumber addr other) : value = other := by
  cases mode
  case implied | accumulator =>
    apply UInt16.toNat.inj
    simp only [AddressingMode.length] at fits fitsToo
    omega
  case relative =>
    have bytes := branchTarget_injective _ same
    have low := congrArg UInt8.toNat bytes
    simp only [lowByte, UInt8.toNat_ofNat', AddressingMode.length] at low fits fitsToo
    apply UInt16.toNat.inj
    omega
  all_goals exact same

/-- What stands behind the mnemonic tells the digits in it. -/
theorem digits_eq_of_suffix {mode : AddressingMode} {form : OperandForm}
    (written : mode.form? = some form) {digits other : Nat → List Char}
    (same : mode.suffix digits = mode.suffix other) : digits form.digits = other form.digits := by
  simp only [suffix, written] at same
  exact List.append_cancel_right (List.append_cancel_left (List.cons.inj same).2)

theorem map_outline_suffix {mode : AddressingMode} {digits : Nat → List Char}
    (alike : ∀ form, mode.form? = some form →
      (digits form.digits).map Text.outline = List.replicate form.digits '0') :
    (mode.suffix digits).map Text.outline = mode.outline := by
  have zeros (count : Nat) : (List.replicate count '0').map Text.outline = List.replicate count '0' := by
    rw [List.map_replicate]
    rfl
  unfold outline suffix
  cases written : mode.form? with
  | none => rfl
  | some form => simp [alike form written, zeros]

/-- What stands behind the mnemonic if the operand has a value. -/
def valueSuffix (mode : AddressingMode) (addr value : UInt16) : List Char :=
  mode.suffix fun width => (Text.hex width (mode.shownNumber addr value).toNat).toList

theorem length_eq_one_of_form? {mode : AddressingMode} (unwritten : mode.form? = none) :
    mode.length = 1 := by
  cases mode <;> first | rfl | cases unwritten

section

variable {mode : AddressingMode} {addr value other : UInt16}
  (fits : value.toNat < 256 ^ (mode.length - 1))

include fits

theorem map_outline_valueSuffix : (mode.valueSuffix addr value).map Text.outline = mode.outline := by
  apply map_outline_suffix
  intro form written
  obtain ⟨positive, small⟩ := shownNumber_lt written addr fits
  exact Text.map_outline_hex positive small

theorem eq_of_valueSuffix (fitsToo : other.toNat < 256 ^ (mode.length - 1))
    (same : mode.valueSuffix addr value = mode.valueSuffix addr other) : value = other := by
  cases written : mode.form? with
  | none =>
    -- Without an operand there is one value only.
    rw [length_eq_one_of_form? written] at fits fitsToo
    apply UInt16.toNat.inj
    omega
  | some form =>
    have digits := String.toList_inj.mp (digits_eq_of_suffix written same)
    exact shownNumber_injective fits fitsToo (UInt16.toNat.inj (Text.hex_injective form.digits digits))

end

end AddressingMode

/-- The bytes of an operand, the low byte first. -/
def operandBytes (count : Nat) (value : UInt16) : List (Option UInt8) :=
  ([lowByte value, highByte value].take count).map some

section

variable {operands : List (Option UInt8)} {value : UInt16} (known : operandValue? operands = some value)

include known

theorem operands_eq_of_operandValue? : operands = operandBytes operands.length value := by
  unfold operandValue? at known
  split at known <;> cases known
  case h_1 => rfl
  case h_2 low => simp [operandBytes]
  case h_3 low high => simp [operandBytes]

theorem operandValue?_lt : value.toNat < 256 ^ operands.length := by
  unfold operandValue? at known
  split at known <;> cases known
  case h_1 => decide
  case h_2 low => simpa using low.toNat_lt
  case h_3 low high => simpa using (wordOf low high).toNat_lt

end

theorem Mnemonic.length_name (mnemonic : Mnemonic) : mnemonic.name.toList.length = 3 := by
  cases mnemonic <;> rfl

namespace Instruction

/-- The text of an instruction at an address if there are no labels and the operand has a value. -/
def written (instruction : Instruction) (addr value : UInt16) : List Char :=
  instruction.mnemonic.name.toList ++ instruction.mode.valueSuffix addr value

/-- The text of an instruction as far as it does not depend on its operand. -/
def appearance (instruction : Instruction) : String × List Char :=
  (instruction.mnemonic.name, instruction.mode.outline)

/-- No two documented opcodes have the same appearance. -/
theorem eq_of_appearance {entry other : UInt8 × Instruction} (listed : entry ∈ documented)
    (listedToo : other ∈ documented) (same : entry.2.appearance = other.2.appearance) : entry = other := by
  have distinct : (documented.map fun entry => entry.2.appearance).Nodup := by
    decide +kernel
  exact List.inj_on_of_nodup_map distinct listed listedToo same

/-- The text at one address tells opcode and operand. -/
theorem eq_of_written {entry other : UInt8 × Instruction} (listed : entry ∈ documented)
    (listedToo : other ∈ documented) {addr value valueToo : UInt16}
    (fits : value.toNat < 256 ^ (entry.2.mode.length - 1))
    (fitsToo : valueToo.toNat < 256 ^ (other.2.mode.length - 1))
    (same : entry.2.written addr value = other.2.written addr valueToo) :
    entry = other ∧ value = valueToo := by
  obtain ⟨names, suffixes⟩ := List.append_inj same (by simp only [Mnemonic.length_name])
  have outlines := congrArg (List.map Text.outline) suffixes
  rw [AddressingMode.map_outline_valueSuffix fits, AddressingMode.map_outline_valueSuffix fitsToo]
    at outlines
  have entries : entry = other :=
    eq_of_appearance listed listedToo (Prod.ext (String.toList_inj.mp names) outlines)
  subst entries
  exact ⟨rfl, AddressingMode.eq_of_valueSuffix fits fitsToo suffixes⟩

theorem mem_documented {opcode : UInt8} (valid : (decode opcode).isDocumented = true) :
    (opcode, decode opcode) ∈ documented := by
  rcases decode_cases opcode with listed | outside
  · exact listed
  · rw [outside] at valid
    cases valid

end Instruction

namespace ListingEntry

/-- Without a label the text of an entry with a readable operand is made of its mnemonic and its value. -/
theorem toList_text {entry : ListingEntry} {opcode : UInt8} {value : UInt16}
    (readable : entry.opcode = some opcode) (known : operandValue? entry.operands = some value)
    (target : entry.target = staticTarget entry.instruction.mode entry.addr value)
    (unlabelled : entry.targetLabel = none) :
    entry.text.toList = entry.instruction.written entry.addr value := by
  cases mode : entry.instruction.mode <;>
    simp [text, Instruction.written, operandText, targetText, AddressingMode.valueSuffix, AddressingMode.suffix,
      AddressingMode.form?, AddressingMode.shownNumber, staticTarget, readable, known, target, unlabelled, mode]

end ListingEntry

theorem Labels.nearest?_empty (addr : UInt16) : ({} : Labels).nearest? addr = none := by
  simp [nearest?, find?]

/-- The bytes of a documented instruction are readable at an address. -/
structure Legible (mem : Memory) (addr : UInt16) : Prop where
  documented : (inspect mem {} addr).instruction.isDocumented = true
  readable : ∀ other ∈ (inspect mem {} addr).instruction.addresses addr,
    (mem.byte? other).isSome = true

theorem length_operands_inspect (mem : Memory) (labels : Labels) (addr : UInt16) :
    (inspect mem labels addr).operands.length =
      (inspect mem labels addr).instruction.mode.length - 1 := by
  rw [operands_inspect, List.length_map, List.length_range]
  rfl

/-- What is listed of a legible instruction goes by its opcode and the value of its operand. -/
theorem Legible.exists_bytes {mem : Memory} {addr : UInt16} (legible : Legible mem addr) :
    ∃ opcode value,
      (inspect mem {} addr).opcode = some opcode ∧
      (inspect mem {} addr).operands =
        operandBytes ((inspect mem {} addr).instruction.mode.length - 1) value ∧
      (opcode, (inspect mem {} addr).instruction) ∈ Instruction.documented ∧
      value.toNat < 256 ^ ((inspect mem {} addr).instruction.mode.length - 1) ∧
      (inspect mem {} addr).text.toList = (inspect mem {} addr).instruction.written addr value := by
  obtain ⟨decoded, known⟩ := inspect_of_readable legible.readable
  have readable : (inspect mem {} addr).opcode = some (mem.raw addr) :=
    (Memory.written_of_readable (legible.readable addr (Instruction.self_mem_addresses _ addr))).1
  have operands := operands_eq_of_operandValue? known
  have fits := operandValue?_lt known
  rw [length_operands_inspect] at operands fits
  have listed := legible.documented
  rw [← decoded] at listed
  have member := Instruction.mem_documented listed
  rw [decoded] at member
  have target : (inspect mem {} addr).target = staticTarget (inspect mem {} addr).instruction.mode addr
      (mem.operandAt addr (inspect mem {} addr).instruction) := by
    rw [target_inspect, known]
    rfl
  have unlabelled : (inspect mem {} addr).targetLabel = none := by
    rw [targetLabel_inspect]
    cases (inspect mem {} addr).target with
    | none => rfl
    | some target => exact Labels.nearest?_empty target
  exact ⟨mem.raw addr, _, readable, operands, member, fits,
    ListingEntry.toList_text readable known target unlabelled⟩

/-- An entry is made of opcode and operand bytes. -/
theorem inspect_congr {mem other : Memory} {labels : Labels} {addr : UInt16}
    (opcodes : (inspect mem labels addr).opcode = (inspect other labels addr).opcode)
    (operands : (inspect mem labels addr).operands = (inspect other labels addr).operands) :
    inspect mem labels addr = inspect other labels addr := by
  change mem.byte? addr = other.byte? addr at opcodes
  unfold inspect at operands ⊢
  simp only [opcodes] at operands ⊢
  rw [operands]

section

variable {mem other : Memory} {addr : UInt16} (legible : Legible mem addr) (legibleToo : Legible other addr)

include legible legibleToo

/-- The text of a legible instruction without labels tells its bytes, and nothing else. -/
theorem text_eq_iff_same_bytes :
    (inspect mem {} addr).text = (inspect other {} addr).text ↔
      (inspect mem {} addr).opcode = (inspect other {} addr).opcode ∧
        (inspect mem {} addr).operands = (inspect other {} addr).operands := by
  constructor
  · intro same
    obtain ⟨opcode, value, readable, operands, listed, fits, text⟩ := legible.exists_bytes
    obtain ⟨opcodeToo, valueToo, readableToo, operandsToo, listedToo, fitsToo, textToo⟩ :=
      legibleToo.exists_bytes
    rw [same, textToo] at text
    obtain ⟨entries, values⟩ := Instruction.eq_of_written listedToo listed fitsToo fits text
    obtain ⟨opcodes, instructions⟩ := Prod.mk.inj entries
    constructor
    · rw [readable, readableToo, opcodes]
    · rw [operands, operandsToo, instructions, values]
  · rintro ⟨opcodes, operands⟩
    rw [inspect_congr opcodes operands]

end

/-- BNE around the start of memory, in RAM. -/
def branchInRam : Memory :=
  (Memory.new 16 .zero).declareData 0 [0xD0, 0x80]

/-- The same branch, write-protected and at the end of memory. -/
def branchInRom : Memory :=
  (Memory.new 2 .zero).declareRom 0 [0xD0, 0x80]

theorem wrappedBranch_same_bytes :
    Legible branchInRam 0 ∧ Legible branchInRom 0 ∧
      (inspect branchInRam {} 0).text = "BNE $FF82" ∧
      (inspect branchInRam {} 0).text = (inspect branchInRom {} 0).text ∧
      (inspect branchInRam {} 0).opcode = (inspect branchInRom {} 0).opcode ∧
      (inspect branchInRam {} 0).operands = (inspect branchInRom {} 0).operands := by
  have legible {mem : Memory} (listed : (inspect mem {} 0).instruction = ⟨.bne, .relative, 2⟩)
      (readable : (mem.byte? 0).isSome = true ∧ (mem.byte? 1).isSome = true) : Legible mem 0 := by
    have addresses : Instruction.addresses ⟨.bne, .relative, 2⟩ 0 = [0, 1] := rfl
    constructor <;> rw [listed]
    case documented => rfl
    case readable =>
      rw [addresses, List.forall_mem_cons, List.forall_mem_singleton]
      exact readable
  have inRam : Legible branchInRam 0 := legible (by decide +kernel) (by decide +kernel)
  have inRom : Legible branchInRom 0 := legible (by decide +kernel) (by decide +kernel)
  have text : (inspect branchInRam {} 0).text = "BNE $FF82" := by decide +kernel
  have same : (inspect branchInRam {} 0).text = (inspect branchInRom {} 0).text := by decide +kernel
  exact ⟨inRam, inRom, text, same, (text_eq_iff_same_bytes inRam inRom).mp same⟩

end Mos6502
