import Mos6502.Instruction.Table

/-!
Facts about the instruction table. Decoding is look-up in the list of documented opcodes, so a property of
decoded instructions has to be checked only for the entries of that list and for the one description of
everything outside it.
-/

namespace Mos6502.Instruction

theorem length_cases (instruction : Instruction) :
    instruction.length = 1 ∨ instruction.length = 2 ∨ instruction.length = 3 := by
  unfold length
  cases instruction.mode <;> simp [AddressingMode.length]

theorem decode_eq_lookup (opcode : UInt8) :
    decode opcode = (documented.lookup opcode).getD undocumented := by
  have inside : opcode.toNat < 256 := opcode.toNat_lt
  simp [decode, table, Array.getD_eq_getD_getElem?, List.getElem?_range inside]

theorem decode_cases (opcode : UInt8) :
    (opcode, decode opcode) ∈ documented ∨ decode opcode = undocumented := by
  rw [decode_eq_lookup]
  cases found : documented.lookup opcode with
  | none => exact .inr rfl
  | some instruction =>
    obtain ⟨before, after, split, -⟩ := List.lookup_eq_some_iff.mp found
    refine .inl ?_
    rw [split]
    exact List.mem_append_right _ List.mem_cons_self

/-- What holds of all entries and of the description of the other encodings holds of every decoded
instruction. -/
theorem decode_induction {P : Instruction → Prop} (entries : ∀ entry ∈ documented, P entry.2)
    (others : P undocumented) (opcode : UInt8) : P (decode opcode) := by
  have cases := decode_cases opcode
  generalize decode opcode = instruction at cases ⊢
  rcases cases with listed | rfl
  · exact entries (opcode, instruction) listed
  · exact others

/-- A mnemonic that only one description has tells the description. -/
theorem decode_eq_of_unique {opcode : UInt8} (instruction : Instruction)
    (entries : ∀ entry ∈ documented,
      entry.2.mnemonic = instruction.mnemonic → entry.2 = instruction)
    (others : undocumented.mnemonic = instruction.mnemonic → undocumented = instruction)
    (named : (decode opcode).mnemonic = instruction.mnemonic) : decode opcode = instruction :=
  decode_induction (P := fun decoded => decoded.mnemonic = instruction.mnemonic → decoded = instruction)
    entries others opcode named

theorem decode_eq_undocumented {opcode : UInt8}
    (unnamed : (decode opcode).mnemonic = .undocumented) : decode opcode = undocumented :=
  decode_eq_of_unique undocumented (by decide +kernel) (fun _ => rfl) unnamed

theorem decode_eq_php {opcode : UInt8} (php : (decode opcode).mnemonic = .php) :
    decode opcode = ⟨.php, .implied, 3⟩ :=
  decode_eq_of_unique ⟨.php, .implied, 3⟩ (by decide +kernel) (by decide) php

theorem decode_eq_rts {opcode : UInt8} (rts : (decode opcode).mnemonic = .rts) :
    decode opcode = ⟨.rts, .implied, 6⟩ :=
  decode_eq_of_unique ⟨.rts, .implied, 6⟩ (by decide +kernel) (by decide) rts

theorem decode_eq_jsr {opcode : UInt8} (jsr : (decode opcode).mnemonic = .jsr) :
    decode opcode = ⟨.jsr, .absolute, 6⟩ :=
  decode_eq_of_unique ⟨.jsr, .absolute, 6⟩ (by decide +kernel) (by decide) jsr

theorem mode_of_isBranch {opcode : UInt8} (branches : (decode opcode).mnemonic.isBranch = true) :
    (decode opcode).mode = .relative := by
  have relative : ∀ entry ∈ documented, entry.2.mnemonic.isBranch = true →
      entry.2.mode = .relative := by
    decide +kernel
  exact decode_induction (P := fun instruction =>
    instruction.mnemonic.isBranch = true → instruction.mode = .relative)
    relative (by decide) opcode branches

theorem two_le_cycles_decode (opcode : UInt8) : 2 ≤ (decode opcode).cycles := by
  have costs : ∀ entry ∈ documented, 2 ≤ entry.2.cycles := by
    decide +kernel
  exact decode_induction (P := fun instruction => 2 ≤ instruction.cycles) costs (by decide) opcode

end Mos6502.Instruction
