import Mathlib.Algebra.Group.Nat.Defs
import Mos6502.Text.Blank
import Mos6502.Text.Numeral

/-!
# Words and numerals

A text is read word by word: the blanks around it go, those within it part its words, and digits stand for a number,
whatever case they are written in and however many zeros are in front.
-/

namespace Mos6502.Text

theorem readDigits?_append (radix value : Nat) (first second : List Char) :
    readDigits? radix value (first ++ second) =
      (readDigits? radix value first).bind fun value => readDigits? radix value second := by
  induction first generalizing value with
  | nil => rfl
  | cons c first inductionHypothesis =>
    rw [List.cons_append, readDigits?, readDigits?]
    cases digitValue? c with
    | none => rfl
    | some digit =>
      by_cases small : digit < radix
      · simp only [if_pos small, inductionHypothesis]
      · simp only [if_neg small, Option.bind_none]

/-- Digits of a radix are read as the number that they write, in whichever case they are written. -/
theorem readDigits?_map_toDigits {radix : Nat} (wide : 1 < radix) {write : Char → Char}
    (read : ∀ digit < radix, digitValue? (write digit.digitChar) = some digit) (value : Nat) :
    readDigits? radix 0 ((Nat.toDigits radix value).map write) = some value := by
  induction value using Nat.strongRecOn with
  | ind value inductionHypothesis =>
    have last : value % radix < radix := Nat.mod_lt value (by omega)
    by_cases small : value < radix
    · rw [Nat.toDigits_of_lt_base small]
      simp [readDigits?, read value small, small]
    · have shorter : value / radix < value := Nat.div_lt_self (by omega) wide
      rw [Nat.toDigits_of_base_le wide (Nat.le_of_not_lt small), List.map_append, readDigits?_append,
        inductionHypothesis (value / radix) shorter, Option.bind_some]
      simp [readDigits?, read (value % radix) last, last, Nat.div_add_mod']

theorem readDigits?_toDigits (value : Nat) : readDigits? 10 0 (Nat.toDigits 10 value) = some value := by
  have read : ∀ digit < 10, digitValue? (id (Nat.digitChar digit)) = some digit := by
    decide +kernel
  simpa using readDigits?_map_toDigits (by decide) read value

theorem readDigits?_zeros {radix : Nat} (positive : 0 < radix) (count : Nat) :
    readDigits? radix 0 (List.replicate count '0') = some 0 := by
  induction count with
  | zero => rfl
  | succ count inductionHypothesis =>
    have zero : digitValue? '0' = some 0 := rfl
    simpa [List.replicate_succ, readDigits?, zero, positive] using inductionHypothesis

/-- Only digits are read. -/
theorem exists_digitValue?_of_readDigits? {radix start value : Nat} {text : List Char}
    (read : readDigits? radix start text = some value) {c : Char} (member : c ∈ text) :
    ∃ digit < radix, digitValue? c = some digit := by
  induction text generalizing start with
  | nil => cases member
  | cons first rest inductionHypothesis =>
    unfold readDigits? at read
    split at read
    next digit isDigit =>
      split at read
      next small =>
        rcases List.mem_cons.mp member with rfl | later
        · exact ⟨digit, small, isDigit⟩
        · exact inductionHypothesis read later
      next => cases read
    next => cases read

/-- Hexadecimal text is read as the number that it writes. -/
theorem readDigits?_toList_hex (width value : Nat) :
    readDigits? 16 0 (hex width value).toList = some value := by
  have read : ∀ digit < 16, digitValue? (Nat.digitChar digit).toUpper = some digit := by
    decide +kernel
  rw [hex, String.toList_ofList, readDigits?_append, readDigits?_zeros (by decide), Option.bind_some]
  exact readDigits?_map_toDigits (by decide) read value

theorem length_toList_hex {width value : Nat} (positive : 0 < width) (small : value < 16 ^ width) :
    (hex width value).toList.length = width := by
  have digits := (Nat.length_toDigits_le_iff (by decide : 1 < 16) positive).mpr small
  simp only [hex, String.toList_ofList, List.length_append, List.length_replicate, List.length_map]
  omega

theorem trimStart_cons {c : Char} (printed : isBlank c = false) (text : List Char) :
    trimStart (c :: text) = c :: text := by
  rw [trimStart, List.dropWhile_cons, printed]
  rfl

/-- A piece of text that is not empty and has no blanks in it. -/
structure IsWord (word : List Char) : Prop where
  ne_nil : word ≠ []
  printed : ∀ c ∈ word, isBlank c = false

/-- Nothing but blanks. -/
def IsGap (gap : List Char) : Prop :=
  ∀ c ∈ gap, isBlank c = true

instance (gap : List Char) : Decidable (IsGap gap) :=
  List.decidableBAll (isBlank · = true) gap

instance (word : List Char) : Decidable (IsWord word) :=
  have : Decidable (∀ c ∈ word, isBlank c = false) := List.decidableBAll (isBlank · = false) word
  decidable_of_iff (word ≠ [] ∧ ∀ c ∈ word, isBlank c = false)
    ⟨fun whole => ⟨whole.1, whole.2⟩, fun isWord => ⟨isWord.ne_nil, isWord.printed⟩⟩

theorem IsWord.reverse {word : List Char} (isWord : IsWord word) : IsWord word.reverse where
  ne_nil := mt List.reverse_eq_nil_iff.mp isWord.ne_nil
  printed c member := isWord.printed c (List.mem_reverse.mp member)

theorem IsGap.reverse {gap : List Char} (isGap : IsGap gap) : IsGap gap.reverse :=
  fun c member => isGap c (List.mem_reverse.mp member)

theorem trimStart_gap {gap : List Char} (isGap : IsGap gap) (rest : List Char) :
    trimStart (gap ++ rest) = trimStart rest :=
  List.dropWhile_append_of_pos isGap

theorem trimStart_word {word : List Char} (isWord : IsWord word) (rest : List Char) :
    trimStart (word ++ rest) = word ++ rest := by
  obtain ⟨c, tail, rfl⟩ := List.exists_cons_of_ne_nil isWord.ne_nil
  exact trimStart_cons (isWord.printed c List.mem_cons_self) (tail ++ rest)

/-- Trimming stops at the words on either side. -/
theorem trim_words {lead first middle last trail : List Char} (leads : IsGap lead)
    (isFirst : IsWord first) (isLast : IsWord last) (trails : IsGap trail) :
    trim (lead ++ (first ++ (middle ++ (last ++ trail)))) = first ++ (middle ++ last) := by
  have backwards : (first ++ (middle ++ (last ++ trail))).reverse =
      trail.reverse ++ (last.reverse ++ (first ++ middle).reverse) := by
    simp
  unfold trim
  rw [trimStart_gap leads, trimStart_word isFirst, backwards, trimStart_gap trails.reverse,
    trimStart_word isLast.reverse]
  simp

theorem fieldsFrom_append {word : List Char} (printed : ∀ c ∈ word, isBlank c = false)
    (piece rest : List Char) :
    fieldsFrom piece (word ++ rest) = fieldsFrom (word.reverse ++ piece) rest := by
  induction word generalizing piece with
  | nil => rfl
  | cons c word inductionHypothesis =>
    obtain ⟨here, later⟩ := List.forall_mem_cons.mp printed
    rw [List.cons_append, fieldsFrom, here, List.reverse_cons, List.append_assoc]
    exact inductionHypothesis later (c :: piece)

theorem fieldsFrom_gap {gap : List Char} (isGap : IsGap gap) (rest : List Char) :
    fieldsFrom [] (gap ++ rest) = fieldsFrom [] rest := by
  induction gap with
  | nil => rfl
  | cons c gap inductionHypothesis =>
    obtain ⟨here, later⟩ := List.forall_mem_cons.mp isGap
    rw [List.cons_append, fieldsFrom, here]
    exact inductionHypothesis later

theorem fields_word {word : List Char} (isWord : IsWord word) : fields word = [word] := by
  have collected := fieldsFrom_append isWord.printed [] []
  rw [List.append_nil, List.append_nil] at collected
  have open_piece : word.reverse.isEmpty = false := by
    rw [List.isEmpty_eq_false_iff]
    exact isWord.reverse.ne_nil
  rw [fields, collected, fieldsFrom, open_piece, List.reverse_reverse]
  rfl

/-- A gap ends a word. -/
theorem fields_word_gap {word gap : List Char} (isWord : IsWord word) (isGap : IsGap gap)
    (parts : gap ≠ []) (rest : List Char) :
    fields (word ++ (gap ++ rest)) = word :: fields rest := by
  obtain ⟨c, gap, rfl⟩ := List.exists_cons_of_ne_nil parts
  obtain ⟨here, later⟩ := List.forall_mem_cons.mp isGap
  have open_piece : word.reverse.isEmpty = false := by
    rw [List.isEmpty_eq_false_iff]
    exact isWord.reverse.ne_nil
  rw [fields, fieldsFrom_append isWord.printed, List.append_nil, List.cons_append, fieldsFrom, here,
    open_piece, List.reverse_reverse, fieldsFrom_gap later]
  rfl

theorem isWord_of_mem_fieldsFrom {piece text field : List Char}
    (printed : ∀ c ∈ piece, isBlank c = false) (member : field ∈ fieldsFrom piece text) :
    IsWord field := by
  -- The open piece is free of blanks, and it is closed only where it is not empty.
  have closed (filled : piece.isEmpty = false) : IsWord piece.reverse :=
    IsWord.reverse ⟨List.isEmpty_eq_false_iff.mp filled, printed⟩
  induction text generalizing piece with
  | nil =>
    unfold fieldsFrom at member
    split at member
    next empty => cases member
    next filled =>
      rw [List.mem_singleton.mp member]
      exact closed (eq_false_of_ne_true filled)
  | cons c text inductionHypothesis =>
    have afresh (later : field ∈ fieldsFrom [] text) : IsWord field := by
      apply inductionHypothesis _ later
      · intro filled
        cases filled
      · exact List.forall_mem_nil _
    unfold fieldsFrom at member
    split at member
    next blank =>
      split at member
      next empty => exact afresh member
      next filled =>
        rcases List.mem_cons.mp member with rfl | later
        · exact closed (eq_false_of_ne_true filled)
        · exact afresh later
    next unblank =>
      have printedToo : ∀ d ∈ c :: piece, isBlank d = false :=
        List.forall_mem_cons.mpr ⟨eq_false_of_ne_true unblank, printed⟩
      apply inductionHypothesis printedToo member
      intro filled
      exact IsWord.reverse ⟨List.cons_ne_nil c piece, printedToo⟩

theorem isWord_of_mem_fields {text field : List Char} (member : field ∈ fields text) : IsWord field :=
  isWord_of_mem_fieldsFrom (List.forall_mem_nil _) member

/-- A hexadecimal digit, written in upper or lower case. -/
structure HexDigit where
  value : Fin 16
  upper : Bool
deriving DecidableEq, Repr

namespace HexDigit

def char (digit : HexDigit) : Char :=
  if digit.upper then hexDigit digit.value else (hexDigit digit.value).toLower

theorem digitValue?_char (digit : HexDigit) : digitValue? digit.char = some digit.value.val := by
  obtain ⟨value, upper⟩ := digit
  revert value upper
  decide +kernel

theorem isBlank_char (digit : HexDigit) : isBlank digit.char = false := by
  obtain ⟨value, upper⟩ := digit
  revert value upper
  decide +kernel

end HexDigit

/-- The number that hexadecimal digits stand for, continued from the number of those in front. -/
def hexValueFrom (value : Nat) (digits : List HexDigit) : Nat :=
  digits.foldl (fun value digit => value * 16 + digit.value) value

def hexValue (digits : List HexDigit) : Nat :=
  hexValueFrom 0 digits

theorem readDigits?_hex (value : Nat) (digits : List HexDigit) :
    readDigits? 16 value (digits.map HexDigit.char) = some (hexValueFrom value digits) := by
  induction digits generalizing value with
  | nil => rfl
  | cons digit digits inductionHypothesis =>
    have small : digit.value.val < 16 := digit.value.isLt
    rw [List.map_cons, readDigits?, digit.digitValue?_char]
    dsimp only
    rw [if_pos small]
    exact inductionHypothesis _

/-- A bounded number is read from its digits. -/
theorem readNumeral?_hex {digits : List HexDigit} (some_digit : digits ≠ []) {bound : Nat}
    (small : hexValue digits < bound) :
    readNumeral? 16 bound (digits.map HexDigit.char) = some (hexValue digits) := by
  obtain ⟨digit, digits, rfl⟩ := List.exists_cons_of_ne_nil some_digit
  have unsigned : digit.char ≠ '+' := by
    intro sign
    have value := digit.digitValue?_char
    rw [sign] at value
    cases value
  have read := readDigits?_hex 0 (digit :: digits)
  rw [List.map_cons] at read ⊢
  unfold readNumeral?
  split
  next rest signed => exact absurd (List.cons.inj signed).1 unsigned
  next text plain =>
    have below : decide (hexValueFrom 0 (digit :: digits) < bound) = true := decide_eq_true small
    dsimp only
    rw [read, Option.filter_some, if_pos below]
    rfl

end Mos6502.Text
