import Mathlib.Algebra.Group.Nat.Defs
import Mathlib.Data.List.TakeWhile
import Mos6502.Proofs.Text
import Mos6502.Timestamp

/-!
# Reading undoes the writing of points in time

Each field of a written point in time is a number in front of something that is no digit, so that reading takes it
as a whole whatever stands behind it.
-/

namespace Mos6502

namespace Timestamp

def isDigit (c : Char) : Bool :=
  '0' ≤ c && c ≤ '9'

theorem toList_padded (width value : Nat) :
    (padded width value).toList =
      List.replicate (width - (Nat.toDigits 10 value).length) '0' ++ Nat.toDigits 10 value := by
  simp [padded, Text.decimal]

theorem isDigit_of_mem_padded {width value : Nat} {c : Char}
    (member : c ∈ (padded width value).toList) : isDigit c = true := by
  rw [toList_padded] at member
  rcases List.mem_append.mp member with zero | digit
  · rw [List.eq_of_mem_replicate zero]
    rfl
  · have numeral := Nat.isDigit_of_mem_toDigits (by decide) (by decide) digit
    simpa [Char.isDigit, isDigit, Char.le_def] using numeral

theorem readDigits?_padded (width value : Nat) :
    Text.readDigits? 10 0 (padded width value).toList = some value := by
  rw [toList_padded, Text.readDigits?_append, Text.readDigits?_zeros (by decide)]
  exact Text.readDigits?_toDigits value

theorem length_padded_le {width value limit : Nat} (least : width ≤ limit) (positive : 0 < limit)
    (fits : value < 10 ^ limit) : (padded width value).toList.length ≤ limit := by
  have digits := (Nat.length_toDigits_le_iff (by decide : 1 < 10) positive).mpr fits
  rw [toList_padded, List.length_append, List.length_replicate]
  omega

theorem isDigit_head_cons {c : Char} (other : isDigit c = false) (text : List Char) :
    ∀ d ∈ (c :: text).head?, isDigit d = false := by
  intro d head
  rw [← Option.some.inj head]
  exact other

theorem takeWhile_isDigit_take {rest : List Char} (stops : ∀ c ∈ rest.head?, isDigit c = false)
    (count : Nat) : (rest.take count).takeWhile isDigit = [] := by
  cases rest with
  | nil => simp
  | cons c rest =>
    cases count with
    | zero => rfl
    | succ count => simp [stops c rfl]

/-- Digits in front of something else are taken as a whole. -/
theorem takeDigits?_padded {limit width value : Nat} {rest : List Char}
    (short : (padded width value).toList.length ≤ limit)
    (stops : ∀ c ∈ rest.head?, isDigit c = false) :
    takeDigits? limit ((padded width value).toList ++ rest) = some (value, rest) := by
  have digits : ∀ c ∈ (padded width value).toList, isDigit c = true :=
    fun c member => isDigit_of_mem_padded member
  have read := readDigits?_padded width value
  have filled : (padded width value).toList.isEmpty = false := by
    rw [toList_padded]
    simp
  generalize (padded width value).toList = text at short digits read filled
  have taken : ((text ++ rest).take limit).takeWhile isDigit = text := by
    rw [List.take_append, List.take_of_length_le short, List.takeWhile_append_of_pos digits,
      takeWhile_isDigit_take stops, List.append_nil]
  change (if (((text ++ rest).take limit).takeWhile isDigit).isEmpty = true then none
    else (Text.readDigits? 10 0 (((text ++ rest).take limit).takeWhile isDigit)).bind fun value =>
      some (value, (text ++ rest).drop (((text ++ rest).take limit).takeWhile isDigit).length)) = _
  rw [taken, filled, read]
  simp

theorem isBlank_of_isDigit {c : Char} (digit : isDigit c = true) : Text.isBlank c = false := by
  have range : 48 ≤ c.toNat ∧ c.toNat ≤ 57 := by
    simpa [isDigit, Char.le_def, UInt32.le_iff_toNat_le] using digit
  simp [Text.isBlank, Text.blankCodes]
  omega

theorem exists_padded_eq_cons (width value : Nat) (rest : List Char) :
    ∃ c text, (padded width value).toList ++ rest = c :: text ∧ isDigit c = true := by
  cases written : (padded width value).toList with
  | nil =>
    rw [toList_padded] at written
    simp at written
  | cons c text =>
    have first : c ∈ (padded width value).toList := by
      rw [written]
      exact List.mem_cons_self
    exact ⟨c, text ++ rest, rfl, isDigit_of_mem_padded first⟩

theorem trimStart_padded (width value : Nat) (rest : List Char) :
    Text.trimStart ((padded width value).toList ++ rest) = (padded width value).toList ++ rest := by
  obtain ⟨c, text, starts, digit⟩ := exists_padded_eq_cons width value rest
  rw [starts, Text.trimStart_cons (isBlank_of_isDigit digit)]

theorem takeField?_padded (value : Nat) (fits : value < 100) {rest : List Char}
    (stops : ∀ c ∈ rest.head?, isDigit c = false) :
    takeField? ((padded 2 value).toList ++ rest) = some (value, rest) := by
  rw [takeField?, trimStart_padded]
  exact takeDigits?_padded (length_padded_le (Nat.le_refl 2) (by decide) fits) stops

theorem takeSeparator?_padded (separator : Char) (printed : Text.isBlank separator = false)
    (width value : Nat) (rest : List Char) :
    takeSeparator? separator (separator :: ((padded width value).toList ++ rest)) =
      some ((padded width value).toList ++ rest) := by
  rw [takeSeparator?, Text.trimStart_cons printed]
  simp [trimStart_padded]

theorem takeYear?_yearText (year : Int) {rest : List Char}
    (stops : ∀ c ∈ rest.head?, isDigit c = false) :
    takeYear? ((yearText year).toList ++ rest) = some (year, rest) := by
  -- Behind a sign as many digits are taken as there are.
  have signed (value : Nat) :
      takeDigits? ((padded 4 value).toList.length + rest.length) ((padded 4 value).toList ++ rest) =
        some (value, rest) :=
    takeDigits?_padded (Nat.le_add_right _ _) stops
  unfold yearText
  by_cases common : 0 ≤ year ∧ year ≤ 9999
  · have fits : year.toNat < 10 ^ 4 := by omega
    have taken := takeDigits?_padded (length_padded_le (Nat.le_refl 4) (by decide) fits) stops
    have same : ((year.toNat : Nat) : Int) = year := Int.toNat_of_nonneg common.1
    obtain ⟨c, text, starts, digit⟩ := exists_padded_eq_cons 4 year.toNat rest
    rw [if_pos common, takeYear?, trimStart_padded]
    rw [starts] at taken ⊢
    have noMinus : c ≠ '-' := by
      rintro rfl
      exact absurd digit (by decide)
    have noPlus : c ≠ '+' := by
      rintro rfl
      exact absurd digit (by decide)
    simp [taken, noMinus, noPlus, same]
  · rw [if_neg common]
    by_cases negative : year < 0
    · have same : -((year.natAbs : Nat) : Int) = year := by omega
      have opened : Text.trimStart ('-' :: ((padded 4 year.natAbs).toList ++ rest)) =
          '-' :: ((padded 4 year.natAbs).toList ++ rest) := Text.trimStart_cons (by decide) _
      rw [if_pos negative, String.toList_append]
      change takeYear? ('-' :: ((padded 4 year.natAbs).toList ++ rest)) = _
      generalize year.natAbs = magnitude at same opened ⊢
      simp [takeYear?, opened, signed, same]
    · have same : ((year.natAbs : Nat) : Int) = year := by omega
      have opened : Text.trimStart ('+' :: ((padded 4 year.natAbs).toList ++ rest)) =
          '+' :: ((padded 4 year.natAbs).toList ++ rest) := Text.trimStart_cons (by decide) _
      rw [if_neg negative, String.toList_append]
      change takeYear? ('+' :: ((padded 4 year.natAbs).toList ++ rest)) = _
      generalize year.natAbs = magnitude at same opened ⊢
      simp [takeYear?, opened, signed, same]

theorem length_padded {width value : Nat} (positive : 0 < width) (fits : value < 10 ^ width) :
    (padded width value).toList.length = width := by
  have digits := (Nat.length_toDigits_le_iff (by decide : 1 < 10) positive).mpr fits
  rw [toList_padded, List.length_append, List.length_replicate]
  omega

theorem takeFraction?_padded {width value : Nat} (short : width ≤ 9) (positive : 0 < width)
    (fits : value < 10 ^ width) :
    takeFraction? ('.' :: ((padded width value).toList ++ ['Z'])) =
      some (value * 10 ^ (9 - width), ['Z']) := by
  have length := length_padded positive fits
  have stops : ∀ c ∈ ['Z'].head?, isDigit c = false := isDigit_head_cons (by decide) []
  have taken : takeDigits? 9 ((padded width value).toList ++ ['Z']) = some (value, ['Z']) :=
    takeDigits?_padded (length.trans_le short) stops
  have dropped : ['Z'].dropWhile (fun c => '0' ≤ c && c ≤ '9') = ['Z'] := by
    decide
  simp [takeFraction?, taken, length, dropped]

/-- The fraction of a second is read as its nanoseconds. -/
theorem takeFraction?_fractionText {nanosecond : Nat} (fits : nanosecond < 1000000000) :
    takeFraction? ((fractionText nanosecond).toList ++ ['Z']) = some (nanosecond, ['Z']) := by
  unfold fractionText
  by_cases none : nanosecond = 0
  · rw [if_pos none, none]
    rfl
  · rw [if_neg none]
    by_cases milliseconds : nanosecond % 1000000 = 0
    · have small : nanosecond / 1000000 < 10 ^ 3 := by omega
      have exact : nanosecond / 1000000 * 10 ^ (9 - 3) = nanosecond := by omega
      have taken := takeFraction?_padded (by decide) (by decide) small
      rw [exact] at taken
      rw [if_pos milliseconds, String.toList_append]
      exact taken
    · rw [if_neg milliseconds]
      by_cases microseconds : nanosecond % 1000 = 0
      · have small : nanosecond / 1000 < 10 ^ 6 := by omega
        have exact : nanosecond / 1000 * 10 ^ (9 - 6) = nanosecond := by omega
        have taken := takeFraction?_padded (by decide) (by decide) small
        rw [exact] at taken
        rw [if_pos microseconds, String.toList_append]
        exact taken
      · have small : nanosecond < 10 ^ 9 := fits
        have taken := takeFraction?_padded (by decide) (by decide) small
        rw [Nat.sub_self, Nat.pow_zero, Nat.mul_one] at taken
        rw [if_neg microseconds, String.toList_append]
        exact taken

/-- What stands behind the seconds starts with no digit. -/
theorem isDigit_head_fractionText (nanosecond : Nat) :
    ∀ c ∈ ((fractionText nanosecond).toList ++ ['Z']).head?, isDigit c = false := by
  have point (text : List Char) : ∀ c ∈ (('.' :: text) ++ ['Z']).head?, isDigit c = false :=
    isDigit_head_cons (by decide) _
  unfold fractionText
  split
  · exact isDigit_head_cons (by decide) []
  · split
    · rw [String.toList_append]
      exact point _
    · split <;> (rw [String.toList_append]; exact point _)

theorem earlierBy_zero {t : Timestamp} (hours : t.hour ≤ 23) (minutes : t.minute ≤ 59) :
    t.earlierBy 0 = t := by
  have hour : (t.hour * 60 + t.minute) / 60 = t.hour := by omega
  have minute : (t.hour * 60 + t.minute) % 60 = t.minute := by omega
  have early : ¬((t.hour * 60 + t.minute : Nat) : Int) - 0 < 0 := by omega
  have late : ¬(1440 : Int) ≤ ((t.hour * 60 + t.minute : Nat) : Int) - 0 := by omega
  have total : (((t.hour * 60 + t.minute : Nat) : Int) - 0).toNat = t.hour * 60 + t.minute := by omega
  simp only [earlierBy, if_neg early, if_neg late, total, hour, minute]

theorem toList_text (t : Timestamp) :
    t.text.toList = (yearText t.year).toList ++ '-' :: ((padded 2 t.month).toList ++ '-' ::
      ((padded 2 t.day).toList ++ 'T' :: ((padded 2 t.hour).toList ++ ':' ::
        ((padded 2 t.minute).toList ++ ':' :: ((padded 2 t.second).toList ++
          ((fractionText t.nanosecond).toList ++ ['Z'])))))) := by
  simp [text]

theorem daysInMonth_le (year : Int) (month : Nat) : daysInMonth year month ≤ 31 := by
  unfold daysInMonth
  split
  · split <;> decide
  · split <;> decide

/-- Reading undoes writing. -/
theorem parse?_text {t : Timestamp} (valid : t.isValid = true) : parse? t.text = some t := by
  have fields := valid
  simp only [isValid, Bool.and_eq_true, decide_eq_true_eq] at fields
  obtain ⟨⟨⟨⟨⟨⟨⟨-, month⟩, -⟩, day⟩, hour⟩, minute⟩, second⟩, nanosecond⟩ := fields
  have days := daysInMonth_le t.year t.month
  have dash (value : Nat) := takeSeparator?_padded '-' (by decide) 2 value
  have colon (value : Nat) := takeSeparator?_padded ':' (by decide) 2 value
  have time (rest : List Char) : takeTimeMark? ('T' :: rest) = some rest := rfl
  have zone : takeOffset? (Text.trimStart ['Z']) = some (0, []) := by
    decide
  have nothing : (Text.trimStart []).isEmpty = true := rfl
  simp only [parse?, Option.bind_eq_bind]
  rw [toList_text, takeYear?_yearText t.year (isDigit_head_cons rfl _), Option.bind_some, dash,
    Option.bind_some, takeField?_padded t.month (by omega) (isDigit_head_cons rfl _),
    Option.bind_some, dash, Option.bind_some,
    takeField?_padded t.day (by omega) (isDigit_head_cons rfl _), Option.bind_some, time,
    Option.bind_some, takeField?_padded t.hour (by omega) (isDigit_head_cons rfl _),
    Option.bind_some, colon, Option.bind_some,
    takeField?_padded t.minute (by omega) (isDigit_head_cons rfl _), Option.bind_some, colon,
    Option.bind_some, takeField?_padded t.second (by omega) (isDigit_head_fractionText t.nanosecond),
    Option.bind_some, takeFraction?_fractionText nanosecond, Option.bind_some, zone,
    Option.bind_some]
  simp only [nothing, valid, Bool.and_true, if_true, earlierBy_zero hour minute]

end Timestamp

end Mos6502
