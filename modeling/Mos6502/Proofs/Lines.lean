import Mos6502.Proofs.Text
import Mos6502.Text.Lines

/-!
# Lines of a UTF-8 text

Bytes are split into lines before they are decoded. For a text in UTF-8 that makes no difference: the bytes of a line
feed and of a carriage return stand for nothing else, so the lines of the bytes are the lines of the text, encoded one by
one.
-/

namespace Mos6502.Text

/-- The bytes of characters in UTF-8. -/
def encode (text : List Char) : List UInt8 :=
  text.flatMap String.utf8EncodeChar

theorem toUTF8_eq_encode (text : String) : text.toUTF8.data.toList = encode text.toList := by
  have bytes : text.toByteArray = text.toList.utf8Encode := by
    rw [← String.toByteArray_ofList, String.ofList_toList]
  rw [String.toUTF8_eq_toByteArray, bytes, List.utf8Encode, List.toList_data_toByteArray]
  rfl

theorem encode_append (first second : List Char) :
    encode (first ++ second) = encode first ++ encode second :=
  List.flatMap_append

theorem decodeUtf8?_encode (text : List Char) :
    decodeUtf8? (encode text) = some (String.ofList text) := by
  have bytes : (encode text).toByteArray = (String.ofList text).toByteArray :=
    String.toByteArray_ofList.symm
  unfold decodeUtf8? String.fromUTF8?
  rw [bytes, dif_pos (String.ofList text).isValidUTF8]
  rfl

/-- A byte of seven bits is the whole of the character that it occurs in. -/
theorem utf8EncodeChar_of_mem {c : Char} {byte : UInt8} (ascii : byte.toNat < 0x80)
    (member : byte ∈ String.utf8EncodeChar c) :
    String.utf8EncodeChar c = [byte] ∧ c.toNat = byte.toNat := by
  have leading {low high : Nat} (eighth : 0x80 ≤ low + high ∧ low + high < 0x100) :
      byte ≠ UInt8.ofNat (low + high) := by
    rintro rfl
    rw [UInt8.toNat_ofNat'] at ascii
    omega
  unfold String.utf8EncodeChar at member ⊢
  dsimp only at member ⊢
  split at member
  next short =>
    have same := List.mem_singleton.mp member
    have value : byte.toNat = c.val.toNat := by
      rw [same, UInt8.toNat_ofNat']
      omega
    rw [if_pos short]
    exact ⟨congrArg (fun byte => [byte]) same.symm, value.symm⟩
  next long =>
    exfalso
    split at member
    next two =>
      simp only [List.mem_cons, List.not_mem_nil, or_false] at member
      rcases member with same | same <;> exact leading (by omega) same
    next more =>
      split at member
      next three =>
        simp only [List.mem_cons, List.not_mem_nil, or_false] at member
        rcases member with same | same | same <;> exact leading (by omega) same
      next four =>
        simp only [List.mem_cons, List.not_mem_nil, or_false] at member
        rcases member with same | same | same | same <;> exact leading (by omega) same

theorem not_mem_utf8EncodeChar {c other : Char} (ascii : other.toNat < 0x80) (apart : c ≠ other) :
    UInt8.ofNat other.toNat ∉ String.utf8EncodeChar c := by
  have value : (UInt8.ofNat other.toNat).toNat = other.toNat := by
    rw [UInt8.toNat_ofNat']
    omega
  intro member
  have same := (utf8EncodeChar_of_mem (by omega) member).2
  exact apart (Char.toNat_inj.mp (same.trans value))

/-- The lines of a text, without their ends; `line` holds the open line, last character first. -/
def linesFrom (line : List Char) : List Char → List (List Char)
  | [] => if line.isEmpty then [] else [line.reverse]
  | c :: rest =>
    if c = '\n' then
      (match line with
        | '\r' :: kept => kept.reverse
        | _ => line.reverse) :: linesFrom [] rest
    else linesFrom (c :: line) rest

/-- The lines of a text: each ends with a line feed, and maybe a carriage return before it. -/
def lines (text : List Char) : List (List Char) :=
  linesFrom [] text

theorem splitLinesFrom_append {bytes : List UInt8} (inner : 0x0A ∉ bytes) (line rest : List UInt8) :
    splitLinesFrom line (bytes ++ rest) = splitLinesFrom (bytes.reverse ++ line) rest := by
  induction bytes generalizing line with
  | nil => rfl
  | cons byte bytes inductionHypothesis =>
    obtain ⟨here, later⟩ := not_or.mp (mt List.mem_cons.mpr inner)
    rw [List.cons_append, List.reverse_cons, List.append_assoc]
    exact (if_neg (Ne.symm here)).trans (inductionHypothesis later (byte :: line))

/-- The line feed of a line without carriage return. -/
theorem splitLinesFrom_feed {line : List UInt8} (bare : line.head? ≠ some 0x0D) (rest : List UInt8) :
    splitLinesFrom line (0x0A :: rest) = line.reverse :: splitLinesFrom [] rest := by
  refine (if_pos rfl).trans ?_
  congr 1
  split
  next kept => exact absurd rfl bare
  next => rfl

theorem linesFrom_feed {line : List Char} (bare : line.head? ≠ some '\r') (rest : List Char) :
    linesFrom line ('\n' :: rest) = line.reverse :: linesFrom [] rest := by
  refine (if_pos rfl).trans ?_
  congr 1
  split
  next kept => exact absurd rfl bare
  next => rfl

/-- What is open of a line in bytes, when a character comes to it. -/
theorem reverse_encode_cons (c : Char) (line : List Char) :
    (encode (c :: line).reverse).reverse =
      (String.utf8EncodeChar c).reverse ++ (encode line.reverse).reverse := by
  rw [List.reverse_cons, encode_append, List.reverse_append]
  simp [encode]

theorem splitLinesFrom_encode (line text : List Char) :
    splitLinesFrom (encode line.reverse).reverse (encode text) = (linesFrom line text).map encode := by
  induction text generalizing line with
  | nil =>
    cases line with
    | nil => rfl
    | cons c line =>
      have filled : (encode (c :: line).reverse).reverse.isEmpty = false := by
        rw [reverse_encode_cons]
        simp
      change (if _ then _ else _) = _
      rw [filled]
      simp [linesFrom]
  | cons c text inductionHypothesis =>
    have encoded : encode (c :: text) = String.utf8EncodeChar c ++ encode text := List.flatMap_cons
    rw [encoded]
    by_cases feed : c = '\n'
    · subst feed
      have afresh := inductionHypothesis []
      change splitLinesFrom _ (0x0A :: encode text) = _
      cases line with
      | nil =>
        rw [splitLinesFrom_feed (by simp [encode]), linesFrom_feed (by simp)]
        exact congrArg _ afresh
      | cons d line =>
        rw [reverse_encode_cons]
        by_cases carriage : d = '\r'
        · subst carriage
          change (encode line.reverse).reverse.reverse :: splitLinesFrom [] (encode text) =
            encode line.reverse :: (linesFrom [] text).map encode
          rw [List.reverse_reverse]
          exact congrArg _ afresh
        · have bare : ((String.utf8EncodeChar d).reverse ++ (encode line.reverse).reverse).head? ≠
              some 0x0D := by
            have absent : 0x0D ∉ String.utf8EncodeChar d := not_mem_utf8EncodeChar (by decide) carriage
            intro head
            rw [List.head?_append] at head
            cases last : (String.utf8EncodeChar d).reverse.head? with
            | none => simp at last
            | some byte =>
              rw [last] at head
              cases head
              exact absent (List.mem_reverse.mp (List.mem_of_head? last))
          have bareToo : (d :: line).head? ≠ some '\r' := fun head => carriage (Option.some.inj head)
          rw [splitLinesFrom_feed bare, linesFrom_feed bareToo, ← reverse_encode_cons, List.reverse_reverse]
          exact congrArg _ afresh
    · have inner : 0x0A ∉ String.utf8EncodeChar c := not_mem_utf8EncodeChar (by decide) feed
      have onward : linesFrom line (c :: text) = linesFrom (c :: line) text := if_neg feed
      rw [splitLinesFrom_append inner, ← reverse_encode_cons, onward]
      exact inductionHypothesis (c :: line)

/-- The lines of the bytes of a text are the bytes of its lines. -/
theorem splitLines_encode (text : List Char) : splitLines (encode text) = (lines text).map encode :=
  splitLinesFrom_encode [] text

theorem linesFrom_join (line first second : List Char) :
    linesFrom line (first ++ '\n' :: second) = linesFrom line (first ++ ['\n']) ++ lines second := by
  induction first generalizing line with
  | nil => rfl
  | cons c first inductionHypothesis =>
    by_cases feed : c = '\n'
    · subst feed
      have rest := inductionHypothesis []
      change _ :: linesFrom [] (first ++ '\n' :: second) =
        (_ :: linesFrom [] (first ++ ['\n'])) ++ _
      rw [rest, List.cons_append]
    · have onward (rest : List Char) : linesFrom line (c :: rest) = linesFrom (c :: line) rest :=
        if_neg feed
      rw [List.cons_append, List.cons_append, onward, onward]
      exact inductionHypothesis (c :: line)

/-- Behind a line feed, lines begin afresh. -/
theorem lines_join (first second : List Char) :
    lines (first ++ '\n' :: second) = lines (first ++ ['\n']) ++ lines second :=
  linesFrom_join [] first second

end Mos6502.Text
