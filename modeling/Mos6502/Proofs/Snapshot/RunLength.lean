import Mathlib.Data.List.Basic
import Mos6502.Snapshot.RunLength

/-!
# The run-length format

A code stands for a byte string piece by piece: a byte other than 0xFF, an escaped 0xFF, or a counted run. The
decoder accepts exactly the codes of this kind that stand for as many bytes as it is told to expect. The encoder
goes through the runs of its input and writes a code of this kind for each.

The pieces are also given as data, `Token`: what the decoder accepts are the codes of lists of tokens. It ends early
when it has too much, and accepts the same as a decoder that goes through to the end.
-/

namespace Mos6502.RunLength

/-- What a code stands for, piece by piece. -/
inductive Expands : List UInt8 → List UInt8 → Prop where
  | nil : Expands [] []
  | plain {byte : UInt8} {code bytes : List UInt8} :
      byte ≠ 0xFF → Expands code bytes → Expands (byte :: code) (byte :: bytes)
  | escape {code bytes : List UInt8} :
      Expands code bytes → Expands (0xFF :: 0x00 :: code) (0xFF :: bytes)
  | run {count : UInt8} (value : UInt8) {code bytes : List UInt8} :
      count ≠ 0 → Expands code bytes →
      Expands (0xFF :: count :: value :: code) (List.replicate count.toNat value ++ bytes)

variable {code bytes : List UInt8}

theorem Expands.append {code' bytes' : List UInt8} (first : Expands code bytes)
    (second : Expands code' bytes') : Expands (code ++ code') (bytes ++ bytes') := by
  induction first with
  | nil => exact second
  | plain other _ inductionHypothesis => exact .plain other inductionHypothesis
  | escape _ inductionHypothesis => exact .escape inductionHypothesis
  | run value counted _ inductionHypothesis =>
    rw [List.append_assoc]
    exact .run value counted inductionHypothesis

theorem expands_nil_iff : Expands [] bytes ↔ bytes = [] := by
  constructor
  · intro expands
    cases expands
    rfl
  · rintro rfl
    exact .nil

theorem expands_plain_iff {byte : UInt8} (other : byte ≠ 0xFF) :
    Expands (byte :: code) bytes ↔ ∃ rest, Expands code rest ∧ bytes = byte :: rest := by
  constructor
  · intro expands
    cases expands with
    | plain _ later => exact ⟨_, later, rfl⟩
    | escape => exact absurd rfl other
    | run => exact absurd rfl other
  · rintro ⟨rest, later, rfl⟩
    exact .plain other later

theorem expands_escape_iff :
    Expands (0xFF :: 0 :: code) bytes ↔ ∃ rest, Expands code rest ∧ bytes = 0xFF :: rest := by
  constructor
  · intro expands
    cases expands with
    | plain other => exact absurd rfl other
    | escape later => exact ⟨_, later, rfl⟩
    | run _ counted => exact absurd rfl counted
  · rintro ⟨rest, later, rfl⟩
    exact .escape later

theorem expands_run_iff {count value : UInt8} (counted : count ≠ 0) :
    Expands (0xFF :: count :: value :: code) bytes ↔
      ∃ rest, Expands code rest ∧ bytes = List.replicate count.toNat value ++ rest := by
  constructor
  · intro expands
    cases expands with
    | plain other => exact absurd rfl other
    | escape => exact absurd rfl counted
    | run _ _ later => exact ⟨_, later, rfl⟩
  · rintro ⟨rest, later, rfl⟩
    exact .run value counted later

theorem not_expands_truncatedEscape : ¬Expands [0xFF] bytes := by
  intro expands
  cases expands with
  | plain other => exact other rfl

theorem not_expands_truncatedRun {count : UInt8} (counted : count ≠ 0) :
    ¬Expands [0xFF, count] bytes := by
  intro expands
  cases expands with
  | plain other => exact other rfl
  | escape => exact counted rfl

/-- Where a code begins with a piece that stands for `piece`, its expansions are those of the rest behind it. -/
theorem exists_expansion_iff {whole code : List UInt8} (piece : List UInt8)
    (opens : ∀ bytes, Expands whole bytes ↔ ∃ rest, Expands code rest ∧ bytes = piece ++ rest)
    (size length : Nat) (out image : List UInt8) :
    (∃ bytes, Expands whole bytes ∧ length + bytes.length = size ∧ image = out.reverse ++ bytes) ↔
      ∃ rest, Expands code rest ∧ length + piece.length + rest.length = size ∧
        image = (piece.reverse ++ out).reverse ++ rest := by
  have image_eq (rest : List UInt8) :
      (piece.reverse ++ out).reverse ++ rest = out.reverse ++ (piece ++ rest) := by
    simp
  have length_eq (rest : List UInt8) :
      length + piece.length + rest.length = length + (piece ++ rest).length := by
    rw [List.length_append, Nat.add_assoc]
  simp only [opens, image_eq, length_eq]
  constructor
  · rintro ⟨_, ⟨rest, later, rfl⟩, fits, same⟩
    exact ⟨rest, later, fits, same⟩
  · rintro ⟨rest, later, fits, same⟩
    exact ⟨piece ++ rest, ⟨rest, later, rfl⟩, fits, same⟩

/-- Decoding gives exactly the expansions of the right length. The early end at a piece that is too long loses
none of them. -/
theorem decodeFrom_eq_ok_iff {size length : Nat} {out code image : List UInt8} :
    decodeFrom size length out code = .ok image ↔
      ∃ bytes, Expands code bytes ∧ length + bytes.length = size ∧ image = out.reverse ++ bytes := by
  fun_induction decodeFrom size length out code with
  | case1 out => simp [expands_nil_iff, eq_comm]
  | case2 length out short => simp [expands_nil_iff, short]
  | case3 length out byte rest other inductionHypothesis =>
    rw [inductionHypothesis, exists_expansion_iff [byte] fun _ => expands_plain_iff other]
    rfl
  | case4 length out byte escaped =>
    obtain rfl : byte = 0xFF := not_not.mp escaped
    simp [not_expands_truncatedEscape]
  | case5 length out byte escaped rest long =>
    -- What is too long already only grows, so there is no expansion of the right length either.
    obtain rfl : byte = 0xFF := not_not.mp escaped
    rw [exists_expansion_iff [0xFF] fun _ => expands_escape_iff]
    simp only [reduceCtorEq, List.length_singleton, false_iff]
    rintro ⟨bytes, -, fits, -⟩
    omega
  | case6 length out byte escaped rest short inductionHypothesis =>
    obtain rfl : byte = 0xFF := not_not.mp escaped
    rw [inductionHypothesis, exists_expansion_iff [0xFF] fun _ => expands_escape_iff]
    rfl
  | case7 length out byte escaped count counted =>
    obtain rfl : byte = 0xFF := not_not.mp escaped
    simp [not_expands_truncatedRun counted]
  | case8 length out byte escaped count counted value rest long =>
    obtain rfl : byte = 0xFF := not_not.mp escaped
    rw [exists_expansion_iff (.replicate count.toNat value) fun _ => expands_run_iff counted]
    simp only [reduceCtorEq, List.length_replicate, false_iff]
    rintro ⟨bytes, -, fits, -⟩
    omega
  | case9 length out byte escaped count counted value rest short inductionHypothesis =>
    obtain rfl : byte = 0xFF := not_not.mp escaped
    rw [inductionHypothesis,
      exists_expansion_iff (.replicate count.toNat value) fun _ => expands_run_iff counted]
    rw [List.reverse_replicate, List.length_replicate]

def runBytes (run : UInt8 × Nat) : List UInt8 :=
  List.replicate run.2 run.1

theorem flatMap_collectRuns (byte : UInt8) (count : Nat) (runs : List (UInt8 × Nat))
    (rest : List UInt8) :
    (collectRuns byte count runs rest).flatMap runBytes =
      runs.reverse.flatMap runBytes ++ List.replicate count byte ++ rest := by
  induction rest generalizing byte count runs with
  | nil => simp [collectRuns, runBytes]
  | cons next rest inductionHypothesis =>
    unfold collectRuns
    split
    next continues =>
      rw [inductionHypothesis, continues.1, List.replicate_succ']
      simp
    next =>
      rw [inductionHypothesis]
      simp [runBytes]

/-- The runs of a byte string make it up. -/
theorem flatMap_runsOf (bytes : List UInt8) : (runsOf bytes).flatMap runBytes = bytes := by
  cases bytes with
  | nil => rfl
  | cons byte rest =>
    rw [runsOf, flatMap_collectRuns]
    rfl

/-- A run that one byte can count. -/
def IsShort (run : UInt8 × Nat) : Prop :=
  0 < run.2 ∧ run.2 ≤ 255

theorem isShort_one (byte : UInt8) : IsShort (byte, 1) :=
  ⟨Nat.one_pos, Nat.le_of_ble_eq_true rfl⟩

theorem isShort_collectRuns {byte : UInt8} {count : Nat} {runs : List (UInt8 × Nat)}
    (current : IsShort (byte, count)) (before : ∀ run ∈ runs, IsShort run) (rest : List UInt8) :
    ∀ run ∈ collectRuns byte count runs rest, IsShort run := by
  induction rest generalizing byte count runs with
  | nil =>
    intro run member
    rw [collectRuns, List.mem_reverse] at member
    rcases List.mem_cons.mp member with rfl | earlier
    · exact current
    · exact before run earlier
  | cons next rest inductionHypothesis =>
    unfold collectRuns
    split
    next continues =>
      exact inductionHypothesis ⟨Nat.succ_pos count, continues.2⟩ before
    next =>
      exact inductionHypothesis (isShort_one next) (List.forall_mem_cons.mpr ⟨current, before⟩)

theorem isShort_runsOf (bytes : List UInt8) : ∀ run ∈ runsOf bytes, IsShort run := by
  cases bytes with
  | nil => simp [runsOf]
  | cons byte rest =>
    have none : ∀ run ∈ [], IsShort run := fun run member => absurd member List.not_mem_nil
    exact isShort_collectRuns (isShort_one byte) none rest

theorem expands_literal (byte : UInt8) : Expands (literal byte) [byte] := by
  unfold literal
  split
  next full =>
    rw [full]
    exact .escape .nil
  next other => exact .plain other .nil

theorem expands_literals (byte : UInt8) (count : Nat) :
    Expands (List.replicate count (literal byte)).flatten (List.replicate count byte) := by
  induction count with
  | zero => exact .nil
  | succ count inductionHypothesis =>
    rw [List.replicate_succ, List.flatten_cons]
    exact (expands_literal byte).append inductionHypothesis

theorem expands_encodeRun {run : UInt8 × Nat} (short : IsShort run) :
    Expands (encodeRun run) (runBytes run) := by
  obtain ⟨byte, count⟩ := run
  obtain ⟨positive, few⟩ := short
  unfold encodeRun
  split
  next =>
    have counted : (UInt8.ofNat count).toNat = count := by
      rw [UInt8.toNat_ofNat']
      exact Nat.mod_eq_of_lt (Nat.lt_succ_of_le few)
    have nonzero : UInt8.ofNat count ≠ 0 := by
      intro zero
      rw [zero] at counted
      exact absurd positive (by simp [← counted])
    have run := Expands.run byte nonzero .nil
    rw [counted, List.append_nil] at run
    exact run
  next => exact expands_literals byte count

/-- The code of a byte string stands for it. -/
theorem expands_encode (bytes : List UInt8) : Expands (encode bytes) bytes := by
  have runs := isShort_runsOf bytes
  have whole := flatMap_runsOf bytes
  unfold encode
  generalize runsOf bytes = runList at runs whole
  subst whole
  induction runList with
  | nil => exact .nil
  | cons run rest inductionHypothesis =>
    obtain ⟨short, later⟩ := List.forall_mem_cons.mp runs
    exact (expands_encodeRun short).append (inductionHypothesis later)

theorem decode_eq_ok_iff_expands {size : Nat} {image : List UInt8} :
    decode size code = .ok image ↔ Expands code image ∧ image.length = size := by
  simp [decode, decodeFrom_eq_ok_iff]

/-- Every byte string is decoded from its code. -/
theorem decode_length_encode (bytes : List UInt8) :
    decode bytes.length (encode bytes) = .ok bytes := by
  apply decode_eq_ok_iff_expands.mpr
  exact ⟨expands_encode bytes, rfl⟩

/-- The pieces of a code. -/
inductive Token where
  | plain (byte : UInt8) (other : byte ≠ 0xFF)
  | escape
  | run (count value : UInt8) (counted : count ≠ 0)

def Token.written : Token → List UInt8
  | plain byte _ => [byte]
  | escape => [0xFF, 0x00]
  | run count value _ => [0xFF, count, value]

/-- The bytes that a token stands for. -/
def Token.meaning : Token → List UInt8
  | plain byte _ => [byte]
  | escape => [0xFF]
  | run count value _ => List.replicate count.toNat value

theorem Token.expands (token : Token) : Expands token.written token.meaning := by
  cases token with
  | plain byte other => exact .plain other .nil
  | escape => exact .escape .nil
  | run count value counted => simpa [Token.written, Token.meaning] using Expands.run value counted .nil

theorem expands_iff_tokens :
    Expands code bytes ↔
      ∃ tokens : List Token, code = tokens.flatMap Token.written ∧ bytes = tokens.flatMap Token.meaning := by
  constructor
  · intro expands
    induction expands with
    | nil => exact ⟨[], rfl, rfl⟩
    | plain other _ inductionHypothesis =>
      obtain ⟨tokens, rfl, rfl⟩ := inductionHypothesis
      exact ⟨.plain _ other :: tokens, rfl, rfl⟩
    | escape _ inductionHypothesis =>
      obtain ⟨tokens, rfl, rfl⟩ := inductionHypothesis
      exact ⟨.escape :: tokens, rfl, rfl⟩
    | run value counted _ inductionHypothesis =>
      obtain ⟨tokens, rfl, rfl⟩ := inductionHypothesis
      exact ⟨.run _ value counted :: tokens, rfl, rfl⟩
  · rintro ⟨tokens, rfl, rfl⟩
    induction tokens with
    | nil => exact .nil
    | cons token tokens inductionHypothesis =>
      simp only [List.flatMap_cons]
      exact token.expands.append inductionHypothesis

/-- Goes through a code to its end, however long the bytes become that it stands for. -/
def expand : List UInt8 → Except Error (List UInt8)
  | [] => .ok []
  | byte :: rest =>
    if byte ≠ 0xFF then (expand rest).map (byte :: ·)
    else
      match rest with
      | [] => .error .truncatedEscape
      | count :: rest =>
        if count = 0 then (expand rest).map (0xFF :: ·)
        else
          match rest with
          | [] => .error .truncatedRun
          | value :: rest => (expand rest).map (List.replicate count.toNat value ++ ·)

/-- Decodes like `decode`, but looks at the size only when the code is at its end. -/
def decodeToEnd (size : Nat) (code : List UInt8) : Except Error (List UInt8) :=
  match expand code with
  | .error error => .error error
  | .ok image => if image.length = size then .ok image else .error (.wrongSize image.length size)

theorem map_eq_ok_iff {result : Except Error (List UInt8)} {f : List UInt8 → List UInt8} :
    result.map f = .ok bytes ↔ ∃ rest, result = .ok rest ∧ bytes = f rest := by
  cases result <;> simp [Except.map, eq_comm]

theorem expand_eq_ok_iff : expand code = .ok bytes ↔ Expands code bytes := by
  fun_induction expand code generalizing bytes with
  | case1 => simp [expands_nil_iff, eq_comm]
  | case2 byte rest other inductionHypothesis =>
    simp [map_eq_ok_iff, inductionHypothesis, expands_plain_iff other]
  | case3 byte escaped =>
    obtain rfl : byte = 0xFF := not_not.mp escaped
    simp [not_expands_truncatedEscape]
  | case4 byte escaped rest inductionHypothesis =>
    obtain rfl : byte = 0xFF := not_not.mp escaped
    simp [map_eq_ok_iff, inductionHypothesis, expands_escape_iff]
  | case5 byte escaped count counted =>
    obtain rfl : byte = 0xFF := not_not.mp escaped
    simp [not_expands_truncatedRun counted]
  | case6 byte escaped count counted value rest inductionHypothesis =>
    obtain rfl : byte = 0xFF := not_not.mp escaped
    simp [map_eq_ok_iff, inductionHypothesis, expands_run_iff counted]

theorem decodeToEnd_eq_ok_iff {size : Nat} {image : List UInt8} :
    decodeToEnd size code = .ok image ↔ Expands code image ∧ image.length = size := by
  rw [← expand_eq_ok_iff, decodeToEnd]
  cases expand code with
  | error error => simp
  | ok whole =>
    by_cases fits : whole.length = size
    · simp only [fits, if_true, Except.ok.injEq]
      constructor
      · rintro rfl
        exact ⟨rfl, fits⟩
      · exact And.left
    · simp only [fits, if_false, reduceCtorEq, Except.ok.injEq, false_iff]
      rintro ⟨rfl, same⟩
      exact fits same

/-- What is decoded to an image of a size are the codes of the lists of tokens that stand for that image, if it has
that size. To go through to the end makes no difference. -/
theorem decode_eq_ok_iff_tokens (size : Nat) (code image : List UInt8) :
    (decode size code = .ok image ↔
        ∃ tokens : List Token, code = tokens.flatMap Token.written ∧
          image = tokens.flatMap Token.meaning ∧ image.length = size) ∧
      (decode size code = .ok image ↔ decodeToEnd size code = .ok image) := by
  constructor
  · rw [decode_eq_ok_iff_expands, expands_iff_tokens]
    constructor
    · rintro ⟨⟨tokens, pieces, meanings⟩, fits⟩
      exact ⟨tokens, pieces, meanings, fits⟩
    · rintro ⟨tokens, pieces, meanings, fits⟩
      exact ⟨⟨tokens, pieces, meanings⟩, fits⟩
  · rw [decode_eq_ok_iff_expands, decodeToEnd_eq_ok_iff]

end Mos6502.RunLength
