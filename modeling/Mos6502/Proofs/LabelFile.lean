import Mos6502.Proofs.LabelLine
import Mos6502.Proofs.Lines
import Mos6502.World.Setup

/-!
# Label files

A label file is worth the entries that its lines hold: loading it inserts them in their order, counts them, and has no
other effect than what is logged of the lines that hold none. A line that is no text ends the loading there.
-/

namespace Mos6502

open Text

variable {σ : Type}

namespace Labels

/-- Names addresses one after the other. -/
def insertAll (entries : List (UInt16 × String)) (labels : Labels) : Labels :=
  entries.foldl (fun labels entry => labels.insert entry.1 entry.2) labels

theorem insertAll_append (first second : List (UInt16 × String)) (labels : Labels) :
    labels.insertAll (first ++ second) = (labels.insertAll first).insertAll second :=
  List.foldl_append

theorem lookup_cons_entry (entry : UInt16 × String) (rest : List (UInt16 × String)) (addr : UInt16) :
    (entry :: rest).lookup addr = if addr = entry.1 then some entry.2 else rest.lookup addr := by
  rw [List.lookup_cons]
  split
  next here => rw [if_pos (beq_iff_eq.mp here)]
  next elsewhere => rw [if_neg (beq_eq_false_iff_ne.mp elsewhere)]

theorem lookup_insertEntry (addr other : UInt16) (name : String) (entries : List (UInt16 × String)) :
    (insertEntry addr name entries).lookup other =
      if other = addr then some name else entries.lookup other := by
  induction entries with
  | nil => exact lookup_cons_entry (addr, name) [] other
  | cons entry rest inductionHypothesis =>
    unfold insertEntry
    split
    next before => exact lookup_cons_entry (addr, name) (entry :: rest) other
    next notBefore =>
      split
      next same =>
        rw [lookup_cons_entry, lookup_cons_entry]
        by_cases here : other = addr
        · rw [if_pos here, if_pos here]
        · rw [if_neg here, if_neg here, if_neg (same ▸ here)]
      next apart =>
        rw [lookup_cons_entry, lookup_cons_entry, inductionHypothesis]
        by_cases here : other = addr
        · rw [if_pos here, if_pos here, if_neg (here ▸ apart)]
        · rw [if_neg here, if_neg here]

theorem find?_insert (labels : Labels) (addr other : UInt16) (name : String) :
    (labels.insert addr name).find? other = if other = addr then some name else labels.find? other :=
  lookup_insertEntry addr other name labels.entries

theorem lookup_append (first second : List (UInt16 × String)) (addr : UInt16) :
    (first ++ second).lookup addr = (first.lookup addr).or (second.lookup addr) := by
  induction first with
  | nil => rfl
  | cons entry first inductionHypothesis =>
    rw [List.cons_append, lookup_cons_entry, lookup_cons_entry, inductionHypothesis]
    split <;> rfl

/-- Of the names for an address, the last one stays. -/
theorem find?_insertAll (entries : List (UInt16 × String)) (labels : Labels) (addr : UInt16) :
    (labels.insertAll entries).find? addr = (entries.reverse.lookup addr).or (labels.find? addr) := by
  induction entries generalizing labels with
  | nil => rfl
  | cons entry rest inductionHypothesis =>
    have later := inductionHypothesis (labels.insert entry.1 entry.2)
    rw [find?_insert] at later
    rw [List.reverse_cons, lookup_append, lookup_cons_entry, Option.or_assoc]
    refine later.trans (congrArg _ ?_)
    split <;> rfl

end Labels

namespace LabelLine

/-- The entries that lines of bytes hold. -/
def entries (lines : List (List UInt8)) : List (UInt16 × String) :=
  lines.filterMap fun bytes => (decodeUtf8? bytes).bind entryOf?

/-- The entries that a file holds. -/
def entriesOf (file : List UInt8) : List (UInt16 × String) :=
  entries (splitLines file)

theorem entriesOf_toUTF8 (text : String) :
    entriesOf text.toUTF8.data.toList =
      ((lines text.toList).map String.ofList).filterMap entryOf? := by
  unfold entriesOf entries
  rw [toUTF8_eq_encode, splitLines_encode, List.filterMap_map, List.filterMap_map]
  congr 1
  funext line
  exact congrArg (Option.bind · entryOf?) (decodeUtf8?_encode line)

/-- A text behind a line feed holds the same entries as on its own. -/
theorem entriesOf_join (first second : String) :
    entriesOf (first ++ "\n" ++ second).toUTF8.data.toList =
      entriesOf (first ++ "\n").toUTF8.data.toList ++ entriesOf second.toUTF8.data.toList := by
  have feed : "\n".toList = ['\n'] := rfl
  rw [entriesOf_toUTF8, entriesOf_toUTF8, entriesOf_toUTF8, String.toList_append, String.toList_append,
    feed, List.append_assoc, List.singleton_append, lines_join, List.map_append,
    List.filterMap_append]

/-- Whatever the lines, the names of their entries are words. -/
theorem isWord_of_mem_entries {lines : List (List UInt8)} {entry : UInt16 × String}
    (member : entry ∈ entries lines) : IsWord entry.2.toList := by
  obtain ⟨bytes, -, held⟩ := List.mem_filterMap.mp member
  obtain ⟨line, -, read⟩ := Option.bind_eq_some_iff.mp held
  exact isWord_of_entryOf? read

end LabelLine

open LabelLine

namespace World

/-- With more entries, and another log. -/
def labelled (entries : List (UInt16 × String)) (log : Array LogEntry) (w : World σ) : World σ :=
  { w with
    instruments := { w.instruments with labels := w.instruments.labels.insertAll entries }
    journal := { w.journal with log } }

theorem labelled_labelled (first second : List (UInt16 × String)) (log later : Array LogEntry)
    (w : World σ) :
    (w.labelled first log).labelled second later = w.labelled (first ++ second) later := by
  unfold labelled
  rw [Labels.insertAll_append]

/-- Lines that are texts have their entries inserted and counted, and the rest is loaded after them. -/
theorem loadLabelLines_append {good : List (List UInt8)}
    (readable : ∀ bytes ∈ good, (decodeUtf8? bytes).isSome = true) (number count : Nat)
    (rest : List (List UInt8)) (w : World σ) :
    ∃ log, w.loadLabelLines number count (good ++ rest) =
      (w.labelled (entries good) log).loadLabelLines (number + good.length)
        (count + (entries good).length) rest := by
  induction good generalizing number count w with
  | nil => exact ⟨w.journal.log, rfl⟩
  | cons bytes good inductionHypothesis =>
    obtain ⟨here, later⟩ := List.forall_mem_cons.mp readable
    obtain ⟨line, decoded⟩ := Option.isSome_iff_exists.mp here
    -- What the line changes is a name more or none, and the log.
    obtain ⟨log, first⟩ : ∃ log, w.loadLabelLines number count (bytes :: (good ++ rest)) =
        (w.labelled (entryOf? line).toList log).loadLabelLines (number + 1)
          (count + (entryOf? line).toList.length) (good ++ rest) := by
      rw [loadLabelLines, decoded]
      unfold entryOf?
      dsimp only
      split
      next parsed => exact ⟨_, by rw [parsed]; rfl⟩
      next addr name parsed => exact ⟨_, by rw [parsed]; rfl⟩
      next page name parsed => exact ⟨_, by rw [parsed]; rfl⟩
      next error parsed => exact ⟨_, by rw [parsed]; rfl⟩
    have held : entries (bytes :: good) = (entryOf? line).toList ++ entries good := by
      unfold entries
      rw [List.filterMap_cons, decoded, Option.bind_some]
      cases entryOf? line <;> rfl
    obtain ⟨laterLog, loaded⟩ := inductionHypothesis later (number + 1)
      (count + (entryOf? line).toList.length) (w.labelled (entryOf? line).toList log)
    refine ⟨laterLog, ?_⟩
    rw [List.cons_append, first, loaded, labelled_labelled, held, List.length_append, List.length_cons,
      Nat.add_assoc, Nat.add_assoc, Nat.add_comm 1]

/-- A text is loaded to its end. -/
theorem exists_loadLabels_eq (text : String) (w : World σ) :
    ∃ log, w.loadLabels text.toUTF8.data.toList =
      (.ok (entriesOf text.toUTF8.data.toList).length,
        w.labelled (entriesOf text.toUTF8.data.toList) log) := by
  have readable : ∀ line ∈ splitLines text.toUTF8.data.toList, (decodeUtf8? line).isSome = true := by
    intro line member
    rw [toUTF8_eq_encode, splitLines_encode] at member
    obtain ⟨chars, -, rfl⟩ := List.mem_map.mp member
    rw [decodeUtf8?_encode]
    rfl
  obtain ⟨log, loaded⟩ := loadLabelLines_append readable 1 0 [] w
  rw [List.append_nil, Nat.zero_add] at loaded
  exact ⟨log, loaded⟩

/-- What stands before a line that is no text is loaded, and nothing else. -/
theorem exists_loadLabels_eq_error {file : List UInt8} {good rest : List (List UInt8)}
    {bad : List UInt8} (split : splitLines file = good ++ bad :: rest)
    (readable : ∀ bytes ∈ good, (decodeUtf8? bytes).isSome = true)
    (unreadable : decodeUtf8? bad = none) (w : World σ) :
    ∃ log, w.loadLabels file = (.error malformedUtf8, w.labelled (entries good) log) := by
  obtain ⟨log, loaded⟩ := loadLabelLines_append readable 1 0 (bad :: rest) w
  refine ⟨log, ?_⟩
  unfold loadLabels
  rw [split, loaded, loadLabelLines, unreadable]

end World

/-- A line of a label file: one with an entry, or any other that holds none. -/
inductive FileLine where
  | entry (line : EntryLine)
  | other (line : String) (idle : LabelLine.entryOf? line = none)

namespace FileLine

def text : FileLine → String
  | entry line => line.text
  | other line _ => line

def entryOf? : FileLine → Option (UInt16 × String)
  | entry line => some line.entry
  | other _ _ => none

theorem entryOf?_text (line : FileLine) : LabelLine.entryOf? line.text = line.entryOf? := by
  cases line with
  | entry line =>
    change LabelLine.entryOf? line.text = some line.entry
    rw [LabelLine.entryOf?, line.parse_text]
    rfl
  | other line idle => exact idle

end FileLine

namespace World

/-- Every line with an entry is read as that entry. A text is loaded by inserting the entries of its lines in their order,
the last name of an address being the one that stays, with their number as the result; and nothing else changes but the
log. A text of two parts, of which the first ends with a line feed, is loaded as the parts are in turn. All names are
words. Where a line is no text, the entries before it are inserted, and the error is the result. -/
theorem label_file_inserts_its_entries (w : World σ) :
    (∀ line : EntryLine, LabelLine.parse line.text =
        .ok (.entry line.field.addr (String.ofList line.name))) ∧
      (∀ (text : String) (file : List FileLine),
        (lines text.toList).map String.ofList = file.map FileLine.text →
          entriesOf text.toUTF8.data.toList = file.filterMap FileLine.entryOf?) ∧
      (∀ text : String, ∃ log, w.loadLabels text.toUTF8.data.toList =
        (.ok (entriesOf text.toUTF8.data.toList).length,
          { w with
            instruments := { w.instruments with
              labels := w.instruments.labels.insertAll (entriesOf text.toUTF8.data.toList) }
            journal := { w.journal with log } })) ∧
      (∀ (labels : Labels) entries addr,
        (labels.insertAll entries).find? addr =
          (entries.reverse.lookup addr).or (labels.find? addr)) ∧
      (∀ first second : String, ∃ (firstCount secondCount : Nat) (v u : World σ),
        w.loadLabels (first ++ "\n").toUTF8.data.toList = (.ok firstCount, v) ∧
          v.loadLabels second.toUTF8.data.toList = (.ok secondCount, u) ∧
          (w.loadLabels (first ++ "\n" ++ second).toUTF8.data.toList).1 =
            .ok (firstCount + secondCount) ∧
          (w.loadLabels (first ++ "\n" ++ second).toUTF8.data.toList).2.instruments.labels =
            u.instruments.labels) ∧
      (∀ lines, ∀ entry ∈ entries lines, IsWord entry.2.toList) ∧
      ∀ file good bad rest, splitLines file = good ++ bad :: rest →
        (∀ bytes ∈ good, (decodeUtf8? bytes).isSome = true) → decodeUtf8? bad = none → ∃ log,
          w.loadLabels file =
            (.error malformedUtf8,
              { w with
                instruments := { w.instruments with
                  labels := w.instruments.labels.insertAll (entries good) }
                journal := { w.journal with log } }) := by
  refine ⟨EntryLine.parse_text, ?_, fun text => exists_loadLabels_eq text w, ?_, ?_, ?_, ?_⟩
  · intro text file split
    rw [entriesOf_toUTF8, split, List.filterMap_map]
    exact congrArg (List.filterMap · file) (funext FileLine.entryOf?_text)
  · intro labels entries addr
    exact Labels.find?_insertAll entries labels addr
  · intro first second
    obtain ⟨log, loaded⟩ := exists_loadLabels_eq (first ++ "\n") w
    obtain ⟨later, loadedLater⟩ := exists_loadLabels_eq second
      (w.labelled (entriesOf (first ++ "\n").toUTF8.data.toList) log)
    obtain ⟨whole, loadedWhole⟩ := exists_loadLabels_eq (first ++ "\n" ++ second) w
    refine ⟨_, _, _, _, loaded, loadedLater, ?_, ?_⟩
    · rw [loadedWhole, entriesOf_join, List.length_append]
    · rw [loadedWhole, entriesOf_join, labelled_labelled]
      rfl
  · intro lines entry member
    exact isWord_of_mem_entries member
  · intro file good bad rest split readable unreadable
    exact exists_loadLabels_eq_error split readable unreadable w

/-- A name with a dot of its own, for address `00E0`. -/
def dottedLine : EntryLine where
  dotted := true
  lead := ['\t']
  gap := [' ']
  field :=
    { dollars := 1
      banked := true
      digits := [⟨⟨0, by decide⟩, false⟩, ⟨⟨14, by decide⟩, true⟩, ⟨⟨0, by decide⟩, true⟩]
      digits_ne_nil := List.cons_ne_nil _ _
      small := by decide }
  otherGap := [' ', ' ']
  name := ['.', 'a']
  trail := [' ']
  isGap_lead := by decide
  isGap_gap := by decide
  gap_ne_nil := List.cons_ne_nil _ _
  isGap_otherGap := by decide
  otherGap_ne_nil := List.cons_ne_nil _ _
  isWord_name := by decide
  isGap_trail := by decide

theorem dottedLine_inserted (w : World Unit) :
    (w.loadLabels "\tal $C:0E0  ..a \n# end".toUTF8.data.toList).1 = .ok 1 ∧
      (w.loadLabels "\tal $C:0E0  ..a \n# end".toUTF8.data.toList).2.instruments.labels =
        w.instruments.labels.insert 0xE0 ".a" := by
  obtain ⟨-, held, loads, -⟩ := label_file_inserts_its_entries w
  have idle : LabelLine.entryOf? "# end" = none := by decide +kernel
  have split : (lines "\tal $C:0E0  ..a \n# end".toList).map String.ofList =
      [dottedLine.text, "# end"] := by
    decide +kernel
  have entries := held _ [.entry dottedLine, .other "# end" idle] split
  obtain ⟨log, loaded⟩ := loads "\tal $C:0E0  ..a \n# end"
  rw [loaded, entries]
  exact ⟨rfl, rfl⟩

end World

end Mos6502
