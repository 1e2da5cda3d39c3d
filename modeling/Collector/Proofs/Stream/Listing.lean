/-
# What is printed can be taken apart again

Records are printed as JSON lines, by decoding a file and by every poll of a file that is followed.
A value may hold anything, line ends and quotation marks included, and columns may share a name; a
program that reads the output line by line gets every record back all the same (`printed_rows`).  It
finds as many lines as records, each ended by LF and without a control character of its own, and
what it reads in a line is the record: its columns with their values, in order, none of them
dropped for a name that was there before.

Two facts on compact texts carry this.  They hold no control character, so that no line is cut in
two (`Json.compactChars_visible`), and they are read back as what they were written for
(`Language.read?_compact`).
-/
import Collector.Proofs.Stream.Following
import Collector.Proofs.Text.Compact

namespace Collector

/-! ## 1. Lines of records -/

/-- A line that stands for a record: it has no control character and is, read as JSON, an object of
the columns with their values. -/
structure IsRow (line : List Char) (record : Record) : Prop where
  visible : VisibleText line
  read : Language.json.read? (String.ofList line) =
    some (.obj (record.fields.map fun field => (field.1, .str field.2)))

/-- The text is these lines, an LF behind each and nothing behind the last, and they stand for these
records, one for each. -/
structure IsListing (text : String) (lines : List (List Char)) (records : List Record) : Prop where
  ended : text.toList.splitOn '\n' = lines ++ [[]]
  rows : List.Forall₂ IsRow lines records

namespace Record

/-- The text of a record without the LF behind it. -/
def row (record : Record) : List Char :=
  record.json.compactChars

theorem isRow_row (record : Record) : IsRow record.row record := by
  constructor
  · exact Json.compactChars_visible record.json
  · exact Language.read?_compact record.json

theorem toList_lines_cons (record : Record) (records : List Record) :
    (lines (record :: records)).toList = record.row ++ '\n' :: (lines records).toList := by
  simp [lines, line, row, Json.compact, String.toList_join]

/-- **The lines of records are found by cutting the text at every LF.** -/
theorem isListing_lines (records : List Record) :
    IsListing (lines records) (records.map row) records := by
  induction records with
  | nil => exact ⟨rfl, .nil⟩
  | cons record records ih =>
    have hline : record.row.splitOn '\n' = [record.row] := by
      rw [List.splitOn_eq_splitOnP]
      refine List.splitOnP_eq_singleton ?_
      intro c hc
      have hne : c ≠ '\n' := by
        rintro rfl
        exact (isRow_row record).visible.newline_not_mem hc
      simpa using hne
    constructor
    · rw [toList_lines_cons, List.splitOn_append_cons_self, hline, ih.ended]
      rfl
    · exact .cons (isRow_row record) ih.rows

end Record

/-! ## 2. What is printed -/

/-- How many of some records a command shows. -/
def DecodeCommand.shown (command : DecodeCommand) (count : Nat) : Nat :=
  command.limit?.elim count (min · count)

theorem DecodeCommand.out_printed (command : DecodeCommand) (decoded : Table.Decoded) :
    (command.printed decoded).out =
      Record.lines (decoded.records.take (command.shown decoded.records.length)) := by
  rw [printed, shown]
  cases command.limit? with
  | none => simp
  | some limit =>
    have htake : decoded.records.take (min limit decoded.records.length) =
        decoded.records.take limit := List.take_eq_take_iff.mpr (by simp)
    rw [Option.elim_some, htake]

theorem DecodeCommand.shown_le (command : DecodeCommand) (count : Nat) :
    command.shown count ≤ count := by
  rw [shown]
  cases command.limit? with
  | none => exact Nat.le_refl count
  | some limit => exact Nat.min_le_right limit count

/-- **Every row printed is a line from which its record can be read.**  A command that decodes a
file prints lines for its records, for the first of them only if it has a limit.  A poll adds to the
output lines for the records that it hands out, and no others; one that cannot read the file hands
out none. -/
theorem printed_rows (command : DecodeCommand) (contents : ByteArray) (watch : Watch)
    (reading : Reading) :
    let flush : Table.Flush := if command.deferred then .deferred else .atEof
    let records := (Table.decodeBytes none flush contents).records
    let fresh := Stream.handedOutBy (.pollNew reading, .fresh (watch.stream.pollNew reading).result)
    (∃ printed lines, command.run (.ok contents) = .ok printed ∧
        lines.length = command.limit?.elim records.length (min · records.length) ∧
        IsListing printed.out lines (records.take lines.length)) ∧
      ∃ text lines, (watch.pollOnce reading).out = watch.out ++ text ∧
        (watch.pollOnce reading).printed = watch.printed + lines.length ∧
        IsListing text lines fresh := by
  intro flush records fresh
  constructor
  · have hshown : (records.take (command.shown records.length)).length =
        command.shown records.length := by
      rw [List.length_take, Nat.min_eq_left (command.shown_le records.length)]
    refine ⟨command.printed (Table.decodeBytes none flush contents),
      (records.take (command.shown records.length)).map Record.row, rfl, ?_, ?_⟩
    · rw [List.length_map, hshown]
      rfl
    · rw [List.length_map, hshown, command.out_printed]
      exact Record.isListing_lines (records.take (command.shown records.length))
  · obtain ⟨-, hout, hprinted⟩ := Watch.pollOnce_eq watch reading
    refine ⟨Record.lines fresh, fresh.map Record.row, hout, ?_, Record.isListing_lines fresh⟩
    rw [hprinted, List.length_map]

/-- Two columns of one name, and a value of two lines with quotation marks in it. -/
example :
    Record.lines [⟨[("a", "1\n\"2\""), ("a", "é")]⟩] =
      "\x7b\"a\":\"1\\n\\\"2\\\"\",\"a\":\"é\"\x7d\n" := by
  decide

end Collector
