/-
# Reading back a table that was written

A writer puts a value between quotation marks and doubles every mark in it, or leaves it bare if
nothing in it needs the marks.  Commas stand between the values of a row, and each row ends with
LF.  Decoding gives the values back (`decode_text`), but for two things.

* CR LF becomes LF inside a value, as everywhere in a table.
* Marks are paired from the left.  In a value of marks only, the mark that opens the field is
  paired with the first of them and the mark that closes it with the last, and the value is read
  with one mark more.  The empty value is one of these: `""` is read as one mark.

Both are in `Cell.decoded`, which says what each written value is read as.
-/
import Collector.Proofs.Table.Grammar

namespace Collector
namespace Table

/-! ## 1. Tables as they are written -/

/-- The value with every quotation mark doubled. -/
def doubled (value : List Char) : List Char :=
  value.flatMap fun c => if c = '"' then ['"', '"'] else [c]

/-- A value, in one of the two forms in which it can be written. -/
inductive Cell where
  | quoted (value : String)
  | bare (value : String) (plain : ∀ c ∈ value.toList, c ∉ [',', '"', '\r', '\n'])

namespace Cell

def text : Cell → List Char
  | quoted value => '"' :: doubled value.toList ++ ['"']
  | bare value _ => value.toList

/-- The value that is read. -/
def decoded : Cell → String
  | quoted value =>
    let lines := Text.unixLines value.toList
    String.ofList (if lines.all (· == '"') then lines ++ ['"'] else lines)
  | bare value _ => value

/-- The text does not begin with a byte-order mark.  A quotation mark in front is none. -/
def Unmarked : Cell → Prop
  | quoted _ => True
  | bare value _ => value.toList.head? ≠ some '\ufeff'

end Cell

/-- A row as it is written: one value and any others. -/
structure Line where
  first : Cell
  others : List Cell

namespace Line

def cells (line : Line) : List Cell :=
  line.first :: line.others

def text (line : Line) : List Char :=
  [','].intercalate (line.cells.map Cell.text) ++ ['\n']

/-- The values that are read. -/
def values (line : Line) : List String :=
  line.cells.map Cell.decoded

end Line

/-- A table as it is written: the header and any rows below it. -/
structure Sheet where
  header : Line
  later : List Line
  unmarked : header.first.Unmarked

def Sheet.text (sheet : Sheet) : List Char :=
  (sheet.header :: sheet.later).flatMap Line.text

/-! ## 2. Line ends in a written value -/

theorem doubled_cons {c : Char} (hc : c ≠ '"') (value : List Char) :
    doubled (c :: value) = c :: doubled value := by
  rw [doubled, List.flatMap_cons, if_neg hc]
  rfl

theorem doubled_cons_mark (value : List Char) :
    doubled ('"' :: value) = '"' :: '"' :: doubled value := rfl

theorem head?_doubled (value : List Char) : (doubled value).head? = value.head? := by
  cases value with
  | nil => rfl
  | cons c value =>
    by_cases hc : c = '"'
    · rw [hc, doubled_cons_mark]
      rfl
    · rw [doubled_cons hc]
      rfl

/-- Doubling the marks neither makes nor breaks a line end. -/
theorem unixLines_doubled (value : List Char) :
    Text.unixLines (doubled value) = doubled (Text.unixLines value) := by
  induction value using Text.unixLines.induct with
  | case1 rest ih =>
    rw [doubled_cons (by decide), doubled_cons (by decide), Text.unixLines, ih, Text.unixLines,
      doubled_cons (by decide)]
  | case2 c rest hcut ih =>
    have hc : c = '\r' → rest.head? ≠ some '\n' := Text.head?_ne_of_not_cut hcut
    rw [Text.unixLines_cons hc]
    by_cases hmark : c = '"'
    · subst hmark
      rw [doubled_cons_mark, doubled_cons_mark, Text.unixLines_cons (by simp),
        Text.unixLines_cons (by simp), ih]
    · rw [doubled_cons hmark, doubled_cons hmark, Text.unixLines_cons (by rwa [head?_doubled]), ih]
  | case3 => rfl

theorem Cell.getLast?_text (cell : Cell) : cell.text.getLast? ≠ some '\r' := by
  cases cell with
  | quoted value =>
    rw [text, List.getLast?_concat]
    decide
  | bare value plain =>
    intro hcr
    exact plain '\r' (List.mem_of_getLast? hcr) (by simp)

theorem Cell.unixLines_quoted (value : String) :
    Text.unixLines (quoted value).text =
      '"' :: doubled (Text.unixLines value.toList) ++ ['"'] := by
  have hopen : Text.unixLines ('"' :: doubled value.toList) =
      '"' :: Text.unixLines (doubled value.toList) := Text.unixLines_cons (by simp)
  rw [text, Text.unixLines_append (by simp), hopen, unixLines_doubled]
  rfl

theorem Cell.unixLines_bare {value : String}
    (plain : ∀ c ∈ value.toList, c ∉ [',', '"', '\r', '\n']) :
    Text.unixLines (bare value plain).text = value.toList :=
  Text.unixLines_of_not_mem fun hcr => plain '\r' hcr (by simp)

/-! ## 3. Reading a field -/

/-- The scan after some more text, with line ends made LF. -/
def Scan.read (s : Scan) (t : List Char) : Scan :=
  (Text.unixLines t).foldl Scan.feed s

theorem Scan.read_append {u v : List Char} (h : u.getLast? ≠ some '\r') (s : Scan) :
    s.read (u ++ v) = (s.read u).read v := by
  rw [Scan.read, Text.unixLines_append fun hcr => absurd hcr h, List.foldl_append]
  rfl

theorem Scan.feed_of_ne (s : Scan) {c : Char} (hc : c ≠ '"') :
    s.feed c = s.settle.feedPlain c := if_neg hc

variable {row : Array String} {rows : Array (List String)}

/-- The scan within a quoted field, after the mark that opens it and some of its value.  As long
as the value is marks only, the last one is alone; from the first other character on, the text
is quoted. -/
def within (row : Array String) (rows : Array (List String)) (value : List Char) : Scan :=
  { mark := value.all (· == '"')
    quoted := !value.all (· == '"')
    field := String.ofList value
    row
    rows }

/-- Within a quoted field, each character of the value is read as itself, a doubled mark as one. -/
theorem foldl_feed_doubled_one (value : List Char) (c : Char) :
    (doubled [c]).foldl Scan.feed (within row rows value) = within row rows (value ++ [c]) := by
  by_cases hc : c = '"'
  · subst hc
    cases hmarks : value.all (· == '"') with
    | true => simp [doubled, within, hmarks, Scan.feed, Grammar.push_ofList]
    | false => simp [doubled, within, hmarks, Scan.feed, Grammar.push_ofList]
  · have hfeed : (within row rows value).feed c =
        { field := (String.ofList value).push c, quoted := true, row, rows } := by
      rw [Scan.feed_of_ne _ hc]
      cases hmarks : value.all (· == '"') with
      | true => simp [within, hmarks, Scan.settle, Scan.feedPlain]
      | false => simp [within, hmarks, Scan.settle, Scan.feedPlain]
    rw [doubled_cons hc, List.foldl_cons, hfeed, Grammar.push_ofList]
    simp [doubled, within, hc]

theorem foldl_feed_doubled (value more : List Char) :
    (doubled more).foldl Scan.feed (within row rows value) = within row rows (value ++ more) := by
  induction more generalizing value with
  | nil => rw [List.append_nil]; rfl
  | cons c more ih =>
    have hsplit : doubled (c :: more) = doubled [c] ++ doubled more := by
      simp [doubled]
    rw [hsplit, List.foldl_append, foldl_feed_doubled_one, ih, List.append_assoc]
    rfl

/-- **Reading a quoted field.**  The mark that closes it is paired with the one in front of it if
the value is marks only. -/
theorem read_quoted (value : List Char) :
    (('"' :: doubled value ++ ['"']).foldl Scan.feed { row, rows }).settle =
      { field := String.ofList (if value.all (· == '"') then value ++ ['"'] else value)
        row
        rows } := by
  have hvalue : ('"' :: doubled value).foldl Scan.feed { row, rows } = within row rows value :=
    foldl_feed_doubled [] value
  rw [List.foldl_append, hvalue, List.foldl_cons, List.foldl_nil]
  cases hmarks : value.all (· == '"') with
  | true => simp [within, hmarks, Scan.feed, Scan.settle, Grammar.push_ofList]
  | false => simp [within, hmarks, Scan.feed, Scan.settle]

/-- Reading a bare field. -/
theorem read_bare (value more : List Char)
    (plain : ∀ c ∈ more, c ∉ [',', '"', '\r', '\n']) :
    more.foldl Scan.feed { field := String.ofList value, row, rows } =
      { field := String.ofList (value ++ more), row, rows } := by
  induction more generalizing value with
  | nil => rw [List.append_nil]; rfl
  | cons c more ih =>
    have hc := plain c List.mem_cons_self
    simp only [List.mem_cons, List.not_mem_nil, or_false, not_or] at hc
    obtain ⟨hcomma, hmark, -, hlf⟩ := hc
    have hfeed : Scan.feed { field := String.ofList value, row, rows } c =
        { field := String.ofList (value ++ [c]), row, rows } := by
      rw [Scan.feed_of_ne _ hmark, ← Grammar.push_ofList]
      simp [Scan.settle, Scan.feedPlain, hcomma, hlf]
    rw [List.foldl_cons, hfeed, ih _ fun d hd => plain d (List.mem_cons_of_mem c hd),
      List.append_assoc]
    rfl

/-- **Reading a value gives what it is decoded to**, in either form. -/
theorem read_text (cell : Cell) :
    (Scan.read { row, rows } cell.text).settle = { field := cell.decoded, row, rows } := by
  cases cell with
  | quoted value => rw [Scan.read, Cell.unixLines_quoted, read_quoted, Cell.decoded]
  | bare value plain =>
    have hread : value.toList.foldl Scan.feed { row, rows } = { field := value, row, rows } :=
      (read_bare [] value.toList plain).trans (by rw [List.nil_append, String.ofList_toList])
    rw [Scan.read, Cell.unixLines_bare, Cell.decoded, hread]
    rfl

/-! ## 4. Reading rows -/

/-- A comma behind a value ends the field. -/
theorem read_comma (cell : Cell) :
    Scan.read { row, rows } (cell.text ++ [',']) = { row := row.push cell.decoded, rows } := by
  rw [Scan.read_append cell.getLast?_text, Scan.read, Text.unixLines_of_not_mem (by simp),
    List.foldl_cons, Scan.feed_of_ne _ (by decide), read_text]
  rfl

/-- A newline behind a value ends the row. -/
theorem read_newline (cell : Cell) :
    Scan.read { row, rows } (cell.text ++ ['\n']) =
      { rows := rows.push (row.toList ++ [cell.decoded]) } := by
  rw [Scan.read_append cell.getLast?_text, Scan.read, Text.unixLines_of_not_mem (by simp),
    List.foldl_cons, Scan.feed_of_ne _ (by decide), read_text]
  simp [Scan.feedPlain, Scan.closeRow]

theorem read_cells (cell : Cell) (others : List Cell) :
    Scan.read { row, rows } ([','].intercalate ((cell :: others).map Cell.text) ++ ['\n']) =
      { rows := rows.push (row.toList ++ (cell :: others).map Cell.decoded) } := by
  induction others generalizing cell row with
  | nil =>
    rw [List.map_singleton, List.intercalate_singleton, read_newline]
    rfl
  | cons next others ih =>
    have hsplit : [','].intercalate ((cell :: next :: others).map Cell.text) =
        (cell.text ++ [',']) ++ [','].intercalate ((next :: others).map Cell.text) := by
      rw [List.map_cons, List.map_cons, List.intercalate_cons_cons, List.append_assoc]
    rw [hsplit, List.append_assoc, Scan.read_append (by simp), read_comma, ih]
    simp

/-- **Reading a row completes it.** -/
theorem read_line (line : Line) :
    Scan.read { rows } line.text = { rows := rows.push line.values } :=
  read_cells line.first line.others

theorem read_lines (lines : List Line) :
    Scan.read { rows } (lines.flatMap Line.text) =
      { rows := rows ++ (lines.map Line.values).toArray } := by
  induction lines generalizing rows with
  | nil => simp [Scan.read, Text.unixLines]
  | cons line lines ih =>
    have hlf : line.text.getLast? ≠ some '\r' := by
      rw [Line.text, List.getLast?_concat]
      decide
    rw [List.flatMap_cons, Scan.read_append hlf, read_line, ih]
    simp

/-! ## 5. Reading the table -/

/-- A row begins with the text of its first value, or with the character that ends it. -/
theorem Line.head?_text (line : Line) :
    line.text.head? = line.first.text.head? ∨ line.text.head? = some ',' ∨
      line.text.head? = some '\n' := by
  rw [Line.text, Line.cells]
  cases htext : line.first.text with
  | cons c rest =>
    cases hothers : line.others with
    | nil => exact Or.inl (by simp [htext])
    | cons next others => exact Or.inl (by simp [htext])
  | nil =>
    cases hothers : line.others with
    | nil => exact Or.inr (Or.inr (by simp [htext]))
    | cons next others => exact Or.inr (Or.inl (by simp [htext]))

theorem Cell.Unmarked.head?_text {cell : Cell} (h : cell.Unmarked) :
    cell.text.head? ≠ some '\ufeff' := by
  cases cell with
  | quoted value => simp [text]
  | bare value plain => exact h

/-- A written table has no byte-order mark to remove. -/
theorem Sheet.withoutMark_text (sheet : Sheet) : Text.withoutMark sheet.text = sheet.text := by
  have hheader : sheet.header.text ≠ [] := by simp [Line.text]
  have hhead : sheet.text.head? = sheet.header.text.head? := by
    obtain ⟨c, rest, htext⟩ := List.exists_cons_of_ne_nil hheader
    rw [Sheet.text, List.flatMap_cons, htext]
    rfl
  rw [Text.withoutMark_eq, if_neg]
  rw [hhead]
  rcases sheet.header.head?_text with h | h | h
  · rw [h]
    exact sheet.unmarked.head?_text
  · rw [h]
    decide
  · rw [h]
    decide

/-- **The rows of a written table are its rows as decoded**, whether or not the writer is done. -/
theorem Sheet.rows_text (sheet : Sheet) (flush : Flush) :
    Table.rows flush (Text.lfLines (Text.withoutMark sheet.text)) =
      sheet.header.values :: sheet.later.map Line.values := by
  have hread : (Text.unixLines sheet.text).foldl Scan.feed {} =
      { rows := #[] ++ ((sheet.header :: sheet.later).map Line.values).toArray } :=
    read_lines (sheet.header :: sheet.later)
  rw [sheet.withoutMark_text, Table.rows, Text.lfLines_eq, hread]
  cases flush with
  | deferred => simp [Scan.finish]
  | atEof => simp [Scan.finish, Scan.atRowStart]

/-- **Decoding gives back what was written.**  The header is the first row, every later row that
is long enough is a record of its first values under the header, in order, and the others are
counted. -/
theorem decode_text (sheet : Sheet) (flush : Flush) :
    let header := sheet.header.values
    let later := sheet.later.map Line.values
    decode none flush (String.ofList sheet.text) =
      { header := some header
        records := (later.filter fun row => header.length ≤ row.length).map fun row =>
          ⟨header.zip (row.take header.length)⟩
        dropped := later.countP fun row => row.length < header.length } := by
  intro header later
  have hrecords : Record.ofRow header = fun row => ⟨header.zip (row.take header.length)⟩ :=
    funext (Grammar.ofRow_eq header)
  rw [decode, String.toList_ofList, sheet.rows_text, Decoded.ofRows, ← hrecords]
  rfl

/-- The empty value, a value of one mark, a line end within a value, a row longer than the header
and a row too short for it. -/
example :
    let sheet : Sheet :=
      { header := ⟨.bare "a" (by simp), [.quoted ""]⟩
        later := [
          ⟨.quoted "\"", [.quoted "x\r\ny\"", .bare "z" (by simp)]⟩,
          ⟨.bare "" (by simp), []⟩]
        unmarked := by simp [Cell.Unmarked] }
    decode none .deferred (String.ofList sheet.text) =
      { header := some ["a", "\""]
        records := [⟨[("a", "\"\""), ("\"", "x\ny\"")]⟩]
        dropped := 1 } := by
  decide

end Table
end Collector
