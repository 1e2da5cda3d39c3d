/-
# The grammar of a table

The scan reads a table character by character.  What it finds can be said without it, by
counting the quotation marks of the whole text:

* a newline ends a row, and a comma a field, if an even number of marks stands in front of it;
* within a field, a longest run of `n` marks stands for `n / 2` of them;
* what stands behind the last newline that ends a row is a row too if the writer is done and it
  is more than one empty field.

`table` is the table that a text is by these rules, and `decode_eq_table` says that it is the one
that decoding finds, whatever the text.  No quoting is wrong: a mark in the middle of a field and
a quoted field that is never closed follow the same rules.

The rules are put as what one more character changes (section 4).  From them the scan after any
text is computed from the text alone (`scanOf`), and reading a character keeps it so: the proof
needs no more than the two cases of a quotation mark and of any other character.
-/
import Mathlib.Data.List.DropRight
import Mathlib.Data.List.SplitBy
import Collector.Proofs.Text.LineEnds
import Collector.Table.Decode

namespace Collector
namespace Table
namespace Grammar

/-! ## 1. The grammar -/

/-- The text of a table: one byte-order mark in front is no part of it, and its line ends are
LF. -/
def lines (text : List Char) : List Char :=
  Text.unixLines (if text.head? = some '\ufeff' then text.tail else text)

/-- Every character with the number of quotation marks in front of it. -/
def counted (t : List Char) : List (Char × Nat) :=
  t.mapIdx fun i c => (c, (t.take i).count '"')

/-- The character is this separator and has an even number of quotation marks in front of it. -/
def cuts (separator : Char) (place : Char × Nat) : Bool :=
  place.1 == separator && place.2 % 2 == 0

/-- The text with every longest run of `n` quotation marks made `n / 2` of them. -/
def halved (t : List Char) : List Char :=
  (t.splitBy fun a b => a == '"' && b == '"').flatMap fun run =>
    if run.head? = some '"' then List.replicate (run.length / 2) '"' else run

/-- The value of a field. -/
def value (field : List (Char × Nat)) : String :=
  String.ofList (halved (field.map Prod.fst))

/-- The values of a row. -/
def values (row : List (Char × Nat)) : List String :=
  (row.splitOnP (cuts ',')).map value

/-- The rows of a text.  What stands behind the last row that a newline has ended is a row if
the writer is done and it is more than one empty field. -/
def rowsOf (flush : Flush) (t : List Char) : List (List String) :=
  let segments := ((counted t).splitOnP (cuts '\n')).map values
  segments.dropLast ++
    segments.getLast?.toList.filter fun last => flush = .atEof ∧ last ≠ [""]

/-- The table that some rows are. -/
def ofRows (known : Option (List String)) : List (List String) → Decoded
  | [] => { header := none, records := [], dropped := 0 }
  | own :: later =>
    let header := known.getD own
    { header := some own
      records := later.filterMap fun row =>
        if header.length ≤ row.length then some ⟨header.zip (row.take header.length)⟩ else none
      dropped := (later.filter fun row => ¬ header.length ≤ row.length).length }

/-! ## 2. Cutting a list that gets longer -/

variable {α : Type} {p : α → Bool}

/-- The pieces of a list that a cut has ended. -/
def ended (p : α → Bool) (xs : List α) : List (List α) :=
  (xs.splitOnP p).dropLast

/-- The piece behind the last cut. -/
def begun (p : α → Bool) (xs : List α) : List α :=
  (xs.splitOnP p).getLast (List.splitOnP_ne_nil p xs)

theorem splitOnP_eq (p : α → Bool) (xs : List α) : xs.splitOnP p = ended p xs ++ [begun p xs] :=
  (List.dropLast_concat_getLast (List.splitOnP_ne_nil p xs)).symm

theorem ended_of_splitOnP {xs : List α} {pieces : List (List α)} {last : List α}
    (h : xs.splitOnP p = pieces ++ [last]) : ended p xs = pieces ∧ begun p xs = last := by
  simp [ended, begun, h]

theorem ended_nil (p : α → Bool) : ended p [] = [] ∧ begun p [] = [] :=
  ended_of_splitOnP (by simp)

/-- A cut ends the piece begun. -/
theorem ended_concat_cut (xs : List α) {x : α} (hx : p x = true) :
    ended p (xs ++ [x]) = ended p xs ++ [begun p xs] ∧ begun p (xs ++ [x]) = [] := by
  refine ended_of_splitOnP ?_
  rw [List.splitOnP_append_cons xs [] hx, ← splitOnP_eq, List.splitOnP_nil]

/-- Anything else belongs to the piece begun. -/
theorem splitOnP_concat {x : α} (hx : p x = false) :
    ∀ (xs : List α) (pieces : List (List α)) (last : List α),
      xs.splitOnP p = pieces ++ [last] → (xs ++ [x]).splitOnP p = pieces ++ [last ++ [x]]
  | [], pieces, last, h => by
    rw [List.splitOnP_nil, List.singleton_eq_append_iff] at h
    obtain ⟨rfl, hlast⟩ | ⟨-, hlast⟩ := h
    · obtain rfl : last = [] := by simpa using hlast
      rw [List.nil_append, List.splitOnP_eq_singleton (by simpa using hx)]
      rfl
    · exact absurd hlast (by simp)
  | y :: xs, pieces, last, h => by
    rw [List.cons_append]
    rw [List.splitOnP_cons_eq_if_modifyHead] at h ⊢
    obtain ⟨s, ss, hs⟩ := List.exists_cons_of_ne_nil (List.splitOnP_ne_nil p xs)
    split at h
    · rename_i hy
      rw [if_pos hy]
      cases pieces with
      | nil => simp [hs] at h
      | cons piece pieces =>
        rw [List.cons_append] at h
        obtain ⟨rfl, hpieces⟩ := List.cons.inj h
        rw [splitOnP_concat hx xs pieces last hpieces]
        rfl
    · rename_i hy
      rw [if_neg hy]
      rw [hs, List.modifyHead_cons] at h
      cases pieces with
      | nil =>
        obtain ⟨rfl, rfl⟩ := List.cons.inj h
        rw [splitOnP_concat hx xs [] s hs]
        rfl
      | cons piece pieces =>
        obtain ⟨rfl, rfl⟩ := List.cons.inj h
        rw [splitOnP_concat hx xs (s :: pieces) last hs]
        rfl

theorem ended_concat (xs : List α) {x : α} (hx : p x = false) :
    ended p (xs ++ [x]) = ended p xs ∧ begun p (xs ++ [x]) = begun p xs ++ [x] :=
  ended_of_splitOnP (splitOnP_concat hx xs _ _ (splitOnP_eq p xs))

/-- The character that comes next has all quotation marks of the text in front of it. -/
theorem counted_concat (t : List Char) (c : Char) :
    counted (t ++ [c]) = counted t ++ [(c, t.count '"')] := by
  unfold counted
  rw [List.mapIdx_concat, List.take_left]
  congr 1
  refine List.ext_getElem (by simp) fun i hi hi' => ?_
  have hlength : i ≤ t.length := by simpa using Nat.le_of_lt hi'
  rw [List.getElem_mapIdx, List.getElem_mapIdx, List.take_append_of_le_length hlength]

/-! ## 3. Runs of quotation marks -/

/-- A run ends where two characters stand together that are not both quotation marks. -/
theorem halved_append {u v : List Char}
    (h : ∀ x ∈ u.getLast?, ∀ y ∈ v.head?, (x == '"' && y == '"') = false) :
    halved (u ++ v) = halved u ++ halved v := by
  unfold halved
  rw [List.splitBy_append h, List.flatMap_append]

theorem halved_replicate (n : Nat) :
    halved (List.replicate n '"') = List.replicate (n / 2) '"' := by
  cases n with
  | zero => rfl
  | succ n =>
    have hne : List.replicate (n + 1) '"' ≠ [] := by simp
    rw [halved, List.splitBy_of_isChain hne (List.isChain_replicate_of_rel _ rfl)]
    simp [List.head?_replicate]

/-- Any other character stands for itself. -/
theorem halved_concat (u : List Char) {c : Char} (hc : c ≠ '"') :
    halved (u ++ [c]) = halved u ++ [c] := by
  rw [halved_append (by simp [hc])]
  have hone : halved [c] = [c] := by simp [halved, List.splitBy, List.splitBy.loop, hc]
  rw [hone]

/-- The number of quotation marks at the end of a text. -/
def marksAtEnd (u : List Char) : Nat :=
  (u.rtakeWhile (· == '"')).length

theorem marksAtEnd_concat (u : List Char) {c : Char} (hc : c ≠ '"') :
    marksAtEnd (u ++ [c]) = 0 := by
  rw [marksAtEnd, List.rtakeWhile_concat_neg _ _ _ (by simpa using hc), List.length_nil]

theorem marksAtEnd_concat_mark (u : List Char) : marksAtEnd (u ++ ['"']) = marksAtEnd u + 1 := by
  rw [marksAtEnd, List.rtakeWhile_concat_pos _ _ _ rfl, List.length_append, List.length_singleton,
    marksAtEnd]

/-- A text is what stands before its last run of quotation marks, and the run. -/
theorem halved_eq (u : List Char) :
    halved u =
      halved (u.rdropWhile (· == '"')) ++ List.replicate (marksAtEnd u / 2) '"' := by
  have hrun : u.rtakeWhile (· == '"') = List.replicate (marksAtEnd u) '"' :=
    List.eq_replicate_of_mem fun c hc => by simpa using List.mem_rtakeWhile_imp hc
  have hsplit : u.rdropWhile (· == '"') ++ List.replicate (marksAtEnd u) '"' = u := by
    rw [← hrun, List.rdropWhile_append_rtakeWhile]
  have hbefore : ∀ x ∈ (u.rdropWhile (· == '"')).getLast?, (x == '"') = false := by
    intro x hx
    obtain ⟨hne, rfl⟩ := List.mem_getLast?_eq_getLast hx
    simpa using List.rdropWhile_last_not (· == '"') u hne
  conv_lhs => rw [← hsplit]
  rw [halved_append fun x hx y _ => by simp [hbefore x hx], halved_replicate]

/-- A quotation mark completes a pair if the run in front of it is odd. -/
theorem halved_concat_mark (u : List Char) :
    halved (u ++ ['"']) = halved u ++ List.replicate (marksAtEnd u % 2) '"' := by
  have hhalf : (marksAtEnd u + 1) / 2 = marksAtEnd u / 2 + marksAtEnd u % 2 := by omega
  rw [halved_eq (u ++ ['"']), halved_eq u, List.rdropWhile_concat_pos _ _ _ rfl,
    marksAtEnd_concat_mark, hhalf, List.replicate_add, List.append_assoc]

/-! ## 4. A text that gets longer by one character -/

/-- The rows that a newline has ended. -/
def closedRows (t : List Char) : List (List String) :=
  (ended (cuts '\n') (counted t)).map values

/-- The row begun. -/
def openRow (t : List Char) : List (Char × Nat) :=
  begun (cuts '\n') (counted t)

/-- The fields of the row begun that a comma has ended. -/
def closedFields (t : List Char) : List String :=
  (ended (cuts ',') (openRow t)).map value

/-- The characters of the field begun. -/
def openField (t : List Char) : List Char :=
  (begun (cuts ',') (openRow t)).map Prod.fst

/-- The value of the field begun. -/
def openValue (t : List Char) : String :=
  String.ofList (halved (openField t))

theorem values_openRow (t : List Char) : values (openRow t) = closedFields t ++ [openValue t] := by
  rw [values, splitOnP_eq, List.map_append]
  rfl

/-- The rows of a text are the closed ones and perhaps the row begun. -/
theorem rowsOf_eq (flush : Flush) (t : List Char) :
    rowsOf flush t =
      closedRows t ++
        if flush = .atEof ∧ closedFields t ++ [openValue t] ≠ [""] then
          [closedFields t ++ [openValue t]]
        else [] := by
  have hsegments : ((counted t).splitOnP (cuts '\n')).map values =
      closedRows t ++ [closedFields t ++ [openValue t]] := by
    rw [splitOnP_eq, List.map_append, ← values_openRow]
    rfl
  simp only [rowsOf, hsegments, List.dropLast_concat, List.getLast?_concat, Option.toList_some,
    List.filter_cons, List.filter_nil, decide_eq_true_eq]

variable {t : List Char} {c : Char}

/-- A character that ends no row belongs to the row begun. -/
theorem concat_in_row (hnewline : cuts '\n' (c, t.count '"') = false) :
    closedRows (t ++ [c]) = closedRows t ∧ openRow (t ++ [c]) = openRow t ++ [(c, t.count '"')] := by
  obtain ⟨hrows, hrow⟩ := ended_concat (counted t) hnewline
  constructor
  · rw [closedRows, counted_concat, hrows, closedRows]
  · rw [openRow, counted_concat, hrow, openRow]

/-- A character that separates nothing belongs to the field begun. -/
theorem concat_inside (hnewline : cuts '\n' (c, t.count '"') = false)
    (hcomma : cuts ',' (c, t.count '"') = false) :
    closedRows (t ++ [c]) = closedRows t ∧ closedFields (t ++ [c]) = closedFields t ∧
      openField (t ++ [c]) = openField t ++ [c] := by
  obtain ⟨hrows, hopen⟩ := concat_in_row hnewline
  obtain ⟨hfields, hfield⟩ := ended_concat (openRow t) hcomma
  refine ⟨hrows, ?_, ?_⟩
  · rw [closedFields, hopen, hfields, closedFields]
  · rw [openField, hopen, hfield, List.map_append, openField]
    rfl

/-- A separating comma ends the field begun. -/
theorem concat_comma (hnewline : cuts '\n' (c, t.count '"') = false)
    (hcomma : cuts ',' (c, t.count '"') = true) :
    closedRows (t ++ [c]) = closedRows t ∧
      closedFields (t ++ [c]) = closedFields t ++ [openValue t] ∧ openField (t ++ [c]) = [] := by
  obtain ⟨hrows, hopen⟩ := concat_in_row hnewline
  obtain ⟨hfields, hfield⟩ := ended_concat_cut (openRow t) hcomma
  refine ⟨hrows, ?_, ?_⟩
  · rw [closedFields, hopen, hfields, List.map_append, closedFields]
    rfl
  · rw [openField, hopen, hfield, List.map_nil]

/-- A separating newline ends the row begun. -/
theorem concat_newline (hnewline : cuts '\n' (c, t.count '"') = true) :
    closedRows (t ++ [c]) = closedRows t ++ [closedFields t ++ [openValue t]] ∧
      closedFields (t ++ [c]) = [] ∧ openField (t ++ [c]) = [] := by
  obtain ⟨hrows, hrow⟩ := ended_concat_cut (counted t) hnewline
  have hopen : openRow (t ++ [c]) = [] := by rw [openRow, counted_concat, hrow]
  obtain ⟨hfields, hfield⟩ := ended_nil (cuts ',')
  refine ⟨?_, ?_, ?_⟩
  · rw [closedRows, counted_concat, hrows, List.map_append, ← values_openRow, closedRows]
    rfl
  · rw [closedFields, hopen, hfields, List.map_nil]
  · rw [openField, hopen, hfield, List.map_nil]

/-! ## 5. The scan, read off the text -/

/-- The number is odd. -/
def odd (n : Nat) : Bool := n % 2 == 1

theorem odd_succ (n : Nat) : odd (n + 1) = !odd n := by
  unfold odd
  rcases Nat.mod_two_eq_zero_or_one n with h | h <;> simp [Nat.add_mod, h]

/-- The scan that has read a text, computed from the text alone.  A mark is alone at the end of
an odd run; the text is quoted after an odd number of marks, one that is alone left aside. -/
def scanOf (t : List Char) : Scan where
  mark := odd (marksAtEnd (openField t))
  quoted := odd (t.count '"') ^^ odd (marksAtEnd (openField t))
  field := openValue t
  row := (closedFields t).toArray
  rows := (closedRows t).toArray

theorem push_ofList (l : List Char) (c : Char) :
    (String.ofList l).push c = String.ofList (l ++ [c]) :=
  String.toList_inj.mp (by simp)

/-- **Reading a quotation mark.**  One that follows an odd run completes a pair. -/
theorem feed_scanOf_mark (t : List Char) : (scanOf t).feed '"' = scanOf (t ++ ['"']) := by
  obtain ⟨hrows, hfields, hfield⟩ := concat_inside (t := t) (c := '"') rfl rfl
  have hcount : (t ++ ['"']).count '"' = t.count '"' + 1 := by simp
  have hnext : scanOf (t ++ ['"']) =
      { mark := !odd (marksAtEnd (openField t))
        quoted := !odd (t.count '"') ^^ !odd (marksAtEnd (openField t))
        field := String.ofList
          (halved (openField t) ++ List.replicate (marksAtEnd (openField t) % 2) '"')
        row := (closedFields t).toArray
        rows := (closedRows t).toArray } := by
    rw [scanOf, hrows, hfields, openValue, hfield, hcount, marksAtEnd_concat_mark,
      halved_concat_mark, odd_succ, odd_succ]
  rw [hnext, Scan.feed, if_pos rfl]
  by_cases hmark : (scanOf t).mark = true
  · have hodd : marksAtEnd (openField t) % 2 = 1 := by simpa [scanOf, odd] using hmark
    rw [if_pos hmark]
    simp [scanOf, odd, hodd, openValue, push_ofList]
  · have heven : marksAtEnd (openField t) % 2 = 0 := by simpa [scanOf, odd] using hmark
    rw [if_neg hmark]
    simp [scanOf, odd, heven, openValue]

/-- A mark that stands alone has switched between quoted and unquoted text. -/
theorem settle_scanOf (t : List Char) :
    (scanOf t).settle = { scanOf t with mark := false, quoted := odd (t.count '"') } := by
  unfold Scan.settle
  by_cases hmark : (scanOf t).mark = true
  · have hodd : odd (marksAtEnd (openField t)) = true := hmark
    rw [if_pos hmark]
    simp [scanOf, hodd]
  · have heven : odd (marksAtEnd (openField t)) = false := Bool.eq_false_iff.mpr hmark
    rw [if_neg hmark]
    simp [scanOf, heven]

/-- In unquoted text a separator cuts. -/
theorem cuts_eq (separator : Char) (n : Nat) (c : Char) :
    cuts separator (c, n) = (decide (c = separator) && !odd n) := by
  unfold cuts odd
  rcases Nat.mod_two_eq_zero_or_one n with h | h
  · simp [h, beq_eq_decide]
  · simp [h]

/-- Behind any other character than a mark, no mark is alone. -/
theorem scanOf_of_marksAtEnd {t : List Char} (h : marksAtEnd (openField t) = 0) :
    scanOf t =
      { mark := false
        quoted := odd (t.count '"')
        field := openValue t
        row := (closedFields t).toArray
        rows := (closedRows t).toArray } := by
  rw [scanOf, h]
  simp [odd]

/-- **Reading any other character.**  A separator in unquoted text ends the field or the row
begun, and everything else belongs to the field. -/
theorem feed_scanOf (t : List Char) {c : Char} (hc : c ≠ '"') :
    (scanOf t).feed c = scanOf (t ++ [c]) := by
  have hcount : (t ++ [c]).count '"' = t.count '"' := by simp [hc]
  have hfeed : (scanOf t).feed c =
      { scanOf t with mark := false, quoted := odd (t.count '"') }.feedPlain c := by
    rw [Scan.feed, if_neg hc, settle_scanOf]
  rw [hfeed, Scan.feedPlain]
  dsimp only
  rw [← cuts_eq, ← cuts_eq]
  split
  · rename_i hcomma
    have hnewline : cuts '\n' (c, t.count '"') = false := by
      rw [cuts_eq] at hcomma ⊢
      simp_all
    obtain ⟨hrows, hfields, hfield⟩ := concat_comma hnewline hcomma
    have hend : marksAtEnd (openField (t ++ [c])) = 0 := by rw [hfield]; rfl
    rw [scanOf_of_marksAtEnd hend, hrows, hfields, openValue, hfield, hcount]
    simp [Scan.closeField, scanOf, halved]
  split
  · rename_i hnewline
    obtain ⟨hrows, hfields, hfield⟩ := concat_newline hnewline
    have hend : marksAtEnd (openField (t ++ [c])) = 0 := by rw [hfield]; rfl
    rw [scanOf_of_marksAtEnd hend, hrows, hfields, openValue, hfield, hcount]
    simp [Scan.closeRow, scanOf, halved]
  · rename_i hcomma hnewline
    obtain ⟨hrows, hfields, hfield⟩ := concat_inside (Bool.eq_false_iff.mpr hnewline)
      (Bool.eq_false_iff.mpr hcomma)
    have hend : marksAtEnd (openField (t ++ [c])) = 0 := by rw [hfield, marksAtEnd_concat _ hc]
    rw [scanOf_of_marksAtEnd hend, hrows, hfields, openValue, hfield, hcount, halved_concat _ hc]
    simp [scanOf, openValue]

/-- **The scan computes what can be read off the text.** -/
theorem foldl_feed (t : List Char) : t.foldl Scan.feed {} = scanOf t := by
  induction t using List.reverseRecOn with
  | nil => rfl
  | append_singleton t c ih =>
    rw [List.foldl_append, ih, List.foldl_cons, List.foldl_nil]
    by_cases hc : c = '"'
    · subst hc
      exact feed_scanOf_mark t
    · exact feed_scanOf t hc

/-- Nothing has been read of a row if it is a single empty field. -/
theorem atRowStart_scanOf (t : List Char) :
    (scanOf t).atRowStart = true ↔ closedFields t ++ [openValue t] = [""] := by
  cases hfields : closedFields t with
  | nil => simp [Scan.atRowStart, scanOf, hfields, String.isEmpty_iff]
  | cons field fields => simp [Scan.atRowStart, scanOf, hfields]

/-- **The rows that the scan completes are those of the grammar.** -/
theorem rows_eq (flush : Flush) (text : String) :
    Table.rows flush text = rowsOf flush text.toList := by
  rw [Table.rows, foldl_feed, rowsOf_eq]
  cases flush with
  | deferred => simp [Scan.finish, scanOf]
  | atEof =>
    rw [Scan.finish]
    by_cases hstart : (scanOf text.toList).atRowStart = true
    · have hempty := (atRowStart_scanOf text.toList).mp hstart
      rw [if_pos hstart, if_neg (by simp [hempty]), List.append_nil]
      simp [scanOf]
    · have hrow := mt (atRowStart_scanOf text.toList).mpr hstart
      rw [if_neg hstart, if_pos ⟨rfl, hrow⟩]
      simp [Scan.closeRow, scanOf]

/-! ## 6. Records -/

/-- Cutting a row to the length of the header changes nothing about a record. -/
theorem ofRow_eq (header row : List String) :
    Record.ofRow header row = ⟨header.zip (row.take header.length)⟩ := by
  have hzip : header.zip row = header.zip (row.take header.length) := by
    induction header generalizing row with
    | nil => rfl
    | cons column header ih =>
      cases row with
      | nil => rfl
      | cons field row =>
        rw [List.length_cons, List.take_succ_cons, List.zip_cons_cons, List.zip_cons_cons, ← ih]
  rw [Record.ofRow, hzip]

theorem ofRows_eq (known : Option (List String)) (rows : List (List String)) :
    Decoded.ofRows known rows = ofRows known rows := by
  cases rows with
  | nil => rfl
  | cons own later =>
    have hrecords (header : List String) :
        (later.filter fun row => header.length ≤ row.length).map (Record.ofRow header) =
          later.filterMap fun row =>
            if header.length ≤ row.length then some ⟨header.zip (row.take header.length)⟩
            else none := by
      induction later with
      | nil => rfl
      | cons row later ih =>
        by_cases hrow : header.length ≤ row.length
        · rw [List.filter_cons_of_pos (by simpa using hrow), List.map_cons, ih, ofRow_eq]
          simp only [List.filterMap_cons, if_pos hrow]
        · rw [List.filter_cons_of_neg (by simpa using hrow), ih]
          simp only [List.filterMap_cons, if_neg hrow]
    have hdropped (header : List String) :
        (later.countP fun row => row.length < header.length) =
          (later.filter fun row => ¬ header.length ≤ row.length).length := by
      rw [List.countP_eq_length_filter]
      simp only [Nat.not_le]
    simp only [Decoded.ofRows, ofRows, hrecords, hdropped]

/-- The table that a text is, by the grammar. -/
def table (known : Option (List String)) (flush : Flush) (text : String) : Decoded :=
  ofRows known (rowsOf flush (lines text.toList))

/-- **Decoding follows the grammar.** -/
theorem decode_eq_table (known : Option (List String)) (flush : Flush) (text : String) :
    decode known flush text = table known flush text := by
  rw [decode, table, ofRows_eq, rows_eq, Text.lfLines_eq, Text.withoutMark_eq, lines]

end Grammar
end Table
end Collector
