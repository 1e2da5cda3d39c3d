/-
# The last row of a table that still grows

A reader that believes the writer done takes the last row although no newline has ended it.  If the
writer goes on all the same, the row that was taken may still change: its last value gets longer,
more values follow, a half-written character or a lone quotation mark turns out to be something
else.  It never gets fewer values.  Hence the number of records that such a reader sees never drops
(`length_records_le`), although the records themselves may change.

`Scan.Continues` is what a scan keeps when more characters follow; `Widens` is what the rows keep
when the text is resumed (`widens_rows`).
-/
import Collector.Proofs.Table.Growth
import Collector.Proofs.Text.Resuming

namespace Collector
namespace Table

open Text (Plain Begins Resumes)

/-! ## 1. What more characters do to the row begun -/

namespace Scan

/-- `later` has read on from `s`: the row begun is still open and has got no shorter, or it has
ended with the value that was open, at the least. -/
def Continues (s later : Scan) : Prop :=
  (later.rows = s.rows ∧ s.row.size ≤ later.row.size ∧
      (s.atRowStart = false → later.atRowStart = false)) ∨
    ∃ row more, later.rows.toList = s.rows.toList ++ row :: more ∧ s.row.size < row.length

theorem Continues.refl (s : Scan) : s.Continues s :=
  Or.inl ⟨rfl, Nat.le_refl _, id⟩

theorem Continues.trans {s t u : Scan} (h : s.Continues t) (h' : t.Continues u) :
    s.Continues u := by
  rcases h with ⟨hrows, hsize, hbegun⟩ | ⟨row, more, hrows, hsize⟩
  · rcases h' with ⟨hrows', hsize', hbegun'⟩ | ⟨row, more, hrows', hsize'⟩
    · exact Or.inl ⟨hrows'.trans hrows, Nat.le_trans hsize hsize', hbegun' ∘ hbegun⟩
    · exact Or.inr ⟨row, more, hrows ▸ hrows', Nat.lt_of_le_of_lt hsize hsize'⟩
  · refine Or.inr ?_
    rcases h' with ⟨hrows', -, -⟩ | ⟨row', more', hrows', -⟩
    · exact ⟨row, more, hrows' ▸ hrows, hsize⟩
    · refine ⟨row, more ++ row' :: more', ?_, hsize⟩
      rw [hrows', hrows, List.append_assoc, List.cons_append]

theorem atRowStart_eq_false {s : Scan} (h : s.field ≠ "" ∨ s.row ≠ #[]) :
    s.atRowStart = false := by
  rw [atRowStart, Bool.and_eq_false_iff]
  rcases h with h | h
  · exact Or.inl (by simpa using h)
  · exact Or.inr (by simpa using h)

@[simp] theorem settle_row (s : Scan) : s.settle.row = s.row := by
  unfold settle
  split <;> rfl

@[simp] theorem settle_field (s : Scan) : s.settle.field = s.field := by
  unfold settle
  split <;> rfl

/-- A character other than a quotation mark leaves a row begun, or ends the row. -/
theorem feed_of_ne_mark (s : Scan) {c : Char} (hc : c ≠ '"') :
    ((s.feed c).rows = s.rows ∧ s.row.size ≤ (s.feed c).row.size ∧
        (s.feed c).atRowStart = false) ∨
      ∃ row, (s.feed c).rows.toList = s.rows.toList ++ [row] ∧ s.row.size < row.length := by
  rw [feed, if_neg hc, feedPlain]
  split
  · refine Or.inl ⟨settle_rows s, ?_, atRowStart_eq_false (Or.inr ?_)⟩
    · simp [closeField]
    · simp [closeField]
  · split
    · exact Or.inr ⟨(s.settle.row.push s.settle.field).toList, by simp [closeRow], by simp⟩
    · exact Or.inl ⟨settle_rows s, by simp, atRowStart_eq_false (Or.inl (by simp))⟩

theorem feed_continues (s : Scan) (c : Char) : s.Continues (s.feed c) := by
  by_cases hc : c = '"'
  · rw [feed, if_pos hc]
    split
    · exact Or.inl ⟨rfl, Nat.le_refl _, fun _ => atRowStart_eq_false (Or.inl (by simp))⟩
    · exact Or.inl ⟨rfl, Nat.le_refl _, id⟩
  · rcases s.feed_of_ne_mark hc with ⟨hrows, hsize, hbegun⟩ | ⟨row, hrows, hsize⟩
    · exact Or.inl ⟨hrows, hsize, fun _ => hbegun⟩
    · exact Or.inr ⟨row, [], hrows, hsize⟩

theorem foldl_feed_continues (t : List Char) (s : Scan) : s.Continues (t.foldl feed s) := by
  induction t generalizing s with
  | nil => exact Continues.refl s
  | cons c t ih => exact (feed_continues s c).trans (ih (s.feed c))

/-- Text that does not begin with a quotation mark begins a row, unless it ends one. -/
theorem foldl_feed_begun {t : List Char} (ht : Begins t) (s : Scan)
    (hrows : (t.foldl feed s).rows = s.rows) : (t.foldl feed s).atRowStart = false := by
  obtain ⟨c, more, rfl, hc⟩ := ht
  rcases s.feed_of_ne_mark hc with ⟨hsame, -, hbegun⟩ | ⟨row, hrow, -⟩
  · rcases foldl_feed_continues more (s.feed c) with ⟨-, -, hkeep⟩ | ⟨row, later, hrow, -⟩
    · exact hkeep hbegun
    · -- a row ended later would be one more
      have hlength := congrArg List.length hrow
      rw [List.foldl_cons] at hrows
      rw [hrows, hsame] at hlength
      simp at hlength
  · have hprefix : (s.feed c).rows.toList <+: ((c :: more).foldl feed s).rows.toList :=
      (foldl_feed_adds (Q := fun _ => True) more (s.feed c) (by simp)).isPrefix
    have hlength := hprefix.length_le
    rw [hrows, hrow, List.length_append, List.length_singleton] at hlength
    exact absurd hlength (Nat.not_succ_le_self _)

/-- A plain character belongs to the value that is open. -/
theorem feed_plain (s : Scan) {c : Char} (hc : Plain c) :
    s.feed c = { s.settle with field := s.settle.field.push c } := by
  obtain ⟨hnewline, hcomma, hmark⟩ := hc
  rw [feed, if_neg hmark, feedPlain, if_neg (by simp [hcomma]), if_neg (by simp [hnewline])]

/-- Plain characters leave the row that is open and those before it alone. -/
theorem foldl_feed_plain {t : List Char} (ht : ∀ c ∈ t, Plain c) (s : Scan) :
    (t.foldl feed s).rows = s.rows ∧ (t.foldl feed s).row = s.row := by
  induction t generalizing s with
  | nil => exact ⟨rfl, rfl⟩
  | cons c t ih =>
    have hc : Plain c := ht c List.mem_cons_self
    obtain ⟨hrows, hrow⟩ := ih (fun c' hc' => ht c' (List.mem_cons_of_mem c hc')) (s.feed c)
    rw [List.foldl_cons, hrows, hrow, s.feed_plain hc]
    exact ⟨settle_rows s, settle_row s⟩

/-- At the end of the text a row that was begun is the last one. -/
theorem finish_atEof_of_begun {s : Scan} (h : s.atRowStart = false) :
    s.finish .atEof = s.rows.toList ++ [(s.row.push s.field).toList] := by
  simp [finish, h, closeRow]

end Scan

/-! ## 2. What a resumed text does to the rows -/

/-- `rows'` goes on where `rows` ended: it has the same rows, but for the last one, which may have
got more values. -/
def Widens (rows rows' : List (List String)) : Prop :=
  ∃ ended more, rows' = ended ++ more ∧
    (rows = ended ∨ ∃ last wider later, rows = ended ++ [last] ∧ more = wider :: later ∧
      last.length ≤ wider.length)

/-- **Rows are only widened.**  The last row of a text that is resumed stays a row and keeps its
number of values at least. -/
theorem widens_rows {text text' : String} (h : Resumes text.toList text'.toList) :
    Widens (rows .atEof text) (rows .atEof text') := by
  obtain ⟨kept, tail, rest, htext, htext', htail, hrest⟩ := h
  rw [rows, rows, htext, htext', List.foldl_append, List.foldl_append]
  let s := kept.foldl Scan.feed {}
  let stopped := tail.foldl Scan.feed s
  let later := rest.foldl Scan.feed s
  change Widens (stopped.finish .atEof) (later.finish .atEof)
  obtain ⟨hrows, hrow⟩ : stopped.rows = s.rows ∧ stopped.row = s.row :=
    Scan.foldl_feed_plain htail s
  have hlater : s.Continues later := Scan.foldl_feed_continues rest s
  cases hbegun : stopped.atRowStart with
  | true =>
    have hstopped : stopped.finish .atEof = s.rows.toList := by simp [Scan.finish, hbegun, hrows]
    have hprefix : s.rows.toList <+: later.finish .atEof :=
      (Scan.foldl_feed_adds (Q := fun _ => True) rest s (by simp)).isPrefix.trans
        (Scan.finish_isPrefix later .atEof)
    obtain ⟨more, hmore⟩ := hprefix
    exact ⟨s.rows.toList, more, hmore.symm, Or.inl hstopped⟩
  | false =>
    have hstopped : stopped.finish .atEof =
        s.rows.toList ++ [(stopped.row.push stopped.field).toList] := by
      rw [Scan.finish_atEof_of_begun hbegun, hrows]
    have hlength : (stopped.row.push stopped.field).toList.length = s.row.size + 1 := by
      simp [hrow]
    rcases hlater with ⟨hsame, hsize, hkeep⟩ | ⟨row, more, hmore, hsize⟩
    · -- the row is still open: it was begun in the common front or by the rest
      have hopen : later.atRowStart = false := by
        cases hs : s.atRowStart with
        | false => exact hkeep hs
        | true =>
          have htail' : tail ≠ [] := by
            rintro rfl
            exact absurd hbegun (by simp [stopped, hs])
          exact Scan.foldl_feed_begun (hrest htail') s hsame
      refine ⟨s.rows.toList, [(later.row.push later.field).toList], ?_,
        Or.inr ⟨_, _, [], hstopped, rfl, ?_⟩⟩
      · rw [Scan.finish_atEof_of_begun hopen, hsame]
      · rw [hlength]
        simpa using hsize
    · obtain ⟨last, hlast⟩ := Scan.finish_isPrefix later .atEof
      refine ⟨s.rows.toList, row :: more ++ last, ?_,
        Or.inr ⟨_, row, more ++ last, hstopped, ?_, ?_⟩⟩
      · rw [← hlast, hmore, List.append_assoc]
      · rfl
      · rw [hlength]
        exact hsize

/-- A text of one line has one row at most. -/
theorem length_rows_le_one {text : String} (h : '\n' ∉ text.toList) (flush : Flush) :
    (rows flush text).length ≤ 1 := by
  obtain ⟨more, hrows, hmore⟩ := Scan.foldl_feed_adds (Q := fun _ => False) text.toList {}
    (fun c hc _ hnewline => h (hnewline ▸ hc))
  obtain rfl : more = [] := List.eq_nil_iff_forall_not_mem.mpr hmore
  have hnone : (text.toList.foldl Scan.feed {}).rows = #[] := by simpa using hrows
  rw [rows, Scan.finish.eq_def]
  split
  · simp [hnone]
  · split
    · simp [hnone]
    · simp [Scan.closeRow, hnone]

/-! ## 3. The number of records -/

theorem Decoded.length_records_ofRows (known : Option (List String)) (own : List String)
    (later : List (List String)) :
    (ofRows known (own :: later)).records.length =
      later.countP fun row => (known.getD own).length ≤ row.length := by
  simp [ofRows, List.countP_eq_length_filter]

/-- Where rows are only widened, there are no fewer records. -/
theorem Decoded.length_records_le_of_widens (known : Option (List String))
    {rows rows' : List (List String)} (h : Widens rows rows') :
    (ofRows known rows).records.length ≤ (ofRows known rows').records.length := by
  obtain ⟨ended, more, rfl, hrows⟩ := h
  cases ended with
  | nil =>
    rcases hrows with rfl | ⟨last, wider, later, rfl, rfl, -⟩
    · exact Nat.zero_le _
    · exact Nat.zero_le _
  | cons own ended =>
    rcases hrows with rfl | ⟨last, wider, later, rfl, rfl, hwider⟩
    · rw [List.cons_append, length_records_ofRows, length_records_ofRows, List.countP_append]
      exact Nat.le_add_right _ _
    · rw [List.cons_append, List.cons_append, length_records_ofRows, length_records_ofRows,
        List.countP_append, List.countP_append, List.countP_singleton, List.countP_cons]
      by_cases hlast : (known.getD own).length ≤ last.length
      · have hlater : (known.getD own).length ≤ wider.length := Nat.le_trans hlast hwider
        simp only [hlast, hlater, decide_true, if_true]
        omega
      · simp only [hlast, decide_false, Bool.false_eq_true, if_false]
        omega

/-- The lines of a table are resumed when more is written, or there is one line so far. -/
theorem linesOf_resumes (bytes more : ByteArray) :
    '\n' ∉ (linesOf bytes).toList ∨
      Resumes (linesOf bytes).toList (linesOf (bytes ++ more)).toList := by
  simp only [linesOf, Text.lfLines_eq]
  rcases Text.resumes_withoutMark (Text.Utf8.resumes_lossy bytes more) with hline | hresumes
  · refine Or.inl ?_
    rwa [Text.unixLines_of_one_line hline]
  · exact Or.inr (Text.resumes_unixLines hresumes)

/-- **The number of records never drops while a table is written**, also for a reader that takes the
last row before it has ended. -/
theorem length_records_le (known : Option (List String)) (flush : Flush)
    (bytes more : ByteArray) :
    (decodeBytes known flush bytes).records.length ≤
      (decodeBytes known flush (bytes ++ more)).records.length := by
  cases flush with
  | deferred => exact (decodeBytes_continues known .deferred bytes more).records.length_le
  | atEof =>
    rw [decodeBytes_eq, decodeBytes_eq]
    rcases linesOf_resumes bytes more with hline | hresumes
    · have hrows := length_rows_le_one hline .atEof
      cases hcases : rows .atEof (linesOf bytes) with
      | nil => exact Nat.zero_le _
      | cons own later =>
        obtain rfl : later = [] := by simpa [hcases] using hrows
        exact Nat.zero_le _
    · exact Decoded.length_records_le_of_widens known (widens_rows hresumes)

end Table
end Collector
