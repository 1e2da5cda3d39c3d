/-
# Decoding a table while it grows

A reader of a file that another program appends to decodes the same table again and again.
What a deferred decode gives is then never taken back: its records are the first records of
every later decode, its header stays, and no later decode has dropped fewer rows
(`decodeBytes_continues`).

The rows of a text only depend on the text up to an open line (`rows_isPrefix_of_grows`),
because the scan completes a row at a newline and at nothing else.  The other steps of decoding
keep growth up to an open line by `Text.grows_lossy` and its companions.
-/
import Collector.Proofs.Text.Growth
import Collector.Table.Decode

namespace Collector
namespace Table

open Text (Adds Grows)

/-! ## 1. Rows are only added to -/

namespace Scan

@[simp] theorem settle_rows (s : Scan) : s.settle.rows = s.rows := by
  unfold settle
  split <;> rfl

/-- A row is completed by a newline and by nothing else. -/
theorem feed_adds (s : Scan) (c : Char) :
    Adds (fun _ => c = '\n') s.rows.toList (s.feed c).rows.toList := by
  unfold feed
  split
  · split
    · exact Adds.refl ..
    · exact Adds.refl ..
  · unfold feedPlain
    split
    · simpa [closeField] using Adds.refl ..
    · split
      · rename_i hnewline
        have hc : c = '\n' := by simp_all
        exact ⟨[(s.settle.row.push s.settle.field).toList], by simp [closeRow], by simp [hc]⟩
      · simpa using Adds.refl ..

/-- What the end of the text adds to the rows is at most the row begun. -/
theorem finish_isPrefix (s : Scan) (flush : Flush) : s.rows.toList <+: s.finish flush := by
  unfold finish
  split
  · exact List.prefix_rfl
  · split
    · exact List.prefix_rfl
    · simp [closeRow]

/-- The rows completed within some text are only added to, and only at its newlines. -/
theorem foldl_feed_adds {Q : List String → Prop} (t : List Char) (s : Scan)
    (hQ : ∀ c ∈ t, ∀ row, c = '\n' → Q row) :
    Adds Q s.rows.toList (t.foldl feed s).rows.toList :=
  (Text.foldl_adds (fun s => s.rows.toList) (fun _ => True) (fun s c _ => ⟨trivial, feed_adds s c⟩)
    t s hQ trivial).2

end Scan

/-- **Complete rows stay.**  If a text grows up to an open line, the rows that it has ended are
the first rows of the text it grows into. -/
theorem rows_isPrefix_of_grows {text text' : String} (h : Grows text.toList text'.toList)
    (flush : Flush) : rows .deferred text <+: rows flush text' := by
  obtain ⟨kept, ⟨tail, htext, htail⟩, rest, htext'⟩ := h
  rw [rows, rows, htext, ← htext', List.foldl_append, List.foldl_append]
  -- the open line completes no row
  obtain ⟨more, heq, hmore⟩ := Scan.foldl_feed_adds (Q := fun _ => False) tail
    (kept.foldl Scan.feed {}) (fun c hc _ hnewline => htail c hc hnewline)
  obtain rfl : more = [] := List.eq_nil_iff_forall_not_mem.mpr hmore
  have hrest := Scan.foldl_feed_adds (Q := fun _ => True) rest (kept.foldl Scan.feed {}) (by simp)
  have hclosed : ((tail.foldl Scan.feed (kept.foldl Scan.feed {})).finish .deferred) =
      (kept.foldl Scan.feed {}).rows.toList := by
    rw [Scan.finish, heq, List.append_nil]
  rw [hclosed]
  exact hrest.isPrefix.trans (Scan.finish_isPrefix _ flush)

/-! ## 2. What a decode keeps when rows are added -/

/-- `later` continues `earlier`: it has the same records in front, the same header if there was
one, and at least as many rows dropped. -/
structure Decoded.Continues (earlier later : Decoded) : Prop where
  records : earlier.records <+: later.records
  header : ∀ header, earlier.header = some header → later.header = some header
  dropped : earlier.dropped ≤ later.dropped

theorem Decoded.Continues.refl (decoded : Decoded) : decoded.Continues decoded :=
  ⟨List.prefix_rfl, fun _ h => h, Nat.le_refl _⟩

theorem Decoded.ofRows_continues (known : Option (List String)) {rows rows' : List (List String)}
    (h : rows <+: rows') : (ofRows known rows).Continues (ofRows known rows') := by
  cases rows with
  | nil => exact ⟨List.nil_prefix, by simp [ofRows], Nat.zero_le _⟩
  | cons own later =>
    obtain ⟨more, rfl⟩ := h
    have hlater : later <+: later ++ more := List.prefix_append later more
    exact ⟨(hlater.filter _).map _, fun _ hheader => hheader, hlater.sublist.countP_le⟩

/-- The text that a table's bytes are decoded from. -/
def linesOf (bytes : ByteArray) : String :=
  Text.lfLines (Text.withoutMark (Text.Utf8.lossy bytes).toList)

theorem decodeBytes_eq (known : Option (List String)) (flush : Flush) (bytes : ByteArray) :
    decodeBytes known flush bytes = .ofRows known (rows flush (linesOf bytes)) := rfl

/-- **A later decode continues an earlier one**, whatever has been written in between and whether
or not the writer is done by then. -/
theorem decodeBytes_continues (known : Option (List String)) (flush : Flush)
    (bytes more : ByteArray) :
    (decodeBytes known .deferred bytes).Continues (decodeBytes known flush (bytes ++ more)) := by
  have hlines : Grows (linesOf bytes).toList (linesOf (bytes ++ more)).toList :=
    Text.grows_lfLines (Text.grows_withoutMark (Text.Utf8.grows_lossy bytes more))
  exact Decoded.ofRows_continues known (rows_isPrefix_of_grows hlines flush)

/-- What stands behind the last line end has no part in a deferred decode. -/
theorem decodeBytes_of_no_newline (known : Option (List String)) (bytes tail : ByteArray)
    (htail : ∀ byte ∈ tail.data.toList, byte ≠ 10) :
    decodeBytes known .deferred (bytes ++ tail) = decodeBytes known .deferred bytes := by
  have hthere : Grows (linesOf bytes).toList (linesOf (bytes ++ tail)).toList :=
    Text.grows_lfLines (Text.grows_withoutMark (Text.Utf8.grows_lossy bytes tail))
  have hback : Grows (linesOf (bytes ++ tail)).toList (linesOf bytes).toList :=
    Text.grows_lfLines <| Text.grows_withoutMark <|
      Text.Utf8.grows_lossy_of_no_newline bytes tail htail
  have hrows : rows .deferred (linesOf (bytes ++ tail)) = rows .deferred (linesOf bytes) :=
    (rows_isPrefix_of_grows hback .deferred).eq_of_length_le
      (rows_isPrefix_of_grows hthere .deferred).length_le
  rw [decodeBytes_eq, decodeBytes_eq, hrows]

/-! ## 3. Decoding is monotone -/

/-- **Nothing that a deferred decode gives is ever taken back.**  The decode of some bytes is
continued by that of the same bytes with any others behind them, at any flush; and bytes
without a line end, be they a piece of a row, of a character, of a CR LF or of a pair of
quotation marks, have no part in it. -/
theorem decode_monotone (known : Option (List String)) (flush : Flush) (bytes more : ByteArray) :
    (decodeBytes known .deferred bytes).records <+:
        (decodeBytes known flush (bytes ++ more)).records ∧
      (∀ header, (decodeBytes known .deferred bytes).header = some header →
        (decodeBytes known flush (bytes ++ more)).header = some header) ∧
      (decodeBytes known .deferred bytes).dropped ≤
        (decodeBytes known flush (bytes ++ more)).dropped ∧
      ∀ tail : ByteArray, (∀ byte ∈ tail.data.toList, byte ≠ 10) →
        decodeBytes known .deferred (bytes ++ tail) = decodeBytes known .deferred bytes := by
  obtain ⟨hrecords, hheader, hdropped⟩ := decodeBytes_continues known flush bytes more
  exact ⟨hrecords, hheader, hdropped, decodeBytes_of_no_newline known bytes⟩

end Table
end Collector
