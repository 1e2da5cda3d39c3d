/-
# Broken characters leave the shape of a table alone

A result file may hold anything: bytes of another encoding, characters cut in half, a whole picture.
Still its rows and its fields are where the ASCII bytes of the file say.  Whatever stands between
them, the table has the rows, the columns and the values that it would have if an `x` stood in place
of every other byte, and in each header field and each value the ASCII characters are the same
(`decode_shape`).

The scan of the one text and the scan of the other go side by side (`Scan.Alike`).  They read the
same separators and quotation marks at the same places; where the first reads a character that is
not ASCII, the second reads an `x` or several, and both put them into the value that is open.
-/
import Collector.Proofs.Table.OpenRow
import Collector.Proofs.Text.CrossedOut
import Collector.Proofs.Text.Encoded

namespace Collector
namespace Table

open Text (Ascii CrossedOut Plain)

/-! ## 1. Two scans side by side -/

/-- The second value is the first one crossed out. -/
def Crossed (a b : String) : Prop :=
  CrossedOut a.toList b.toList

namespace Scan

/-- The scans stand at the same place of two texts of which the second is the first one crossed
out. -/
structure Alike (s s' : Scan) : Prop where
  mark : s.mark = s'.mark
  quoted : s.quoted = s'.quoted
  field : Crossed s.field s'.field
  row : List.Forall₂ Crossed s.row.toList s'.row.toList
  rows : List.Forall₂ (List.Forall₂ Crossed) s.rows.toList s'.rows.toList

theorem alike_start : Alike {} {} := ⟨rfl, rfl, .nil, .nil, .nil⟩

namespace Alike

variable {s s' : Scan} {c : Char}

theorem settle (h : s.Alike s') : s.settle.Alike s'.settle := by
  unfold Scan.settle
  rw [← h.mark, ← h.quoted]
  split
  · exact ⟨rfl, rfl, h.field, h.row, h.rows⟩
  · exact h

/-- The value that is open gets longer on both sides. -/
theorem extend (h : s.Alike s') {t t' : List Char} (ht : CrossedOut t t') :
    { s with field := s.field ++ String.ofList t }.Alike
      { s' with field := s'.field ++ String.ofList t' } := by
  refine ⟨h.mark, h.quoted, ?_, h.row, h.rows⟩
  simpa [Crossed] using CrossedOut.append h.field ht

theorem push (h : s.Alike s') (hc : Ascii c) :
    { s with field := s.field.push c }.Alike { s' with field := s'.field.push c } := by
  refine ⟨h.mark, h.quoted, ?_, h.row, h.rows⟩
  simpa [Crossed] using CrossedOut.concat h.field hc

theorem closeField (h : s.Alike s') : s.closeField.Alike s'.closeField := by
  refine ⟨h.mark, h.quoted, .nil, ?_, h.rows⟩
  simpa [Scan.closeField] using List.rel_append h.row (.cons h.field .nil)

theorem closeRow (h : s.Alike s') : s.closeRow.Alike s'.closeRow := by
  have hrow := List.rel_append h.row (.cons h.field .nil)
  refine ⟨h.mark, h.quoted, .nil, .nil, ?_⟩
  simpa [Scan.closeRow] using List.rel_append h.rows (.cons hrow .nil)

theorem feedPlain (h : s.Alike s') (hc : Ascii c) : (s.feedPlain c).Alike (s'.feedPlain c) := by
  unfold Scan.feedPlain
  rw [← h.quoted]
  split
  · exact h.closeField
  · split
    · exact h.closeRow
    · exact ⟨h.mark, rfl, (h.push hc).field, h.row, h.rows⟩

/-- Both scans read the same ASCII character. -/
theorem feed (h : s.Alike s') (hc : Ascii c) : (s.feed c).Alike (s'.feed c) := by
  unfold Scan.feed
  split
  · rw [← h.mark]
    split
    · exact ⟨rfl, h.quoted, (h.push (by decide)).field, h.row, h.rows⟩
    · exact ⟨rfl, h.quoted, h.field, h.row, h.rows⟩
  · exact h.settle.feedPlain hc

end Alike

theorem settle_mark (s : Scan) : s.settle.mark = false := by
  unfold settle
  split
  · rfl
  · rename_i hmark
    exact Bool.eq_false_iff.mpr hmark

theorem settle_of_mark {s : Scan} (hmark : s.mark = false) : s.settle = s := by
  rw [settle, if_neg (Bool.eq_false_iff.mp hmark)]

/-- Where no mark is alone, plain characters make the value that is open longer and do nothing
else. -/
theorem foldl_feed_of_mark {t : List Char} (ht : ∀ c ∈ t, Plain c) {s : Scan}
    (hmark : s.mark = false) :
    t.foldl feed s = { s with field := s.field ++ String.ofList t } := by
  induction t generalizing s with
  | nil => simp
  | cons c t ih =>
    have hc : Plain c := ht c List.mem_cons_self
    have hfield : s.field.push c ++ String.ofList t = s.field ++ String.ofList (c :: t) :=
      String.toList_inj.mp (by simp)
    have hfeed : s.feed c = { s with field := s.field.push c } := by
      rw [feed_plain s hc, settle_of_mark hmark]
    have hmark' : (s.feed c).mark = false := by rw [hfeed, hmark]
    rw [List.foldl_cons, ih (fun d hd => ht d (List.mem_cons_of_mem c hd)) hmark', hfeed, ← hfield]

/-- A mark that is alone is settled by whatever character follows, if it is not a mark. -/
theorem foldl_feed_settle {t : List Char} (ht : ∀ c ∈ t, Plain c) (hne : t ≠ []) (s : Scan) :
    t.foldl feed s = { s.settle with field := s.settle.field ++ String.ofList t } := by
  obtain ⟨c, t, rfl⟩ := List.exists_cons_of_ne_nil hne
  have hmark : c ≠ '"' := (ht c List.mem_cons_self).2.2
  have hsettle : s.feed c = s.settle.feed c := by
    rw [feed, feed, if_neg hmark, if_neg hmark, settle_of_mark s.settle_mark]
  rw [List.foldl_cons, hsettle, ← List.foldl_cons, foldl_feed_of_mark ht s.settle_mark]

/-- A character that is not ASCII is none of the marks of a table. -/
theorem plain_of_not_ascii {c : Char} (hc : ¬ Ascii c) : Plain c := by
  have hne {d : Char} (hd : Ascii d) : c ≠ d := fun h => hc (h ▸ hd)
  exact ⟨hne (by decide), hne (by decide), hne (by decide)⟩

namespace Alike

/-- One scan reads a character that is not ASCII, and the other one what it is crossed out by. -/
theorem wide {s s' : Scan} (h : s.Alike s') {c : Char} (hc : ¬ Ascii c) (n : Nat) :
    (s.feed c).Alike ((List.replicate (n + 1) 'x').foldl Scan.feed s') := by
  have hone : ∀ d ∈ [c], Plain d := by simpa using plain_of_not_ascii hc
  have hxs : ∀ d ∈ List.replicate (n + 1) 'x', Plain d := by
    intro d hd
    rw [List.eq_of_mem_replicate hd]
    exact ⟨by decide, by decide, by decide⟩
  have hleft := foldl_feed_settle hone (List.cons_ne_nil c []) s
  rw [List.foldl_cons, List.foldl_nil] at hleft
  rw [hleft, foldl_feed_settle hxs (by simp) s']
  exact h.settle.extend (.wide_singleton hc n)

/-- **The scans stay side by side** through any text and the same text crossed out. -/
theorem foldl_feed {t t' : List Char} (ht : CrossedOut t t') {s s' : Scan} (h : s.Alike s') :
    (t.foldl Scan.feed s).Alike (t'.foldl Scan.feed s') := by
  induction ht generalizing s s' with
  | nil => exact h
  | ascii hc _ ih => exact ih (h.feed hc)
  | wide hc n _ ih =>
    rw [List.foldl_append]
    exact ih (h.wide hc n)

/-- A row has been begun in the one if and only if it has in the other. -/
theorem atRowStart_eq {s s' : Scan} (h : s.Alike s') : s.atRowStart = s'.atRowStart := by
  have hfield : s.field = "" ↔ s'.field = "" := by
    rw [← String.toList_eq_nil_iff, ← String.toList_eq_nil_iff]
    exact h.field.eq_nil_iff
  have hrow : s.row = #[] ↔ s'.row = #[] := by
    rw [← Array.toList_eq_nil_iff, ← Array.toList_eq_nil_iff]
    have hlength := h.row.length_eq
    rw [← List.length_eq_zero_iff, ← List.length_eq_zero_iff, hlength]
  rw [Bool.eq_iff_iff]
  simp [atRowStart, String.isEmpty_iff, hfield, hrow]

theorem finish {s s' : Scan} (h : s.Alike s') (flush : Flush) :
    List.Forall₂ (List.Forall₂ Crossed) (s.finish flush) (s'.finish flush) := by
  cases flush with
  | deferred => exact h.rows
  | atEof =>
    rw [Scan.finish, Scan.finish, ← h.atRowStart_eq]
    split
    · exact h.rows
    · exact h.closeRow.rows

end Alike
end Scan

/-- **Rows are cut at the same places, and so are the fields in them.** -/
theorem rows_crossed {text text' : String} (h : Crossed text text') (flush : Flush) :
    List.Forall₂ (List.Forall₂ Crossed) (rows flush text) (rows flush text') :=
  (Scan.Alike.foldl_feed h Scan.alike_start).finish flush

/-! ## 2. Tables of one shape -/

/-- The ASCII characters of a value, but for the letter that others are crossed out by. -/
def asciiOf (value : String) : List Char :=
  value.toList.filter fun c => Ascii c ∧ c ≠ 'x'

/-- Two values have the same ASCII characters. -/
def SameAscii (a b : String) : Prop :=
  asciiOf a = asciiOf b

theorem Crossed.sameAscii {a b : String} (h : Crossed a b) : SameAscii a b :=
  h.filter_eq

/-- Two fields of a record have columns and values with the same ASCII characters. -/
def SameField (field field' : String × String) : Prop :=
  SameAscii field.1 field'.1 ∧ SameAscii field.2 field'.2

/-- Two tables of one shape: both have a header or neither has, as many columns, records and fields
in each record, and as many rows dropped.  The ASCII characters in them are the same. -/
structure Decoded.SameShape (decoded decoded' : Decoded) : Prop where
  header : Option.Rel (List.Forall₂ SameAscii) decoded.header decoded'.header
  records : List.Forall₂ (fun record record' => List.Forall₂ SameField record.fields record'.fields)
    decoded.records decoded'.records
  dropped : decoded.dropped = decoded'.dropped

theorem SameAscii.refl (values : List String) : List.Forall₂ SameAscii values values :=
  List.forall₂_same.mpr fun _ _ => rfl

theorem sameAscii_of_crossed {values values' : List String}
    (h : List.Forall₂ Crossed values values') : List.Forall₂ SameAscii values values' :=
  h.imp fun _ _ => Crossed.sameAscii

theorem sameField_zip {header header' row row' : List String}
    (hheader : List.Forall₂ SameAscii header header') (hrow : List.Forall₂ SameAscii row row') :
    List.Forall₂ SameField (header.zip row) (header'.zip row') := by
  induction hheader generalizing row row' with
  | nil => exact .nil
  | cons hcolumn _ ih =>
    cases hrow with
    | nil => exact .nil
    | cons hvalue hrow => exact .cons ⟨hcolumn, hvalue⟩ (ih hrow)

/-- Rows of one length are both long enough for a header, or both short. -/
theorem forall₂_filter_length {width width' : Nat} (hwidth : width = width')
    {later later' : List (List String)} (h : List.Forall₂ (List.Forall₂ Crossed) later later') :
    List.Forall₂ (List.Forall₂ Crossed) (later.filter fun row => width ≤ row.length)
        (later'.filter fun row => width' ≤ row.length) ∧
      (later.countP fun row => row.length < width) =
        later'.countP fun row => row.length < width' := by
  subst hwidth
  induction h with
  | nil => exact ⟨.nil, rfl⟩
  | @cons row row' later later' hrow _ ih =>
    have hlength := hrow.length_eq
    obtain ⟨hfilter, hcount⟩ := ih
    rw [List.countP_cons, List.countP_cons, hcount, ← hlength]
    by_cases hwide : width ≤ row.length
    · rw [List.filter_cons_of_pos (by simpa using hwide),
        List.filter_cons_of_pos (by simpa [← hlength] using hwide)]
      exact ⟨.cons hrow hfilter, rfl⟩
    · rw [List.filter_cons_of_neg (by simpa using hwide),
        List.filter_cons_of_neg (by simpa [← hlength] using hwide)]
      exact ⟨hfilter, rfl⟩

/-- **Rows of one shape make tables of one shape**, under the header of the one or under another
that is known. -/
theorem ofRows_sameShape (known : Option (List String)) {rows rows' : List (List String)}
    (h : List.Forall₂ (List.Forall₂ Crossed) rows rows') :
    (Decoded.ofRows known rows).SameShape (Decoded.ofRows known rows') := by
  cases h with
  | nil => exact ⟨.none, .nil, rfl⟩
  | @cons own own' later later' hown hlater =>
    have hheader : List.Forall₂ SameAscii (known.getD own) (known.getD own') := by
      cases known with
      | none => exact sameAscii_of_crossed hown
      | some header => exact SameAscii.refl header
    obtain ⟨hrecords, hdropped⟩ := forall₂_filter_length hheader.length_eq hlater
    refine ⟨.some (sameAscii_of_crossed hown), ?_, hdropped⟩
    refine List.rel_map ?_ hrecords
    intro row row' hrow
    exact sameField_zip hheader (sameAscii_of_crossed hrow)

/-! ## 3. What is read from a file -/

/-- **What is not ASCII does not change the shape of a table.**  A file that does not begin with a
byte-order mark is decoded to a table of the shape that it has with an `x` for every byte that is
not ASCII.  And a text is decoded from its bytes as it is decoded itself. -/
theorem decode_shape (known : Option (List String)) (flush : Flush) (bytes : ByteArray)
    (hmark : ¬ [0xEF, 0xBB, 0xBF] <+: bytes.data.toList) (text : String) :
    (decodeBytes known flush bytes).SameShape
        (decode known flush (Text.Utf8.crossedOut bytes)) ∧
      decodeBytes known flush text.toUTF8 = decode known flush text := by
  constructor
  · exact ofRows_sameShape known (rows_crossed (Text.Utf8.lfLines_crossedOut hmark) flush)
  · rw [decodeBytes, Text.Utf8.lossy_toUTF8]

/-- A first byte without its second one stands in front of a parenthesis, and one within quotation
marks is broken off by the mark that closes them.  The last row is short: it is one character. -/
theorem decode_shape_of_broken :
    let bytes : ByteArray := ⟨#[
      0x61, 0x2C, 0xC3, 0x28, 0x0A,
      0x22, 0xE2, 0x82, 0x22, 0x2C, 0xFF, 0x78, 0x0A,
      0xF0, 0x9F, 0x98, 0x80, 0x0A]⟩
    ¬ [0xEF, 0xBB, 0xBF] <+: bytes.data.toList ∧
      (decodeBytes none .deferred bytes).SameShape
        (decode none .deferred (Text.Utf8.crossedOut bytes)) ∧
      decodeBytes none .deferred bytes =
        { header := some ["a", "\ufffd("]
          records := [⟨[("a", "\ufffd"), ("\ufffd(", "\ufffdx")]⟩]
          dropped := 1 } ∧
      decode none .deferred (Text.Utf8.crossedOut bytes) =
        { header := some ["a", "x("], records := [⟨[("a", "xx"), ("x(", "xx")]⟩], dropped := 1 } ∧
      decodeBytes none .deferred "a\né\n".toUTF8 =
        { header := some ["a"], records := [⟨[("a", "é")]⟩], dropped := 0 } := by
  intro bytes
  have hmark : ¬ [0xEF, 0xBB, 0xBF] <+: bytes.data.toList := by decide
  have htext : decode none .deferred "a\né\n" =
      { header := some ["a"], records := [⟨[("a", "é")]⟩], dropped := 0 } := by decide
  obtain ⟨hshape, hbytes⟩ := decode_shape none .deferred bytes hmark "a\né\n"
  exact ⟨hmark, hshape, by decide, by decide, hbytes.trans htext⟩

end Table
end Collector
