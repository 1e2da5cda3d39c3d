/-
# Texts that are resumed

A text that was read while it was being written ends where the writer stood: perhaps inside a
character, or behind a CR whose LF is still to come.  `Grows` says what of it stays.  Here it is
said what may become of the rest: `Resumes t t'` holds when `t` and `t'` have a front in common,
behind which `t` has only characters that mean nothing to a table, and `t'` goes on with something
that is no quotation mark.  A U+FFFD for the half of a character is resumed by the character, and a
CR by itself or by its LF.

A text that is one line so far is set apart: a byte-order mark of which half was read is no part
of the text that resumes it.

`linesOf_resumes` carries this from bytes to the lines that a table is read from.
-/
import Collector.Proofs.Text.Growth
import Collector.Proofs.Text.LineEnds
import Mathlib.Data.List.Basic

namespace Collector
namespace Text

/-! ## 1. Plain endings -/

/-- The character neither ends a value or a row nor switches between quoted and unquoted text. -/
def Plain (c : Char) : Prop :=
  c ≠ '\n' ∧ c ≠ ',' ∧ c ≠ '"'

/-- The text is not empty and does not begin with a quotation mark. -/
def Begins (t : List Char) : Prop :=
  ∃ c more, t = c :: more ∧ c ≠ '"'

/-- `t'` goes on where `t` was broken off. -/
def Resumes (t t' : List Char) : Prop :=
  ∃ kept tail rest, t = kept ++ tail ∧ t' = kept ++ rest ∧ (∀ c ∈ tail, Plain c) ∧
    (tail ≠ [] → Begins rest)

/-! ## 2. Characters from bytes -/

namespace Utf8

/-- What is no ASCII character is no quotation mark. -/
theorem ofNat_ne_mark {n : Nat} (h : 0x80 ≤ n) : Char.ofNat n ≠ '"' := by
  intro hmark
  have hvalue : '"'.toNat = n := toNat_eq_of_ofNat (by decide) hmark
  have hsmall : '"'.toNat = 34 := rfl
  omega

namespace Reader

/-- What has been completed stays in front, whatever bytes follow and wherever they end. -/
theorem out_isPrefix_finish (bytes : List UInt8) {reader : Reader} (hwide : reader.place.Wide) :
    reader.out.toList <+: (bytes.foldl feed reader).finish.toList :=
  (foldl_feed_adds (Q := fun _ => True) bytes reader (by simp) hwide).2.isPrefix.trans
    (finish_adds _).isPrefix

theorem finish_of_open {reader : Reader} (h : reader.place ≠ .start) :
    reader.finish = reader.out.push none := by
  rw [finish]
  split
  · rename_i hstart
    exact absurd hstart h
  · rfl

/-- A byte inside a character goes on with it and completes nothing; or it completes the character,
or a stretch that is none, and that is no quotation mark. -/
theorem feed_of_inside {reader : Reader} (hopen : reader.place ≠ .start)
    (hwide : reader.place.Wide) (byte : UInt8) :
    ((reader.feed byte).place ≠ .start ∧ (reader.feed byte).out.toList = reader.out.toList) ∨
      ∃ unit more, (reader.feed byte).out.toList = reader.out.toList ++ unit :: more ∧
        unit ≠ some '"' := by
  obtain ⟨place, out⟩ := reader
  cases place with
  | start => exact absurd rfl hopen
  | inside owed low high value =>
    obtain ⟨hlow, htwo, hlast⟩ := hwide
    rw [toList_out_feed]
    simp only [feed, step]
    split
    · rename_i hin
      split
      · rename_i howed
        have hvalue := hlast howed
        refine Or.inr ⟨_, [], rfl, fun hmark => ?_⟩
        exact ofNat_ne_mark (by omega) (Option.some.inj hmark)
      · exact Or.inl ⟨by simp, List.append_nil _⟩
    · exact Or.inr ⟨none, _, rfl, by simp⟩

/-- Inside a character, what is completed next is no quotation mark. -/
theorem finish_of_inside (bytes : List UInt8) {reader : Reader} (hopen : reader.place ≠ .start)
    (hwide : reader.place.Wide) :
    ∃ unit more, (bytes.foldl feed reader).finish.toList = reader.out.toList ++ unit :: more ∧
      unit ≠ some '"' := by
  induction bytes generalizing reader with
  | nil =>
    refine ⟨none, [], ?_, nofun⟩
    rw [List.foldl_nil, finish_of_open hopen, Array.toList_push]
  | cons byte bytes ih =>
    have hnext : (reader.feed byte).place.Wide := (feed_adds reader byte hwide).1
    rcases feed_of_inside hopen hwide byte with ⟨hplace, hout⟩ | ⟨unit, more, hout, hunit⟩
    · obtain ⟨unit, more, heq, hunit⟩ := ih hplace hnext
      exact ⟨unit, more, hout ▸ heq, hunit⟩
    · obtain ⟨later, hlater⟩ := out_isPrefix_finish bytes hnext
      refine ⟨unit, more ++ later, ?_, hunit⟩
      rw [List.foldl_cons, ← hlater, hout, List.append_assoc, List.cons_append]

end Reader

/-- The characters of some bytes are those completed so far and what the rest of the bytes adds. -/
theorem toList_lossy (bytes : ByteArray) :
    (lossy bytes).toList = (Reader.after bytes).finish.toList.map (·.getD '\ufffd') := by
  simp [lossy, units, Reader.after]

/-- **Bytes written later resume the text.** -/
theorem resumes_lossy (bytes more : ByteArray) :
    Resumes (lossy bytes).toList (lossy (bytes ++ more)).toList := by
  by_cases hplace : (Reader.after bytes).place = .start
  · have hsettled := settled_append (Q := fun _ => True) bytes more (by simp)
    obtain ⟨rest, hrest⟩ := hsettled.isPrefix.trans (settled_adds_lossy (bytes ++ more)).isPrefix
    refine ⟨settled bytes, [], rest, ?_, hrest.symm, nofun, fun hnil => absurd rfl hnil⟩
    rw [toList_lossy, Reader.finish, hplace, List.append_nil]
    rfl
  · obtain ⟨unit, later, hlater, hunit⟩ :=
      Reader.finish_of_inside more.data.toList hplace (Reader.after_wide bytes)
    refine ⟨settled bytes, ['\ufffd'], (unit :: later).map (·.getD '\ufffd'), ?_, ?_, ?_, ?_⟩
    · rw [toList_lossy, Reader.finish_of_open hplace, Array.toList_push, List.map_append]
      rfl
    · rw [toList_lossy, Reader.after_append, hlater, List.map_append]
      rfl
    · simp [Plain]
    · refine fun _ => ⟨unit.getD '\ufffd', later.map (·.getD '\ufffd'), rfl, ?_⟩
      cases unit with
      | none => decide
      | some c => exact fun hc => hunit (congrArg some hc)

end Utf8

/-! ## 3. The byte-order mark and line ends -/

theorem mem_of_mem_withoutMark {c : Char} {t : List Char} (h : c ∈ withoutMark t) : c ∈ t := by
  rw [withoutMark_eq] at h
  split at h
  · exact List.mem_of_mem_tail h
  · exact h

/-- Removing the byte-order mark keeps a text resumed, unless it is one line. -/
theorem resumes_withoutMark {t t' : List Char} (h : Resumes t t') :
    '\n' ∉ withoutMark t ∨ Resumes (withoutMark t) (withoutMark t') := by
  obtain ⟨kept, tail, rest, rfl, rfl, htail, hrest⟩ := h
  cases kept with
  | nil => exact Or.inl fun hmem => (htail '\n' (mem_of_mem_withoutMark hmem)).1 rfl
  | cons c kept =>
    refine Or.inr ?_
    rw [withoutMark_eq, withoutMark_eq]
    by_cases hmark : c = '\ufeff'
    · exact ⟨kept, tail, rest, by simp [hmark], by simp [hmark], htail, hrest⟩
    · exact ⟨c :: kept, tail, rest, by simp [hmark], by simp [hmark], htail, hrest⟩

/-- A text of one line has no line end to change. -/
theorem unixLines_of_one_line {t : List Char} (h : '\n' ∉ t) : unixLines t = t := by
  induction t with
  | nil => rfl
  | cons c t ih =>
    have ht : '\n' ∉ t := fun hmem => h (List.mem_cons_of_mem c hmem)
    rw [unixLines_cons fun _ hhead => ht (List.mem_of_mem_head? hhead), ih ht]

/-- Making line ends LF keeps a text from beginning with a quotation mark. -/
theorem Begins.unixLines {t : List Char} (h : Begins t) : Begins (unixLines t) := by
  obtain ⟨c, more, rfl, hc⟩ := h
  by_cases hcut : c = '\r' ∧ more.head? = some '\n'
  · obtain ⟨rfl, hlf⟩ := hcut
    obtain ⟨rest, rfl⟩ := List.head?_eq_some_iff.mp hlf
    exact ⟨'\n', Text.unixLines rest, rfl, by decide⟩
  · exact ⟨c, Text.unixLines more, unixLines_cons fun hcr hlf => hcut ⟨hcr, hlf⟩, hc⟩

/-- Making line ends LF keeps a text resumed.  A CR at the end of what is kept moves into the tail:
the text that goes on may give it its LF. -/
theorem resumes_unixLines {t t' : List Char} (h : Resumes t t') :
    Resumes (unixLines t) (unixLines t') := by
  obtain ⟨kept, tail, rest, rfl, rfl, htail, hrest⟩ := h
  have hline : '\n' ∉ tail := fun hmem => (htail '\n' hmem).1 rfl
  by_cases hcr : kept.getLast? = some '\r'
  · obtain ⟨front, rfl⟩ := List.getLast?_eq_some_iff.mp hcr
    have hsplit (more : List Char) : unixLines (front ++ ['\r'] ++ more) =
        unixLines front ++ unixLines ('\r' :: more) := by
      rw [List.append_assoc]
      exact unixLines_append fun _ => by simp
    have hheld : unixLines ('\r' :: tail) = '\r' :: tail :=
      unixLines_of_one_line (by simpa using hline)
    refine ⟨unixLines front, '\r' :: tail, unixLines ('\r' :: rest), ?_, hsplit rest, ?_, ?_⟩
    · rw [hsplit, hheld]
    · exact List.forall_mem_cons.mpr ⟨by simp [Plain], htail⟩
    · exact fun _ => Begins.unixLines ⟨'\r', rest, rfl, by decide⟩
  · have hsplit (more : List Char) : unixLines (kept ++ more) = unixLines kept ++ unixLines more :=
      unixLines_append fun h => absurd h hcr
    refine ⟨unixLines kept, tail, unixLines rest, ?_, hsplit rest, htail, fun htail' => ?_⟩
    · rw [hsplit, unixLines_of_one_line hline]
    · exact (hrest htail').unixLines

end Text
end Collector
