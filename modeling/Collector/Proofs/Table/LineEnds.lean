/-
# Line ends and the byte-order mark do not matter

Tables come from programs that end lines with LF and from programs that end them with CR LF, with a
byte-order mark in front or without; an editor in between may leave a file in which every line has
an end of its own.  All these texts are the same table (`decode_spelled`): whatever newlines of a
text are written as CR LF, those inside quotation marks included, decoding gives what it gives for
the text itself.

The text must hold no CR LF to begin with.  A newline that has a CR in front of it already would get
a second one, and of `CR CR LF` the first CR is a character of the table.
-/
import Collector.Proofs.Text.LineEnds
import Collector.Table.Decode
import Mathlib.Data.List.Infix

namespace Collector
namespace Text

/-! ## 1. Spellings of a text -/

/-- The text with CR LF for the newlines at the chosen positions. -/
def withCr (chosen : Nat → Bool) (t : List Char) : List Char :=
  (t.mapIdx fun i c => if c = '\n' ∧ chosen i then ['\r', '\n'] else [c]).flatten

/-- The text with CR LF for the newlines at the chosen positions, and with a byte-order mark in
front if it is to have one. -/
def spelled (mark : Bool) (chosen : Nat → Bool) (t : List Char) : List Char :=
  if mark then '\ufeff' :: withCr chosen t else withCr chosen t

variable {chosen : Nat → Bool} {c d : Char} {t : List Char}

theorem withCr_newline (h : chosen 0 = true) :
    withCr chosen ('\n' :: t) = '\r' :: '\n' :: withCr (fun i => chosen (i + 1)) t := by
  simp [withCr, List.mapIdx_cons, h]

theorem withCr_other (h : ¬ (c = '\n' ∧ chosen 0 = true)) :
    withCr chosen (c :: t) = c :: withCr (fun i => chosen (i + 1)) t := by
  simp [withCr, List.mapIdx_cons, h]

/-- The spelling in which no newline is chosen is the text itself. -/
theorem withCr_none (t : List Char) : withCr (fun _ => false) t = t := by
  induction t with
  | nil => rfl
  | cons c t ih => rw [withCr_other (by simp), ih]

/-- What a spelling begins with is what the text begins with, or a CR. -/
theorem head?_of_head?_withCr (hd : d ≠ '\r') (h : (withCr chosen t).head? = some d) :
    t.head? = some d := by
  cases t with
  | nil => exact h
  | cons c t =>
    by_cases hchosen : c = '\n' ∧ chosen 0 = true
    · obtain ⟨rfl, h0⟩ := hchosen
      rw [withCr_newline h0] at h
      exact absurd (Option.some.inj h).symm hd
    · rw [withCr_other hchosen] at h
      exact h

/-! ## 2. Reading a spelling -/

/-- **Making line ends LF undoes every spelling** of a text without CR LF. -/
theorem unixLines_withCr (hcrLf : ¬ ['\r', '\n'] <:+: t) (chosen : Nat → Bool) :
    unixLines (withCr chosen t) = t := by
  induction t generalizing chosen with
  | nil => rfl
  | cons c t ih =>
    have htail : ¬ ['\r', '\n'] <:+: t := fun h => hcrLf (h.trans (List.suffix_cons c t).isInfix)
    by_cases hchosen : c = '\n' ∧ chosen 0 = true
    · obtain ⟨rfl, h0⟩ := hchosen
      rw [withCr_newline h0, unixLines, ih htail]
    · have hcut : c = '\r' → (withCr (fun i => chosen (i + 1)) t).head? ≠ some '\n' := by
        rintro rfl hhead
        obtain ⟨rest, rfl⟩ := List.head?_eq_some_iff.mp (head?_of_head?_withCr (by decide) hhead)
        exact hcrLf (List.prefix_append ['\r', '\n'] rest).isInfix
      rw [withCr_other hchosen, unixLines_cons hcut, ih htail]

/-- The byte-order mark of a spelling is the one that was put in front. -/
theorem withoutMark_spelled (hmark : t.head? ≠ some '\ufeff') (mark : Bool) (chosen : Nat → Bool) :
    withoutMark (spelled mark chosen t) = withCr chosen t := by
  cases mark with
  | true => rfl
  | false =>
    have hhead : (withCr chosen t).head? ≠ some '\ufeff' := by
      intro h
      exact hmark (head?_of_head?_withCr (by decide) h)
    rw [spelled, if_neg (by decide), withoutMark_eq, if_neg hhead]

/-- What a table is read from is the same for all spellings. -/
theorem lfLines_spelled (hcrLf : ¬ ['\r', '\n'] <:+: t) (hmark : t.head? ≠ some '\ufeff')
    (mark : Bool) (chosen : Nat → Bool) :
    lfLines (withoutMark (spelled mark chosen t)) = String.ofList t := by
  apply String.toList_inj.mp
  rw [withoutMark_spelled hmark, lfLines_eq, unixLines_withCr hcrLf, String.toList_ofList]

end Text

namespace Table

/-- **All spellings of a text are the same table.**  Any of its newlines may be written as CR LF,
and a byte-order mark be put in front: header, records and dropped rows are those of the text. -/
theorem decode_spelled (known : Option (List String)) (flush : Flush) (text : String)
    (hcrLf : ¬ ['\r', '\n'] <:+: text.toList) (hmark : text.toList.head? ≠ some '\ufeff')
    (mark : Bool) (chosen : Nat → Bool) :
    decode known flush (String.ofList (Text.spelled mark chosen text.toList)) =
      decode known flush text := by
  have hself : Text.spelled false (fun _ => false) text.toList = text.toList := by
    rw [Text.spelled, if_neg (by decide), Text.withCr_none]
  have hlines := Text.lfLines_spelled hcrLf hmark false (fun _ => false)
  rw [hself] at hlines
  rw [decode, decode, String.toList_ofList, Text.lfLines_spelled hcrLf hmark, hlines]

/-- The newline within quotation marks and the last one are written as CR LF behind a byte-order
mark; the CR that stands alone is a character. -/
theorem decode_spelled_of_both :
    let text := "a,b\n\"1\n2\",\r3\n"
    let chosen (i : Nat) := i == 6 || i == 12
    ¬ ['\r', '\n'] <:+: text.toList ∧ text.toList.head? ≠ some '\ufeff' ∧
      Text.spelled true chosen text.toList = "\ufeffa,b\n\"1\r\n2\",\r3\r\n".toList ∧
      decode none .deferred (String.ofList (Text.spelled true chosen text.toList)) =
        { header := some ["a", "b"]
          records := [⟨[("a", "1\n2"), ("b", "\r3")]⟩]
          dropped := 0 } := by
  intro text chosen
  have hcrLf : ¬ ['\r', '\n'] <:+: text.toList := by decide
  have hmark : text.toList.head? ≠ some '\ufeff' := by decide
  refine ⟨hcrLf, hmark, by decide, ?_⟩
  rw [decode_spelled none .deferred text hcrLf hmark]
  decide

end Table
end Collector
