/-
# Line ends, character by character

`unixLines` says what making line ends LF is: every CR LF becomes LF, and all else stays.  The
fold that computes it holds a CR back until it knows the next character, and gives out the same
(`lfLines_eq`).

Two texts side by side are made LF one by one, unless a line end is cut in two between them
(`unixLines_append`).
-/
import Collector.Text.Newline

namespace Collector
namespace Text

/-! ## 1. CR LF becomes LF -/

/-- The text with LF for every CR LF. -/
def unixLines : List Char → List Char
  | '\r' :: '\n' :: rest => '\n' :: unixLines rest
  | c :: rest => c :: unixLines rest
  | [] => []

theorem unixLines_cons {c : Char} {t : List Char} (h : c = '\r' → t.head? ≠ some '\n') :
    unixLines (c :: t) = c :: unixLines t := by
  rw [unixLines]
  rintro rest rfl rfl
  exact h rfl rfl

/-- Where the second equation of `unixLines` holds. -/
theorem head?_ne_of_not_cut {c : Char} {t : List Char}
    (hcut : ∀ rest, c = '\r' → t = '\n' :: rest → False) : c = '\r' → t.head? ≠ some '\n' := by
  intro hcr hlf
  obtain ⟨rest, hrest⟩ := List.head?_eq_some_iff.mp hlf
  exact hcut rest hcr hrest

theorem getLast?_cons_of {c d : Char} {t : List Char} (h : t.getLast? = some d) :
    (c :: t).getLast? = some d := by
  rw [List.getLast?_cons, h, Option.getD_some]

/-- A text whose last CR is not cut off from its LF is made LF on its own. -/
theorem unixLines_append {u v : List Char}
    (h : u.getLast? = some '\r' → v.head? ≠ some '\n') :
    unixLines (u ++ v) = unixLines u ++ unixLines v := by
  induction u using unixLines.induct with
  | case1 rest ih =>
    have hrest : rest.getLast? = some '\r' → v.head? ≠ some '\n' := fun hcr =>
      h (getLast?_cons_of (getLast?_cons_of hcr))
    rw [List.cons_append, List.cons_append, unixLines, ih hrest, unixLines, List.cons_append]
  | case2 c rest hcut ih =>
    have hrest : rest.getLast? = some '\r' → v.head? ≠ some '\n' := fun hcr =>
      h (getLast?_cons_of hcr)
    have hc : c = '\r' → rest.head? ≠ some '\n' := head?_ne_of_not_cut hcut
    have hc' : c = '\r' → (rest ++ v).head? ≠ some '\n' := by
      intro hcr
      cases rest with
      | nil => exact h (congrArg some hcr)
      | cons d rest => exact hc hcr
    rw [List.cons_append, unixLines_cons hc', ih hrest, unixLines_cons hc, List.cons_append]
  | case3 => rfl

/-- A text without a CR has no line end to change. -/
theorem unixLines_of_not_mem {t : List Char} (h : '\r' ∉ t) : unixLines t = t := by
  induction t with
  | nil => rfl
  | cons c t ih =>
    have hc : c ≠ '\r' := fun hcr => h (hcr ▸ List.mem_cons_self)
    rw [unixLines_cons fun hcr => absurd hcr hc, ih fun ht => h (List.mem_cons_of_mem c ht)]

/-! ## 2. The fold -/

/-- The rest of a text, with a CR that is held back in front of it. -/
def withHeld (s : Newlines) (t : List Char) : List Char :=
  if s.heldCr then '\r' :: t else t

/-- A step gives out what making line ends LF makes of the character, or holds it back. -/
theorem feed_withHeld (s : Newlines) (c : Char) (t : List Char) :
    (s.feed c).text.toList ++ unixLines (withHeld (s.feed c) t) =
      s.text.toList ++ unixLines (withHeld s (c :: t)) := by
  obtain ⟨text, held⟩ := s
  cases held with
  | false =>
    by_cases hcr : c = '\r'
    · simp [Newlines.feed, withHeld, hcr]
    · have hc : unixLines (c :: t) = c :: unixLines t := unixLines_cons (by simp [hcr])
      simp [Newlines.feed, withHeld, hcr, hc]
  | true =>
    by_cases hlf : c = '\n'
    · subst hlf
      simp [Newlines.feed, withHeld, unixLines]
    · have hheld : unixLines ('\r' :: c :: t) = '\r' :: unixLines (c :: t) :=
        unixLines_cons (by simp [hlf])
      by_cases hcr : c = '\r'
      · subst hcr
        simp [Newlines.feed, withHeld, hheld]
      · have hc : unixLines (c :: t) = c :: unixLines t := unixLines_cons (by simp [hcr])
        simp [Newlines.feed, withHeld, hlf, hcr, hheld, hc]

theorem foldl_newlines (t : List Char) (s : Newlines) :
    (t.foldl Newlines.feed s).finish.toList = s.text.toList ++ unixLines (withHeld s t) := by
  induction t generalizing s with
  | nil =>
    rw [List.foldl_nil]
    by_cases hheld : s.heldCr = true
    · simp [Newlines.finish, withHeld, hheld, unixLines]
    · simp [Newlines.finish, withHeld, hheld, unixLines]
  | cons c t ih => rw [List.foldl_cons, ih, feed_withHeld]

/-- **The fold makes line ends LF.** -/
theorem lfLines_eq (t : List Char) : (lfLines t).toList = unixLines t := by
  rw [lfLines, foldl_newlines]
  rfl

/-! ## 3. The byte-order mark -/

theorem withoutMark_eq (t : List Char) :
    withoutMark t = if t.head? = some '\ufeff' then t.tail else t := by
  unfold withoutMark
  split
  · rfl
  · rename_i hmark
    rw [if_neg]
    intro hhead
    obtain ⟨rest, rfl⟩ := List.head?_eq_some_iff.mp hhead
    exact hmark rest rfl

end Text
end Collector
