/-
# Stretches of a query that may stand for each other

Once phrases are marked, a query is cut at its blanks twice: inside every group and around the
groups.  Neither cutting sees how many blanks stand together, nor whether any stand beside a mark,
since a mark ends a word by itself.  Two stretches that differ in nothing else are
`Interchangeable`.

Marking groups stands between the two cuttings, and it takes glyphs of such a stretch into a group
or leaves them outside, depending on the parentheses around.  It does so alike for interchangeable
stretches: they hold no parenthesis, and neither of them is empty, so that a pair of parentheses
around them is a group in either case (`sameCut_markGroups`).

A group is a mark itself afterwards, so blanks beside it make no difference either
(`sameCut_before_group`, `sameCut_behind_group`).
-/
import Collector.Proofs.Query.Words

namespace Collector
namespace Query

variable {μ : Type}

/-! ## 1. Texts that are cut alike -/

/-- The texts are cut into the same lexemes, behind any word begun. -/
def SameCut (x y : List (Glyph μ)) : Prop :=
  ∀ held, lexemesFrom held x = lexemesFrom held y

namespace SameCut

variable {x y : List (Glyph μ)}

theorem refl (x : List (Glyph μ)) : SameCut x x := fun _ => rfl

theorem lexemes_eq (h : SameCut x y) : lexemes x = lexemes y := h []

/-- What stands in front of both makes no difference. -/
theorem prepend (h : SameCut x y) (front : List (Glyph μ)) :
    SameCut (front ++ x) (front ++ y) := by
  intro held
  induction held, front using lexemesFrom.induct with
  | case1 held => exact h held
  | case2 held c rest hblank ih => simp [lexemesFrom, hblank, ih]
  | case3 held c rest hink ih => simp [lexemesFrom, hink, ih]
  | case4 held m rest ih => simp [lexemesFrom, ih]

end SameCut

/-- All characters are blanks. -/
def Blanks (gap : List Char) : Prop :=
  ∀ c ∈ gap, Text.isBlank c = true

theorem endsWord_blanks {gap : List Char} (hgap : Blanks gap) {rest : List (Glyph μ)}
    (h : gap ≠ [] ∨ EndsWord rest) : EndsWord (gap.map .char ++ rest) := by
  cases gap with
  | nil => simpa using h
  | cons c gap => exact hgap c List.mem_cons_self

/-- A parenthesis is no blank. -/
theorem level_blanks {gap : List Char} (hgap : Blanks gap) :
    ∀ g ∈ gap.map (Glyph.char : Char → Glyph (List Char)), g.Level := by
  intro g hg
  obtain ⟨c, hc, rfl⟩ := List.mem_map.mp hg
  have hblank := hgap c hc
  constructor
  · rintro rfl
    exact absurd hblank (by decide)
  · rintro rfl
    exact absurd hblank (by decide)

theorem outside_blanks (gap : List Char) :
    (gap.map (Glyph.char : Char → Glyph (List Char))).map Glyph.outside = gap.map .char := by
  rw [List.map_map]
  rfl

/-! ## 2. Interchangeable stretches -/

/-- Stretches that differ in their blanks only, where no blank is needed to end a word: some blanks
and some other ones, or a mark with any blanks around it. -/
inductive Interchangeable : List (Glyph μ) → List (Glyph μ) → Prop where
  | blanks {u v : List Char} (hu : Blanks u) (hv : Blanks v) (hune : u ≠ []) (hvne : v ≠ []) :
    Interchangeable (u.map .char) (v.map .char)
  | mark (m : μ) {u v u' v' : List Char} (hu : Blanks u) (hv : Blanks v) (hu' : Blanks u')
    (hv' : Blanks v') :
    Interchangeable (u.map .char ++ .mark m :: v.map .char)
      (u'.map .char ++ .mark m :: v'.map .char)

theorem lexemesFrom_blanks {gap : List Char} (hgap : Blanks gap) (hne : gap ≠ [])
    (held : List Char) (rest : List (Glyph μ)) :
    lexemesFrom held (gap.map .char ++ rest) = closeWord held ++ lexemes rest := by
  rw [lexemesFrom_of_ends (endsWord_blanks hgap (.inl hne)), lexemes_blanks hgap]

theorem lexemesFrom_mark {u v : List Char} (hu : Blanks u) (hv : Blanks v) (m : μ)
    (held : List Char) (rest : List (Glyph μ)) :
    lexemesFrom held (u.map .char ++ .mark m :: v.map .char ++ rest) =
      closeWord held ++ .mark m :: lexemes rest := by
  have hmark : EndsWord (.mark m :: (v.map .char ++ rest)) := trivial
  rw [List.append_assoc, List.cons_append,
    lexemesFrom_of_ends (endsWord_blanks hu (.inr hmark)), lexemes_blanks hu, lexemes, lexemesFrom]
  exact congrArg (fun tail => closeWord held ++ Lexeme.mark m :: tail) (lexemes_blanks hv rest)

namespace Interchangeable

/-- **Interchangeable stretches are cut alike**, whatever stands behind them. -/
theorem sameCut {x y : List (Glyph μ)} (h : Interchangeable x y) (rest : List (Glyph μ)) :
    SameCut (x ++ rest) (y ++ rest) := by
  intro held
  cases h with
  | blanks hu hv hune hvne => rw [lexemesFrom_blanks hu hune, lexemesFrom_blanks hv hvne]
  | mark m hu hv hu' hv' => rw [lexemesFrom_mark hu hv, lexemesFrom_mark hu' hv']

variable {x y : List (Glyph (List Char))}

theorem ne_nil (h : Interchangeable x y) : x ≠ [] ∧ y ≠ [] := by
  cases h with
  | blanks hu hv hune hvne => simp [hune, hvne]
  | mark m hu hv hu' hv' => simp

/-- There is no parenthesis in either of them. -/
theorem level (h : Interchangeable x y) : (∀ g ∈ x, g.Level) ∧ ∀ g ∈ y, g.Level := by
  have hmark {u v : List Char} (m : List Char) (hu : Blanks u) (hv : Blanks v) :
      ∀ g ∈ u.map Glyph.char ++ Glyph.mark m :: v.map Glyph.char, g.Level := by
    intro g hg
    rcases List.mem_append.mp hg with hg | hg
    · exact level_blanks hu g hg
    · rcases List.mem_cons.mp hg with rfl | hg
      · trivial
      · exact level_blanks hv g hg
  cases h with
  | blanks hu hv hune hvne => exact ⟨level_blanks hu, level_blanks hv⟩
  | mark m hu hv hu' hv' => exact ⟨hmark m hu hv, hmark m hu' hv'⟩

/-- Stretches that are in no group remain interchangeable. -/
theorem outside (h : Interchangeable x y) :
    Interchangeable (x.map Glyph.outside) (y.map Glyph.outside) := by
  cases h with
  | blanks hu hv hune hvne =>
    rw [outside_blanks, outside_blanks]
    exact .blanks hu hv hune hvne
  | mark m hu hv hu' hv' =>
    simp only [List.map_append, List.map_cons, outside_blanks]
    exact .mark (Mark.phrase m) hu hv hu' hv'

end Interchangeable

/-! ## 3. Marking groups around a stretch -/

variable {x y : List (Glyph (List Char))}

/-- A stretch that has been held back is released or becomes part of a group, and either is the
same for an interchangeable one. -/
theorem sameCut_markGroups_held (h : Interchangeable x y)
    (held later rest : List (Glyph (List Char))) :
    SameCut (markGroups (some (later ++ (x.reverse ++ held))) rest)
      (markGroups (some (later ++ (y.reverse ++ held))) rest) := by
  have hrelease (later : List (Glyph (List Char))) (tail : List (Glyph Mark)) :
      SameCut (release (some (later ++ (x.reverse ++ held))) ++ tail)
        (release (some (later ++ (y.reverse ++ held))) ++ tail) := by
    have hstretch := h.outside.sameCut (later.reverse.map Glyph.outside ++ tail)
    have hfront := hstretch.prepend (.char '(' :: held.reverse.map Glyph.outside)
    simpa [release] using hfront
  induction rest generalizing later with
  | nil =>
    have hend := hrelease later []
    simpa [markGroups] using hend
  | cons g rest ih =>
    by_cases hopen : g = .char '('
    · subst hopen
      simpa only [markGroups] using hrelease later (markGroups (some []) rest)
    by_cases hclose : g = .char ')'
    · subst hclose
      obtain ⟨hx, hy⟩ := h.ne_nil
      have hitems : lexemes (held.reverse ++ (x ++ later.reverse)) =
          lexemes (held.reverse ++ (y ++ later.reverse)) :=
        ((h.sameCut later.reverse).prepend held.reverse).lexemes_eq
      have hgroup : close (later ++ (x.reverse ++ held)) =
          close (later ++ (y.reverse ++ held)) := by
        simp [close, hx, hy, hitems]
      rw [markGroups, markGroups, hgroup]
      exact SameCut.refl _
    · have hnext := ih (g :: later)
      rw [markGroups, markGroups]
      · exact hnext
      all_goals assumption

/-- **Marking groups does not tell interchangeable stretches apart**, wherever in a text they
stand. -/
theorem sameCut_markGroups (h : Interchangeable x y) (held : Option (List (Glyph (List Char))))
    (front rest : List (Glyph (List Char))) :
    SameCut (markGroups held (front ++ (x ++ rest))) (markGroups held (front ++ (y ++ rest))) := by
  induction held, front using markGroups.induct with
  | case1 held =>
    obtain ⟨hx, hy⟩ := h.level
    cases held with
    | none =>
      rw [List.nil_append, List.nil_append, markGroups_outside hx, markGroups_outside hy]
      exact h.outside.sameCut (markGroups none rest)
    | some held =>
      rw [List.nil_append, List.nil_append, markGroups_hold hx, markGroups_hold hy]
      exact sameCut_markGroups_held h held [] rest
  | case2 held front ih =>
    rw [List.cons_append, List.cons_append, markGroups, markGroups]
    exact ih.prepend (release held)
  | case3 held front ih =>
    rw [List.cons_append, List.cons_append, markGroups, markGroups]
    exact ih.prepend (close held)
  | case4 held glyph front hopen hclose ih =>
    rw [List.cons_append, List.cons_append, markGroups, markGroups]
    · exact ih
    all_goals assumption
  | case5 glyph front hopen ih =>
    rw [List.cons_append, List.cons_append, markGroups, markGroups]
    · exact ih.prepend [glyph.outside]
    all_goals assumption

/-! ## 4. Blanks beside a group -/

variable {inside : List (Glyph (List Char))}

/-- Blanks in front of the opening parenthesis of a group make no difference. -/
theorem sameCut_before_group (h : ∀ g ∈ inside, g.Level) (hne : inside ≠ []) {gap : List Char}
    (hgap : Blanks gap) (front rest : List (Glyph (List Char))) :
    SameCut (markGroups none (front ++ .char '(' :: (inside ++ .char ')' :: rest)))
      (markGroups none
        (front ++ (gap.map .char ++ .char '(' :: (inside ++ .char ')' :: rest)))) := by
  have hnone : Blanks [] := fun c hc => absurd hc List.not_mem_nil
  have hmark := Interchangeable.mark (Mark.group (lexemes inside)) hnone hnone hgap hnone
  have hboth := (hmark.sameCut (markGroups none rest)).prepend (markGroups none front)
  rw [← List.append_assoc front, markGroups_around h hne, markGroups_around h hne,
    markGroups_append_level (level_blanks hgap), outside_blanks]
  simpa using hboth

/-- Blanks behind the closing parenthesis of a group make no difference. -/
theorem sameCut_behind_group (h : ∀ g ∈ inside, g.Level) (hne : inside ≠ []) {gap : List Char}
    (hgap : Blanks gap) (front rest : List (Glyph (List Char))) :
    SameCut (markGroups none (front ++ .char '(' :: (inside ++ .char ')' :: rest)))
      (markGroups none
        (front ++ .char '(' :: (inside ++ .char ')' :: (gap.map .char ++ rest)))) := by
  have hnone : Blanks [] := fun c hc => absurd hc List.not_mem_nil
  have hmark := Interchangeable.mark (Mark.group (lexemes inside)) hnone hnone hnone hgap
  have hboth := (hmark.sameCut (markGroups none rest)).prepend (markGroups none front)
  rw [markGroups_around h hne, markGroups_around h hne, markGroups_outside (level_blanks hgap),
    outside_blanks]
  simpa using hboth

end Query
end Collector
