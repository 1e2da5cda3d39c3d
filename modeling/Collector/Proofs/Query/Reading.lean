/-
# Reading a query from the front

What a query is cut into can be read off its text piece by piece, as long as the text behind a
piece is known not to go on the piece.  `outlineOf` is the outline of the rest of a query, and
there is one equation for each piece that the rest may begin with: blanks leave nothing, a phrase
or a group without parentheses inside is one mark, and a word is a word if a blank, a mark or the
end stands behind it.
-/
import Collector.Proofs.Query.Groups
import Collector.Proofs.Query.Phrases

namespace Collector
namespace Query

/-! ## 1. Words and blanks -/

variable {μ : Type}

/-- A word that stands in front of these glyphs ends there. -/
def EndsWord : List (Glyph μ) → Prop
  | [] | .mark _ :: _ => True
  | .char c :: _ => Text.isBlank c = true

theorem lexemesFrom_of_ends {rest : List (Glyph μ)} (h : EndsWord rest) (held : List Char) :
    lexemesFrom held rest = closeWord held ++ lexemes rest := by
  unfold lexemes
  rcases rest with _ | ⟨c | m, rest⟩
  · simp [lexemesFrom, closeWord]
  · have hblank : Text.isBlank c = true := h
    simp [lexemesFrom, closeWord, hblank]
  · simp [lexemesFrom, closeWord]

/-- Characters that are not blank go on the word begun. -/
theorem lexemesFrom_map_char {w : List Char} (hw : ∀ c ∈ w, Text.isBlank c = false)
    (held : List Char) (rest : List (Glyph μ)) :
    lexemesFrom held (w.map .char ++ rest) = lexemesFrom (w.reverse ++ held) rest := by
  induction w generalizing held with
  | nil => rfl
  | cons c w ih =>
    have hc : ¬ Text.isBlank c = true := by simp [hw c List.mem_cons_self]
    rw [List.map_cons, List.cons_append, lexemesFrom, if_neg hc,
      ih fun d hd => hw d (List.mem_cons_of_mem c hd)]
    simp

theorem lexemes_word {w : List Char} (hne : w ≠ []) (hw : ∀ c ∈ w, Text.isBlank c = false)
    {rest : List (Glyph μ)} (hrest : EndsWord rest) :
    lexemes (w.map .char ++ rest) = .word w :: lexemes rest := by
  have hclose : closeWord (μ := μ) (w.reverse ++ []) = [.word w] := by
    simp [closeWord, hne]
  rw [lexemes, lexemesFrom_map_char hw, lexemesFrom_of_ends hrest, hclose]
  rfl

theorem lexemes_blanks {gap : List Char} (hgap : ∀ c ∈ gap, Text.isBlank c = true)
    (rest : List (Glyph μ)) : lexemes (gap.map .char ++ rest) = lexemes rest := by
  induction gap with
  | nil => rfl
  | cons c gap ih =>
    rw [List.map_cons, List.cons_append, lexemes, lexemesFrom, if_pos (hgap c List.mem_cons_self)]
    exact ih fun d hd => hgap d (List.mem_cons_of_mem c hd)

/-! ## 2. A query from some place on -/

/-- The rest of a query with its phrases and groups marked. -/
def marked (t : List Char) : List (Glyph Mark) :=
  markGroups none (phrased t)

/-- The outline of the rest of a query. -/
def outlineOf (t : List Char) : List (Lexeme Mark) :=
  lexemes (marked t)

theorem outline_ofList {t : List Char} (h : ∀ c ∈ t, isReserved c = false) :
    outline (String.ofList t) = outlineOf t := by
  have hsame : unreserved t = t := by
    refine (List.map_congr_left ?_).trans (List.map_id t)
    intro c hc
    rw [h c hc]
    rfl
  rw [outline, String.toList_ofList, hsame]
  rfl

/-- The character has no part in marking phrases and groups. -/
def Ordinary (c : Char) : Prop :=
  c ∉ ['"', '(', ')']

theorem not_mem_of_ordinary {t : List Char} (h : ∀ c ∈ t, Ordinary c) : '"' ∉ t :=
  fun hmem => h _ hmem (by simp)

theorem level_of_ordinary {t : List Char} (h : ∀ c ∈ t, Ordinary c) :
    ∀ x ∈ t.map Glyph.char, x.Level := by
  intro x hx
  obtain ⟨c, hc, rfl⟩ := List.mem_map.mp hx
  have hordinary := h c hc
  simp only [Ordinary, List.mem_cons, List.not_mem_nil, or_false, not_or] at hordinary
  exact hordinary.2

theorem marked_ordinary {u : List Char} (hu : ∀ c ∈ u, Ordinary c) (t : List Char) :
    marked (u ++ t) = u.map .char ++ marked t := by
  have houtside : (u.map Glyph.char).map Glyph.outside = u.map .char := by
    rw [List.map_map]
    rfl
  rw [marked, phrased_append (not_mem_of_ordinary hu), markGroups_outside (level_of_ordinary hu),
    houtside]
  rfl

theorem outlineOf_blanks {gap : List Char} (hordinary : ∀ c ∈ gap, Ordinary c)
    (hgap : ∀ c ∈ gap, Text.isBlank c = true) (t : List Char) :
    outlineOf (gap ++ t) = outlineOf t := by
  rw [outlineOf, marked_ordinary hordinary, lexemes_blanks hgap]
  rfl

theorem outlineOf_word {w : List Char} (hne : w ≠ []) (hordinary : ∀ c ∈ w, Ordinary c)
    (hw : ∀ c ∈ w, Text.isBlank c = false) {t : List Char} (ht : EndsWord (marked t)) :
    outlineOf (w ++ t) = .word w :: outlineOf t := by
  rw [outlineOf, marked_ordinary hordinary, lexemes_word hne hw ht]
  rfl

theorem outlineOf_phrase {phrase : List Char} (hne : phrase ≠ []) (h : '"' ∉ phrase)
    (t : List Char) :
    outlineOf (quoted phrase ++ t) = .mark (.phrase phrase) :: outlineOf t := by
  have hmark : ∀ x ∈ [Glyph.mark phrase], x.Level := by
    intro x hx
    obtain rfl := List.mem_singleton.mp hx
    trivial
  rw [outlineOf, marked, phrased_phrase h hne]
  exact congrArg lexemes (markGroups_outside hmark (phrased t))

theorem outlineOf_group {inside : List Char} (hne : inside ≠ [])
    (hordinary : ∀ c ∈ inside, Ordinary c) (t : List Char) :
    outlineOf (parenthesised inside ++ t) =
      .mark (.group (lexemes (inside.map .char))) :: outlineOf t := by
  have hmarks : '"' ∉ parenthesised inside := by
    simp [parenthesised, not_mem_of_ordinary hordinary]
  have hglyphs : (parenthesised inside).map Glyph.char ++ phrased t =
      .char '(' :: (inside.map .char ++ .char ')' :: phrased t) := by
    simp [parenthesised]
  have hne' : inside.map (Glyph.char : Char → Glyph (List Char)) ≠ [] := by simpa using hne
  have hgroup := markGroups_around (level_of_ordinary hordinary) hne' [] (phrased t)
  rw [outlineOf, marked, phrased_append hmarks, hglyphs]
  exact congrArg lexemes hgroup

end Query
end Collector
