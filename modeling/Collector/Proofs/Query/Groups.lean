/-
# A text and its parentheses

What is a group depends on the parentheses alone, and the first opening one decides how a text goes
on.  Glyphs without parentheses are outside every group in front of it and are held back behind it;
it begins a group if the next parenthesis closes it and something stands between the two
(`markGroups_around`), and is a character otherwise (`markGroups_loose`, `markGroups_unclosed`).
`group_induction` is the induction that goes with these equations.
-/
import Collector.Proofs.Query.Outline

namespace Collector
namespace Query

/-! ## 1. Glyphs without parentheses -/

/-- The glyph is no parenthesis. -/
def Glyph.Level : Glyph (List Char) → Prop
  | .char c => c ≠ '(' ∧ c ≠ ')'
  | .mark _ => True

/-- In front of the first opening parenthesis there is no group. -/
theorem markGroups_unopened {glyphs : List (Glyph (List Char))} (h : .char '(' ∉ glyphs)
    (rest : List (Glyph (List Char))) :
    markGroups none (glyphs ++ rest) = glyphs.map Glyph.outside ++ markGroups none rest := by
  induction glyphs with
  | nil => rfl
  | cons x glyphs ih =>
    have hx : x = .char '(' → False := fun heq => h (heq ▸ List.mem_cons_self)
    rw [List.cons_append, markGroups, ih fun hmem => h (List.mem_cons_of_mem x hmem)]
    · rfl
    · exact hx

theorem markGroups_plain {u : List (Glyph (List Char))} (hu : .char '(' ∉ u) :
    markGroups none u = u.map Glyph.outside := by
  have hmarks := markGroups_unopened hu []
  rwa [List.append_nil, markGroups, release, List.append_nil] at hmarks

/-- What holds no parenthesis is outside every group. -/
theorem markGroups_outside {glyphs : List (Glyph (List Char))} (h : ∀ x ∈ glyphs, x.Level)
    (rest : List (Glyph (List Char))) :
    markGroups none (glyphs ++ rest) = glyphs.map Glyph.outside ++ markGroups none rest :=
  markGroups_unopened (fun hopen => (h _ hopen).1 rfl) rest

/-- Glyphs that are no parentheses are held back. -/
theorem markGroups_hold {glyphs : List (Glyph (List Char))} (h : ∀ g ∈ glyphs, g.Level)
    (held rest : List (Glyph (List Char))) :
    markGroups (some held) (glyphs ++ rest) = markGroups (some (glyphs.reverse ++ held)) rest := by
  induction glyphs generalizing held with
  | nil => rfl
  | cons g glyphs ih =>
    have hopen : g = .char '(' → False := by
      rintro rfl
      exact (h _ List.mem_cons_self).1 rfl
    have hclose : g = .char ')' → False := by
      rintro rfl
      exact (h _ List.mem_cons_self).2 rfl
    rw [List.cons_append, markGroups, ih fun y hy => h y (List.mem_cons_of_mem g hy)]
    · simp
    · exact hopen
    · exact hclose

/-- A text can be cut where everything that is held back is released. -/
theorem markGroups_append {tail : List (Glyph (List Char))} {out : List (Glyph Mark)}
    (htail : ∀ held, markGroups held tail = release held ++ out)
    (held : Option (List (Glyph (List Char)))) (front : List (Glyph (List Char))) :
    markGroups held (front ++ tail) = markGroups held front ++ out := by
  induction held, front using markGroups.induct with
  | case1 held => rw [List.nil_append, htail, markGroups]
  | case2 held front ih => simp [markGroups, ih]
  | case3 held front ih => simp [markGroups, ih]
  | case4 held glyph front hopen hclose ih =>
    rw [List.cons_append, markGroups, markGroups, ih]
    all_goals assumption
  | case5 glyph front hopen ih =>
    rw [List.cons_append, markGroups, markGroups, ih]
    · rfl
    all_goals assumption

/-- Glyphs at the end of a text that are no parentheses are in no group. -/
theorem markGroups_append_level {glyphs : List (Glyph (List Char))} (h : ∀ g ∈ glyphs, g.Level)
    (held : Option (List (Glyph (List Char)))) (front : List (Glyph (List Char))) :
    markGroups held (front ++ glyphs) = markGroups held front ++ glyphs.map Glyph.outside := by
  refine markGroups_append (fun held => ?_) held front
  cases held with
  | none => simpa [markGroups, release] using markGroups_outside h []
  | some held => simpa [markGroups, release] using markGroups_hold h held []

/-! ## 2. The first opening parenthesis -/

/-- A group is one mark, whatever stands around it. -/
theorem markGroups_around {inside : List (Glyph (List Char))} (h : ∀ x ∈ inside, x.Level)
    (hne : inside ≠ []) (front rest : List (Glyph (List Char))) :
    markGroups none (front ++ .char '(' :: (inside ++ .char ')' :: rest)) =
      markGroups none front ++ .mark (.group (lexemes inside)) :: markGroups none rest := by
  refine markGroups_append (fun held => ?_) none front
  rw [markGroups, markGroups_hold h, markGroups, close, if_neg (by simpa using hne)]
  simp

/-- An opening parenthesis is a character if another one comes before any closing one, or if a
closing one comes at once. -/
theorem markGroups_loose {u inside rest : List (Glyph (List Char))} {c : Char}
    (hu : .char '(' ∉ u) (h : ∀ x ∈ inside, x.Level) (hc : c = '(' ∨ c = ')' ∧ inside = []) :
    markGroups none (u ++ .char '(' :: (inside ++ .char c :: rest)) =
      u.map Glyph.outside ++ .char '(' :: markGroups none (inside ++ .char c :: rest) := by
  rw [markGroups_unopened hu, markGroups]
  rcases hc with rfl | ⟨rfl, rfl⟩
  · rw [markGroups_hold h, markGroups_outside h, markGroups, markGroups]
    simp [release]
  · rfl

/-- The last opening parenthesis is a character if no parenthesis comes after it. -/
theorem markGroups_unclosed {u v : List (Glyph (List Char))} (hu : .char '(' ∉ u)
    (hv : ∀ x ∈ v, x.Level) :
    markGroups none (u ++ .char '(' :: v) = (u ++ .char '(' :: v).map Glyph.outside := by
  have hopen : markGroups none (u ++ [.char '(']) = u.map Glyph.outside ++ [.char '('] := by
    rw [markGroups_unopened hu]
    rfl
  have hall := markGroups_append_level hv none (u ++ [.char '('])
  rw [hopen] at hall
  simpa [Glyph.outside] using hall

theorem level_or_exists_parenthesis (t : List (Glyph (List Char))) :
    (∀ x ∈ t, x.Level) ∨ ∃ inside c rest, t = inside ++ .char c :: rest ∧
      (∀ x ∈ inside, x.Level) ∧ (c = '(' ∨ c = ')') := by
  induction t with
  | nil => exact .inl fun x hx => absurd hx List.not_mem_nil
  | cons x t ih =>
    have hgoOn (hx : x.Level) : (∀ y ∈ x :: t, y.Level) ∨ ∃ inside c rest,
        x :: t = inside ++ .char c :: rest ∧ (∀ y ∈ inside, y.Level) ∧ (c = '(' ∨ c = ')') := by
      rcases ih with ht | ⟨inside, c, rest, rfl, hinside, hc⟩
      · exact .inl (List.forall_mem_cons.mpr ⟨hx, ht⟩)
      · exact .inr ⟨x :: inside, c, rest, rfl, List.forall_mem_cons.mpr ⟨hx, hinside⟩, hc⟩
    cases x with
    | mark phrase => exact hgoOn trivial
    | char c =>
      by_cases hc : c = '(' ∨ c = ')'
      · exact .inr ⟨[], c, t, rfl, fun y hy => absurd hy List.not_mem_nil, hc⟩
      · exact hgoOn (not_or.mp hc)

/-- **What comes of the first opening parenthesis.**  There is none, or no parenthesis comes after
it, or it begins a group, or it is a character and the text goes on behind it. -/
theorem group_induction {motive : List (Glyph (List Char)) → Prop}
    (plain : ∀ t, .char '(' ∉ t → motive t)
    (unclosed : ∀ u v, .char '(' ∉ u → (∀ x ∈ v, x.Level) → motive (u ++ .char '(' :: v))
    (group : ∀ u inside rest, .char '(' ∉ u → (∀ x ∈ inside, x.Level) → inside ≠ [] →
      motive rest → motive (u ++ .char '(' :: (inside ++ .char ')' :: rest)))
    (loose : ∀ u inside c rest, .char '(' ∉ u → (∀ x ∈ inside, x.Level) →
      (c = '(' ∨ c = ')' ∧ inside = []) → motive (inside ++ .char c :: rest) →
      motive (u ++ .char '(' :: (inside ++ .char c :: rest)))
    (t : List (Glyph (List Char))) : motive t := by
  induction hn : t.length using Nat.strongRecOn generalizing t with
  | ind n ih =>
    by_cases hfirst : .char '(' ∈ t
    · obtain ⟨u, v, rfl, hu⟩ := List.eq_append_cons_of_mem hfirst
      have hshorter : v.length < n := by
        simp only [List.length_append, List.length_cons] at hn
        omega
      rcases level_or_exists_parenthesis v with hv | ⟨inside, c, rest, rfl, hinside, hc⟩
      · exact unclosed u v hu hv
      · have hbehind := ih _ hshorter _ rfl
        by_cases hgroup : c = ')' ∧ inside ≠ []
        · obtain ⟨rfl, hne⟩ := hgroup
          have hrest : rest.length < n := by
            simp only [List.length_append, List.length_cons] at hshorter
            omega
          exact group u inside rest hu hinside hne (ih _ hrest rest rfl)
        · refine loose u inside c rest hu hinside ?_ hbehind
          rcases hc with rfl | rfl
          · exact .inl rfl
          · exact .inr ⟨rfl, by simpa using hgroup⟩
    · exact plain t hfirst

end Query
end Collector
