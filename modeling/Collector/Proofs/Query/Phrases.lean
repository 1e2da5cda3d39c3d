/-
# A text and its quotation marks

What a query does with quotation marks is said by cutting the whole text at them.  The proofs
about queries need it from the front instead: a text without marks stays as it is, and one that
begins with a pair of marks gives the phrase between them and goes on behind them
(`phrased_pair`).  `pairing_induction` is the induction that goes with these equations: every text
is without marks, or its last mark has no partner, or it has a first pair.
-/
import Collector.Proofs.Query.Outline

namespace Collector
namespace Query

/-! ## 1. The first pair of a text -/

/-- **Marks pair up from the left.**  What holds of a text with no pair of marks, and of a text
that begins with a pair if it holds of the rest, holds of every text. -/
theorem pairing_induction {motive : List Char → Prop}
    (plain : ∀ t, '"' ∉ t → motive t)
    (unclosed : ∀ u v, '"' ∉ u → '"' ∉ v → motive (u ++ '"' :: v))
    (pair : ∀ u inside rest, '"' ∉ u → '"' ∉ inside → motive rest →
      motive (u ++ '"' :: (inside ++ '"' :: rest)))
    (t : List Char) : motive t := by
  induction hn : t.length using Nat.strongRecOn generalizing t with
  | ind n ih =>
    by_cases hfirst : '"' ∈ t
    · obtain ⟨u, v, rfl, hu⟩ := List.eq_append_cons_of_mem hfirst
      by_cases hsecond : '"' ∈ v
      · obtain ⟨inside, rest, rfl, hinside⟩ := List.eq_append_cons_of_mem hsecond
        have hshorter : rest.length < n := by
          simp only [List.length_append, List.length_cons] at hn
          omega
        exact pair u inside rest hu hinside (ih rest.length hshorter rest rfl)
      · exact unclosed u v hu hsecond
    · exact plain t hfirst

theorem splitOnP_of_not_mem {t : List Char} (h : '"' ∉ t) : t.splitOnP (· == '"') = [t] := by
  refine List.splitOnP_eq_singleton ?_
  intro c hc
  simp only [beq_eq_false_iff_ne]
  rintro rfl
  exact h hc

theorem splitOnP_mark {u : List Char} (hu : '"' ∉ u) (v : List Char) :
    (u ++ '"' :: v).splitOnP (· == '"') = u :: v.splitOnP (· == '"') := by
  rw [List.splitOnP_append_cons u v rfl, splitOnP_of_not_mem hu]
  rfl

theorem spans_plain {t : List Char} (h : '"' ∉ t) : spans t = [.plain t] := by
  rw [spans, splitOnP_of_not_mem h]
  rfl

theorem spans_unclosed {u v : List Char} (hu : '"' ∉ u) (hv : '"' ∉ v) :
    spans (u ++ '"' :: v) = [.plain (u ++ '"' :: v)] := by
  rw [spans, splitOnP_mark hu, splitOnP_of_not_mem hv]
  rfl

theorem spans_pair {u inside : List Char} (hu : '"' ∉ u) (hinside : '"' ∉ inside)
    (rest : List Char) :
    spans (u ++ '"' :: (inside ++ '"' :: rest)) = .plain u :: .quoted inside :: spans rest := by
  rw [spans, splitOnP_mark hu, splitOnP_mark hinside, spans]
  obtain ⟨piece, pieces, hpieces⟩ :=
    List.exists_cons_of_ne_nil (List.splitOnP_ne_nil (· == '"') rest)
  rw [hpieces]
  rfl

/-! ## 2. A text with its phrases marked -/

/-- A text between quotation marks. -/
def quoted (text : List Char) : List Char :=
  '"' :: text ++ ['"']

/-- A text between parentheses. -/
def parenthesised (text : List Char) : List Char :=
  '(' :: text ++ [')']

/-- The text in which every phrase is one mark. -/
def phrased (t : List Char) : List (Glyph (List Char)) :=
  (spans t).flatMap Span.glyphs

theorem phrased_plain {t : List Char} (h : '"' ∉ t) : phrased t = t.map .char := by
  rw [phrased, spans_plain h, List.flatMap_singleton]
  rfl

/-- A mark without a partner is a character. -/
theorem phrased_unclosed {u v : List Char} (hu : '"' ∉ u) (hv : '"' ∉ v) :
    phrased (u ++ '"' :: v) = (u ++ '"' :: v).map .char := by
  rw [phrased, spans_unclosed hu hv, List.flatMap_singleton]
  rfl

theorem phrased_pair {u inside : List Char} (hu : '"' ∉ u) (hinside : '"' ∉ inside)
    (rest : List Char) :
    phrased (u ++ '"' :: (inside ++ '"' :: rest)) =
      u.map .char ++ ((Span.quoted inside).glyphs ++ phrased rest) := by
  rw [phrased, spans_pair hu hinside, List.flatMap_cons, List.flatMap_cons]
  rfl

/-- A text without marks can be taken off the front. -/
theorem phrased_append {u : List Char} (hu : '"' ∉ u) (t : List Char) :
    phrased (u ++ t) = u.map .char ++ phrased t := by
  have hboth {v : List Char} (hv : '"' ∉ v) : '"' ∉ u ++ v := by
    rw [List.mem_append]
    exact not_or.mpr ⟨hu, hv⟩
  induction t using pairing_induction with
  | plain t ht => rw [phrased_plain (hboth ht), phrased_plain ht, List.map_append]
  | unclosed v w hv hw =>
    rw [← List.append_assoc, phrased_unclosed (hboth hv) hw, phrased_unclosed hv hw,
      List.append_assoc, List.map_append]
  | pair v inside rest hv hinside _ =>
    rw [← List.append_assoc, phrased_pair (hboth hv) hinside, phrased_pair hv hinside,
      List.map_append, List.append_assoc]

/-- A phrase at the front of a text is one mark. -/
theorem phrased_phrase {phrase : List Char} (h : '"' ∉ phrase) (hne : phrase ≠ [])
    (rest : List Char) :
    phrased (quoted phrase ++ rest) = .mark phrase :: phrased rest := by
  have hpair := phrased_pair (u := []) List.not_mem_nil h rest
  have hglyphs : (Span.quoted phrase).glyphs = [.mark phrase] := by
    obtain ⟨c, phrase, rfl⟩ := List.exists_cons_of_ne_nil hne
    rfl
  have htext : quoted phrase ++ rest = [] ++ '"' :: (phrase ++ '"' :: rest) := by
    simp [quoted]
  rw [htext, hpair, hglyphs]
  rfl

end Query
end Collector
