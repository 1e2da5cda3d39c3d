/-
# Positions in a query

Where the phrases and groups of a query stand can be said by positions alone, without reading the
query from left to right.  A quotation mark opens a pair if an even number of marks stands in front
of it, and the next mark closes the pair (`Paired`).  What is `Outside` every pair is ordinary text.
A phrase is a pair with something between its marks (`IsPhrase`); a group is an opening parenthesis
outside, of which the next parenthesis outside is a closing one, with something between the two
(`IsGroup`).  The items of a group are its phrases, and its longest runs of characters that are
outside and not blank (`IsItem`).

The other side is the text in which phrases are marks already.  `Reads t k glyphs j` says that the
glyphs are what stands in `t` from the position `k` up to `j`.  A whole text is read so
(`reads_phrased`), and what follows from it about positions is collected here: proofs about the
later steps need not look into the text any more.
-/
import Collector.Proofs.Query.Lossless
import Collector.Proofs.Query.Words
import Mathlib.Algebra.Order.Group.Nat

namespace Collector
namespace Query

/-! ## 1. Pairs of quotation marks, phrases and groups -/

/-- The text from one position up to another. -/
def slice (t : List Char) (i j : Nat) : List Char :=
  (t.drop i).take (j - i)

/-- The quotation marks at two positions are a pair: the number of marks in front of the first is
even, and the second is the next one. -/
structure Paired (t : List Char) (i j : Nat) : Prop where
  opens : t[i]? = some '"'
  closes : t[j]? = some '"'
  lt : i < j
  even : (t.take i).count '"' % 2 = 0
  next (k : Nat) (hi : i < k) (hj : k < j) : t[k]? ≠ some '"'

/-- The position is not in a pair, be it one of its marks or between them. -/
def Outside (t : List Char) (k : Nat) : Prop :=
  ∀ i j, Paired t i j → k < i ∨ j < k

/-- A pair with something between its marks. -/
structure IsPhrase (t : List Char) (i j : Nat) : Prop where
  paired : Paired t i j
  nonempty : i + 1 < j

/-- An opening parenthesis and the next parenthesis, which is a closing one, with something between
the two.  Parentheses in pairs of quotation marks do not count. -/
structure IsGroup (t : List Char) (i j : Nat) : Prop where
  opens : t[i]? = some '(' ∧ Outside t i
  closes : t[j]? = some ')' ∧ Outside t j
  nonempty : i + 1 < j
  next (k : Nat) (hi : i < k) (hj : k < j) (hk : Outside t k) :
    t[k]? ≠ some '(' ∧ t[k]? ≠ some ')'

/-- A character that may be part of a word stands at the position. -/
def Ink (t : List Char) (k : Nat) : Prop :=
  Outside t k ∧ ∃ c, t[k]? = some c ∧ Text.isBlank c = false

/-- From `k` up to `l` stands a word of the group whose parentheses are at `i` and `j`: a longest
run of characters of words. -/
structure IsWord (t : List Char) (i j k l : Nat) : Prop where
  after : i < k
  before : l ≤ j
  nonempty : k < l
  ink (m : Nat) (hk : k ≤ m) (hl : m < l) : Ink t m
  starts : k = i + 1 ∨ ¬ Ink t (k - 1)
  ends : l = j ∨ ¬ Ink t l

/-- An item of the group whose parentheses are at `i` and `j` stands at a position.  A phrase has
its number in the list of the places of all phrases. -/
inductive IsItem (t : List Char) (phrases : List (Nat × Nat)) (i j : Nat) : Nat → Token → Prop where
  | word {k l : Nat} (h : IsWord t i j k l) :
    IsItem t phrases i j k (.word (String.ofList (slice t k l)))
  | phrase {k l n : Nat} (hi : i < k) (hj : l < j) (h : phrases[n]? = some (k, l)) :
    IsItem t phrases i j k (.phrase n)

/-! ## 2. Pairs keep apart -/

variable {t : List Char} {i j k l i' j' : Nat}

theorem count_take_succ (t : List Char) (n : Nat) :
    (t.take (n + 1)).count '"' = (t.take n).count '"' + if t[n]? = some '"' then 1 else 0 := by
  rw [List.take_add_one, List.count_append]
  cases t[n]? with
  | none => simp
  | some c => by_cases hc : c = '"' <;> simp [hc]

namespace Paired

/-- Between the marks of a pair, the number of marks in front is odd. -/
theorem odd (h : Paired t i j) (hi : i < k) (hj : k ≤ j) : (t.take k).count '"' % 2 = 1 := by
  induction k, hi using Nat.le_induction with
  | base =>
    have heven := h.even
    rw [count_take_succ, if_pos h.opens]
    omega
  | succ k hi ih =>
    have hk := ih (by omega)
    rw [count_take_succ, if_neg (h.next k hi hj), Nat.add_zero]
    exact hk

/-- A pair ends before the next one begins. -/
theorem apart (h : Paired t i j) (h' : Paired t i' j') (hlt : i < i') : j < i' := by
  by_contra hle
  have hodd := h.odd hlt (Nat.le_of_not_lt hle)
  have heven := h'.even
  omega

theorem unique (h : Paired t i j) (h' : Paired t i j') : j = j' := by
  rcases Nat.lt_trichotomy j j' with hlt | heq | hlt
  · exact absurd h.closes (h'.next j h.lt hlt)
  · exact heq
  · exact absurd h'.closes (h.next j' h'.lt hlt)

theorem not_outside (h : Paired t i j) (hi : i ≤ k) (hj : k ≤ j) : ¬ Outside t k := by
  intro hk
  rcases hk i j h with hlt | hlt
  · omega
  · omega

/-- No other pair begins or goes on within a pair. -/
theorem eq_of_covers (h : Paired t i j) (h' : Paired t i' j') (hi : i ≤ i') (hj : i' ≤ j) :
    i = i' := by
  by_contra hne
  have := h.apart h' (by omega)
  omega

end Paired

theorem IsPhrase.unique (h : IsPhrase t i j) (h' : IsPhrase t i j') : j = j' :=
  h.paired.unique h'.paired

theorem length_slice (hj : j ≤ t.length) : (slice t i j).length = j - i := by
  rw [slice, List.length_take, List.length_drop]
  omega

theorem slice_self (t : List Char) (k : Nat) : slice t k k = [] := by
  simp [slice]

theorem slice_succ {c : Char} (hi : i ≤ k) (hc : t[k]? = some c) :
    slice t i (k + 1) = slice t i k ++ [c] := by
  have hlength : k + 1 - i = (k - i) + 1 := by omega
  have hget : (t.drop i)[k - i]? = some c := by
    rw [List.getElem?_drop, ← hc]
    congr 1
    omega
  rw [slice, slice, hlength, List.take_add_one, hget]
  rfl

/-! ## 3. Glyphs that stand in a text -/

/-- The glyphs are what stands in the text from one position up to another: characters outside,
blanks for empty pairs, and marks for phrases. -/
inductive Reads (t : List Char) : Nat → List (Glyph (List Char)) → Nat → Prop where
  | nil (k : Nat) : Reads t k [] k
  | char {k j : Nat} {c : Char} {rest : List (Glyph (List Char))} (hk : Outside t k)
    (hc : t[k]? = some c) (h : Reads t (k + 1) rest j) : Reads t k (.char c :: rest) j
  | empty {k j : Nat} {rest : List (Glyph (List Char))} (hk : Paired t k (k + 1))
    (h : Reads t (k + 2) rest j) : Reads t k (.char ' ' :: rest) j
  | phrase {k l j : Nat} {rest : List (Glyph (List Char))} (hk : IsPhrase t k l)
    (h : Reads t (l + 1) rest j) : Reads t k (.mark (slice t (k + 1) l) :: rest) j

namespace Reads

variable {glyphs rest : List (Glyph (List Char))}

theorem append (h : Reads t i glyphs k) (h' : Reads t k rest j) : Reads t i (glyphs ++ rest) j := by
  induction h with
  | nil => exact h'
  | char hk hc _ ih => exact .char hk hc (ih h')
  | empty hk _ ih => exact .empty hk (ih h')
  | phrase hk _ ih => exact .phrase hk (ih h')

theorem le (h : Reads t i glyphs j) : i ≤ j := by
  induction h with
  | nil => exact Nat.le_refl _
  | char | empty => omega
  | phrase hk _ ih =>
    have := hk.paired.lt
    omega

theorem lt_of_ne_nil (h : Reads t i glyphs j) (hne : glyphs ≠ []) : i < j := by
  cases h with
  | nil => exact absurd rfl hne
  | char _ _ h | empty _ h =>
    have := h.le
    omega
  | phrase hk h =>
    have := hk.paired.lt
    have := h.le
    omega

/-- The first glyph reads to some position, and the others from there. -/
theorem uncons {x : Glyph (List Char)} (h : Reads t i (x :: rest) j) :
    ∃ k, Reads t i [x] k ∧ Reads t k rest j := by
  cases h with
  | char hk hc h => exact ⟨_, .char hk hc (.nil _), h⟩
  | empty hk h => exact ⟨_, .empty hk (.nil _), h⟩
  | phrase hk h => exact ⟨_, .phrase hk (.nil _), h⟩

/-- A character outside is one of the glyphs. -/
theorem mem_of_outside {c : Char} (h : Reads t i glyphs j) (hi : i ≤ k) (hj : k < j)
    (hk : Outside t k) (hc : t[k]? = some c) : .char c ∈ glyphs := by
  induction h with
  | nil => omega
  | @char i _ _ _ _ hd _ ih =>
    rcases Nat.eq_or_lt_of_le hi with rfl | hlt
    · rw [hd] at hc
      obtain rfl := Option.some.inj hc
      exact List.mem_cons_self
    · exact List.mem_cons_of_mem _ (ih hlt hj)
  | @empty i _ _ hpair _ ih =>
    by_cases hin : k ≤ i + 1
    · exact absurd hk (hpair.not_outside hi hin)
    · exact List.mem_cons_of_mem _ (ih (by omega) hj)
  | @phrase i l _ _ hphrase _ ih =>
    by_cases hin : k ≤ l
    · exact absurd hk (hphrase.paired.not_outside hi hin)
    · exact List.mem_cons_of_mem _ (ih (by omega) hj)

end Reads

/-! ## 4. The glyphs of a whole text -/

/-- Behind an even number of marks, no pair goes on from the front. -/
theorem Paired.not_across {front : List Char} (heven : front.count '"' % 2 = 0)
    (h : Paired (front ++ t) i j) : j < front.length ∨ front.length ≤ i := by
  by_contra hacross
  have hodd := h.odd (k := front.length) (by omega) (by omega)
  rw [List.take_left] at hodd
  omega

/-- A stretch of a text without marks. -/
theorem getElem?_ne_mark {front u rest : List Char} (hu : '"' ∉ u) (hi : front.length ≤ k)
    (hj : k < front.length + u.length) : (front ++ (u ++ rest))[k]? ≠ some '"' := by
  rw [List.getElem?_append_right hi, List.getElem?_append_left (by omega)]
  exact fun hmark => hu (List.mem_of_getElem? hmark)

/-- Characters outside are read one by one. -/
theorem reads_chars {front u rest : List Char} {glyphs : List (Glyph (List Char))}
    (hout : ∀ k, front.length ≤ k → k < front.length + u.length →
      Outside (front ++ (u ++ rest)) k)
    (h : Reads (front ++ (u ++ rest)) (front.length + u.length) glyphs j) :
    Reads (front ++ (u ++ rest)) front.length (u.map .char ++ glyphs) j := by
  induction u generalizing front with
  | nil => exact h
  | cons c u ih =>
    have htext : front ++ (c :: u ++ rest) = front ++ [c] ++ (u ++ rest) := by simp
    have hlength : front.length + (c :: u).length = (front ++ [c]).length + u.length := by
      simp only [List.length_cons, List.length_append, List.length_nil]
      omega
    refine .char (hout _ (Nat.le_refl _) (by simp)) (by simp) ?_
    rw [htext, hlength] at h hout
    rw [htext]
    have hout' (k : Nat) (hk : (front ++ [c]).length ≤ k) :=
      hout k (by rw [List.length_append] at hk; omega)
    have hrest := ih hout' h
    rwa [List.length_append] at hrest

/-- A stretch without marks behind an even number of marks is outside. -/
theorem outside_of_plain {front u rest : List Char} (heven : front.count '"' % 2 = 0)
    (hu : '"' ∉ u) (hi : front.length ≤ k) (hj : k < front.length + u.length) :
    Outside (front ++ (u ++ rest)) k := by
  intro a b h
  by_contra hin
  rcases h.not_across heven with hfront | hfront
  · omega
  · exact getElem?_ne_mark hu hfront (by omega) h.opens

/-- A mark behind an even number of marks is outside if no mark follows, and so is all around it. -/
theorem outside_of_unclosed {front u v : List Char} (heven : front.count '"' % 2 = 0)
    (hu : '"' ∉ u) (hv : '"' ∉ v) (hi : front.length ≤ k) :
    Outside (front ++ (u ++ '"' :: v)) k := by
  intro a b h
  by_contra hin
  have htext : front ++ (u ++ '"' :: v) = front ++ u ++ ['"'] ++ (v ++ []) := by simp
  have hlength : (front ++ u ++ ['"']).length = front.length + u.length + 1 := by
    simp only [List.length_append, List.length_singleton]
  have hfront : front.length ≤ a := by
    rcases h.not_across heven with hlt | hle
    · omega
    · exact hle
  have ha : front.length + u.length ≤ a := by
    by_contra hlt
    exact getElem?_ne_mark hu hfront (by omega) h.opens
  have hb : b < (front ++ (u ++ '"' :: v)).length := (List.getElem?_eq_some_iff.mp h.closes).1
  have hcloses := h.closes
  have hlt := h.lt
  rw [htext] at hcloses hb
  refine getElem?_ne_mark hv ?_ ?_ hcloses
  · omega
  · rwa [List.append_nil, List.length_append] at hb

theorem slice_middle (front u rest : List Char) :
    slice (front ++ (u ++ rest)) front.length (front.length + u.length) = u := by
  simp [slice]

/-- The first marks of a text are a pair if an even number of marks stands in front. -/
theorem paired_first {front u inside : List Char} (heven : front.count '"' % 2 = 0)
    (hu : '"' ∉ u) (hinside : '"' ∉ inside) (rest : List Char) :
    Paired (front ++ (u ++ '"' :: (inside ++ '"' :: rest))) (front.length + u.length)
      (front.length + u.length + 1 + inside.length) := by
  have hopen : front ++ (u ++ '"' :: (inside ++ '"' :: rest)) =
      front ++ u ++ '"' :: (inside ++ '"' :: rest) := by simp
  have hclose : front ++ (u ++ '"' :: (inside ++ '"' :: rest)) =
      front ++ u ++ '"' :: inside ++ '"' :: rest := by simp
  have hmiddle : front ++ (u ++ '"' :: (inside ++ '"' :: rest)) =
      front ++ u ++ ['"'] ++ (inside ++ '"' :: rest) := by simp
  have hlength : (front ++ u).length = front.length + u.length := List.length_append
  refine ⟨?_, ?_, by omega, ?_, ?_⟩
  · rw [hopen, ← hlength, List.getElem?_append_right (Nat.le_refl _), Nat.sub_self]
    rfl
  · have hinner : (front ++ u ++ '"' :: inside).length =
        front.length + u.length + 1 + inside.length := by
      simp only [List.length_append, List.length_cons]
      omega
    rw [hclose, ← hinner, List.getElem?_append_right (Nat.le_refl _), Nat.sub_self]
    rfl
  · rw [hopen, ← hlength, List.take_left, count_append_of_not_mem hu]
    exact heven
  · intro k hi hj
    rw [hmiddle]
    refine getElem?_ne_mark hinside ?_ ?_
    · simp only [List.length_append, List.length_singleton]
      omega
    · simp only [List.length_append, List.length_singleton]
      omega

/-- **A text is read as its glyphs**, behind any front with an even number of marks. -/
theorem reads_phrased_behind (front t : List Char) (heven : front.count '"' % 2 = 0) :
    Reads (front ++ t) front.length (phrased t) (front ++ t).length := by
  induction t using pairing_induction generalizing front with
  | plain t ht =>
    have hout (k : Nat) (hi : front.length ≤ k) (hj : k < front.length + t.length) :
        Outside (front ++ (t ++ [])) k := outside_of_plain heven ht hi hj
    have hread := reads_chars hout (.nil _)
    rw [phrased_plain ht, List.length_append]
    simpa using hread
  | unclosed u v hu hv =>
    have hout (k : Nat) (hi : front.length ≤ k)
        (_ : k < front.length + (u ++ '"' :: v).length) :
        Outside (front ++ (u ++ '"' :: v ++ [])) k := by
      rw [List.append_nil]
      exact outside_of_unclosed heven hu hv hi
    have hread := reads_chars hout (.nil _)
    rw [phrased_unclosed hu hv, List.length_append]
    simpa using hread
  | pair u inside rest hu hinside ih =>
    have hpair := paired_first heven hu hinside rest
    have hinner : front ++ (u ++ '"' :: (inside ++ '"' :: rest)) =
        front ++ u ++ ['"'] ++ (inside ++ '"' :: rest) := by simp
    have hbehind : front ++ (u ++ '"' :: (inside ++ '"' :: rest)) =
        front ++ u ++ quoted inside ++ rest := by simp [quoted]
    have heven' : (front ++ u ++ quoted inside).count '"' % 2 = 0 := by
      have hmarks : (quoted inside).count '"' = 2 := by
        simp [quoted, List.count_eq_zero_of_not_mem hinside]
      rw [List.count_append, count_append_of_not_mem hu, hmarks]
      omega
    have hlength : (front ++ u ++ quoted inside).length =
        front.length + u.length + 1 + inside.length + 1 := by
      simp only [quoted, List.length_append, List.length_cons, List.length_nil]
      omega
    have hrest := ih (front ++ u ++ quoted inside) heven'
    rw [← hbehind, hlength] at hrest
    rw [phrased_pair hu hinside]
    refine reads_chars (fun k => outside_of_plain heven hu) ?_
    cases inside with
    | nil => exact .empty hpair hrest
    | cons c inside =>
      have hslice := slice_middle (front ++ u ++ ['"']) (c :: inside) ('"' :: rest)
      have hmark : (front ++ u ++ ['"']).length = front.length + u.length + 1 := by
        simp only [List.length_append, List.length_singleton]
      rw [← hinner, hmark] at hslice
      have hphrase := Reads.phrase ⟨hpair, by simp⟩ hrest
      rw [hslice] at hphrase
      exact hphrase

theorem reads_phrased (t : List Char) : Reads t 0 (phrased t) t.length :=
  reads_phrased_behind [] t rfl

end Query
end Collector
