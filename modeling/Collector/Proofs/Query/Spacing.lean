/-
# Spacing of a query

How a query is spaced makes no difference, outside its phrases.  Blanks that stand together may be
replaced by others, and so may the reserved characters, which are read as spaces; blanks may be put
in beside the marks of a pair of quotation marks, and beside the parentheses of a group
(`Respaced`).  After any number of such edits the query has the same tokens and the same tables, and
so the same buckets (`tokenize_respaced`).

An edit changes all the positions behind it, so that positions are of no use to compare the two
texts.  But a text may be cut in front of any position outside the pairs of marks, and its glyphs
are those of the two parts (`phrased_cut`).  So the edits are edits of glyphs, of which the former
steps say that they are not seen (`Interchangeable`).  That the glyphs around the parentheses of a
group are what the group is made of is read off the positions: from where it starts a text is read
in one way only (`Reads.unique`).
-/
import Collector.Proofs.Query.Interchange
import Collector.Proofs.Query.Markers
import Collector.Proofs.Query.Positions
import Collector.Query.Walk
import Mathlib.Logic.Relation

namespace Collector
namespace Query

/-! ## 1. Edits -/

/-- All characters are blanks or reserved. -/
def Spacing (gap : List Char) : Prop :=
  ∀ c ∈ gap, Text.isBlank c = true ∨ c ∈ ['\ue000', '\ue001', '\ue002', '\ue003']

/-- One text is the other with a change in spacing. -/
inductive Respaced : List Char → List Char → Prop where
  /-- Spacing that is outside every pair of quotation marks, replaced by other spacing. -/
  | replaced {front gap gap' back : List Char} (hgap : Spacing gap) (hgap' : Spacing gap')
    (hne : gap ≠ []) (hne' : gap' ≠ [])
    (hout : ∀ k, front.length ≤ k → k < front.length + gap.length →
      Outside (front ++ (gap ++ back)) k) :
    Respaced (front ++ (gap ++ back)) (front ++ (gap' ++ back))
  /-- Spacing put in front of a pair of quotation marks or behind it. -/
  | besideMarks {front gap back : List Char} {i j : Nat} (hgap : Spacing gap)
    (hpair : Paired (front ++ back) i j) (hplace : front.length = i ∨ front.length = j + 1) :
    Respaced (front ++ back) (front ++ (gap ++ back))
  /-- Spacing put in front of a group or behind it. -/
  | besideParentheses {front gap back : List Char} {i j : Nat} (hgap : Spacing gap)
    (hgroup : IsGroup (front ++ back) i j)
    (hplace : front.length = i ∨ front.length = j + 1) :
    Respaced (front ++ back) (front ++ (gap ++ back))

variable {t front back inside gap : List Char} {i j k : Nat}

instance : Decidable (Spacing gap) :=
  List.decidableBAll _ gap

instance : Decidable (Paired t i j) :=
  decidable_of_iff (t[i]? = some '"' ∧ t[j]? = some '"' ∧ i < j ∧
      (t.take i).count '"' % 2 = 0 ∧ ∀ k < j, i < k → t[k]? ≠ some '"')
    ⟨fun ⟨hopens, hcloses, hlt, heven, hnext⟩ =>
      ⟨hopens, hcloses, hlt, heven, fun k hi hj => hnext k hj hi⟩,
    fun h => ⟨h.opens, h.closes, h.lt, h.even, fun k hj hi => h.next k hi hj⟩⟩

/-- Only positions of the text can be in a pair. -/
instance : Decidable (Outside t k) :=
  decidable_of_iff (∀ j < t.length, ∀ i < j, Paired t i j → k < i ∨ j < k)
    ⟨fun h i j hpair => h j (List.getElem?_eq_some_iff.mp hpair.closes).1 i hpair.lt hpair,
    fun h j _ i _ hpair => h i j hpair⟩

instance : Decidable (IsGroup t i j) :=
  decidable_of_iff ((t[i]? = some '(' ∧ Outside t i) ∧ (t[j]? = some ')' ∧ Outside t j) ∧
      i + 1 < j ∧ ∀ k < j, i < k → Outside t k → t[k]? ≠ some '(' ∧ t[k]? ≠ some ')')
    ⟨fun ⟨hopens, hcloses, hne, hnext⟩ =>
      ⟨hopens, hcloses, hne, fun k hi hj => hnext k hj hi⟩,
    fun h => ⟨h.opens, h.closes, h.nonempty, fun k hj hi => h.next k hi hj⟩⟩

/-! ## 2. The text without reserved characters -/

theorem unreserved_append (t u : List Char) :
    unreserved (t ++ u) = unreserved t ++ unreserved u :=
  List.map_append

theorem length_unreserved (t : List Char) : (unreserved t).length = t.length :=
  List.length_map _

theorem unreserved_eq_nil : unreserved t = [] ↔ t = [] :=
  List.map_eq_nil_iff

/-- Reserved characters become blanks. -/
theorem Spacing.blanks (h : Spacing gap) : Blanks (unreserved gap) := by
  intro c hc
  obtain ⟨d, hd, rfl⟩ := List.mem_map.mp hc
  split
  · decide
  · rename_i hkept
    rcases h d hd with hblank | hreserved
    · exact hblank
    · exact absurd ((isReserved_iff d).mpr hreserved) hkept

/-- All other characters stay where they are. -/
theorem getElem?_unreserved {c : Char} (hc : c ∈ ['"', '(', ')']) :
    (unreserved t)[k]? = some c ↔ t[k]? = some c := by
  have hspace : ' ' ≠ c := by
    rintro rfl
    exact absurd hc (by decide)
  have hkept : isReserved c = false := by
    simp only [List.mem_cons, List.not_mem_nil, or_false] at hc
    rcases hc with rfl | rfl | rfl
    all_goals decide
  rw [unreserved, List.getElem?_map]
  cases t[k]? with
  | none => simp
  | some d =>
    by_cases hd : isReserved d = true
    · simp only [Option.map_some, hd, if_true, Option.some.injEq, hspace, false_iff]
      rintro rfl
      simp [hkept] at hd
    · simp [hd]

theorem count_unreserved (t : List Char) : (unreserved t).count '"' = t.count '"' := by
  induction t with
  | nil => rfl
  | cons c t ih =>
    have hhead := getElem?_unreserved (t := c :: t) (k := 0) (c := '"') (by simp)
    simp only [unreserved, List.map_cons, List.getElem?_cons_zero, Option.some.injEq] at hhead ih ⊢
    simp only [List.count_cons, ih, beq_iff_eq, hhead]

theorem paired_unreserved : Paired (unreserved t) i j ↔ Paired t i j := by
  have hmark (k : Nat) : (unreserved t)[k]? = some '"' ↔ t[k]? = some '"' :=
    getElem?_unreserved (by simp)
  have hcount : ((unreserved t).take i).count '"' = (t.take i).count '"' := by
    rw [unreserved, ← List.map_take]
    exact count_unreserved (t.take i)
  constructor
  · intro h
    refine ⟨(hmark i).mp h.opens, (hmark j).mp h.closes, h.lt, hcount ▸ h.even, ?_⟩
    intro k hi hj hk
    exact h.next k hi hj ((hmark k).mpr hk)
  · intro h
    refine ⟨(hmark i).mpr h.opens, (hmark j).mpr h.closes, h.lt, hcount ▸ h.even, ?_⟩
    intro k hi hj hk
    exact h.next k hi hj ((hmark k).mp hk)

theorem outside_unreserved : Outside (unreserved t) k ↔ Outside t k := by
  simp only [Outside, paired_unreserved]

theorem IsGroup.unreserved (h : IsGroup t i j) : IsGroup (unreserved t) i j := by
  have hopen (k : Nat) : (Query.unreserved t)[k]? = some '(' ↔ t[k]? = some '(' :=
    getElem?_unreserved (by simp)
  have hclose (k : Nat) : (Query.unreserved t)[k]? = some ')' ↔ t[k]? = some ')' :=
    getElem?_unreserved (by simp)
  refine ⟨⟨(hopen i).mpr h.opens.1, outside_unreserved.mpr h.opens.2⟩,
    ⟨(hclose j).mpr h.closes.1, outside_unreserved.mpr h.closes.2⟩, h.nonempty, ?_⟩
  intro k hi hj hk
  rw [ne_eq, ne_eq, hopen, hclose]
  exact h.next k hi hj (outside_unreserved.mp hk)

/-! ## 3. Cutting a text -/

/-- No pair of marks stands across the place between the two texts. -/
def Cut (front back : List Char) : Prop :=
  front.count '"' % 2 = 0 ∨ '"' ∉ back

/-- **A text may be cut where no pair goes on**, and its glyphs are those of the two parts. -/
theorem phrased_cut (h : Cut front back) :
    phrased (front ++ back) = phrased front ++ phrased back := by
  induction front using pairing_induction with
  | plain front hfront => rw [phrased_append hfront, phrased_plain hfront]
  | unclosed u v hu hv =>
    have hback : '"' ∉ back := by
      rcases h with heven | hback
      · simp [List.count_eq_zero_of_not_mem hu, List.count_eq_zero_of_not_mem hv] at heven
      · exact hback
    have hrest : '"' ∉ v ++ back := by simp [hv, hback]
    rw [List.append_assoc, List.cons_append, phrased_unclosed hu hrest, phrased_unclosed hu hv,
      phrased_plain hback]
    simp
  | pair u inside rest hu hinside ih =>
    have hrest : Cut rest back := by
      refine h.imp_left fun heven => ?_
      simp [List.count_eq_zero_of_not_mem hu, List.count_eq_zero_of_not_mem hinside] at heven
      omega
    have htext : u ++ '"' :: (inside ++ '"' :: rest) ++ back =
        u ++ '"' :: (inside ++ '"' :: (rest ++ back)) := by simp
    rw [htext, phrased_pair hu hinside, phrased_pair hu hinside, ih hrest]
    simp

/-- A text may be cut in front of a position outside. -/
theorem Outside.cut (h : Outside (front ++ back) front.length) : Cut front back := by
  by_contra hcut
  obtain ⟨hodd, hback⟩ := not_or.mp hcut
  have hfront : '"' ∈ front.reverse := by
    by_contra hnone
    rw [List.mem_reverse] at hnone
    exact hodd (by rw [List.count_eq_zero_of_not_mem hnone])
  -- the last mark in front and the first one behind would be a pair
  obtain ⟨v, u, hreverse, hv⟩ := List.eq_append_cons_of_mem hfront
  obtain ⟨w, rest, rfl, hw⟩ := List.eq_append_cons_of_mem (not_not.mp hback)
  obtain rfl : front = u.reverse ++ '"' :: v.reverse := by
    have := congrArg List.reverse hreverse
    simpa using this
  have heven : u.reverse.count '"' % 2 = 0 := by
    simp [List.count_eq_zero_of_not_mem hv] at hodd ⊢
    omega
  have hinside : '"' ∉ v.reverse ++ w := by simp [hv, hw]
  have hpair := paired_first (u := []) heven List.not_mem_nil hinside rest
  refine hpair.not_outside ?_ ?_ (k := (u.reverse ++ '"' :: v.reverse).length) ?_
  · simp
  · simp
    omega
  · simpa using h

/-- Glyphs of a text that has been cut, with blanks put in there. -/
theorem phrased_insert (h : Cut front back) (hgap : Blanks gap) :
    phrased (front ++ (gap ++ back)) = phrased front ++ (gap.map .char ++ phrased back) := by
  have hnone : '"' ∉ gap := by
    intro hmark
    exact absurd (hgap _ hmark) (by decide)
  have hcut : Cut front (gap ++ back) := by
    refine h.imp_right fun hback => ?_
    simp [hnone, hback]
  rw [phrased_cut hcut, phrased_append hnone]

/-! ## 4. Spacing beside a pair -/

/-- The text of a pair of marks, between what stands in front and behind. -/
theorem Paired.split (h : Paired t i j) :
    ∃ inside, t = t.take i ++ (quoted inside ++ t.drop (j + 1)) ∧ '"' ∉ inside ∧
      (t.take i ++ quoted inside).length = j + 1 := by
  have hlt := h.lt
  obtain ⟨hi, hopen⟩ := List.getElem?_eq_some_iff.mp h.opens
  obtain ⟨hj, hclose⟩ := List.getElem?_eq_some_iff.mp h.closes
  have hinside : t.drop (i + 1) = slice t (i + 1) j ++ t.drop j := by
    have hdrop : t.drop j = (t.drop (i + 1)).drop (j - (i + 1)) := by
      rw [List.drop_drop]
      congr 1
      omega
    rw [slice, hdrop, List.take_append_drop]
  have htext : t = t.take i ++ (quoted (slice t (i + 1) j) ++ t.drop (j + 1)) := by
    have hbehind : t.drop i = quoted (slice t (i + 1) j) ++ t.drop (j + 1) := by
      rw [List.drop_eq_getElem_cons hi, hopen, hinside, List.drop_eq_getElem_cons hj, hclose]
      simp [quoted]
    rw [← hbehind, List.take_append_drop]
  refine ⟨slice t (i + 1) j, htext, ?_, ?_⟩
  · intro hmark
    obtain ⟨k, hk⟩ := List.getElem?_of_mem hmark
    have hlength := (List.getElem?_eq_some_iff.mp hk).1
    rw [length_slice (by omega)] at hlength
    rw [slice, List.getElem?_take_of_lt hlength, List.getElem?_drop] at hk
    exact h.next (i + 1 + k) (by omega) (by omega) hk
  · simp only [quoted, List.length_append, List.length_take, List.length_cons, List.length_nil,
      length_slice (Nat.le_of_lt hj)]
    omega

/-- A pair of marks leaves a blank or a mark, and blanks beside it make no difference. -/
theorem interchangeable_pair (inside : List Char) {gap gap' : List Char} (hgap : Blanks gap)
    (hgap' : Blanks gap') :
    Interchangeable (Span.quoted inside).glyphs
      (gap.map .char ++ ((Span.quoted inside).glyphs ++ gap'.map .char)) := by
  have hnone : Blanks [] := fun c hc => absurd hc List.not_mem_nil
  cases inside with
  | nil =>
    have hspace : Blanks [' '] := by simp [Blanks, Text.isBlank, Text.blankRanges]
    have hboth : Blanks (gap ++ ([' '] ++ gap')) := by
      intro c hc
      simp only [List.mem_append] at hc
      rcases hc with hc | hc | hc
      · exact hgap c hc
      · exact hspace c hc
      · exact hgap' c hc
    have h := Interchangeable.blanks (μ := List Char) hspace hboth (by simp) (by simp)
    simpa [Span.glyphs] using h
  | cons c inside =>
    have h := Interchangeable.mark (c :: inside) hnone hnone hgap hgap'
    simpa [Span.glyphs] using h

/-! ## 5. Spacing beside a group -/

variable {glyphs glyphs' : List (Glyph (List Char))}

/-- A text is read as the glyphs of its rest, from any place where it may be cut. -/
theorem reads_behind (h : Cut front back) :
    Reads (front ++ back) front.length (phrased back) (front ++ back).length := by
  rcases h with heven | hback
  · exact reads_phrased_behind front back heven
  · have hout (k : Nat) (hk : front.length ≤ k) (_ : k < front.length + back.length) :
        Outside (front ++ (back ++ [])) k := by
      intro a b hpair
      right
      by_contra hle
      have hlength := (List.getElem?_eq_some_iff.mp hpair.closes).1
      refine getElem?_ne_mark hback (k := b) (by omega) ?_ hpair.closes
      simpa using hlength
    have hread := reads_chars hout (.nil _)
    rw [phrased_plain hback, List.length_append]
    simpa using hread

/-- **A stretch of a text is read in one way only.** -/
theorem Reads.unique (h : Reads t i glyphs j) (h' : Reads t i glyphs' j) : glyphs = glyphs' := by
  induction h generalizing glyphs' with
  | nil k =>
    by_contra hne
    exact absurd (h'.lt_of_ne_nil (Ne.symm hne)) (Nat.lt_irrefl k)
  | char hk hc h ih =>
    cases h' with
    | nil => exact absurd h.le (by omega)
    | char hk' hc' h' =>
      rw [hc] at hc'
      rw [Option.some.inj hc', ih h']
    | empty hpair => exact absurd hk (hpair.not_outside (by omega) (by omega))
    | phrase hphrase => exact absurd hk (hphrase.paired.not_outside (by omega) hphrase.paired.lt.le)
  | empty hpair h ih =>
    cases h' with
    | nil => exact absurd h.le (by omega)
    | char hk' => exact absurd hk' (hpair.not_outside (by omega) (by omega))
    | empty hpair' h' => rw [ih h']
    | phrase hphrase =>
      have := hphrase.paired.unique hpair
      have := hphrase.nonempty
      omega
  | phrase hphrase h ih =>
    have hlt := hphrase.paired.lt
    cases h' with
    | nil => exact absurd h.le (by omega)
    | char hk' => exact absurd hk' (hphrase.paired.not_outside (by omega) hlt.le)
    | empty hpair =>
      have := hphrase.paired.unique hpair
      have := hphrase.nonempty
      omega
    | phrase hphrase' h' =>
      obtain rfl := hphrase.unique hphrase'
      rw [ih h']

/-- What is read of a text can be cut at a character outside. -/
theorem Reads.cut_at {c : Char} (h : Reads t i glyphs j) (hi : i ≤ k) (hj : k < j)
    (hk : Outside t k) (hc : t[k]? = some c) :
    ∃ before behind, glyphs = before ++ .char c :: behind ∧ Reads t i before k ∧
      Reads t (k + 1) behind j := by
  induction h with
  | nil => omega
  | @char i j d rest hout hd h ih =>
    rcases Nat.eq_or_lt_of_le hi with rfl | hlt
    · rw [hd] at hc
      obtain rfl := Option.some.inj hc
      exact ⟨[], rest, rfl, .nil i, h⟩
    · obtain ⟨before, behind, rfl, hbefore, hbehind⟩ := ih hlt hj
      exact ⟨_ :: before, behind, rfl, .char hout hd hbefore, hbehind⟩
  | @empty i j rest hpair h ih =>
    by_cases hin : k ≤ i + 1
    · exact absurd hk (hpair.not_outside hi hin)
    · obtain ⟨before, behind, rfl, hbefore, hbehind⟩ := ih (by omega) hj
      exact ⟨_ :: before, behind, rfl, .empty hpair hbefore, hbehind⟩
  | @phrase i l j rest hphrase h ih =>
    by_cases hin : k ≤ l
    · exact absurd hk (hphrase.paired.not_outside hi hin)
    · obtain ⟨before, behind, rfl, hbefore, hbehind⟩ := ih (by omega) hj
      exact ⟨_ :: before, behind, rfl, .phrase hphrase hbefore, hbehind⟩

/-- A character that is read and is no blank stands in the text, outside every pair. -/
theorem Reads.outside_of_mem {c : Char} (h : Reads t i glyphs j) (hc : c ≠ ' ')
    (hmem : .char c ∈ glyphs) : ∃ k, i ≤ k ∧ k < j ∧ Outside t k ∧ t[k]? = some c := by
  induction h with
  | nil => exact absurd hmem List.not_mem_nil
  | @char i j d rest hout hd h ih =>
    have hle := h.le
    rcases List.mem_cons.mp hmem with heq | hmem
    · obtain rfl := Glyph.char.inj heq
      exact ⟨i, by omega, by omega, hout, hd⟩
    · obtain ⟨k, hk, hrest⟩ := ih hmem
      exact ⟨k, by omega, hrest⟩
  | @empty i j rest hpair h ih =>
    rcases List.mem_cons.mp hmem with heq | hmem
    · exact absurd (Glyph.char.inj heq) hc
    · obtain ⟨k, hk, hrest⟩ := ih hmem
      exact ⟨k, by omega, hrest⟩
  | @phrase i l j rest hphrase h ih =>
    have hlt := hphrase.paired.lt
    rcases List.mem_cons.mp hmem with heq | hmem
    · cases heq
    · obtain ⟨k, hk, hrest⟩ := ih hmem
      exact ⟨k, by omega, hrest⟩

/-- The glyphs between the parentheses of a group are some, and none of them is a parenthesis. -/
theorem IsGroup.level (h : IsGroup t i j) (hread : Reads t (i + 1) glyphs j) :
    glyphs ≠ [] ∧ ∀ g ∈ glyphs, g.Level := by
  constructor
  · rintro rfl
    have := h.nonempty
    cases hread
    omega
  · intro g hg
    cases g with
    | mark m => trivial
    | char c =>
      constructor
      · rintro rfl
        obtain ⟨k, hi, hj, hk, hc⟩ := hread.outside_of_mem (by decide) hg
        exact (h.next k hi hj hk).1 hc
      · rintro rfl
        obtain ⟨k, hi, hj, hk, hc⟩ := hread.outside_of_mem (by decide) hg
        exact (h.next k hi hj hk).2 hc

/-- The glyphs of a text around and within a group, with the places where they are read. -/
theorem IsGroup.phrased (h : IsGroup t i j) :
    ∃ before glyphs behind,
      Query.phrased t = before ++ .char '(' :: (glyphs ++ .char ')' :: behind) ∧
      (glyphs ≠ [] ∧ ∀ g ∈ glyphs, g.Level) ∧
      Reads t i (.char '(' :: (glyphs ++ .char ')' :: behind)) t.length ∧
      Reads t (j + 1) behind t.length := by
  have hlt := h.nonempty
  obtain ⟨hopen, hi⟩ := h.opens
  obtain ⟨hclose, hj⟩ := h.closes
  have hlength := (List.getElem?_eq_some_iff.mp hclose).1
  obtain ⟨before, rest, hbefore, -, hrest⟩ :=
    (reads_phrased t).cut_at (Nat.zero_le i) (by omega) hi hopen
  obtain ⟨glyphs, behind, rfl, hglyphs, hbehind⟩ := hrest.cut_at (by omega) hlength hj hclose
  exact ⟨before, glyphs, behind, hbefore, h.level hglyphs, .char hi hopen hrest, hbehind⟩

/-! ## 6. Edits of glyphs -/

variable {gap' t' : List Char}

theorem sameCut_replaced (h : Cut front back) (hgap : Blanks gap) (hgap' : Blanks gap')
    (hne : gap ≠ []) (hne' : gap' ≠ []) :
    SameCut (marked (front ++ (gap ++ back))) (marked (front ++ (gap' ++ back))) := by
  rw [marked, marked, phrased_insert h hgap, phrased_insert h hgap']
  exact sameCut_markGroups (.blanks hgap hgap' hne hne') none (phrased front) (phrased back)

/-- The glyphs of a text with a pair of marks, and with blanks around the pair. -/
theorem phrased_around_pair (heven : front.count '"' % 2 = 0) (hinside : '"' ∉ inside)
    (hgap : Blanks gap) (hgap' : Blanks gap') :
    phrased (front ++ (gap ++ (quoted inside ++ (gap' ++ back)))) =
      phrased front ++ (gap.map .char ++
        ((Span.quoted inside).glyphs ++ (gap'.map .char ++ phrased back))) := by
  have hpair := phrased_pair (u := []) List.not_mem_nil hinside (gap' ++ back)
  have htext : quoted inside ++ (gap' ++ back) =
      [] ++ '"' :: (inside ++ '"' :: (gap' ++ back)) := by
    simp [quoted]
  have hstart : Cut [] back := .inl rfl
  have hbehind := phrased_insert hstart hgap'
  rw [phrased_insert (.inl heven) hgap, htext, hpair]
  exact congrArg (fun tail => phrased front ++ (gap.map .char ++
    ((Span.quoted inside).glyphs ++ tail))) hbehind

theorem sameCut_pair (heven : front.count '"' % 2 = 0) (hinside : '"' ∉ inside)
    (hgap : Blanks gap) (hgap' : Blanks gap') :
    SameCut (marked (front ++ (quoted inside ++ back)))
      (marked (front ++ (gap ++ (quoted inside ++ (gap' ++ back))))) := by
  have hnone : Blanks [] := fun c hc => absurd hc List.not_mem_nil
  have hplain : phrased (front ++ ([] ++ (quoted inside ++ ([] ++ back)))) = _ :=
    phrased_around_pair heven hinside hnone hnone
  have hstretch := sameCut_markGroups (interchangeable_pair inside hgap hgap') none
    (phrased front) (phrased back)
  rw [List.nil_append, List.nil_append] at hplain
  rw [marked, marked, hplain, phrased_around_pair heven hinside hgap hgap']
  simpa using hstretch

theorem sameCut_besideMarks (hgap : Blanks gap) (h : Paired (front ++ back) i j)
    (hplace : front.length = i ∨ front.length = j + 1) :
    SameCut (marked (front ++ back)) (marked (front ++ (gap ++ back))) := by
  have hnone : Blanks [] := fun c hc => absurd hc List.not_mem_nil
  obtain ⟨inside, htext, hinside, hlength⟩ := h.split
  have heven := h.even
  rcases hplace with rfl | hbehind
  · rw [List.take_left] at htext heven
    rw [List.append_cancel_left htext]
    simpa using sameCut_pair heven hinside hgap hnone
  · rw [← List.append_assoc] at htext
    obtain ⟨hfront, hback⟩ := List.append_inj htext (hbehind.trans hlength.symm)
    have hpair : SameCut (marked (_ ++ (quoted inside ++ back))) _ :=
      sameCut_pair heven hinside hnone hgap
    rw [List.nil_append, ← List.append_assoc, ← List.append_assoc, ← hfront] at hpair
    exact hpair

theorem sameCut_besideParentheses (hgap : Blanks gap) (h : IsGroup (front ++ back) i j)
    (hplace : front.length = i ∨ front.length = j + 1) :
    SameCut (marked (front ++ back)) (marked (front ++ (gap ++ back))) := by
  obtain ⟨before, glyphs, behind, hglyphs, ⟨hne, hlevel⟩, hgroup, hbehind⟩ := h.phrased
  rcases hplace with rfl | hplace
  · have hcut : Cut front back := h.opens.2.cut
    have hback := hgroup.unique (reads_behind hcut)
    rw [marked, marked, phrased_cut hcut, phrased_insert hcut hgap, ← hback]
    exact sameCut_before_group hlevel hne hgap (phrased front) behind
  · have hcut : Cut front back := by
      obtain rfl | ⟨front, c, rfl⟩ := front.eq_nil_or_concat
      · exact .inl rfl
      · obtain rfl : front.length = j := by simpa using hplace
        obtain ⟨hclose, hout⟩ := h.closes
        obtain rfl : c = ')' := by simpa using hclose
        rw [List.concat_eq_append, List.append_assoc] at hout
        refine hout.cut.imp ?_ ?_
        · simp
        · simp
    rw [← hplace] at hbehind
    obtain rfl := hbehind.unique (reads_behind hcut)
    have hfront : phrased front = before ++ .char '(' :: (glyphs ++ [.char ')']) := by
      rw [phrased_cut hcut] at hglyphs
      refine List.append_cancel_right (hglyphs.trans ?_)
      simp
    have hboth := sameCut_behind_group hlevel hne hgap before (phrased back)
    rw [marked, marked, hglyphs, phrased_insert hcut hgap, hfront]
    simpa using hboth

/-- **An edit of spacing is not seen** by the time the query is cut into words and marks. -/
theorem sameCut_respaced (h : Respaced t t') :
    SameCut (marked (unreserved t)) (marked (unreserved t')) := by
  cases h with
  | @replaced front gap gap' back hgap hgap' hne hne' hout =>
    have hlength := List.length_pos_iff.mpr hne
    have hcut : Cut (unreserved front) (unreserved gap ++ unreserved back) := by
      have hfirst := outside_unreserved.mpr (hout front.length (Nat.le_refl _) (by omega))
      rw [unreserved_append, unreserved_append, ← length_unreserved front] at hfirst
      exact hfirst.cut
    simp only [unreserved_append]
    refine sameCut_replaced (hcut.imp_right fun hmark => ?_) hgap.blanks hgap'.blanks ?_ ?_
    · exact fun hback => hmark (List.mem_append_right _ hback)
    · rwa [ne_eq, unreserved_eq_nil]
    · rwa [ne_eq, unreserved_eq_nil]
  | besideMarks hgap hpair hplace =>
    rw [← paired_unreserved, unreserved_append] at hpair
    rw [← length_unreserved] at hplace
    simp only [unreserved_append]
    exact sameCut_besideMarks hgap.blanks hpair hplace
  | besideParentheses hgap hgroup hplace =>
    have hgroup := hgroup.unreserved
    rw [unreserved_append] at hgroup
    rw [← length_unreserved] at hplace
    simp only [unreserved_append]
    exact sameCut_besideParentheses hgap.blanks hgroup hplace

theorem outline_respaced {text text' : String}
    (h : Relation.ReflTransGen Respaced text.toList text'.toList) :
    outline text' = outline text := by
  have hcut {t t' : List Char} (h : Relation.ReflTransGen Respaced t t') :
      lexemes (marked (unreserved t')) = lexemes (marked (unreserved t)) := by
    induction h with
    | refl => rfl
    | tail _ hedit ih => exact (sameCut_respaced hedit).lexemes_eq.symm.trans ih
  exact hcut h

end Query

open Query

/-- **How a query is spaced makes no difference outside its phrases.**  Edits of spacing, any number
of them one after another, leave all of its tokens as they are, the tables of phrases and groups to
the last item, and with them the text of every group and the buckets. -/
theorem tokenize_respaced {text text' : String}
    (h : Relation.ReflTransGen Respaced text.toList text'.toList) :
    tokenize text' = tokenize text ∧ parse text' = parse text := by
  have htokens : tokenize text' = tokenize text := by
    rw [tokenize_eq, tokenize_eq, outline_respaced h]
  refine ⟨htokens, ?_⟩
  rw [parse, htokens]
  rfl

/-- Another blank and a reserved character between a word and a phrase, a newline between the phrase
and a group, and a wide space behind the group. -/
theorem tokenize_respaced_thrice :
    let text := "x \"p\"(q r)y"
    let text' := "x\t\ue003\"p\"\n(q r)\u3000y"
    Relation.ReflTransGen Respaced text.toList text'.toList ∧ tokenize text' = tokenize text ∧
      parse text' = parse text ∧
      parse text' = { andTerms := ["x", "q", "r", "y"], exactPhrases := ["p"] } := by
  intro text text'
  have hblank : Respaced (['x'] ++ ([' '] ++ "\"p\"(q r)y".toList))
      (['x'] ++ (['\t', '\ue003'] ++ "\"p\"(q r)y".toList)) := by
    refine .replaced (by decide) (by decide) (by decide) (by decide) ?_
    intro k hk hk'
    obtain rfl : k = 1 := Nat.le_antisymm (Nat.le_of_lt_succ hk') hk
    decide
  have hphrase : Respaced ("x\t\ue003\"p\"".toList ++ "(q r)y".toList)
      ("x\t\ue003\"p\"".toList ++ (['\n'] ++ "(q r)y".toList)) :=
    .besideMarks (by decide) (show Paired _ 3 5 by decide) (.inr rfl)
  have hgroup : Respaced ("x\t\ue003\"p\"\n(q r)".toList ++ ['y'])
      ("x\t\ue003\"p\"\n(q r)".toList ++ (['\u3000'] ++ ['y'])) :=
    .besideParentheses (by decide) (show IsGroup _ 7 11 by decide) (.inr rfl)
  have hedits : Relation.ReflTransGen Respaced text.toList text'.toList := by
    have htext : text.toList = ['x'] ++ ([' '] ++ "\"p\"(q r)y".toList) := by decide
    have htext' : text'.toList =
        "x\t\ue003\"p\"\n(q r)".toList ++ (['\u3000'] ++ ['y']) := by decide
    rw [htext, htext']
    exact ((Relation.ReflTransGen.single hblank).tail hphrase).tail hgroup
  obtain ⟨htokens, hbuckets⟩ := tokenize_respaced hedits
  refine ⟨hedits, htokens, hbuckets, ?_⟩
  rw [hbuckets]
  decide +kernel

end Collector
