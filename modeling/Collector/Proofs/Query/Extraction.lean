/-
# What a query is taken apart into

The phrases and groups of a query are exactly those that its positions determine
(`tokenize_positions`): the phrase table has the texts of all phrases, and the group table an entry
for each group, whose items are the words and phrases between its parentheses.  No quotation
mark and no parenthesis is wrong: nested, empty or unbalanced ones, and a last mark without a
partner, are covered by the same rules.

The steps of reading a query hold something back, a word begun or the glyphs since an opening
parenthesis.  What is held back stands in the text from some position up to the next glyph
(`Begun`, `Reads`), and the invariants say what the positions up to that glyph have given so
far.  So everything is a matter of stretches of positions, one behind the other
(`InOrder.append`).
-/
import Collector.Proofs.Query.Positions
import Mathlib.Data.List.Forall2

namespace Collector
namespace Query

/-! ## 1. Places in order -/

/-- The places are those at which `P` holds, in order. -/
structure InOrder {α : Type} (P : Nat → α → Prop) (places : List (Nat × α)) : Prop where
  ordered : places.Pairwise fun a b => a.1 < b.1
  mem_iff (k : Nat) (x : α) : (k, x) ∈ places ↔ P k x

/-- `P` holds at a position of a stretch. -/
def Within {α : Type} (P : Nat → α → Prop) (s e k : Nat) (x : α) : Prop :=
  P k x ∧ s ≤ k ∧ k < e

namespace InOrder

variable {α : Type} {P Q : Nat → α → Prop} {places more : List (Nat × α)} {s k e : Nat}

theorem congr (h : InOrder P places) (hiff : ∀ k x, P k x ↔ Q k x) : InOrder Q places :=
  ⟨h.ordered, fun k x => (h.mem_iff k x).trans (hiff k x)⟩

/-- Where `P` holds nowhere in a stretch. -/
theorem nil (h : ∀ k x, s ≤ k → k < e → ¬ P k x) : InOrder (Within P s e) [] := by
  refine ⟨.nil, fun k x => ⟨fun hmem => absurd hmem List.not_mem_nil, ?_⟩⟩
  rintro ⟨hP, hs, he⟩
  exact absurd hP (h k x hs he)

theorem singleton {k : Nat} {x : α} (h : ∀ k' x', P k' x' ↔ k' = k ∧ x' = x) :
    InOrder P [(k, x)] :=
  ⟨List.pairwise_singleton _ _, fun k' x' => by simp [h]⟩

/-- Places behind one another have their numbers in the same order. -/
theorem lt_of_lt (h : InOrder P places) {m n : Nat} {a b : Nat × α} (hm : places[m]? = some a)
    (hn : places[n]? = some b) (hlt : m < n) : a.1 < b.1 := by
  obtain ⟨hm', rfl⟩ := List.getElem?_eq_some_iff.mp hm
  obtain ⟨hn', rfl⟩ := List.getElem?_eq_some_iff.mp hn
  exact List.pairwise_iff_getElem.mp h.ordered m n hm' hn' hlt

/-- A place has one number only. -/
theorem index_unique (h : InOrder P places) {m n : Nat} {a : Nat × α} (hm : places[m]? = some a)
    (hn : places[n]? = some a) : m = n := by
  rcases Nat.lt_trichotomy m n with hlt | heq | hlt
  · exact absurd (h.lt_of_lt hm hn hlt) (Nat.lt_irrefl _)
  · exact heq
  · exact absurd (h.lt_of_lt hn hm hlt) (Nat.lt_irrefl _)

/-- Places of one stretch and of the next are places of both together. -/
theorem append (h : InOrder (Within P s k) places) (h' : InOrder (Within P k e) more)
    (hs : s ≤ k) (he : k ≤ e) : InOrder (Within P s e) (places ++ more) := by
  refine ⟨List.pairwise_append.mpr ⟨h.ordered, h'.ordered, ?_⟩, ?_⟩
  · rintro ⟨a, x⟩ ha ⟨b, y⟩ hb
    exact Nat.lt_of_lt_of_le ((h.mem_iff a x).mp ha).2.2 ((h'.mem_iff b y).mp hb).2.1
  · intro a x
    rw [List.mem_append, h.mem_iff, h'.mem_iff]
    constructor
    · rintro (⟨hP, ha, ha'⟩ | ⟨hP, ha, ha'⟩)
      · exact ⟨hP, ha, by omega⟩
      · exact ⟨hP, by omega, ha'⟩
    · rintro ⟨hP, ha, ha'⟩
      rcases Nat.lt_or_ge a k with hlt | hge
      · exact .inl ⟨hP, ha, hlt⟩
      · exact .inr ⟨hP, hge, ha'⟩

end InOrder

/-! ## 2. Phrases and their numbers -/

variable {t : List Char} {phrases : List (Nat × Nat)} {p i j k l s : Nat}

theorem Outside.not_isPhrase (hk : Outside t k) : ¬ IsPhrase t k l :=
  fun h => h.paired.not_outside (Nat.le_refl k) (Nat.le_of_lt h.paired.lt) hk

/-- The marks among the glyphs are the phrases of the stretch. -/
theorem exists_phrases {glyphs : List (Glyph (List Char))} (h : Reads t k glyphs j) :
    ∃ phrases, InOrder (Within (IsPhrase t) k j) phrases ∧
      glyphs.filterMap Glyph.mark? = phrases.map fun (a, b) => slice t (a + 1) b := by
  induction h with
  | nil k => exact ⟨[], .nil fun a b ha ha' => by omega, rfl⟩
  | @char k j c rest hk hc h ih =>
    obtain ⟨phrases, hplaces, hmarks⟩ := ih
    have hnone : InOrder (Within (IsPhrase t) k (k + 1)) [] := by
      refine .nil fun a b ha ha' hphrase => ?_
      obtain rfl : a = k := by omega
      exact hk.not_isPhrase hphrase
    exact ⟨phrases, hnone.append hplaces (Nat.le_succ k) h.le, by
      simpa [List.filterMap_cons, Glyph.mark?] using hmarks⟩
  | @empty k j rest hk h ih =>
    obtain ⟨phrases, hplaces, hmarks⟩ := ih
    have hnone : InOrder (Within (IsPhrase t) k (k + 2)) [] := by
      refine .nil fun a b ha ha' hphrase => ?_
      obtain rfl : k = a := hk.eq_of_covers hphrase.paired ha (by omega)
      have := hk.unique hphrase.paired
      have := hphrase.nonempty
      omega
    exact ⟨phrases, hnone.append hplaces (by omega) h.le, by
      simpa [List.filterMap_cons, Glyph.mark?] using hmarks⟩
  | @phrase k l j rest hk h ih =>
    obtain ⟨phrases, hplaces, hmarks⟩ := ih
    have hlt := hk.paired.lt
    have hone : InOrder (Within (IsPhrase t) k (l + 1)) [(k, l)] := by
      refine .singleton fun a b => ⟨?_, ?_⟩
      · rintro ⟨hphrase, ha, ha'⟩
        obtain rfl : k = a := hk.paired.eq_of_covers hphrase.paired ha (by omega)
        exact ⟨rfl, hphrase.unique hk⟩
      · rintro ⟨rfl, rfl⟩
        exact ⟨hk, by omega, by omega⟩
    exact ⟨_, hone.append hplaces (by omega) h.le, by simpa [Glyph.mark?] using hmarks⟩

/-- The phrases in front of a position are the first `p`. -/
def Counted (phrases : List (Nat × Nat)) (p k : Nat) : Prop :=
  ∀ n a b, phrases[n]? = some (a, b) → (n < p ↔ a < k)

/-- The next phrase has the next number. -/
theorem Counted.get (hphrases : InOrder (IsPhrase t) phrases) (h : Counted phrases p k)
    (hk : IsPhrase t k l) : phrases[p]? = some (k, l) := by
  obtain ⟨n, hn⟩ := List.getElem?_of_mem ((hphrases.mem_iff k l).mpr hk)
  rcases Nat.lt_trichotomy n p with hlt | rfl | hgt
  · exact absurd ((h n k l hn).mp hlt) (Nat.lt_irrefl k)
  · exact hn
  · obtain ⟨hlength, -⟩ := List.getElem?_eq_some_iff.mp hn
    have hp : phrases[p]? = some phrases[p] := List.getElem?_eq_getElem (by omega)
    exact absurd ((h p _ _ hp).mpr (hphrases.lt_of_lt hp hn hgt)) (Nat.lt_irrefl p)

/-- Where no phrase begins, none is counted. -/
theorem Counted.skip (hphrases : InOrder (IsPhrase t) phrases) (h : Counted phrases p k)
    (hkl : k ≤ l) (hnone : ∀ a b, k ≤ a → a < l → ¬ IsPhrase t a b) : Counted phrases p l := by
  intro n a b hn
  rw [h n a b hn]
  have hphrase := (hphrases.mem_iff a b).mp (List.mem_of_getElem? hn)
  refine ⟨fun hlt => Nat.lt_of_lt_of_le hlt hkl, fun hlt => ?_⟩
  by_contra hge
  exact hnone a b (Nat.le_of_not_lt hge) hlt hphrase

theorem Counted.outside (hphrases : InOrder (IsPhrase t) phrases) (h : Counted phrases p k)
    (hk : Outside t k) : Counted phrases p (k + 1) := by
  refine h.skip hphrases (Nat.le_succ k) fun a b ha ha' => ?_
  obtain rfl : a = k := by omega
  exact hk.not_isPhrase

/-- A phrase is counted behind its second mark. -/
theorem Counted.phrase (hphrases : InOrder (IsPhrase t) phrases) (h : Counted phrases p k)
    (hk : IsPhrase t k l) : Counted phrases (p + 1) (l + 1) := by
  intro n a b hn
  have hlt := hk.paired.lt
  have hcount := h n a b hn
  have hphrase := (hphrases.mem_iff a b).mp (List.mem_of_getElem? hn)
  rcases Nat.lt_trichotomy n p with hnp | rfl | hnp
  · omega
  · rw [h.get hphrases hk] at hn
    obtain ⟨rfl, rfl⟩ := Prod.mk.inj (Option.some.inj hn)
    omega
  · have hka : k < a := hphrases.lt_of_lt (h.get hphrases hk) hn hnp
    have := hk.paired.apart hphrase.paired hka
    omega

theorem Counted.reads (hphrases : InOrder (IsPhrase t) phrases) (h : Counted phrases p k)
    {glyphs : List (Glyph (List Char))} (hread : Reads t k glyphs j) :
    Counted phrases (p + (glyphs.filterMap Glyph.mark?).length) j := by
  induction hread generalizing p with
  | nil => exact h
  | char hk _ _ ih => exact ih (h.outside hphrases hk)
  | @empty k j rest hk hread ih =>
    refine ih (h.skip hphrases (by omega) fun a b ha ha' hphrase => ?_)
    obtain rfl : k = a := hk.eq_of_covers hphrase.paired ha (by omega)
    have := hk.unique hphrase.paired
    have := hphrase.nonempty
    omega
  | @phrase k l j rest hk hread ih =>
    have hrest := ih (h.phrase hphrases hk)
    simp only [List.filterMap_cons, Glyph.mark?, List.length_cons]
    rwa [Nat.add_assoc, Nat.add_comm 1] at hrest

/-! ## 3. The items of a group -/

variable {held : List Char}

/-- A word that stands, in reverse, in `held` begins at `s` and goes on up to `k`; it may still be
empty. -/
structure Begun (t : List Char) (i s k : Nat) (held : List Char) : Prop where
  after : i < s
  le : s ≤ k
  text : held.reverse = slice t s k
  ink (m : Nat) (hs : s ≤ m) (hk : m < k) : Ink t m
  starts : s = i + 1 ∨ ¬ Ink t (s - 1)

/-- Behind a position that is no part of a word, a new word may begin. -/
theorem Begun.fresh (hi : i < s) (hstarts : s = i + 1 ∨ ¬ Ink t (s - 1)) : Begun t i s s [] :=
  ⟨hi, Nat.le_refl s, (slice_self t s).symm, fun m hs hk => by omega, hstarts⟩

theorem Begun.lt (h : Begun t i s k held) : i < k :=
  Nat.lt_of_lt_of_le h.after h.le

/-- Where no word goes on, a new one may begin at the next position. -/
theorem Begun.behind (h : Begun t i s k held) (hl : k ≤ l) (hnone : ¬ Ink t l) :
    Begun t i (l + 1) (l + 1) [] :=
  .fresh (Nat.lt_succ_of_lt (Nat.lt_of_lt_of_le h.lt hl)) (.inr hnone)

/-- The next character goes on the word. -/
theorem Begun.ink_next {c : Char} (h : Begun t i s k held) (hk : Outside t k)
    (hc : t[k]? = some c) (hink : Text.isBlank c = false) : Begun t i s (k + 1) (c :: held) := by
  refine ⟨h.after, Nat.le_succ_of_le h.le, ?_, ?_, h.starts⟩
  · rw [List.reverse_cons, h.text, slice_succ h.le hc]
  · intro m hs hm
    rcases Nat.lt_succ_iff_lt_or_eq.mp hm with hlt | rfl
    · exact h.ink m hs hlt
    · exact ⟨hk, c, hc, hink⟩

/-- The word begun is the only one that begins where it stands. -/
theorem Begun.isWord_iff {a l : Nat} (h : Begun t i s k held) (hj : k ≤ j)
    (hends : k = j ∨ ¬ Ink t k) (ha : s ≤ a) (ha' : a < k) :
    IsWord t i j a l ↔ a = s ∧ l = k := by
  constructor
  · intro hword
    have heq : a = s := by
      by_contra hne
      rcases hword.starts with hstart | hstart
      · have := h.after
        omega
      · exact hstart (h.ink (a - 1) (by omega) (by omega))
    refine ⟨heq, ?_⟩
    rcases Nat.lt_trichotomy l k with hlt | hl | hgt
    · rcases hword.ends with hend | hend
      · omega
      · exact absurd (h.ink l (by have := hword.nonempty; omega) hlt) hend
    · exact hl
    · rcases hends with hend | hend
      · have := hword.before
        omega
      · exact absurd (hword.ink k (by omega) hgt) hend
  · rintro ⟨rfl, rfl⟩
    exact ⟨h.after, hj, ha', h.ink, h.starts, hends⟩

/-- Where the word ends, it is the item of its stretch, unless it is empty. -/
theorem exists_closed (hphrases : InOrder (IsPhrase t) phrases) (h : Begun t i s k held)
    (hj : k ≤ j) (hlength : k ≤ t.length) (hends : k = j ∨ ¬ Ink t k) :
    ∃ closed, InOrder (Within (IsItem t phrases i j) s k) closed ∧
      ∀ p rest, groupItems p (closeWord held ++ rest) =
        closed.map Prod.snd ++ groupItems p rest := by
  have hitem {a : Nat} {token : Token} (ha : s ≤ a) (ha' : a < k)
      (hitem : IsItem t phrases i j a token) :
      a = s ∧ token = .word (String.ofList (slice t s k)) := by
    cases hitem with
    | word hword =>
      obtain ⟨rfl, rfl⟩ := (h.isWord_iff hj hends ha ha').mp hword
      exact ⟨rfl, rfl⟩
    | phrase _ _ hn =>
      have hphrase := (hphrases.mem_iff _ _).mp (List.mem_of_getElem? hn)
      exact absurd hphrase (h.ink a ha ha').1.not_isPhrase
  rcases Nat.eq_or_lt_of_le h.le with rfl | hlt
  · have hheld : held = [] := by
      have := h.text
      rwa [slice_self, List.reverse_eq_nil_iff] at this
    refine ⟨[], .nil fun a token ha ha' => by omega, ?_⟩
    subst hheld
    exact fun p rest => rfl
  · have hheld : held ≠ [] := by
      rintro rfl
      have := congrArg List.length h.text
      rw [length_slice hlength, List.length_reverse, List.length_nil] at this
      omega
    refine ⟨[(s, .word (String.ofList (slice t s k)))], .singleton fun a token => ?_, ?_⟩
    · constructor
      · rintro ⟨hin, ha, ha'⟩
        exact hitem ha ha' hin
      · rintro ⟨rfl, rfl⟩
        exact ⟨.word ((h.isWord_iff hj hends (Nat.le_refl a) hlt).mpr ⟨rfl, rfl⟩),
          Nat.le_refl a, hlt⟩
    · intro p rest
      rw [closeWord, if_neg (by simpa using hheld), h.text]
      rfl

/-- No item begins at a blank. -/
theorem inOrder_blank (hphrases : InOrder (IsPhrase t) phrases) (hk : Outside t k)
    (hnone : ¬ Ink t k) : InOrder (Within (IsItem t phrases i j) k (k + 1)) [] := by
  refine .nil fun a token ha ha' hitem => ?_
  obtain rfl : a = k := by omega
  cases hitem with
  | word hword => exact hnone (hword.ink a (Nat.le_refl a) hword.nonempty)
  | phrase _ _ hn => exact hk.not_isPhrase ((hphrases.mem_iff _ _).mp (List.mem_of_getElem? hn))

/-- In a pair of marks begins no item but a phrase. -/
theorem IsItem.of_paired {a : Nat} {token : Token} (hphrases : InOrder (IsPhrase t) phrases)
    (hpair : Paired t k l) (ha : k ≤ a) (ha' : a < l + 1) (h : IsItem t phrases i j a token) :
    a = k ∧ IsPhrase t k l ∧ ∃ n, phrases[n]? = some (k, l) ∧ token = .phrase n := by
  cases h with
  | word hword =>
    have hink := hword.ink a (Nat.le_refl a) hword.nonempty
    exact absurd hink.1 (hpair.not_outside ha (by omega))
  | @phrase b n hi hj hn =>
    have hphrase := (hphrases.mem_iff _ _).mp (List.mem_of_getElem? hn)
    obtain rfl := hpair.eq_of_covers hphrase.paired ha (by omega)
    obtain rfl := hpair.unique hphrase.paired
    exact ⟨rfl, hphrase, n, hn, rfl⟩

/-- **The items of a group are its words and phrases**, in order.  The word begun is read on up to
the next glyph that ends it. -/
theorem exists_items (hphrases : InOrder (IsPhrase t) phrases) {glyphs : List (Glyph (List Char))}
    (hread : Reads t k glyphs j) (hj : j ≤ t.length) (hbegun : Begun t i s k held)
    (hcount : Counted phrases p k) :
    ∃ items, InOrder (Within (IsItem t phrases i j) s j) items ∧
      groupItems p (lexemesFrom held glyphs) = items.map Prod.snd := by
  induction hread generalizing s held p with
  | nil k =>
    obtain ⟨closed, hclosed, hitems⟩ :=
      exists_closed hphrases hbegun (Nat.le_refl k) hj (.inl rfl)
    refine ⟨closed, hclosed, ?_⟩
    have hend := hitems p []
    rw [List.append_nil] at hend
    rw [lexemesFrom, hend]
    exact List.append_nil _
  | @char k j c rest hk hc hread ih =>
    have hlt := hread.le
    have hcount' : Counted phrases p (k + 1) := hcount.reads hphrases (.char hk hc (.nil _))
    rw [lexemesFrom]
    split
    · rename_i hblank
      have hnone : ¬ Ink t k := by
        rintro ⟨-, d, hd, hink⟩
        rw [hc] at hd
        obtain rfl := Option.some.inj hd
        exact absurd hblank (by simp [hink])
      obtain ⟨closed, hclosed, hitems⟩ :=
        exists_closed (j := j) hphrases hbegun (by omega) (by omega) (.inr hnone)
      have hfresh := hbegun.behind (Nat.le_refl k) hnone
      obtain ⟨items, hrest, heq⟩ := ih hj hfresh hcount'
      have hskip := (inOrder_blank hphrases hk hnone).append hrest (Nat.le_succ k) hlt
      refine ⟨_, hclosed.append hskip hbegun.le (by omega), ?_⟩
      rw [hitems, heq, List.map_append]
      rfl
    · rename_i hink
      exact ih hj (hbegun.ink_next hk hc (by simpa using hink)) hcount'
  | @empty k j rest hk hread ih =>
    have hlt := hread.le
    have hnone {m : Nat} (hm : k ≤ m) (hm' : m ≤ k + 1) : ¬ Ink t m :=
      fun hink => hk.not_outside hm hm' hink.1
    obtain ⟨closed, hclosed, hitems⟩ := exists_closed (j := j) hphrases hbegun (by omega)
      (by omega) (.inr (hnone (Nat.le_refl k) (Nat.le_succ k)))
    have hfresh := hbegun.behind (Nat.le_succ k) (hnone (Nat.le_succ k) (Nat.le_refl _))
    have hcount' : Counted phrases p (k + 2) := hcount.reads hphrases (.empty hk (.nil _))
    obtain ⟨items, hrest, heq⟩ := ih hj hfresh hcount'
    have hempty : InOrder (Within (IsItem t phrases i j) k (k + 2)) [] := by
      refine .nil fun a token ha ha' hitem => ?_
      obtain ⟨-, hphrase, -⟩ := hitem.of_paired hphrases hk ha ha'
      exact Nat.lt_irrefl _ hphrase.nonempty
    have hskip := hempty.append hrest (by omega) hlt
    refine ⟨_, hclosed.append hskip hbegun.le (by omega), ?_⟩
    have hblank : Text.isBlank ' ' = true := by decide
    rw [lexemesFrom, if_pos hblank, hitems, heq, List.map_append]
    rfl
  | @phrase k l j rest hk hread ih =>
    have hlt := hread.le
    have hkl := hk.paired.lt
    have hnone {m : Nat} (hm : k ≤ m) (hm' : m ≤ l) : ¬ Ink t m :=
      fun hink => hk.paired.not_outside hm hm' hink.1
    obtain ⟨closed, hclosed, hitems⟩ := exists_closed (j := j) hphrases hbegun (by omega)
      (by omega) (.inr (hnone (Nat.le_refl k) (by omega)))
    have hfresh := hbegun.behind (Nat.le_of_lt hkl) (hnone (Nat.le_of_lt hkl) (Nat.le_refl l))
    obtain ⟨items, hrest, heq⟩ := ih hj hfresh (hcount.phrase hphrases hk)
    have hget := hcount.get hphrases hk
    have hone : InOrder (Within (IsItem t phrases i j) k (l + 1)) [(k, .phrase p)] := by
      refine .singleton fun a token => ⟨?_, ?_⟩
      · rintro ⟨hitem, ha, ha'⟩
        obtain ⟨rfl, -, n, hn, rfl⟩ := hitem.of_paired hphrases hk.paired ha ha'
        obtain rfl := hphrases.index_unique hn hget
        exact ⟨rfl, rfl⟩
      · rintro ⟨rfl, rfl⟩
        exact ⟨.phrase hbegun.lt (by omega) hget, Nat.le_refl a, by omega⟩
    refine ⟨_, hclosed.append (hone.append hrest (by omega) hlt) hbegun.le (by omega), ?_⟩
    rw [lexemesFrom, hitems, groupItems, heq, List.map_append, List.map_append]
    rfl

/-! ## 4. The groups of a query -/

variable {o : Nat}

/-- The items of a group table entry are those of the group at a place. -/
def HasItems (t : List Char) (phrases : List (Nat × Nat)) (place : Nat × Nat) (group : Group) :
    Prop :=
  ∃ items, InOrder (IsItem t phrases place.1 place.2) items ∧ group.items = items.map Prod.snd

theorem close_not_mem_heldGlyphs {held : Option (List (Glyph (List Char)))}
    (hlevel : ∀ x ∈ held.getD [], x.Level) : .char ')' ∉ heldGlyphs held := by
  cases held with
  | none => exact List.not_mem_nil
  | some held =>
    intro hmem
    rcases List.mem_cons.mp hmem with heq | hmem
    · exact absurd heq (by decide)
    · exact (hlevel _ (List.mem_reverse.mp hmem)).2 rfl

/-- No group ends among glyphs that are held back. -/
theorem IsGroup.le_of_held {held : Option (List (Glyph (List Char)))} (h : IsGroup t i j)
    (hheld : Reads t o (heldGlyphs held) k) (hlevel : ∀ x ∈ held.getD [], x.Level) (hi : o ≤ i) :
    k ≤ j := by
  by_contra hlt
  have := h.nonempty
  exact close_not_mem_heldGlyphs hlevel
    (hheld.mem_of_outside (by omega) (by omega) h.closes.2 h.closes.1)

theorem Reads.head {c : Char} {rest : List (Glyph (List Char))} (h : Reads t k (.char c :: rest) j)
    (hc : c ≠ ' ') : Outside t k ∧ t[k]? = some c ∧ Reads t (k + 1) rest j := by
  cases h with
  | char hk hc' h => exact ⟨hk, hc', h⟩
  | empty => exact absurd rfl hc

/-- Parentheses with nothing but level glyphs between them are a group, and the only one of their
stretch. -/
theorem isGroup_iff {glyphs : List (Glyph (List Char))} (hopen : t[o]? = some '(')
    (ho : Outside t o) (hglyphs : Reads t (o + 1) glyphs k) (hlevel : ∀ x ∈ glyphs, x.Level)
    (hne : glyphs ≠ []) (hclose : t[k]? = some ')') (hk : Outside t k) :
    Within (IsGroup t) o (k + 1) i j ↔ i = o ∧ j = k := by
  have hlt := hglyphs.lt_of_ne_nil hne
  have hnone {m : Nat} (hm : o < m) (hm' : m < k) (hout : Outside t m) :
      t[m]? ≠ some '(' ∧ t[m]? ≠ some ')' := by
    constructor
    · exact fun hc => (hlevel _ (hglyphs.mem_of_outside hm hm' hout hc)).1 rfl
    · exact fun hc => (hlevel _ (hglyphs.mem_of_outside hm hm' hout hc)).2 rfl
  constructor
  · rintro ⟨hgroup, hi, hi'⟩
    have heq : i = o := by
      by_contra hne
      rcases Nat.lt_or_ge i k with hik | hik
      · exact (hnone (by omega) hik hgroup.opens.2).1 hgroup.opens.1
      · obtain rfl : i = k := by omega
        have := hgroup.opens.1
        rw [hclose] at this
        exact absurd (Option.some.inj this) (by decide)
    subst heq
    refine ⟨rfl, ?_⟩
    have := hgroup.nonempty
    rcases Nat.lt_trichotomy j k with hjk | hjk | hjk
    · exact absurd hgroup.closes.1 (hnone (by omega) hjk hgroup.closes.2).2
    · exact hjk
    · exact absurd hclose (hgroup.next k (by omega) hjk hk).2
  · rintro ⟨rfl, rfl⟩
    exact ⟨⟨⟨hopen, ho⟩, ⟨hclose, hk⟩, hlt, fun m hm hm' => hnone hm hm'⟩, Nat.le_refl i,
      by omega⟩

/-- The items of a group are found from its glyphs. -/
theorem hasItems (hphrases : InOrder (IsPhrase t) phrases) {glyphs : List (Glyph (List Char))}
    (ho : Outside t o) (hglyphs : Reads t (o + 1) glyphs k) (hk : k ≤ t.length)
    (hcount : Counted phrases p o) :
    HasItems t phrases (o, k) ⟨groupItems p (lexemes glyphs)⟩ := by
  obtain ⟨items, hitems, heq⟩ := exists_items (i := o) hphrases hglyphs hk
    (.fresh (Nat.lt_succ_self o) (.inl rfl)) (hcount.outside hphrases ho)
  refine ⟨items, hitems.congr fun a token => ⟨And.left, fun hitem => ⟨hitem, ?_⟩⟩, heq⟩
  cases hitem with
  | word hword =>
    have := hword.nonempty
    have := hword.before
    have := hword.after
    omega
  | phrase hi hj hn =>
    have := ((hphrases.mem_iff _ _).mp (List.mem_of_getElem? hn)).paired.lt
    omega

/-- **The groups that are marked are the groups of the text.** -/
theorem exists_groups (hphrases : InOrder (IsPhrase t) phrases)
    (held : Option (List (Glyph (List Char)))) (rest : List (Glyph (List Char)))
    (hheld : Reads t o (heldGlyphs held) k) (hlevel : ∀ x ∈ held.getD [], x.Level)
    (hrest : Reads t k rest t.length) (hcount : Counted phrases p o) :
    ∃ places, InOrder (Within (IsGroup t) o t.length) places ∧
      List.Forall₂ (HasItems t phrases) places
        (groupsOf p ((markGroups held rest).filterMap Glyph.mark?)) := by
  induction held, rest using markGroups.induct generalizing o k p with
  | case1 held =>
    cases hrest
    refine ⟨[], .nil fun a b ha ha' hgroup => ?_, ?_⟩
    · have := hgroup.le_of_held hheld hlevel ha
      have := (List.getElem?_eq_some_iff.mp hgroup.closes.1).1
      omega
    · rw [markGroups, release_eq, groupsOf_map_outside]
      exact .nil
  | case2 held rest ih =>
    obtain ⟨hk, hopen, hrest⟩ := hrest.head (by decide)
    have hlt := hrest.le
    obtain ⟨places, hplaces, hgroups⟩ := ih (.char hk hopen (.nil _)) (by simp) hrest
      (hcount.reads hphrases hheld)
    have hnone : InOrder (Within (IsGroup t) o k) [] := by
      refine .nil fun a b ha ha' hgroup => ?_
      have hle := hgroup.le_of_held hheld hlevel ha
      rcases Nat.eq_or_lt_of_le hle with rfl | hkb
      · have := hgroup.closes.1
        rw [hopen] at this
        exact absurd (Option.some.inj this) (by decide)
      · exact (hgroup.next k ha' hkb hk).1 hopen
    refine ⟨_, hnone.append hplaces hheld.le (by omega), ?_⟩
    rw [markGroups, List.filterMap_append, release_eq, groupsOf_outside]
    exact hgroups
  | case3 held rest ih =>
    obtain ⟨hk, hclose, hrest⟩ := hrest.head (by decide)
    have hlt := hrest.le
    obtain ⟨ho, hopen, hglyphs⟩ := Reads.head hheld (by decide)
    have hko := hglyphs.le
    have hbehind : Counted phrases (p + (held.reverse.filterMap Glyph.mark?).length) (k + 1) :=
      ((hcount.outside hphrases ho).reads hphrases hglyphs).outside hphrases hk
    obtain ⟨places, hplaces, hgroups⟩ := ih (.nil _) (by simp) hrest hbehind
    have hheldlevel : ∀ x ∈ held.reverse, x.Level := fun x hx => hlevel x (List.mem_reverse.mp hx)
    rw [markGroups, List.filterMap_append, close]
    by_cases hempty : held.isEmpty
    · obtain rfl := List.isEmpty_iff.mp hempty
      cases hglyphs
      have hnone : InOrder (Within (IsGroup t) o (o + 1 + 1)) [] := by
        refine .nil fun a b ha ha' hgroup => ?_
        have := hgroup.nonempty
        rcases Nat.eq_or_lt_of_le ha with rfl | hoa
        · exact (hgroup.next (o + 1) (by omega) this hk).2 hclose
        · obtain rfl : a = o + 1 := by omega
          have := hgroup.opens.1
          rw [hclose] at this
          exact absurd (Option.some.inj this) (by decide)
      exact ⟨_, hnone.append hplaces (by omega) hlt, hgroups⟩
    · have hne : held.reverse ≠ [] := by simpa using hempty
      have hone : InOrder (Within (IsGroup t) o (k + 1)) [(o, k)] :=
        .singleton fun a b => isGroup_iff hopen ho hglyphs hheldlevel hne hclose hk
      refine ⟨_, hone.append hplaces (by omega) hlt, ?_⟩
      rw [if_neg hempty]
      have hlength := congrArg List.length (phrasesIn_lexemes held.reverse)
      rw [List.length_map] at hlength
      rw [← hlength] at hgroups
      exact .cons (hasItems hphrases ho hglyphs (by omega) hcount) hgroups
  | case4 held glyph rest hnotOpen hnotClose ih =>
    obtain ⟨k', hglyph, hrest⟩ := hrest.uncons
    rw [markGroups]
    · refine ih ?_ ?_ hrest hcount
      · have := hheld.append hglyph
        simpa [heldGlyphs] using this
      · intro x hx
        rcases List.mem_cons.mp hx with rfl | hx
        · cases x with
          | char c => exact ⟨fun hc => hnotOpen (hc ▸ rfl), fun hc => hnotClose (hc ▸ rfl)⟩
          | mark m => trivial
        · exact hlevel x hx
    · exact hnotOpen
    · exact hnotClose
  | case5 glyph rest hnotOpen ih =>
    cases hheld
    obtain ⟨k', hglyph, hrest⟩ := hrest.uncons
    obtain ⟨places, hplaces, hgroups⟩ := ih (.nil _) (by simp) hrest
      (hcount.reads hphrases hglyph)
    have hnone : InOrder (Within (IsGroup t) k k') [] := by
      refine .nil fun a b ha ha' hgroup => ?_
      have hmem := hglyph.mem_of_outside ha ha' hgroup.opens.2 hgroup.opens.1
      exact hnotOpen (List.mem_singleton.mp hmem).symm
    refine ⟨_, hnone.append hplaces hglyph.le hrest.le, ?_⟩
    rw [markGroups]
    · have hgroups' := groupsOf_outside p [glyph] ((markGroups none rest).filterMap Glyph.mark?)
      rw [← hgroups', ← List.filterMap_append] at hgroups
      exact hgroups
    · exact hnotOpen

end Query

open Query

/-- **The tables of a query have the phrases and groups that its positions determine.**  The phrases
are the non-empty texts between paired marks, in order; the groups are the opening parentheses
whose next parenthesis closes them, in order, and the items of each are the words and phrases
between the two. -/
theorem tokenize_positions (text : String) :
    let t := unmarked text.toList
    let query := tokenize text
    ∃ phrases groups : List (Nat × Nat),
      InOrder (IsPhrase t) phrases ∧
      query.phrases = phrases.map (fun (i, j) => String.ofList (slice t (i + 1) j)) ∧
      InOrder (IsGroup t) groups ∧
      List.Forall₂ (HasItems t phrases) groups query.groups := by
  intro t query
  have hquery : query = .ofLexemes 0 0 (outline text) := tokenize_eq text
  have hread : Reads t 0 (phrased t) t.length := reads_phrased t
  obtain ⟨phrases, hwithin, hmarks⟩ := exists_phrases hread
  have hphrases : InOrder (IsPhrase t) phrases := by
    refine hwithin.congr fun a b => ⟨And.left, fun h => ⟨h, Nat.zero_le a, ?_⟩⟩
    exact (List.getElem?_eq_some_iff.mp h.paired.opens).1
  have hcount : Counted phrases 0 0 := fun n a b _ => by omega
  obtain ⟨groups, hplaces, hitems⟩ := exists_groups hphrases none (phrased t) (.nil 0)
    (fun x hx => absurd hx List.not_mem_nil) hread hcount
  have houtline : (outline text).filterMap Lexeme.mark? =
      (markGroups none (phrased t)).filterMap Glyph.mark? := by
    rw [outline, filterMap_mark?_lexemes, unreserved_eq]
    rfl
  refine ⟨phrases, groups, hphrases, ?_, ?_, ?_⟩
  · have htable := flatMap_phrases_markGroups none (phrased t)
    rw [heldGlyphs, List.nil_append, hmarks, List.map_map] at htable
    rw [hquery, phrases_ofLexemes, houtline, htable]
    rfl
  · refine hplaces.congr fun a b => ⟨And.left, fun h => ⟨h, Nat.zero_le a, ?_⟩⟩
    exact (List.getElem?_eq_some_iff.mp h.opens.1).1
  · rw [hquery, groups_ofLexemes, houtline]
    exact hitems

/-- Of nested parentheses the inner ones are a group, and empty ones are none. -/
example : (tokenize "(x (a \"b ( c\"d) ())").groups =
    [⟨[.word "a", .phrase 0, .word "d"]⟩] := by
  cbv

end Collector
