/-
# Where words and marks come from

Cutting a query at its blanks leaves the marks as they are, in their order
(`filterMap_mark?_lexemes`), and a word holds nothing but characters of the text that are not blank
(`solid_of_mem_lexemes`).  Marking phrases leaves characters of the text (`mem_of_mem_phrased`).
Marking groups takes glyphs of the text together: whatever is found afterwards stood in the text,
and what is inside a group are glyphs between its parentheses, of which none is a parenthesis
(`mem_markGroups`).

So the tables of a query depend on its marks alone, each of which adds its own entries
(`phrases_ofLexemes`, `groups_ofLexemes`), and marking groups keeps the phrases
(`flatMap_phrases_markGroups`).
-/
import Collector.Proofs.Query.Reading

namespace Collector
namespace Query

variable {μ : Type}

/-! ## 1. Cutting at blanks -/

/-- The mark that a glyph is. -/
def Glyph.mark? : Glyph μ → Option μ
  | .char _ => none
  | .mark m => some m

/-- The mark that a lexeme is. -/
def Lexeme.mark? : Lexeme μ → Option μ
  | .word _ => none
  | .mark m => some m

/-- A text of characters has no marks. -/
theorem filterMap_mark?_char (t : List Char) :
    (t.map (Glyph.char : Char → Glyph μ)).filterMap Glyph.mark? = [] := by
  induction t with
  | nil => rfl
  | cons c t ih => exact ih

theorem filterMap_mark?_closeWord (held : List Char) :
    (closeWord (μ := μ) held).filterMap Lexeme.mark? = [] := by
  unfold closeWord
  split
  · rfl
  · rfl

/-- **Cutting at blanks keeps the marks.** -/
theorem filterMap_mark?_lexemesFrom (held : List Char) (text : List (Glyph μ)) :
    (lexemesFrom held text).filterMap Lexeme.mark? = text.filterMap Glyph.mark? := by
  induction held, text using lexemesFrom.induct with
  | case1 held => simp [lexemesFrom, filterMap_mark?_closeWord]
  | case2 held c rest hblank ih =>
    simp [lexemesFrom, hblank, filterMap_mark?_closeWord, ih, List.filterMap_cons, Glyph.mark?]
  | case3 held c rest hink ih => simp [lexemesFrom, hink, ih, List.filterMap_cons, Glyph.mark?]
  | case4 held m rest ih =>
    simp [lexemesFrom, filterMap_mark?_closeWord, ih, Glyph.mark?, Lexeme.mark?]

theorem filterMap_mark?_lexemes (text : List (Glyph μ)) :
    (lexemes text).filterMap Lexeme.mark? = text.filterMap Glyph.mark? :=
  filterMap_mark?_lexemesFrom [] text

theorem mem_of_mark_mem_lexemes {m : μ} {text : List (Glyph μ)} (h : .mark m ∈ lexemes text) :
    .mark m ∈ text := by
  have hmark : m ∈ (lexemes text).filterMap Lexeme.mark? := List.mem_filterMap.mpr ⟨_, h, rfl⟩
  rw [filterMap_mark?_lexemes] at hmark
  obtain ⟨glyph, hglyph, hm⟩ := List.mem_filterMap.mp hmark
  cases glyph with
  | char c => exact absurd hm nofun
  | mark m' =>
    obtain rfl := Option.some.inj hm
    exact hglyph

/-- A word as it may be cut from a text: not empty, and of characters of the text that are not
blank. -/
structure Solid (w : List Char) (text : List (Glyph μ)) : Prop where
  nonempty : w ≠ []
  chars (c : Char) (hc : c ∈ w) : Text.isBlank c = false ∧ .char c ∈ text

theorem solid_closeWord {w held : List Char} {text : List (Glyph μ)}
    (hheld : ∀ c ∈ held, Text.isBlank c = false ∧ .char c ∈ text)
    (h : .word w ∈ closeWord (μ := μ) held) : Solid w text := by
  unfold closeWord at h
  split at h
  · exact absurd h List.not_mem_nil
  · rename_i hne
    obtain rfl := Lexeme.word.inj (List.mem_singleton.mp h)
    refine ⟨by simpa using hne, ?_⟩
    intro c hc
    exact hheld c (List.mem_reverse.mp hc)

/-- The word begun consists of characters of the text already, and stays a part of the text while
the rest is read. -/
theorem solid_of_mem_lexemesFrom {w held : List Char} {rest text : List (Glyph μ)}
    (hrest : rest ⊆ text) (hheld : ∀ c ∈ held, Text.isBlank c = false ∧ .char c ∈ text)
    (h : .word w ∈ lexemesFrom held rest) : Solid w text := by
  have hnone : ∀ c ∈ ([] : List Char), Text.isBlank c = false ∧ .char c ∈ text :=
    fun c hc => absurd hc List.not_mem_nil
  induction held, rest using lexemesFrom.induct with
  | case1 held =>
    rw [lexemesFrom] at h
    exact solid_closeWord hheld h
  | case2 held c rest hblank ih =>
    rw [lexemesFrom, if_pos hblank] at h
    rcases List.mem_append.mp h with h | h
    · exact solid_closeWord hheld h
    · exact ih (List.subset_of_cons_subset hrest) hnone h
  | case3 held c rest hink ih =>
    rw [lexemesFrom, if_neg hink] at h
    refine ih (List.subset_of_cons_subset hrest) ?_ h
    intro d hd
    rcases List.mem_cons.mp hd with rfl | hd
    · exact ⟨by simpa using hink, hrest List.mem_cons_self⟩
    · exact hheld d hd
  | case4 held m rest ih =>
    rw [lexemesFrom] at h
    rcases List.mem_append.mp h with h | h
    · exact solid_closeWord hheld h
    · rcases List.mem_cons.mp h with h | h
      · cases h
      · exact ih (List.subset_of_cons_subset hrest) hnone h

/-- **A word is cut from the text.** -/
theorem solid_of_mem_lexemes {w : List Char} {text : List (Glyph μ)}
    (h : .word w ∈ lexemes text) : Solid w text :=
  solid_of_mem_lexemesFrom (List.Subset.refl text) (fun _ hc => absurd hc List.not_mem_nil) h

/-! ## 2. Marking phrases and groups -/

/-- A character among the glyphs of a text is one of the text, or the blank for an empty pair. -/
theorem mem_of_mem_phrased {c : Char} {t : List Char} (h : .char c ∈ phrased t) :
    c = ' ' ∨ c ∈ t := by
  induction t using pairing_induction with
  | plain t ht =>
    rw [phrased_plain ht] at h
    exact .inr (by simpa using h)
  | unclosed u v hu hv =>
    rw [phrased_unclosed hu hv] at h
    exact .inr (by simpa using h)
  | pair u inside rest hu hinside ih =>
    rw [phrased_pair hu hinside] at h
    rcases List.mem_append.mp h with h | h
    · exact .inr (List.mem_append_left _ (by simpa using h))
    · rcases List.mem_append.mp h with h | h
      · cases inside with
        | nil => exact .inl (by simpa [Span.glyphs] using h)
        | cons => simp [Span.glyphs] at h
      · rcases ih h with hblank | hrest
        · exact .inl hblank
        · exact .inr (by simp [hrest])

/-- The glyphs that are held back since an opening parenthesis, with the parenthesis. -/
def heldGlyphs : Option (List (Glyph (List Char))) → List (Glyph (List Char))
  | none => []
  | some held => .char '(' :: held.reverse

theorem release_eq (held : Option (List (Glyph (List Char)))) :
    release held = (heldGlyphs held).map Glyph.outside := by
  cases held with
  | none | some => rfl

/-- The items of a group are cut from glyphs of the text of which none is a parenthesis. -/
def Inside (items : List (Lexeme (List Char))) (text : List (Glyph (List Char))) : Prop :=
  ∃ glyphs, items = lexemes glyphs ∧ ∀ x ∈ glyphs, x ∈ text ∧ x.Level

theorem mem_close {x : Glyph Mark} {held text : List (Glyph (List Char))}
    (hheld : ∀ y ∈ held, y ∈ text ∧ y.Level) (hopen : .char '(' ∈ text) (hclose : .char ')' ∈ text)
    (h : x ∈ close held) :
    (∃ y ∈ text, x = y.outside) ∨ ∃ items, x = .mark (.group items) ∧ Inside items text := by
  unfold close at h
  split at h
  · rename_i hempty
    obtain rfl := List.isEmpty_iff.mp hempty
    have hboth : x = .char '(' ∨ x = .char ')' := by simpa [release] using h
    rcases hboth with rfl | rfl
    · exact .inl ⟨_, hopen, rfl⟩
    · exact .inl ⟨_, hclose, rfl⟩
  · obtain rfl := List.mem_singleton.mp h
    refine .inr ⟨_, rfl, _, rfl, ?_⟩
    intro y hy
    exact hheld y (List.mem_reverse.mp hy)

/-- **What stands in the text after its groups are marked**: a glyph of the text outside every
group, or a group of glyphs of the text without parentheses. -/
theorem mem_markGroups {x : Glyph Mark} {held : Option (List (Glyph (List Char)))}
    {rest text : List (Glyph (List Char))} (htext : heldGlyphs held ++ rest ⊆ text)
    (hlevel : ∀ y ∈ held.getD [], y.Level) (h : x ∈ markGroups held rest) :
    (∃ y ∈ text, x = y.outside) ∨ ∃ items, x = .mark (.group items) ∧ Inside items text := by
  have hrelease {held} (hsub : heldGlyphs held ⊆ text) (h : x ∈ release held) :
      ∃ y ∈ text, x = y.outside := by
    rw [release_eq] at h
    obtain ⟨y, hy, rfl⟩ := List.mem_map.mp h
    exact ⟨y, hsub hy, rfl⟩
  induction held, rest using markGroups.induct with
  | case1 held =>
    rw [markGroups] at h
    rw [List.append_nil] at htext
    exact .inl (hrelease htext h)
  | case2 held rest ih =>
    rw [markGroups] at h
    obtain ⟨hheld, hrest⟩ := List.append_subset.mp htext
    rcases List.mem_append.mp h with h | h
    · exact .inl (hrelease hheld h)
    · exact ih hrest (by simp) h
  | case3 held rest ih =>
    rw [markGroups] at h
    obtain ⟨hheld, hrest⟩ := List.append_subset.mp htext
    rcases List.mem_append.mp h with h | h
    · refine mem_close ?_ (hheld List.mem_cons_self) (hrest List.mem_cons_self) h
      intro y hy
      exact ⟨hheld (List.mem_cons_of_mem _ (List.mem_reverse.mpr hy)), hlevel y hy⟩
    · exact ih (List.subset_of_cons_subset hrest) (by simp) h
  | case4 held glyph rest hopen hclose ih =>
    rw [markGroups] at h
    · refine ih ?_ ?_ h
      · simpa [heldGlyphs] using htext
      · intro y hy
        rcases List.mem_cons.mp hy with rfl | hy
        · cases y with
          | char c => exact ⟨fun hc => hopen (hc ▸ rfl), fun hc => hclose (hc ▸ rfl)⟩
          | mark m => trivial
        · exact hlevel y hy
    · exact hopen
    · exact hclose
  | case5 glyph rest hopen ih =>
    rw [markGroups] at h
    · rcases List.mem_cons.mp h with rfl | h
      · exact .inl ⟨glyph, htext List.mem_cons_self, rfl⟩
      · exact ih (List.subset_of_cons_subset htext) (by simp) h
    · exact hopen

/-! ## 3. The tables -/

/-- The phrases that a mark adds to the table. -/
def Mark.phrases : Mark → List String
  | .phrase text => [String.ofList text]
  | .group items => phrasesIn items

/-- The groups that some marks add to the table, their phrases numbered from `p`. -/
def groupsOf : (p : Nat) → List Mark → List Group
  | _, [] => []
  | p, .phrase _ :: rest => groupsOf (p + 1) rest
  | p, .group items :: rest =>
    ⟨groupItems p items⟩ :: groupsOf (p + (phrasesIn items).length) rest

/-- Marks outside groups add no group, and the phrases behind them have later numbers. -/
theorem groupsOf_outside (p : Nat) (glyphs : List (Glyph (List Char))) (marks : List Mark) :
    groupsOf p ((glyphs.map Glyph.outside).filterMap Glyph.mark? ++ marks) =
      groupsOf (p + (glyphs.filterMap Glyph.mark?).length) marks := by
  induction glyphs generalizing p with
  | nil => rfl
  | cons glyph rest ih =>
    cases glyph with
    | char c => exact ih p
    | mark phrase =>
      have hnext := ih (p + 1)
      rw [Nat.add_assoc, Nat.add_comm 1] at hnext
      simpa [List.filterMap_cons, Glyph.outside, Glyph.mark?, groupsOf] using hnext

theorem groupsOf_map_outside (p : Nat) (glyphs : List (Glyph (List Char))) :
    groupsOf p ((glyphs.map Glyph.outside).filterMap Glyph.mark?) = [] := by
  have hall := groupsOf_outside p glyphs []
  rwa [List.append_nil] at hall

theorem phrasesIn_lexemes (glyphs : List (Glyph (List Char))) :
    phrasesIn (lexemes glyphs) = (glyphs.filterMap Glyph.mark?).map String.ofList := by
  rw [← filterMap_mark?_lexemes]
  generalize lexemes glyphs = items
  induction items with
  | nil => rfl
  | cons item rest ih =>
    cases item with
    | word w => exact ih
    | mark phrase => exact congrArg (String.ofList phrase :: ·) ih

theorem flatMap_phrases_outside (glyphs : List (Glyph (List Char))) :
    ((glyphs.map Glyph.outside).filterMap Glyph.mark?).flatMap Mark.phrases =
      (glyphs.filterMap Glyph.mark?).map String.ofList := by
  induction glyphs with
  | nil => rfl
  | cons glyph rest ih =>
    cases glyph with
    | char c => exact ih
    | mark phrase => exact congrArg (String.ofList phrase :: ·) ih

/-- Marking groups keeps the phrases, be they in a group or not. -/
theorem flatMap_phrases_markGroups (held : Option (List (Glyph (List Char))))
    (rest : List (Glyph (List Char))) :
    ((markGroups held rest).filterMap Glyph.mark?).flatMap Mark.phrases =
      ((heldGlyphs held ++ rest).filterMap Glyph.mark?).map String.ofList := by
  induction held, rest using markGroups.induct with
  | case1 held => rw [markGroups, release_eq, flatMap_phrases_outside, List.append_nil]
  | case2 held rest ih =>
    rw [markGroups, List.filterMap_append, List.flatMap_append, ih, release_eq,
      flatMap_phrases_outside, ← List.map_append, ← List.filterMap_append]
    simp [heldGlyphs, List.filterMap_cons, Glyph.mark?]
  | case3 held rest ih =>
    rw [markGroups, List.filterMap_append, List.flatMap_append, ih, close]
    by_cases hempty : held.isEmpty
    · obtain rfl := List.isEmpty_iff.mp hempty
      rfl
    · rw [if_neg hempty]
      have hitems := phrasesIn_lexemes held.reverse
      simp [heldGlyphs, List.filterMap_cons, Glyph.mark?, Mark.phrases, hitems]
  | case4 held glyph rest hopen hclose ih =>
    rw [markGroups]
    · rw [ih]
      simp [heldGlyphs, List.filterMap_cons]
    · exact hopen
    · exact hclose
  | case5 glyph rest hopen ih =>
    rw [markGroups]
    · have hone : glyph.outside :: markGroups none rest =
          [glyph].map Glyph.outside ++ markGroups none rest := rfl
      rw [hone, List.filterMap_append, List.flatMap_append, flatMap_phrases_outside, ih,
        ← List.map_append, ← List.filterMap_append]
      rfl
    · exact hopen

variable (p g : Nat) (lexemes : List (Lexeme Mark))

theorem phrases_ofLexemes :
    (Tokenized.ofLexemes p g lexemes).phrases =
      (lexemes.filterMap Lexeme.mark?).flatMap Mark.phrases := by
  induction lexemes generalizing p g with
  | nil => rfl
  | cons lexeme rest ih =>
    rcases lexeme with w | ⟨text⟩ | ⟨items⟩
    all_goals simp [Tokenized.ofLexemes, List.filterMap_cons, Lexeme.mark?, Mark.phrases, ih]

theorem groups_ofLexemes :
    (Tokenized.ofLexemes p g lexemes).groups = groupsOf p (lexemes.filterMap Lexeme.mark?) := by
  induction lexemes generalizing p g with
  | nil => rfl
  | cons lexeme rest ih =>
    rcases lexeme with w | ⟨text⟩ | ⟨items⟩
    all_goals simp [Tokenized.ofLexemes, List.filterMap_cons, Lexeme.mark?, groupsOf, ih]

end Query
end Collector
