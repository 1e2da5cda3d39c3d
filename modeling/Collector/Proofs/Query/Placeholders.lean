/-
# Placeholders are well formed

A query may hold anything, but its tokens are in order (`tokenize_placeholders`).  Groups are
numbered in the order in which they stand among the tokens, and phrases in the order in which they
stand once every group is replaced by its items (`Tables.expand?`): no number is left out, used
twice or out of place, and none comes from the text.

What is left of the text are words.  A word is not empty and holds no blank, no reserved character
and, inside a group, no parenthesis.  Of all the quotation marks at most one is left in them,
the last one of an odd number.

The numbers of the tokens are read from markers in the text.  Every marker is read as the number that
was written there, and nothing else is read as a number (`tokenize_eq`), so it is enough to see how
the marks of the outline are numbered: each kind of lexeme takes the next numbers.  For the words it
is enough to know where their characters come from, and the quotation marks are counted with
`Mark.typed`, the characters that a mark leaves to words.
-/
import Collector.Proofs.Query.Lossless
import Collector.Proofs.Query.Words

namespace Collector

open Query

/-! ## 1. Placeholders and words of a query -/

namespace Token

/-- The number of a phrase placeholder. -/
def phrase? : Token → Option Nat
  | .phrase n => some n
  | _ => none

/-- The number of a group placeholder. -/
def group? : Token → Option Nat
  | .group n => some n
  | _ => none

/-- What a word or keyword says, as typed. -/
def typed? : Token → Option String
  | .word text | .and text | .or text | .not text => some text
  | .phrase _ | .group _ => none

end Token

/-- A token, or the items of the group that it stands for.  There are none for a number without an
entry. -/
def Tables.expand? (tables : Tables) : Token → Option (List Token)
  | .group n => tables.groups[n]?.map Group.items
  | token => some [token]

/-- The tokens of a query with every group replaced by its items. -/
def Tokenized.expanded? (query : Tokenized) : Option (List Token) :=
  (query.tokens.mapM query.toTables.expand?).map List.flatten

/-- All words of a query, keywords and the words inside of groups included. -/
def Tokenized.words (query : Tokenized) : List String :=
  (query.tokens ++ query.groups.flatMap Group.items).filterMap Token.typed?

namespace Query

/-! ## 2. Numbers -/

variable (p g : Nat) (lexemes : List (Lexeme Mark))

theorem ofWord_cases (text : String) :
    Token.ofWord text = .word text ∧ text.toUpper ∉ ["AND", "OR", "NOT"] ∨
      Token.ofWord text = .and text ∨ Token.ofWord text = .or text ∨
        Token.ofWord text = .not text := by
  unfold Token.ofWord
  split
  · exact .inr (.inl rfl)
  · exact .inr (.inr (.inl rfl))
  · exact .inr (.inr (.inr rfl))
  · rename_i hand hor hnot
    refine .inl ⟨rfl, ?_⟩
    simp only [List.mem_cons, List.not_mem_nil, or_false, not_or]
    exact ⟨hand, hor, hnot⟩

/-- A word is never a placeholder, whatever it says. -/
theorem typed?_ofWord (text : String) :
    (Token.ofWord text).typed? = some text ∧ (Token.ofWord text).group? = none ∧
      ∀ tables : Tables, ∃ token, tables.expand? (.ofWord text) = some [token] ∧
        token.phrase? = none := by
  rcases ofWord_cases text with ⟨h, -⟩ | h | h | h
  all_goals
    rw [h]
    exact ⟨rfl, rfl, fun _ => ⟨_, rfl, rfl⟩⟩

/-- **Groups are numbered in order.** -/
theorem filterMap_group?_tokens :
    (Tokenized.ofLexemes p g lexemes).tokens.filterMap Token.group? =
      List.range' g (Tokenized.ofLexemes p g lexemes).groups.length := by
  induction lexemes generalizing p g with
  | nil => rfl
  | cons lexeme rest ih =>
    rcases lexeme with w | ⟨text⟩ | ⟨items⟩
    · obtain ⟨-, hword, -⟩ := typed?_ofWord (String.ofList w)
      rw [Tokenized.ofLexemes, List.filterMap_cons_none hword, ih]
    · rw [Tokenized.ofLexemes, List.filterMap_cons_none rfl, ih]
    · simp [Tokenized.ofLexemes, Token.group?, ih, List.range'_succ]

/-- The phrases of a group are numbered in order. -/
theorem filterMap_phrase?_groupItems (items : List (Lexeme (List Char))) :
    (groupItems p items).filterMap Token.phrase? = List.range' p (phrasesIn items).length := by
  induction items generalizing p with
  | nil => rfl
  | cons item rest ih =>
    cases item with
    | word w => exact ih p
    | mark phrase =>
      have hlength : (phrasesIn (.mark phrase :: rest)).length = (phrasesIn rest).length + 1 := rfl
      simp [groupItems, Token.phrase?, ih, hlength, List.range'_succ]

/-- **Phrases are numbered in order** once every group is replaced by its items. -/
theorem exists_expanded {tables : Tables}
    (h : Numbered tables p g (.ofLexemes p g lexemes)) :
    ∃ parts, (Tokenized.ofLexemes p g lexemes).tokens.mapM tables.expand? = some parts ∧
      parts.flatten.filterMap Token.phrase? =
        List.range' p (Tokenized.ofLexemes p g lexemes).phrases.length := by
  induction lexemes generalizing p g with
  | nil => exact ⟨[], rfl, rfl⟩
  | cons lexeme rest ih =>
    rcases lexeme with w | ⟨text⟩ | ⟨items⟩
    · obtain ⟨-, -, hword⟩ := typed?_ofWord (String.ofList w)
      obtain ⟨token, htoken, hnone⟩ := hword tables
      obtain ⟨parts, hparts, hphrases⟩ := ih p g h.word
      refine ⟨[token] :: parts, ?_, ?_⟩
      · rw [Tokenized.ofLexemes, List.mapM_cons, htoken, hparts]
        rfl
      · rw [List.flatten_cons, List.filterMap_append, List.filterMap_cons_none hnone, hphrases]
        rfl
    · obtain ⟨parts, hparts, hphrases⟩ := ih (p + 1) g h.phrase.2
      refine ⟨[.phrase p] :: parts, ?_, ?_⟩
      · rw [Tokenized.ofLexemes, List.mapM_cons, hparts]
        rfl
      · rw [List.flatten_cons, List.filterMap_append, hphrases, Tokenized.ofLexemes,
          List.length_cons, List.range'_succ]
        rfl
    · obtain ⟨hfound, -, hrest⟩ := h.group
      obtain ⟨parts, hparts, hphrases⟩ := ih _ _ hrest
      have hgroup : tables.expand? (.group g) = some (groupItems p items) := by
        rw [Tables.expand?, hfound]
        rfl
      refine ⟨groupItems p items :: parts, ?_, ?_⟩
      · rw [Tokenized.ofLexemes, List.mapM_cons, hgroup, hparts]
        rfl
      · rw [List.flatten_cons, List.filterMap_append, hphrases, filterMap_phrase?_groupItems,
          Tokenized.ofLexemes, List.length_append, List.range'_append_1]

/-! ## 3. Where words come from -/

/-- A token is a word or a keyword as one of the words of the query, or it is a placeholder. -/
theorem mem_tokens {token : Token} (h : token ∈ (Tokenized.ofLexemes p g lexemes).tokens) :
    token.typed? = none ∨ ∃ w, .word w ∈ lexemes ∧ token = .ofWord (String.ofList w) := by
  induction lexemes generalizing p g with
  | nil => exact absurd h List.not_mem_nil
  | cons lexeme rest ih =>
    have hlater {p g} (h : token ∈ (Tokenized.ofLexemes p g rest).tokens) :
        token.typed? = none ∨
          ∃ w, .word w ∈ lexeme :: rest ∧ token = .ofWord (String.ofList w) := by
      rcases ih p g h with hnone | ⟨w, hw, htoken⟩
      · exact .inl hnone
      · exact .inr ⟨w, List.mem_cons_of_mem _ hw, htoken⟩
    rcases lexeme with w | ⟨text⟩ | ⟨items⟩
    · rcases List.mem_cons.mp h with rfl | h
      · exact .inr ⟨w, List.mem_cons_self, rfl⟩
      · exact hlater h
    · rcases List.mem_cons.mp h with rfl | h
      · exact .inl rfl
      · exact hlater h
    · rcases List.mem_cons.mp h with rfl | h
      · exact .inl rfl
      · exact hlater h

/-- An item of a group is a word of the group or a phrase. -/
theorem mem_groupItems {token : Token} {items : List (Lexeme (List Char))}
    (h : token ∈ groupItems p items) :
    (∃ n, token = .phrase n) ∨ ∃ w, .word w ∈ items ∧ token = .word (String.ofList w) := by
  induction items generalizing p with
  | nil => exact absurd h List.not_mem_nil
  | cons item rest ih =>
    have hlater {p} (h : token ∈ groupItems p rest) :
        (∃ n, token = .phrase n) ∨
          ∃ w, .word w ∈ item :: rest ∧ token = .word (String.ofList w) := by
      rcases ih p h with hphrase | ⟨w, hw, htoken⟩
      · exact .inl hphrase
      · exact .inr ⟨w, List.mem_cons_of_mem _ hw, htoken⟩
    cases item with
    | word w =>
      rcases List.mem_cons.mp h with rfl | h
      · exact .inr ⟨w, List.mem_cons_self, rfl⟩
      · exact hlater h
    | mark phrase =>
      rcases List.mem_cons.mp h with rfl | h
      · exact .inl ⟨p, rfl⟩
      · exact hlater h

theorem mem_groupsOf {group : Group} {marks : List Mark} (h : group ∈ groupsOf p marks) :
    ∃ p' items, .group items ∈ marks ∧ group = ⟨groupItems p' items⟩ := by
  induction p, marks using groupsOf.induct with
  | case1 p => exact absurd h List.not_mem_nil
  | case2 p text rest ih =>
    obtain ⟨p', items, hitems, hgroup⟩ := ih h
    exact ⟨p', items, List.mem_cons_of_mem _ hitems, hgroup⟩
  | case3 p items rest ih =>
    rcases List.mem_cons.mp h with rfl | h
    · exact ⟨p, items, List.mem_cons_self, rfl⟩
    · obtain ⟨p', items', hitems, hgroup⟩ := ih h
      exact ⟨p', items', List.mem_cons_of_mem _ hitems, hgroup⟩

/-- A group of the table is one of the marks. -/
theorem mem_groups {group : Group} (h : group ∈ (Tokenized.ofLexemes p g lexemes).groups) :
    ∃ p' items, .mark (.group items) ∈ lexemes ∧ group = ⟨groupItems p' items⟩ := by
  rw [groups_ofLexemes] at h
  obtain ⟨p', items, hitems, hgroup⟩ := mem_groupsOf p h
  obtain ⟨lexeme, hlexeme, hmark⟩ := List.mem_filterMap.mp hitems
  cases lexeme with
  | word w => exact absurd hmark nofun
  | mark m =>
    obtain rfl := Option.some.inj hmark
    exact ⟨p', items, hlexeme, hgroup⟩

/-! ## 4. Counting quotation marks -/

/-- The characters that a mark leaves to words. -/
def Mark.typed : Mark → List Char
  | .phrase _ => []
  | .group items => items.flatMap (Lexeme.shown fun _ => [])

theorem count_inked (t : List Char) : (inked t).count '"' = t.count '"' :=
  List.count_filter (by decide)

theorem count_lexemes {μ : Type} (f : μ → List Char) (text : List (Glyph μ)) :
    ((Query.lexemes text).flatMap (Lexeme.shown f)).count '"' =
      (text.flatMap (Glyph.shown f)).count '"' := by
  rw [← count_inked, inked_lexemes, count_inked]

/-- Marking groups leaves no more quotation marks than there are. -/
theorem count_markGroups (held : Option (List (Glyph (List Char))))
    (text : List (Glyph (List Char))) :
    ((markGroups held text).flatMap (Glyph.shown Mark.typed)).count '"' ≤
      ((heldGlyphs held ++ text).flatMap (Glyph.shown fun _ => [])).count '"' := by
  have houtside (glyph : Glyph (List Char)) :
      glyph.outside.shown Mark.typed = glyph.shown fun _ => [] := by
    cases glyph with
    | char | mark => rfl
  have hrelease (held) : (release held).flatMap (Glyph.shown Mark.typed) =
      (heldGlyphs held).flatMap (Glyph.shown fun _ => []) := by
    rw [release_eq, List.flatMap_map]
    simp only [houtside]
  induction held, text using markGroups.induct with
  | case1 held =>
    exact Nat.le_of_eq (by rw [markGroups, hrelease, List.append_nil])
  | case2 held rest ih =>
    rw [markGroups, List.flatMap_append, List.flatMap_append, List.count_append,
      List.count_append, hrelease]
    exact Nat.add_le_add_left ih _
  | case3 held rest ih =>
    have hclose : ((close held).flatMap (Glyph.shown Mark.typed)).count '"' =
        (held.reverse.flatMap (Glyph.shown fun _ => [])).count '"' := by
      unfold close
      split
      · rename_i hempty
        rw [List.isEmpty_iff.mp hempty]
        rfl
      · exact (congrArg (List.count '"') (List.flatMap_singleton ..)).trans (count_lexemes _ _)
    have hparen : Glyph.shown (fun _ : List Char => ([] : List Char)) (.char '(') = ['('] := rfl
    rw [markGroups, List.flatMap_append, List.count_append, hclose, List.flatMap_append,
      List.count_append]
    refine Nat.add_le_add ?_ (Nat.le_trans ih ?_)
    · simp [heldGlyphs, Glyph.shown]
    · simp [heldGlyphs, Glyph.shown]
  | case4 held glyph rest hopen hclose ih =>
    rw [markGroups]
    · simpa [heldGlyphs] using ih
    · exact hopen
    · exact hclose
  | case5 glyph rest hopen ih =>
    rw [markGroups]
    · simp only [heldGlyphs, List.nil_append, List.flatMap_cons, List.count_append, houtside]
        at ih ⊢
      exact Nat.add_le_add_left ih _
    · exact hopen

/-- **All quotation marks but one are in pairs.** -/
theorem count_phrased (t : List Char) :
    ((phrased t).flatMap (Glyph.shown fun _ => [])).count '"' ≤ 1 := by
  induction t using pairing_induction with
  | plain t ht =>
    rw [phrased_plain ht, flatMap_shown_char, List.count_eq_zero_of_not_mem ht]
    exact Nat.zero_le 1
  | unclosed u v hu hv =>
    rw [phrased_unclosed hu hv, flatMap_shown_char]
    simp [List.count_eq_zero_of_not_mem hu, List.count_eq_zero_of_not_mem hv]
  | pair u inside rest hu hinside ih =>
    have hmark : ((Span.quoted inside).glyphs.flatMap
        (Glyph.shown fun _ : List Char => [])).count '"' = 0 := by
      cases inside with
      | nil | cons => rfl
    rw [phrased_pair hu hinside, List.flatMap_append, List.flatMap_append, flatMap_shown_char,
      List.count_append, List.count_append, hmark, List.count_eq_zero_of_not_mem hu]
    omega

/-- The words of a group leave the characters of its words. -/
theorem typed_groupItems (items : List (Lexeme (List Char))) :
    ((groupItems p items).filterMap Token.typed?).flatMap String.toList =
      items.flatMap (Lexeme.shown fun _ => []) := by
  induction items generalizing p with
  | nil => rfl
  | cons item rest ih =>
    cases item with
    | word w =>
      simp [groupItems, Token.typed?, ih, Lexeme.shown]
    | mark phrase =>
      simp [groupItems, List.filterMap_cons, Token.typed?, ih, Lexeme.shown]

/-- The words of a query hold the quotation marks that its lexemes leave to words. -/
theorem count_words :
    ((Tokenized.ofLexemes p g lexemes).words.flatMap String.toList).count '"' =
      (lexemes.flatMap (Lexeme.shown Mark.typed)).count '"' := by
  induction lexemes generalizing p g with
  | nil => rfl
  | cons lexeme rest ih =>
    simp only [Tokenized.words, List.filterMap_append, List.flatMap_append, List.count_append]
      at ih ⊢
    rcases lexeme with w | ⟨text⟩ | ⟨items⟩
    · obtain ⟨hword, -, -⟩ := typed?_ofWord (String.ofList w)
      have hrest := ih p g
      simp only [Tokenized.ofLexemes, List.filterMap_cons_some hword, List.flatMap_cons,
        List.count_append, String.toList_ofList, Lexeme.shown]
      omega
    · simp [Tokenized.ofLexemes, List.filterMap_cons, Token.typed?, Lexeme.shown, Mark.typed,
        ← ih (p + 1) g]
    · simp [Tokenized.ofLexemes, List.filterMap_cons, Token.typed?, Lexeme.shown, Mark.typed,
        ← ih (p + (phrasesIn items).length) (g + 1), List.filterMap_append, typed_groupItems]
      omega

/-! ## 5. The whole query -/

/-- A word of a query is cut from the query, or from the inside of one of its groups. -/
theorem exists_word {w : String} (h : w ∈ (Tokenized.ofLexemes p g lexemes).words) :
    .word w.toList ∈ lexemes ∨
      ∃ items, .mark (.group items) ∈ lexemes ∧ .word w.toList ∈ items := by
  obtain ⟨token, htoken, htyped⟩ := List.mem_filterMap.mp h
  rcases List.mem_append.mp htoken with htoken | htoken
  · rcases mem_tokens p g lexemes htoken with hnone | ⟨v, hv, rfl⟩
    · rw [hnone] at htyped
      exact absurd htyped nofun
    · rw [(typed?_ofWord _).1] at htyped
      obtain rfl := Option.some.inj htyped
      exact .inl (by simpa using hv)
  · obtain ⟨group, hgroup, hitem⟩ := List.mem_flatMap.mp htoken
    obtain ⟨p', items, hitems, rfl⟩ := mem_groups p g lexemes hgroup
    rcases mem_groupItems p' hitem with ⟨n, rfl⟩ | ⟨v, hv, rfl⟩
    · exact absurd htyped nofun
    · obtain rfl := Option.some.inj htyped
      exact .inr ⟨items, hitems, by simpa using hv⟩

end Query

/-- The text may be a word of a query: it is not empty and holds no blank and none of the four
reserved characters. -/
def IsQueryWord (w : String) : Prop :=
  w ≠ "" ∧ ∀ c ∈ w.toList,
    Text.isBlank c = false ∧ c ∉ ['\ue000', '\ue001', '\ue002', '\ue003']

namespace Query

/-- What is cut from a text without reserved characters may be a word. -/
theorem isQueryWord_of_solid {μ : Type} {w : List Char} {glyphs : List (Glyph μ)}
    (hsolid : Solid w glyphs) (hglyphs : NoReserved glyphs) : IsQueryWord (String.ofList w) := by
  refine ⟨by simpa using hsolid.nonempty, ?_⟩
  intro c hc
  rw [String.toList_ofList] at hc
  obtain ⟨hink, hmem⟩ := hsolid.chars c hc
  refine ⟨hink, ?_⟩
  rw [← isReserved_iff, hglyphs c hmem]
  exact Bool.false_ne_true

/-- A word that stands outside groups. -/
theorem isQueryWord_of_mem_outline {text : String} {w : List Char}
    (h : .word w ∈ outline text) : IsQueryWord (String.ofList w) :=
  isQueryWord_of_solid (solid_of_mem_lexemes h) (noReserved_phrased text.toList).markGroups

/-- A group is cut from glyphs of the query of which none is a parenthesis. -/
theorem inside_of_mem_outline {text : String} {items : List (Lexeme (List Char))}
    (h : .mark (.group items) ∈ outline text) :
    Inside items (phrased (unreserved text.toList)) := by
  have hmark := mem_of_mark_mem_lexemes h
  rcases mem_markGroups (List.Subset.refl _) (fun _ hy => absurd hy List.not_mem_nil) hmark with
    ⟨y, -, hgroup⟩ | ⟨items', hgroup, hinside⟩
  · cases y with
    | char | mark => exact absurd hgroup nofun
  · obtain rfl := Mark.group.inj (Glyph.mark.inj hgroup)
    exact hinside

/-- A word inside a group holds no parenthesis. -/
theorem isQueryWord_of_mem_group {text : String} {items : List (Lexeme (List Char))}
    {w : List Char} (hitems : .mark (.group items) ∈ outline text) (hw : .word w ∈ items) :
    IsQueryWord (String.ofList w) ∧ '(' ∉ w ∧ ')' ∉ w := by
  obtain ⟨glyphs, rfl, hglyphs⟩ := inside_of_mem_outline hitems
  have hsolid := solid_of_mem_lexemes hw
  have hlevel (c : Char) (hc : c ∈ w) : c ≠ '(' ∧ c ≠ ')' :=
    (hglyphs _ (hsolid.chars c hc).2).2
  have hreserved : NoReserved glyphs := fun c hc => noReserved_phrased text.toList c (hglyphs _ hc).1
  refine ⟨isQueryWord_of_solid hsolid hreserved, ?_, ?_⟩
  · exact fun hmem => (hlevel _ hmem).1 rfl
  · exact fun hmem => (hlevel _ hmem).2 rfl

end Query

/-- **Placeholders are well formed, and no text can pass for one.**

Among the tokens, the groups have the numbers from 0 up to that of the last group of the table, in
this order.  With every group replaced by its items, the same holds of the phrases.  An item is a
word without parentheses or a phrase.  No word is empty or holds a blank or a reserved character, no
word outside groups spells a keyword, and all words together hold at most one quotation mark. -/
theorem tokenize_placeholders (text : String) :
    let query := tokenize text
    query.tokens.filterMap Token.group? = List.range query.groups.length ∧
    (∃ expanded, query.expanded? = some expanded ∧
      expanded.filterMap Token.phrase? = List.range query.phrases.length) ∧
    (∀ group ∈ query.groups, ∀ item ∈ group.items,
      (∃ w, item = .word w ∧ '(' ∉ w.toList ∧ ')' ∉ w.toList) ∨ ∃ n, item = .phrase n) ∧
    (∀ w ∈ query.words, IsQueryWord w) ∧
    (∀ w, .word w ∈ query.tokens → w.toUpper ∉ ["AND", "OR", "NOT"]) ∧
    (query.words.flatMap String.toList).count '"' ≤ 1 := by
  rw [tokenize_eq]
  refine ⟨?_, ?_, ?_, ?_, ?_, ?_⟩
  · rw [filterMap_group?_tokens, List.range_eq_range']
  · obtain ⟨parts, hparts, hphrases⟩ := exists_expanded 0 0 (outline text) (numbered_self _)
    refine ⟨parts.flatten, ?_, ?_⟩
    · rw [Tokenized.expanded?, hparts, Option.map_some]
    · rw [hphrases, List.range_eq_range']
  · intro group hgroup item hitem
    obtain ⟨p, items, hitems, rfl⟩ := mem_groups 0 0 (outline text) hgroup
    rcases mem_groupItems p hitem with hphrase | ⟨w, hw, rfl⟩
    · exact .inr hphrase
    · refine .inl ⟨_, rfl, ?_⟩
      rw [String.toList_ofList]
      exact (isQueryWord_of_mem_group hitems hw).2
  · intro w hw
    rcases exists_word 0 0 (outline text) hw with hword | ⟨items, hitems, hword⟩
    · simpa using isQueryWord_of_mem_outline hword
    · simpa using (isQueryWord_of_mem_group hitems hword).1
  · intro w hw
    rcases mem_tokens 0 0 (outline text) hw with hnone | ⟨v, -, hv⟩
    · cases hnone
    · rcases ofWord_cases (String.ofList v) with ⟨hword, hplain⟩ | h | h | h
      · rw [hword] at hv
        obtain rfl := Token.word.inj hv
        exact hplain
      all_goals
        rw [h] at hv
        cases hv
  · have hgroups := count_markGroups none (phrased (unreserved text.toList))
    rw [count_words, outline, count_lexemes]
    exact Nat.le_trans hgroups (count_phrased _)

/-- The phrase in the group has the number after that of the one in front, and what looks like a
placeholder is a word. -/
example :
    (tokenize "a\"b\"(c \"d e\") \ue0000\ue001 \"x").expanded? =
      some [.word "a", .phrase 0, .word "c", .phrase 1, .word "0", .word "\"x"] := by
  cbv

end Collector
