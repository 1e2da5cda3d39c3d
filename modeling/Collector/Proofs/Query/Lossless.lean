/-
# Tokens keep the text

A token list can be written out again: a word as it stands, a phrase between its quotation marks,
a group between its parentheses.  Blanks aside, this gives the query back (`shown?_tokenize`):
whatever parentheses and quotation marks it holds, nothing is lost, doubled or put elsewhere.

Two things are not kept.  The reserved characters are read as spaces (`unmarked`), and a pair of
quotation marks with nothing between them is dropped (`withoutEmptyPairs`).

Each of the three steps of reading a query keeps its text, blanks aside, if a mark counts as the
text that it stands for: cutting at blanks (`inked_lexemes`), marking groups
(`inked_markGroups`) and marking phrases (`inked_phrased`).  The last step numbers the marks, and
looking the numbers up undoes it (`mapM_shown?`).
-/
import Collector.Proofs.Query.Markers
import Collector.Proofs.Query.Numbering

namespace Collector

open Query

/-! ## 1. Writing tokens out -/

/-- A token that is no group, written out: text as typed, a phrase looked up.  There is nothing to
write for a number without an entry. -/
def Tables.shownItem? (tables : Tables) : Token → Option (List Char)
  | .word text | .and text | .or text | .not text => some text.toList
  | .phrase n => tables.phrases[n]?.map fun phrase => quoted phrase.toList
  | .group _ => none

/-- A token written out, a group with all its items. -/
def Tables.shown? (tables : Tables) : Token → Option (List Char)
  | .group n => do
    let group ← tables.groups[n]?
    let items ← group.items.mapM tables.shownItem?
    return parenthesised items.flatten
  | token => tables.shownItem? token

/-- All tokens written out, one behind the other. -/
def Tokenized.shown? (query : Tokenized) : Option (List Char) :=
  (query.tokens.mapM query.toTables.shown?).map List.flatten

/-- The text without its blanks. -/
def inked (t : List Char) : List Char :=
  t.filter fun c => !Text.isBlank c

/-- The text with a space for each of the four reserved characters. -/
def unmarked (t : List Char) : List Char :=
  t.map fun c => if c ∈ ['\ue000', '\ue001', '\ue002', '\ue003'] then ' ' else c

/-- The character `c`, between the texts `before` and `after`, is one of two quotation marks that
pair up and have nothing between them.  An even number of marks stands in front of the first of a
pair and an odd number in front of the second. -/
def inEmptyPair (before : List Char) (c : Char) (after : List Char) : Prop :=
  c = '"' ∧
    if before.count '"' % 2 = 0 then after.head? = some '"' else before.getLast? = some '"'

instance (before : List Char) (c : Char) (after : List Char) :
    Decidable (inEmptyPair before c after) :=
  inferInstanceAs (Decidable (_ ∧ _))

/-- The text without the pairs of quotation marks that have nothing between them. -/
def withoutEmptyPairs (t : List Char) : List Char :=
  (t.mapIdx fun i c => if inEmptyPair (t.take i) c (t.drop (i + 1)) then [] else [c]).flatten

namespace Query

/-! ## 2. Cutting at blanks -/

variable {μ : Type}

theorem inked_append (u v : List Char) : inked (u ++ v) = inked u ++ inked v :=
  List.filter_append ..

theorem inked_cons (c : Char) (t : List Char) : inked (c :: t) = inked [c] ++ inked t :=
  inked_append [c] t

/-- A glyph written out, where `f` writes out a mark. -/
def Glyph.shown (f : μ → List Char) : Glyph μ → List Char
  | .char c => [c]
  | .mark m => f m

/-- A lexeme written out, where `f` writes out a mark. -/
def Lexeme.shown (f : μ → List Char) : Lexeme μ → List Char
  | .word w => w
  | .mark m => f m

theorem flatMap_shown_char (f : μ → List Char) (t : List Char) :
    (t.map Glyph.char).flatMap (Glyph.shown f) = t := by
  rw [List.flatMap_map]
  exact List.flatMap_singleton' t

theorem flatMap_shown_closeWord (f : μ → List Char) (held : List Char) :
    (closeWord held).flatMap (Lexeme.shown f) = held.reverse := by
  unfold closeWord
  split
  · rename_i hempty
    rw [List.isEmpty_iff.mp hempty]
    rfl
  · rw [List.flatMap_singleton]
    rfl

/-- **Cutting at blanks loses blanks only.** -/
theorem inked_lexemesFrom (f : μ → List Char) (held : List Char) (text : List (Glyph μ)) :
    inked ((lexemesFrom held text).flatMap (Lexeme.shown f)) =
      inked (held.reverse ++ text.flatMap (Glyph.shown f)) := by
  induction held, text using lexemesFrom.induct with
  | case1 held =>
    rw [lexemesFrom, flatMap_shown_closeWord, List.flatMap_nil, List.append_nil]
  | case2 held c rest hblank ih =>
    have hnone : inked [c] = [] := by simp [inked, hblank]
    rw [List.reverse_nil, List.nil_append] at ih
    rw [lexemesFrom, if_pos hblank, List.flatMap_append, inked_append, ih,
      flatMap_shown_closeWord, inked_append, List.flatMap_cons, inked_append (Glyph.shown _ _),
      Glyph.shown, hnone, List.nil_append]
  | case3 held c rest hink ih =>
    rw [lexemesFrom, if_neg hink, ih, List.reverse_cons, List.flatMap_cons, List.append_assoc]
    rfl
  | case4 held m rest ih =>
    rw [List.reverse_nil, List.nil_append] at ih
    rw [lexemesFrom, List.flatMap_append, inked_append, List.flatMap_cons,
      inked_append (Lexeme.shown _ _), ih, flatMap_shown_closeWord, inked_append,
      List.flatMap_cons, inked_append (Glyph.shown _ _)]
    rfl

theorem inked_lexemes (f : μ → List Char) (text : List (Glyph μ)) :
    inked ((lexemes text).flatMap (Lexeme.shown f)) = inked (text.flatMap (Glyph.shown f)) :=
  inked_lexemesFrom f [] text

/-! ## 3. Marking groups -/

/-- What a mark stands for. -/
def Mark.shown : Mark → List Char
  | .phrase text => quoted text
  | .group items => parenthesised (items.flatMap (Lexeme.shown quoted))

theorem shown_outside (glyph : Glyph (List Char)) :
    glyph.outside.shown Mark.shown = glyph.shown quoted := by
  cases glyph with
  | char | mark => rfl

theorem flatMap_shown_release (held : List (Glyph (List Char))) :
    (release (some held)).flatMap (Glyph.shown Mark.shown) =
      '(' :: held.reverse.flatMap (Glyph.shown quoted) := by
  rw [release, List.flatMap_cons, List.flatMap_map]
  simp only [shown_outside]
  rfl

/-- A closing parenthesis ends a group or stands for itself; its text is the same. -/
theorem inked_close (held : List (Glyph (List Char))) :
    inked ((close held).flatMap (Glyph.shown Mark.shown)) =
      inked ((release (some held)).flatMap (Glyph.shown Mark.shown) ++ [')']) := by
  unfold close
  split
  · rw [List.flatMap_append]
    rfl
  · rw [flatMap_shown_release, List.flatMap_singleton, Glyph.shown, Mark.shown, parenthesised,
      List.cons_append, List.cons_append, inked_cons, inked_append, inked_lexemes, ← inked_append,
      ← inked_cons]

/-- **Marking groups keeps the text**, if a group counts with its parentheses. -/
theorem inked_markGroups (held : Option (List (Glyph (List Char))))
    (text : List (Glyph (List Char))) :
    inked ((markGroups held text).flatMap (Glyph.shown Mark.shown)) =
      inked ((release held).flatMap (Glyph.shown Mark.shown) ++
        text.flatMap (Glyph.shown quoted)) := by
  induction held, text using markGroups.induct with
  | case1 held => rw [markGroups, List.flatMap_nil, List.append_nil]
  | case2 held rest ih =>
    -- the parenthesis is held from here on, and counts with what is held
    have hopen : (release (some [])).flatMap (Glyph.shown Mark.shown) = ['('] := rfl
    rw [markGroups, List.flatMap_append, inked_append, ih, hopen, inked_append,
      inked_append (List.flatMap _ (release held))]
    rfl
  | case3 held rest ih =>
    have hnone : (release none).flatMap (Glyph.shown Mark.shown) = [] := rfl
    rw [hnone, List.nil_append] at ih
    rw [markGroups, List.flatMap_append, inked_append, ih, inked_close, ← inked_append,
      List.append_assoc]
    rfl
  | case4 held glyph rest hopen hclose ih =>
    rw [markGroups, ih, flatMap_shown_release, flatMap_shown_release, List.reverse_cons,
      List.flatMap_append, List.flatMap_singleton, List.flatMap_cons, List.cons_append,
      List.cons_append, List.append_assoc]
    · exact hopen
    · exact hclose
  | case5 glyph rest hopen ih =>
    have hnone : (release none).flatMap (Glyph.shown Mark.shown) = [] := rfl
    rw [hnone, List.nil_append] at ih
    rw [markGroups, List.flatMap_cons, inked_append, ih, shown_outside, ← inked_append, hnone,
      List.flatMap_cons, List.nil_append]
    · exact hopen

/-! ## 4. Marking phrases -/

/-- What is left of a text behind `before` without the empty pairs. -/
def keptAfter : (before text : List Char) → List Char
  | _, [] => []
  | before, c :: after =>
    (if inEmptyPair before c after then [] else [c]) ++ keptAfter (before ++ [c]) after

theorem keptAfter_eq (before text : List Char) :
    keptAfter before text = (text.mapIdx fun i c =>
      if inEmptyPair (before ++ text.take i) c (text.drop (i + 1)) then [] else [c]).flatten := by
  induction text generalizing before with
  | nil => rfl
  | cons c after ih =>
    rw [keptAfter, ih, List.mapIdx_cons, List.flatten_cons]
    simp

theorem withoutEmptyPairs_eq (t : List Char) : withoutEmptyPairs t = keptAfter [] t := by
  rw [keptAfter_eq]
  rfl

/-- Only quotation marks are dropped. -/
theorem keptAfter_append {u : List Char} (hu : '"' ∉ u) (before t : List Char) :
    keptAfter before (u ++ t) = u ++ keptAfter (before ++ u) t := by
  induction u generalizing before with
  | nil => rw [List.append_nil]; rfl
  | cons c u ih =>
    have hc : c ≠ '"' := fun h => hu (h ▸ List.mem_cons_self)
    have hkept : ¬ inEmptyPair before c (u ++ t) := fun h => hc h.1
    rw [List.cons_append, keptAfter, if_neg hkept, ih fun h => hu (List.mem_cons_of_mem c h)]
    simp

/-- Whether a first mark of a pair is dropped. -/
theorem inEmptyPair_open {before : List Char} (heven : before.count '"' % 2 = 0)
    (after : List Char) : inEmptyPair before '"' after ↔ after.head? = some '"' := by
  simp [inEmptyPair, heven]

/-- Whether a second mark of a pair is dropped. -/
theorem inEmptyPair_close {before : List Char} (hodd : before.count '"' % 2 = 1)
    (after : List Char) : inEmptyPair before '"' after ↔ before.getLast? = some '"' := by
  simp [inEmptyPair, hodd]

theorem count_append_of_not_mem {u : List Char} (hu : '"' ∉ u) (before : List Char) :
    (before ++ u).count '"' = before.count '"' := by
  rw [List.count_append, List.count_eq_zero_of_not_mem hu, Nat.add_zero]

/-- A pair of marks, behind an even number of them, is kept with what stands between them and
dropped if nothing does. -/
theorem keptAfter_pair {before inside : List Char} (heven : before.count '"' % 2 = 0)
    (hinside : '"' ∉ inside) (rest : List Char) :
    keptAfter before ('"' :: (inside ++ '"' :: rest)) =
      (if inside = [] then [] else quoted inside) ++
        keptAfter (before ++ quoted inside) rest := by
  have hodd : (before ++ ['"'] ++ inside).count '"' % 2 = 1 := by
    rw [count_append_of_not_mem hinside, List.count_append]
    simp only [List.count_singleton_self]
    omega
  have hbehind : before ++ ['"'] ++ inside ++ ['"'] = before ++ quoted inside := by
    simp [quoted]
  rw [keptAfter, keptAfter_append hinside, keptAfter, hbehind]
  cases inside with
  | nil =>
    have hopen : inEmptyPair before '"' ([] ++ '"' :: rest) := (inEmptyPair_open heven _).mpr rfl
    have hclose : inEmptyPair (before ++ ['"'] ++ []) '"' rest := by
      rw [inEmptyPair_close hodd]
      simp
    rw [if_pos hopen, if_pos hclose]
    rfl
  | cons c inside =>
    have hopen : ¬ inEmptyPair before '"' (c :: inside ++ '"' :: rest) := by
      rw [inEmptyPair_open heven]
      intro h
      exact hinside (List.mem_of_head? h)
    have hclose : ¬ inEmptyPair (before ++ ['"'] ++ c :: inside) '"' rest := by
      rw [inEmptyPair_close hodd, List.getLast?_append, List.getLast?_cons, Option.some_or,
        ← List.getLast?_cons]
      exact fun h => hinside (List.mem_of_getLast? h)
    rw [if_neg hopen, if_neg hclose, if_neg (List.cons_ne_nil c inside)]
    simp [quoted]

/-- **Marking phrases drops the empty pairs and nothing else.** -/
theorem inked_phrased (before t : List Char) (heven : before.count '"' % 2 = 0) :
    inked ((phrased t).flatMap (Glyph.shown quoted)) = inked (keptAfter before t) := by
  induction t using pairing_induction generalizing before with
  | plain t ht =>
    have hkept : keptAfter before t = t := by
      simpa [keptAfter] using keptAfter_append ht before []
    rw [phrased_plain ht, flatMap_shown_char, hkept]
  | unclosed u v hu hv =>
    have heven' : (before ++ u).count '"' % 2 = 0 := by rwa [count_append_of_not_mem hu]
    have hlone : ¬ inEmptyPair (before ++ u) '"' v := by
      rw [inEmptyPair_open heven']
      exact fun h => hv (List.mem_of_head? h)
    have hkept : keptAfter (before ++ u ++ ['"']) v = v := by
      simpa [keptAfter] using keptAfter_append hv (before ++ u ++ ['"']) []
    rw [phrased_unclosed hu hv, flatMap_shown_char, keptAfter_append hu, keptAfter,
      if_neg hlone, hkept]
    rfl
  | pair u inside rest hu hinside ih =>
    have heven' : (before ++ u).count '"' % 2 = 0 := by rwa [count_append_of_not_mem hu]
    have hbehind : (before ++ u ++ quoted inside).count '"' % 2 = 0 := by
      have hpair : (quoted inside).count '"' = 2 := by
        simp [quoted, List.count_eq_zero_of_not_mem hinside]
      rw [List.count_append, hpair]
      omega
    have hinside' : inked ((Span.quoted inside).glyphs.flatMap (Glyph.shown quoted)) =
        inked (if inside = [] then [] else quoted inside) := by
      cases inside with
      | nil => rfl
      | cons c inside => simp [Span.glyphs, Glyph.shown]
    rw [phrased_pair hu hinside, List.flatMap_append, List.flatMap_append, flatMap_shown_char,
      keptAfter_append hu, keptAfter_pair heven' hinside, inked_append, inked_append, hinside',
      ih _ hbehind, ← inked_append, ← inked_append]

/-! ## 5. Numbering the marks -/

variable {tables : Tables} {p g : Nat}

theorem shown?_ofWord (tables : Tables) (text : String) :
    tables.shown? (.ofWord text) = some text.toList := by
  unfold Token.ofWord
  split <;> rfl

/-- The items of a group are written out as they stood. -/
theorem mapM_shownItem? (items : List (Lexeme (List Char))) {more : List String}
    (h : tables.phrases.drop p = phrasesIn items ++ more) :
    (groupItems p items).mapM tables.shownItem? = some (items.map (Lexeme.shown quoted)) := by
  induction items generalizing p with
  | nil => rfl
  | cons item rest ih =>
    cases item with
    | word w =>
      have hitem : tables.shownItem? (.word (String.ofList w)) = some w := by
        simp [Tables.shownItem?]
      rw [groupItems, List.mapM_cons, hitem, ih h]
      rfl
    | mark phrase =>
      have hitem : tables.shownItem? (.phrase p) = some (quoted phrase) := by
        have hfound : tables.phrases[p]? = some (String.ofList phrase) := getElem?_of_drop h
        simp [Tables.shownItem?, hfound]
      rw [groupItems, List.mapM_cons, hitem, ih (drop_succ_of_drop h)]
      rfl

/-- **Looking up the numbers gives back the text.** -/
theorem mapM_shown? (lexemes : List (Lexeme Mark))
    (h : Numbered tables p g (.ofLexemes p g lexemes)) :
    (Tokenized.ofLexemes p g lexemes).tokens.mapM tables.shown? =
      some (lexemes.map (Lexeme.shown Mark.shown)) := by
  induction lexemes generalizing p g with
  | nil => rfl
  | cons lexeme rest ih =>
    rcases lexeme with w | ⟨text⟩ | ⟨items⟩
    · rw [Tokenized.ofLexemes, List.mapM_cons, shown?_ofWord, ih h.word, String.toList_ofList]
      rfl
    · obtain ⟨hfound, hrest⟩ := h.phrase
      have htoken : tables.shown? (.phrase p) = some (quoted text) := by
        simp [Tables.shown?, Tables.shownItem?, hfound]
      rw [Tokenized.ofLexemes, List.mapM_cons, htoken, ih hrest]
      rfl
    · obtain ⟨hfound, ⟨more, hmore⟩, hrest⟩ := h.group
      have htoken : tables.shown? (.group g) =
          some (parenthesised (items.flatMap (Lexeme.shown quoted))) := by
        simp [Tables.shown?, hfound, mapM_shownItem? items hmore, List.flatMap_def]
      rw [Tokenized.ofLexemes, List.mapM_cons, htoken, ih hrest]
      rfl

/-! ## 6. The whole query -/

theorem isReserved_iff (c : Char) :
    isReserved c = true ↔ c ∈ ['\ue000', '\ue001', '\ue002', '\ue003'] := by
  constructor
  · intro h
    have hrange : c.toNat = 0xE000 ∨ c.toNat = 0xE001 ∨ c.toNat = 0xE002 ∨ c.toNat = 0xE003 := by
      simp only [isReserved, Bool.and_eq_true, decide_eq_true_eq] at h
      omega
    rw [← Char.ofNat_toNat c]
    rcases hrange with h | h | h | h
    all_goals
      rw [h]
      decide
  · intro h
    simp only [List.mem_cons, List.not_mem_nil, or_false] at h
    rcases h with rfl | rfl | rfl | rfl
    all_goals rfl

theorem unreserved_eq (t : List Char) : unreserved t = unmarked t := by
  simp only [unreserved, unmarked, isReserved_iff]

end Query

/-- **Tokens keep the text.**  Every token of a query can be written out, and together they are
the query, blanks and empty pairs of quotation marks aside. -/
theorem shown?_tokenize (text : String) :
    ∃ shown, (tokenize text).shown? = some shown ∧
      inked shown = inked (withoutEmptyPairs (unmarked text.toList)) := by
  refine ⟨(outline text).flatMap (Lexeme.shown Mark.shown), ?_, ?_⟩
  · rw [Tokenized.shown?, tokenize_eq, mapM_shown? (outline text) (numbered_self _), Option.map_some,
      List.flatMap_def]
  · have hgroups := inked_markGroups none (phrased (unreserved text.toList))
    rw [outline, inked_lexemes]
    refine hgroups.trans ?_
    rw [withoutEmptyPairs_eq, ← unreserved_eq, ← inked_phrased [] _ rfl]
    rfl

/-- Only the inner parentheses are a group, a phrase hides one, a pair is empty, and the last
quotation mark has no partner. -/
example :
    (tokenize "((x \"\") \"b (c\" y)OR\" z").shown? = some "((x)\"b (c\"y)OR\"z".toList := by
  cbv

end Collector
