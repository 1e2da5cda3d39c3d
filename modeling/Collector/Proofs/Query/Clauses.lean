/-
# Reading back a query that was written

A query in its usual form is a list of clauses with blanks between them: a word, with or without
`AND` in front of it; `OR` or `NOT` and a word; a phrase; a group of words that must all occur; a
group of words of which one must.  Reading it puts every term into the bucket that its clause is
for, in the order of the clauses (`parse_written`).

The clauses do not disturb each other, whatever they hold.  An operand may be a keyword itself, and
a phrase may hold keywords and parentheses.  What a clause is made of carries the proof that it
may stand there: a `Word` holds no blank, quotation mark, parenthesis or reserved character.

Each clause is followed from its text to its terms by two equations, with any rest behind it: what
it is cut into (`Clause.outlineOf_text`) and what the walk gathers from that (`Clause.collect`).
-/
import Collector.Proofs.Query.Markers
import Collector.Proofs.Query.Numbering
import Collector.Proofs.Query.Operands

namespace Collector

open Query

/-! ## 1. Queries as they are written -/

/-- Blanks between two parts of a query. -/
structure Gap where
  text : List Char
  nonempty : text ≠ []
  blank : ∀ c ∈ text, Text.isBlank c = true

/-- What a query is not cut at or changed at. -/
structure Word where
  text : List Char
  nonempty : text ≠ []
  solid : ∀ c ∈ text, Text.isBlank c = false ∧ c ∉ ['"', '(', ')'] ∧ isReserved c = false

namespace Word

def string (w : Word) : String :=
  String.ofList w.text

/-- The word is none of the three keywords, in any ASCII case. -/
def Plain (w : Word) : Prop :=
  w.string.toUpper ∉ ["AND", "OR", "NOT"]

/-- The word `AND` of a group. -/
def and : Word where
  text := ['A', 'N', 'D']
  nonempty := by simp
  solid := by simp [Text.isBlank, Text.blankRanges, isReserved]

/-- The word `OR` of a group. -/
def or : Word where
  text := ['O', 'R']
  nonempty := by simp
  solid := by simp [Text.isBlank, Text.blankRanges, isReserved]

end Word

/-- A keyword outside groups, typed in any ASCII case. -/
structure Keyword (name : String) where
  typed : Word
  spells : typed.string.toUpper = name

/-- A word that goes on a group of words that must all occur, with `AND` in front of it or not. -/
inductive Further where
  | bare (gap : Gap) (word : Word)
  | and (gap gap' : Gap) (word : Word)

/-- A word that goes on a group of alternatives: `OR` is in front of it. -/
structure Alternative where
  gap : Gap
  gap' : Gap
  word : Word

namespace Further

def word : Further → Word
  | bare _ word | and _ _ word => word

/-- The words with the gaps in front of them, `AND` as one of the words. -/
def spaced : Further → List (Gap × Word)
  | bare gap word => [(gap, word)]
  | and gap gap' word => [(gap, Word.and), (gap', word)]

end Further

/-- The words with the gaps in front of them, `OR` as one of the words. -/
def Alternative.spaced (alternative : Alternative) : List (Gap × Word) :=
  [(alternative.gap, Word.or), (alternative.gap', alternative.word)]

/-- One clause of a query. -/
inductive Clause where
  | word (word : Word) (plain : word.Plain)
  | and (keyword : Keyword "AND") (gap : Gap) (word : Word) (plain : word.Plain)
  | or (keyword : Keyword "OR") (gap : Gap) (operand : Word)
  | not (keyword : Keyword "NOT") (gap : Gap) (operand : Word)
  | phrase (text : List Char) (nonempty : text ≠ [])
      (inside : ∀ c ∈ text, c ≠ '"' ∧ isReserved c = false)
  | all (first : Word) (others : List Further)
      (plain : ∀ w ∈ first :: others.map Further.word, w.string ∉ ["AND", "OR"])
  | any (first : Word) (others : List Alternative) (several : others ≠ [])
      (plain : ∀ w ∈ first :: others.map Alternative.word, w.string ≠ "OR")

/-- A word and the words behind it, each with the gap in front of it. -/
def spacedText (first : Word) (others : List (Gap × Word)) : List Char :=
  first.text ++ others.flatMap fun (gap, word) => gap.text ++ word.text

namespace Clause

def text : Clause → List Char
  | .word w _ => w.text
  | .and keyword gap w _ => keyword.typed.text ++ gap.text ++ w.text
  | .or keyword gap operand => keyword.typed.text ++ gap.text ++ operand.text
  | .not keyword gap operand => keyword.typed.text ++ gap.text ++ operand.text
  | .phrase text _ _ => quoted text
  | .all first others _ => parenthesised (spacedText first (others.flatMap Further.spaced))
  | .any first others _ _ => parenthesised (spacedText first (others.flatMap Alternative.spaced))

def andTerms : Clause → List String
  | .word w _ | .and _ _ w _ => [w.string]
  | .all first others _ => (first :: others.map Further.word).map Word.string
  | _ => []

def orTerms : Clause → List String
  | .or _ _ operand => [operand.string]
  | .any first others _ _ => (first :: others.map Alternative.word).map Word.string
  | _ => []

def notTerms : Clause → List String
  | .not _ _ operand => [operand.string]
  | _ => []

def exactPhrases : Clause → List String
  | .phrase text _ _ => [String.ofList text]
  | _ => []

/-- The terms of the clause. -/
def buckets (clause : Clause) : Buckets where
  andTerms := clause.andTerms
  orTerms := clause.orTerms
  notTerms := clause.notTerms
  exactPhrases := clause.exactPhrases

end Clause

/-- Clauses that go on a query, each with a gap in front of it. -/
def followingText (gap : Nat → Gap) : List Clause → List Char
  | [] => []
  | clause :: rest => (gap 0).text ++ clause.text ++ followingText (fun n => gap (n + 1)) rest

/-- Clauses with gaps between them. -/
def writtenText (gap : Nat → Gap) : List Clause → List Char
  | [] => []
  | clause :: rest => clause.text ++ followingText gap rest

/-! ## 2. The characters of a query -/

/-- A blank is neither reserved nor a quotation mark or parenthesis. -/
theorem clear_of_isBlank {c : Char} (h : Text.isBlank c = true) :
    Ordinary c ∧ isReserved c = false := by
  constructor
  · intro hmem
    simp only [List.mem_cons, List.not_mem_nil, or_false] at hmem
    rcases hmem with rfl | rfl | rfl
    all_goals exact absurd h (by decide)
  · by_contra hreserved
    simp only [isReserved, Bool.not_eq_false, Bool.and_eq_true, decide_eq_true_eq] at hreserved
    simp only [Text.isBlank, Text.blankRanges, List.any_cons, List.any_nil, Bool.or_eq_true,
      Bool.and_eq_true, decide_eq_true_eq, Bool.false_eq_true, or_false] at h
    omega

theorem Gap.ordinary (gap : Gap) : ∀ c ∈ gap.text, Ordinary c :=
  fun c hc => (clear_of_isBlank (gap.blank c hc)).1

theorem Word.ordinary (w : Word) : ∀ c ∈ w.text, Ordinary c :=
  fun c hc => (w.solid c hc).2.1

theorem Word.unblank (w : Word) : ∀ c ∈ w.text, Text.isBlank c = false :=
  fun c hc => (w.solid c hc).1

/-- No character of the text is reserved. -/
def Unreserved (t : List Char) : Prop :=
  ∀ c ∈ t, isReserved c = false

theorem Unreserved.append {u v : List Char} (hu : Unreserved u) (hv : Unreserved v) :
    Unreserved (u ++ v) := by
  intro c hc
  rcases List.mem_append.mp hc with h | h
  · exact hu c h
  · exact hv c h

theorem Gap.unreserved (gap : Gap) : Unreserved gap.text :=
  fun c hc => (clear_of_isBlank (gap.blank c hc)).2

theorem Word.unreserved (w : Word) : Unreserved w.text :=
  fun c hc => (w.solid c hc).2.2

/-- What holds of every character of a gap or a word holds of words with gaps between them. -/
theorem spacedText_forall {P : Char → Prop} (hgap : ∀ gap : Gap, ∀ c ∈ gap.text, P c)
    (hword : ∀ w : Word, ∀ c ∈ w.text, P c) (first : Word) (others : List (Gap × Word)) :
    ∀ c ∈ spacedText first others, P c := by
  intro c hc
  rcases List.mem_append.mp hc with h | h
  · exact hword first c h
  · obtain ⟨⟨gap, w⟩, -, h⟩ := List.mem_flatMap.mp h
    rcases List.mem_append.mp h with h | h
    · exact hgap gap c h
    · exact hword w c h

theorem spacedText_ne_nil (first : Word) (others : List (Gap × Word)) :
    spacedText first others ≠ [] := by
  simp [spacedText, first.nonempty]

theorem unreserved_parenthesised {t : List Char} (h : Unreserved t) :
    Unreserved (parenthesised t) := by
  intro c hc
  simp only [parenthesised, List.cons_append, List.mem_cons, List.mem_append, List.not_mem_nil,
    or_false] at hc
  rcases hc with rfl | hc | rfl
  · rfl
  · exact h c hc
  · rfl

theorem Clause.unreserved (clause : Clause) : Unreserved clause.text := by
  cases clause with
  | word w => exact w.unreserved
  | and keyword gap w => exact (keyword.typed.unreserved.append gap.unreserved).append w.unreserved
  | or keyword gap w => exact (keyword.typed.unreserved.append gap.unreserved).append w.unreserved
  | not keyword gap w => exact (keyword.typed.unreserved.append gap.unreserved).append w.unreserved
  | phrase text nonempty inside =>
    intro c hc
    simp only [Clause.text, quoted, List.cons_append, List.mem_cons, List.mem_append,
      List.not_mem_nil, or_false] at hc
    rcases hc with rfl | hc | rfl
    · rfl
    · exact (inside c hc).2
    · rfl
  | all | any =>
    exact unreserved_parenthesised (spacedText_forall Gap.unreserved Word.unreserved _ _)

theorem unreserved_followingText (gap : Nat → Gap) (clauses : List Clause) :
    Unreserved (followingText gap clauses) := by
  induction clauses generalizing gap with
  | nil => exact fun c hc => absurd hc List.not_mem_nil
  | cons clause rest ih => exact ((gap 0).unreserved.append clause.unreserved).append (ih _)

theorem unreserved_writtenText (gap : Nat → Gap) (clauses : List Clause) :
    Unreserved (writtenText gap clauses) := by
  cases clauses with
  | nil => exact fun c hc => absurd hc List.not_mem_nil
  | cons clause rest => exact clause.unreserved.append (unreserved_followingText gap rest)

/-! ## 3. What a clause is cut into -/

/-- The lexemes of a clause. -/
def Clause.outline : Clause → List (Lexeme Mark)
  | .word w _ => [.word w.text]
  | .and keyword _ w _ => [.word keyword.typed.text, .word w.text]
  | .or keyword _ operand => [.word keyword.typed.text, .word operand.text]
  | .not keyword _ operand => [.word keyword.typed.text, .word operand.text]
  | .phrase text _ _ => [.mark (.phrase text)]
  | .all first others _ =>
    [.mark (.group ((first :: (others.flatMap Further.spaced).map Prod.snd).map fun w =>
      .word w.text))]
  | .any first others _ _ =>
    [.mark (.group ((first :: (others.flatMap Alternative.spaced).map Prod.snd).map fun w =>
      .word w.text))]

/-- A gap ends the word in front of it. -/
theorem endsWord_gap {μ : Type} (gap : Gap) (rest : List (Glyph μ)) :
    EndsWord (gap.text.map .char ++ rest) := by
  obtain ⟨c, t, ht⟩ := List.exists_cons_of_ne_nil gap.nonempty
  rw [ht]
  exact gap.blank c (ht ▸ List.mem_cons_self)

theorem outlineOf_gap (gap : Gap) (t : List Char) : outlineOf (gap.text ++ t) = outlineOf t :=
  outlineOf_blanks gap.ordinary gap.blank t

/-- A word in front of a gap. -/
theorem outlineOf_word_gap (w : Word) (gap : Gap) (t : List Char) :
    outlineOf (w.text ++ gap.text ++ t) = .word w.text :: outlineOf t := by
  have hend : EndsWord (marked (gap.text ++ t)) := by
    rw [marked_ordinary gap.ordinary]
    exact endsWord_gap gap _
  rw [List.append_assoc, outlineOf_word w.nonempty w.ordinary w.unblank hend, outlineOf_gap]

/-- The words of a group. -/
theorem lexemes_spacedText {μ : Type} (first : Word) (others : List (Gap × Word)) :
    lexemes ((spacedText first others).map Glyph.char) =
      (first :: others.map Prod.snd).map fun w => (.word w.text : Lexeme μ) := by
  induction others generalizing first with
  | nil =>
    have htext : (spacedText first []).map Glyph.char =
        first.text.map Glyph.char ++ ([] : List (Glyph μ)) := by
      simp [spacedText]
    have hend : EndsWord ([] : List (Glyph μ)) := trivial
    rw [htext, lexemes_word first.nonempty first.unblank hend]
    rfl
  | cons other others ih =>
    obtain ⟨gap, w⟩ := other
    have htext : spacedText first ((gap, w) :: others) =
        first.text ++ (gap.text ++ spacedText w others) := by
      simp [spacedText]
    rw [htext, List.map_append, List.map_append,
      lexemes_word first.nonempty first.unblank (endsWord_gap gap _), lexemes_blanks gap.blank, ih]
    rfl

theorem outlineOf_spaced (first : Word) (others : List (Gap × Word)) (t : List Char) :
    outlineOf (parenthesised (spacedText first others) ++ t) =
      .mark (.group ((first :: others.map Prod.snd).map fun w => .word w.text)) ::
        outlineOf t := by
  have hordinary := spacedText_forall Gap.ordinary Word.ordinary first others
  rw [outlineOf_group (spacedText_ne_nil first others) hordinary, lexemes_spacedText]

/-- **A clause is cut into its own lexemes**, whatever stands behind it, if that does not go on
its last word. -/
theorem Clause.outlineOf_text (clause : Clause) {t : List Char} (ht : EndsWord (marked t)) :
    outlineOf (clause.text ++ t) = clause.outline ++ outlineOf t := by
  have hword (w : Word) : outlineOf (w.text ++ t) = .word w.text :: outlineOf t :=
    outlineOf_word w.nonempty w.ordinary w.unblank ht
  cases clause with
  | word w => exact hword w
  | and keyword gap w | or keyword gap w | not keyword gap w =>
    rw [Clause.text, List.append_assoc, outlineOf_word_gap, hword]
    rfl
  | phrase text nonempty inside =>
    exact outlineOf_phrase nonempty (fun hmark => (inside _ hmark).1 rfl) t
  | all first others | any first others => exact outlineOf_spaced first _ t

/-- What follows a clause does not go on its last word. -/
theorem endsWord_followingText (gap : Nat → Gap) (clauses : List Clause) :
    EndsWord (marked (followingText gap clauses)) := by
  cases clauses with
  | nil => trivial
  | cons clause rest =>
    rw [followingText, List.append_assoc, marked_ordinary (gap 0).ordinary]
    exact endsWord_gap (gap 0) _

theorem outlineOf_followingText (gap : Nat → Gap) (clauses : List Clause) :
    outlineOf (followingText gap clauses) = clauses.flatMap Clause.outline := by
  induction clauses generalizing gap with
  | nil => rfl
  | cons clause rest ih =>
    rw [followingText, List.append_assoc, outlineOf_gap,
      clause.outlineOf_text (endsWord_followingText _ rest), ih, List.flatMap_cons]

/-- **A query is cut into the lexemes of its clauses.** -/
theorem outline_writtenText (gap : Nat → Gap) (clauses : List Clause) :
    outline (String.ofList (writtenText gap clauses)) = clauses.flatMap Clause.outline := by
  rw [outline_ofList (unreserved_writtenText gap clauses)]
  cases clauses with
  | nil => rfl
  | cons clause rest =>
    rw [writtenText, clause.outlineOf_text (endsWord_followingText gap rest),
      outlineOf_followingText, List.flatMap_cons]

/-! ## 4. What a group gives -/

theorem groupItems_words (p : Nat) (words : List Word) :
    groupItems p (words.map fun w => .word w.text) = words.map fun w => .word w.string := by
  induction words with
  | nil => rfl
  | cons w words ih =>
    rw [List.map_cons, groupItems, ih]
    rfl

theorem phrasesIn_words (words : List Word) :
    phrasesIn (words.map fun w => .word w.text) = [] := by
  induction words with
  | nil => rfl
  | cons w words ih => exact ih

theorem termsBut_words (skip : String) (words : List Word) :
    Group.termsBut skip ⟨words.map fun w => .word w.string⟩ =
      (words.filter fun w => w.string ≠ skip).map Word.string := by
  unfold Group.termsBut
  induction words with
  | nil => rfl
  | cons w words ih =>
    by_cases hskip : w.string = skip
    · simpa [hskip] using ih
    · simpa [hskip] using ih

theorem hasOr_words (words : List Word) :
    Group.hasOr ⟨words.map fun w => .word w.string⟩ ↔ ∃ w ∈ words, w.string = "OR" := by
  simp [Group.hasOr]

/-- The words of a further part are its own word and perhaps the `AND` in front. -/
theorem Further.eq_of_mem_spaced {further : Further} {w : Word}
    (h : w ∈ further.spaced.map Prod.snd) : w = Word.and ∨ w = further.word := by
  cases further with
  | bare gap word =>
    right
    exact List.mem_singleton.mp h
  | and gap gap' word =>
    rcases List.mem_cons.mp h with hand | hword
    · exact .inl hand
    · exact .inr (List.mem_singleton.mp hword)

theorem Further.filter_spaced {further : Further} (h : further.word.string ≠ "AND") :
    (further.spaced.map Prod.snd).filter (fun w => w.string ≠ "AND") = [further.word] := by
  have hand : Word.and.string = "AND" := rfl
  cases further with
  | bare | and => simpa [spaced, word, hand] using h

theorem Alternative.filter_spaced {alternative : Alternative}
    (h : alternative.word.string ≠ "OR") :
    (alternative.spaced.map Prod.snd).filter (fun w => w.string ≠ "OR") =
      [alternative.word] := by
  have hor : Word.or.string = "OR" := rfl
  simpa [spaced, hor] using h

/-- Words behind a first one, each with words in front of it that are skipped or with none. -/
theorem filter_group {α : Type} {spaced : α → List (Gap × Word)} {word : α → Word}
    {skip : String} {first : Word} {others : List α} (hfirst : first.string ≠ skip)
    (hothers : ∀ x ∈ others,
      ((spaced x).map Prod.snd).filter (fun w => w.string ≠ skip) = [word x]) :
    (first :: (others.flatMap spaced).map Prod.snd).filter (fun w => w.string ≠ skip) =
      first :: others.map word := by
  rw [List.filter_cons_of_pos (by simpa using hfirst)]
  refine congrArg (first :: ·) ?_
  induction others with
  | nil => rfl
  | cons x others ih =>
    rw [List.flatMap_cons, List.map_append, List.filter_append, hothers x List.mem_cons_self,
      ih fun y hy => hothers y (List.mem_cons_of_mem x hy)]
    rfl

/-- A group without `OR` requires its words; an `AND` between them is skipped. -/
theorem terms_all {first : Word} {others : List Further}
    (plain : ∀ w ∈ first :: others.map Further.word, w.string ∉ ["AND", "OR"]) :
    Group.terms ⟨(first :: (others.flatMap Further.spaced).map Prod.snd).map fun w =>
        .word w.string⟩ =
      { andTerms := (first :: others.map Further.word).map Word.string } := by
  have hplain : ∀ w ∈ first :: others.map Further.word, w.string ≠ "AND" ∧ w.string ≠ "OR" := by
    simpa using plain
  have hfirst := hplain first List.mem_cons_self
  have hothers : ∀ x ∈ others, x.word.string ≠ "AND" ∧ x.word.string ≠ "OR" := fun x hx =>
    hplain x.word (List.mem_cons_of_mem first (List.mem_map_of_mem hx))
  have hkept : (first :: (others.flatMap Further.spaced).map Prod.snd).filter
      (fun w => w.string ≠ "AND") = first :: others.map Further.word :=
    filter_group hfirst.1 fun x hx => Further.filter_spaced (hothers x hx).1
  have hnone : ¬ Group.hasOr ⟨(first :: (others.flatMap Further.spaced).map Prod.snd).map fun w =>
      .word w.string⟩ := by
    rw [hasOr_words, List.map_flatMap]
    rintro ⟨w, hw, hor⟩
    rcases List.mem_cons.mp hw with rfl | hw
    · exact hfirst.2 hor
    · obtain ⟨x, hx, hmem⟩ := List.mem_flatMap.mp hw
      rcases Further.eq_of_mem_spaced hmem with rfl | rfl
      · exact absurd hor (by decide)
      · exact (hothers x hx).2 hor
  rw [Group.terms_eq, if_neg hnone, termsBut_words, hkept]

/-- A group with `OR` between its words offers them. -/
theorem terms_any {first : Word} {others : List Alternative} (several : others ≠ [])
    (plain : ∀ w ∈ first :: others.map Alternative.word, w.string ≠ "OR") :
    Group.terms ⟨(first :: (others.flatMap Alternative.spaced).map Prod.snd).map fun w =>
        .word w.string⟩ =
      { orTerms := (first :: others.map Alternative.word).map Word.string } := by
  have hothers : ∀ x ∈ others, x.word.string ≠ "OR" := fun x hx =>
    plain x.word (List.mem_cons_of_mem first (List.mem_map_of_mem hx))
  have hkept : (first :: (others.flatMap Alternative.spaced).map Prod.snd).filter
      (fun w => w.string ≠ "OR") = first :: others.map Alternative.word :=
    filter_group (plain first List.mem_cons_self) fun x hx =>
      Alternative.filter_spaced (hothers x hx)
  have hsome : Group.hasOr ⟨(first :: (others.flatMap Alternative.spaced).map Prod.snd).map
      fun w => .word w.string⟩ := by
    rw [hasOr_words]
    obtain ⟨x, others, rfl⟩ := List.exists_cons_of_ne_nil several
    exact ⟨Word.or, by simp [Alternative.spaced], rfl⟩
  rw [Group.terms_eq, if_pos hsome, termsBut_words, hkept]

/-! ## 5. What a clause gives -/

theorem ofWord_plain {w : Word} (plain : w.Plain) : Token.ofWord w.string = .word w.string := by
  unfold Token.ofWord
  split
  · rename_i h
    exact absurd (h ▸ List.mem_cons_self) plain
  · rename_i h
    exact absurd (by simp [h]) plain
  · rename_i h
    exact absurd (by simp [h]) plain
  · rfl

theorem ofWord_and (keyword : Keyword "AND") :
    Token.ofWord keyword.typed.string = .and keyword.typed.string := by
  simp only [Token.ofWord, keyword.spells]

theorem ofWord_or (keyword : Keyword "OR") :
    Token.ofWord keyword.typed.string = .or keyword.typed.string := by
  simp only [Token.ofWord, keyword.spells]

theorem ofWord_not (keyword : Keyword "NOT") :
    Token.ofWord keyword.typed.string = .not keyword.typed.string := by
  simp only [Token.ofWord, keyword.spells]

/-- A word is no placeholder, so that `OR` takes it. -/
theorem termsAfterOr_ofWord (w : Word) :
    (Token.ofWord w.string).termsAfterOr = { orTerms := [w.string] } := by
  have hword : (Token.ofWord w.string).isPlaceholder = false := by
    unfold Token.ofWord
    split <;> rfl
  rw [Token.termsAfterOr, hword, Token.verbatim_ofWord]
  rfl

variable {tables : Tables} {p g : Nat} {rest : List (Lexeme Mark)}

/-- The walk gathers the terms of a group of words. -/
theorem collect_group {words : List Word}
    (h : Numbered tables p g
      (.ofLexemes p g (.mark (.group (words.map fun w => .word w.text)) :: rest))) :
    Numbered tables p (g + 1) (.ofLexemes p (g + 1) rest) ∧
      Walk.collect tables (Tokenized.ofLexemes p g
          (.mark (.group (words.map fun w => .word w.text)) :: rest)).tokens =
        Group.terms ⟨words.map fun w => .word w.string⟩ ++
          Walk.collect tables (Tokenized.ofLexemes p (g + 1) rest).tokens := by
  obtain ⟨hfound, -, hrest⟩ := h.group
  have hterms : (Token.group g).terms tables =
      Group.terms ⟨words.map fun w => .word w.string⟩ := by
    rw [Token.terms, hfound, groupItems_words]
    rfl
  rw [phrasesIn_words] at hrest
  refine ⟨hrest, ?_⟩
  rw [Tokenized.ofLexemes, phrasesIn_words, ← hterms]
  rfl

/-- **The walk gathers the terms of a clause** and goes on behind it, where the rest is numbered
on. -/
theorem Clause.collect (clause : Clause)
    (h : Numbered tables p g (.ofLexemes p g (clause.outline ++ rest))) :
    ∃ p' g', Numbered tables p' g' (.ofLexemes p' g' rest) ∧
      Walk.collect tables (Tokenized.ofLexemes p g (clause.outline ++ rest)).tokens =
        clause.buckets ++ Walk.collect tables (Tokenized.ofLexemes p' g' rest).tokens := by
  -- what two words and a rest are numbered as
  have htwo (keyword : String) (typed : Keyword keyword) (w : Word) :
      (Tokenized.ofLexemes p g (.word typed.typed.text :: .word w.text :: rest)).tokens =
        .ofWord typed.typed.string :: .ofWord w.string ::
          (Tokenized.ofLexemes p g rest).tokens := rfl
  cases clause with
  | word w plain =>
    refine ⟨p, g, h.word, ?_⟩
    have htokens : (Tokenized.ofLexemes p g ((word w plain).outline ++ rest)).tokens =
        .ofWord w.string :: (Tokenized.ofLexemes p g rest).tokens := rfl
    rw [htokens, ofWord_plain plain]
    rfl
  | and keyword gap w plain =>
    refine ⟨p, g, h.word.word, ?_⟩
    rw [Clause.outline, List.cons_append, List.singleton_append, htwo, ofWord_and,
      ofWord_plain plain]
    rfl
  | or keyword gap operand =>
    refine ⟨p, g, h.word.word, ?_⟩
    rw [Clause.outline, List.cons_append, List.singleton_append, htwo, ofWord_or, Walk.collect,
      termsAfterOr_ofWord]
    rfl
  | not keyword gap operand =>
    refine ⟨p, g, h.word.word, ?_⟩
    rw [Clause.outline, List.cons_append, List.singleton_append, htwo, ofWord_not, Walk.collect,
      Token.termsAfterNot, Token.verbatim_ofWord]
    rfl
  | phrase text nonempty inside =>
    obtain ⟨hfound, hrest⟩ := h.phrase
    refine ⟨p + 1, g, hrest, ?_⟩
    have hterms : (Token.phrase p).terms tables = { exactPhrases := [String.ofList text] } := by
      rw [Token.terms, hfound]
      rfl
    exact congrArg (· ++ _) hterms
  | all first others plain =>
    obtain ⟨hrest, hcollect⟩ := collect_group h
    exact ⟨p, g + 1, hrest, hcollect.trans (congrArg (· ++ _) (terms_all plain))⟩
  | any first others several plain =>
    obtain ⟨hrest, hcollect⟩ := collect_group h
    exact ⟨p, g + 1, hrest, hcollect.trans (congrArg (· ++ _) (terms_any several plain))⟩

/-- **Reading a query gives the terms of its clauses**, each bucket in the order of the clauses. -/
theorem collect_clauses (clauses : List Clause)
    (h : Numbered tables p g (.ofLexemes p g (clauses.flatMap Clause.outline))) :
    Walk.collect tables (Tokenized.ofLexemes p g (clauses.flatMap Clause.outline)).tokens =
      { andTerms := clauses.flatMap Clause.andTerms
        orTerms := clauses.flatMap Clause.orTerms
        notTerms := clauses.flatMap Clause.notTerms
        exactPhrases := clauses.flatMap Clause.exactPhrases } := by
  induction clauses generalizing p g with
  | nil => rfl
  | cons clause rest ih =>
    rw [List.flatMap_cons] at h ⊢
    obtain ⟨p', g', hrest, hcollect⟩ := clause.collect h
    rw [hcollect, ih hrest]
    rfl

/-- **Parsing gives back what was written.**  For every list of clauses and every choice of gaps,
the buckets hold the terms of the clauses in their order, and nothing else. -/
theorem parse_written (gap : Nat → Gap) (clauses : List Clause) :
    parse (String.ofList (writtenText gap clauses)) =
      { andTerms := clauses.flatMap Clause.andTerms
        orTerms := clauses.flatMap Clause.orTerms
        notTerms := clauses.flatMap Clause.notTerms
        exactPhrases := clauses.flatMap Clause.exactPhrases } := by
  rw [parse, Tokenized.buckets, normalize_eq_collect, tokenize_eq, outline_writtenText]
  exact collect_clauses clauses (numbered_self _)

/-- An operand that is a keyword, a phrase with a parenthesis, and a group that offers `AND`. -/
example :
    let gap : Gap := ⟨[' '], by simp, by simp [Text.isBlank, Text.blankRanges]⟩
    let not : Word :=
      ⟨['n', 'o', 't'], by simp, by simp [Text.isBlank, Text.blankRanges, isReserved]⟩
    let x : Word := ⟨['x'], by simp, by simp [Text.isBlank, Text.blankRanges, isReserved]⟩
    let clauses : List Clause :=
      [.not ⟨not, by cbv⟩ gap Word.or, .phrase ['a', '('] (by simp) (by simp [isReserved]),
        .any x [⟨gap, gap, Word.and⟩] (by simp) (by decide)]
    writtenText (fun _ => gap) clauses = "not OR \"a(\" (x OR AND)".toList ∧
      parse "not OR \"a(\" (x OR AND)" =
        { orTerms := ["x", "AND"], notTerms := ["OR"], exactPhrases := ["a("] } := by
  exact ⟨by decide, by cbv⟩

end Collector
