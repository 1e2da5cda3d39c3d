/-
# Markers are read as what they stand for

A query is read through its markers: numbers in decimal digits, which stay in the text while groups
are looked for and while it is cut at blanks, and are read again at the end.  Everything depends on
what the words look like by then.  A marker is a word of its own, as spaces stand around it, and
gives back its kind and its number (`number?_marker`).  A word that is no marker holds no reserved
character, so it gives none (`number?_eq_none`): whatever a user types, no number comes from it.

So the text in which every mark is written as a marker (`numberedText`) is cut into the words and
markers that its lexemes are (`words_numberedText`).  Each pass over the text leaves such a text
behind (`extractPhrases_eq`, `extractGroups_eq`), and together they give the outline of the query
with its marks numbered (`tokenize_eq`).  The other files on queries begin there.
-/
import Collector.Proofs.Query.Words
import Collector.Proofs.Text.Digits

namespace Collector
namespace Query

/-! ## 1. Markers as words -/

theorem isReserved_opening (kind : Kind) : isReserved kind.opening = true := by
  cases kind with
  | phrase | group => rfl

theorem isReserved_closing (kind : Kind) : isReserved kind.closing = true := by
  cases kind with
  | phrase | group => rfl

/-- **A marker gives back its number.** -/
theorem number?_marker (kind : Kind) (n : Nat) : kind.number? (kind.marker n) = some n := by
  have hends : (Nat.toDigits 10 n ++ [kind.closing]).getLast? = some kind.closing := by simp
  rw [Kind.marker, Kind.number?, if_pos ⟨rfl, hends⟩, List.dropLast_concat, Text.count?_toDigits]

/-- A word that begins otherwise is no marker. -/
theorem number?_of_head?_ne {kind : Kind} {word : List Char} (h : word.head? ≠ some kind.opening) :
    kind.number? word = none := by
  cases word with
  | nil => rfl
  | cons c word =>
    have hc : c ≠ kind.opening := fun heq => h (congrArg some heq)
    rw [Kind.number?, if_neg fun hboth => hc hboth.1]

/-- **What holds no reserved character is no marker.** -/
theorem number?_eq_none {word : List Char} (h : ∀ c ∈ word, isReserved c = false) (kind : Kind) :
    kind.number? word = none := by
  refine number?_of_head?_ne fun hhead => ?_
  have hopening := h _ (List.mem_of_head? hhead)
  rw [isReserved_opening] at hopening
  exact absurd hopening nofun

theorem classify_phrase (n : Nat) : classify (Kind.phrase.marker n) = .phrase n := by
  rw [classify, number?_marker]

theorem classify_group (n : Nat) : classify (Kind.group.marker n) = .group n := by
  have hkind : Kind.phrase.number? (Kind.group.marker n) = none := by
    refine number?_of_head?_ne ?_
    rw [Kind.marker, List.head?_cons]
    decide
  rw [classify, hkind, number?_marker]

theorem classify_word {word : List Char} (h : ∀ c ∈ word, isReserved c = false) :
    classify word = .ofWord (String.ofList word) := by
  rw [classify, number?_eq_none h, number?_eq_none h]

/-- With reserved characters in it, a word could pass for a marker. -/
example : classify "\ue0007\ue001".toList = .phrase 7 := by
  decide +kernel

theorem groupItem_phrase (n : Nat) : groupItem (Kind.phrase.marker n) = .phrase n := by
  rw [groupItem, number?_marker]

theorem groupItem_word {word : List Char} (h : ∀ c ∈ word, isReserved c = false) :
    groupItem word = .word (String.ofList word) := by
  rw [groupItem, number?_eq_none h]

theorem of_isReserved {c : Char} (h : isReserved c = true) :
    Text.isBlank c = false ∧ c ≠ '(' ∧ c ≠ ')' := by
  refine ⟨?_, ?_, ?_⟩
  · simp [isReserved] at h
    simp [Text.isBlank, Text.blankRanges]
    omega
  · rintro rfl
    exact absurd h (by decide)
  · rintro rfl
    exact absurd h (by decide)

theorem of_isDigit {c : Char} (h : c.isDigit = true) :
    Text.isBlank c = false ∧ c ≠ '(' ∧ c ≠ ')' := by
  refine ⟨Text.isBlank_of_isDigit h, ?_, ?_⟩
  · rintro rfl
    exact absurd h (by decide)
  · rintro rfl
    exact absurd h (by decide)

/-- A marker holds no blank and no parenthesis. -/
theorem of_mem_marker {kind : Kind} {n : Nat} {c : Char} (h : c ∈ kind.marker n) :
    Text.isBlank c = false ∧ c ≠ '(' ∧ c ≠ ')' := by
  rcases List.mem_cons.mp h with rfl | h
  · exact of_isReserved (isReserved_opening kind)
  · rcases List.mem_append.mp h with hdigit | hclosing
    · exact of_isDigit (Text.isDigit_toDigits n c hdigit)
    · rw [List.mem_singleton.mp hclosing]
      exact of_isReserved (isReserved_closing kind)

/-- The spaces around a marker are no parentheses either. -/
theorem of_mem_padded {kind : Kind} {n : Nat} {c : Char} (h : c ∈ kind.padded n) :
    c ≠ '(' ∧ c ≠ ')' := by
  rcases List.mem_cons.mp h with rfl | h
  · decide
  · rcases List.mem_append.mp h with h | h
    · exact (of_mem_marker h).2
    · obtain rfl := List.mem_singleton.mp h
      decide

/-! ## 2. The words of a text -/

theorem words_append_blank {c : Char} (hc : Text.isBlank c = true) (u v : List Char) :
    words (u ++ c :: v) = words u ++ words v := by
  rw [words, List.splitOnP_append_cons u v hc, List.filter_append]
  rfl

theorem words_solid {w : List Char} (hw : ∀ c ∈ w, Text.isBlank c = false) :
    words w = if w.isEmpty then [] else [w] := by
  rw [words, List.splitOnP_eq_singleton hw]
  cases w with
  | nil | cons => rfl

/-- A marker is a word of its own. -/
theorem words_append_padded (kind : Kind) (n : Nat) (u v : List Char) :
    words (u ++ (kind.padded n ++ v)) = words u ++ kind.marker n :: words v := by
  have hspace : Text.isBlank ' ' = true := by decide
  have hmarker : words (kind.marker n) = [kind.marker n] :=
    words_solid fun c hc => (of_mem_marker hc).1
  have hparts : u ++ (kind.padded n ++ v) = u ++ ' ' :: (kind.marker n ++ ' ' :: v) := by
    simp [Kind.padded]
  rw [hparts, words_append_blank hspace, words_append_blank hspace, hmarker]
  rfl

/-! ## 3. Texts with markers -/

/-- A text with its marks written as markers, phrases numbered from `p` and groups from `g`. -/
def numberedText : (p g : Nat) → List (Glyph Mark) → List Char
  | _, _, [] => []
  | p, g, .char c :: rest => c :: numberedText p g rest
  | p, g, .mark (.phrase _) :: rest => Kind.phrase.padded p ++ numberedText (p + 1) g rest
  | p, g, .mark (.group items) :: rest =>
    Kind.group.padded g ++ numberedText (p + (phrasesIn items).length) (g + 1) rest

/-- The words of such a text. -/
def numberedWords : (p g : Nat) → List (Lexeme Mark) → List (List Char)
  | _, _, [] => []
  | p, g, .word w :: rest => w :: numberedWords p g rest
  | p, g, .mark (.phrase _) :: rest => Kind.phrase.marker p :: numberedWords (p + 1) g rest
  | p, g, .mark (.group items) :: rest =>
    Kind.group.marker g :: numberedWords (p + (phrasesIn items).length) (g + 1) rest

theorem numberedWords_closeWord {held : List Char} (hheld : ∀ c ∈ held, Text.isBlank c = false)
    (p g : Nat) (rest : List (Lexeme Mark)) :
    numberedWords p g (closeWord held ++ rest) = words held.reverse ++ numberedWords p g rest := by
  rw [words_solid fun c hc => hheld c (List.mem_reverse.mp hc), closeWord, List.isEmpty_reverse]
  split
  · rfl
  · rfl

/-- The word begun goes on in the text. -/
theorem words_numberedText_from {held : List Char} (hheld : ∀ c ∈ held, Text.isBlank c = false)
    (p g : Nat) (text : List (Glyph Mark)) :
    words (held.reverse ++ numberedText p g text) = numberedWords p g (lexemesFrom held text) := by
  have hnone : ∀ c ∈ ([] : List Char), Text.isBlank c = false :=
    fun c hc => absurd hc List.not_mem_nil
  induction held, text using lexemesFrom.induct generalizing p g with
  | case1 held =>
    have hclose := numberedWords_closeWord hheld p g []
    rw [List.append_nil] at hclose
    rw [lexemesFrom, hclose, numberedText, numberedWords, List.append_nil, List.append_nil]
  | case2 held c rest hblank ih =>
    rw [lexemesFrom, if_pos hblank, numberedText, words_append_blank hblank,
      numberedWords_closeWord hheld, ← ih hnone p g]
    rfl
  | case3 held c rest hink ih =>
    have hnext : ∀ d ∈ c :: held, Text.isBlank d = false :=
      List.forall_mem_cons.mpr ⟨by simpa using hink, hheld⟩
    rw [lexemesFrom, if_neg hink, numberedText, ← ih hnext p g, List.reverse_cons]
    simp
  | case4 held m rest ih =>
    rw [lexemesFrom, numberedWords_closeWord hheld]
    cases m with
    | phrase text =>
      rw [numberedText, words_append_padded, numberedWords, ← ih hnone]
      rfl
    | group items =>
      rw [numberedText, words_append_padded, numberedWords, ← ih hnone]
      rfl

/-- **The words of a text with markers** are its words and, for its marks, the markers. -/
theorem words_numberedText (p g : Nat) (text : List (Glyph Mark)) :
    words (numberedText p g text) = numberedWords p g (lexemes text) :=
  words_numberedText_from (fun _ hc => absurd hc List.not_mem_nil) p g text

variable {μ : Type}

/-- No character of the text is reserved. -/
def NoReserved (text : List (Glyph μ)) : Prop :=
  ∀ c, .char c ∈ text → isReserved c = false

/-- Its words are no markers. -/
theorem NoReserved.word {text : List (Glyph μ)} (h : NoReserved text) {w : List Char}
    (hw : .word w ∈ lexemes text) : ∀ c ∈ w, isReserved c = false :=
  fun c hc => h c ((solid_of_mem_lexemes hw).chars c hc).2

/-- Reading reserved characters as spaces leaves none of them. -/
theorem noReserved_phrased (t : List Char) : NoReserved (phrased (unreserved t)) := by
  intro c hc
  rcases mem_of_mem_phrased hc with rfl | hmem
  · decide
  · obtain ⟨d, -, rfl⟩ := List.mem_map.mp hmem
    split
    · decide
    · rename_i hfree
      simpa using hfree

/-- Marking groups adds no characters. -/
theorem NoReserved.markGroups {glyphs : List (Glyph (List Char))} (h : NoReserved glyphs) :
    NoReserved (markGroups none glyphs) := by
  intro c hc
  rcases mem_markGroups (List.Subset.refl _) (fun _ hy => absurd hy List.not_mem_nil) hc with
    ⟨y, hy, hchar⟩ | ⟨items, hgroup, -⟩
  · cases y with
    | char d =>
      obtain rfl := Glyph.char.inj hchar
      exact h c hy
    | mark m => exact absurd hchar nofun
  · exact absurd hgroup nofun

/-- The tokens of a text with markers are those of its lexemes. -/
theorem map_classify_numberedWords (p g : Nat) (lexemes : List (Lexeme Mark))
    (h : ∀ w, .word w ∈ lexemes → ∀ c ∈ w, isReserved c = false) :
    (numberedWords p g lexemes).map classify = (Tokenized.ofLexemes p g lexemes).tokens := by
  induction lexemes generalizing p g with
  | nil => rfl
  | cons lexeme rest ih =>
    have hrest (p g : Nat) := ih p g fun w hw => h w (List.mem_cons_of_mem lexeme hw)
    rcases lexeme with w | ⟨text⟩ | ⟨items⟩
    · rw [numberedWords, List.map_cons, classify_word (h w List.mem_cons_self), hrest]
      rfl
    · rw [numberedWords, List.map_cons, classify_phrase, hrest]
      rfl
    · rw [numberedWords, List.map_cons, classify_group, hrest]
      rfl

/-! ## 4. Texts with phrases only -/

/-- A text with its phrases written as markers, numbered from `p`. -/
def phrasedText : (p : Nat) → List (Glyph (List Char)) → List Char
  | _, [] => []
  | p, .char c :: rest => c :: phrasedText p rest
  | p, .mark _ :: rest => Kind.phrase.padded p ++ phrasedText (p + 1) rest

/-- What is outside groups is written the same, whatever comes behind. -/
theorem numberedText_outside (p g : Nat) (glyphs : List (Glyph (List Char)))
    (rest : List (Glyph Mark)) :
    numberedText p g (glyphs.map Glyph.outside ++ rest) =
      phrasedText p glyphs ++ numberedText (p + (glyphs.filterMap Glyph.mark?).length) g rest := by
  induction glyphs generalizing p with
  | nil => rfl
  | cons glyph glyphs ih =>
    cases glyph with
    | char c => exact congrArg (c :: ·) (ih p)
    | mark phrase =>
      have hnext := ih (p + 1)
      rw [Nat.add_assoc, Nat.add_comm 1] at hnext
      simp [Glyph.outside, numberedText, phrasedText, hnext, Glyph.mark?]

theorem phrasedText_eq (p g : Nat) (glyphs : List (Glyph (List Char))) :
    phrasedText p glyphs = numberedText p g (glyphs.map Glyph.outside) := by
  have hall := numberedText_outside p g glyphs []
  rw [List.append_nil] at hall
  rw [hall, numberedText, List.append_nil]

theorem phrasedText_append (p : Nat) (glyphs rest : List (Glyph (List Char))) :
    phrasedText p (glyphs ++ rest) =
      phrasedText p glyphs ++ phrasedText (p + (glyphs.filterMap Glyph.mark?).length) rest := by
  rw [phrasedText_eq p 0, List.map_append, numberedText_outside, ← phrasedText_eq]

theorem phrasedText_append_char (p : Nat) (u : List (Glyph (List Char))) (c : Char)
    (v : List (Glyph (List Char))) :
    phrasedText p (u ++ .char c :: v) =
      phrasedText p u ++ c :: phrasedText (p + (u.filterMap Glyph.mark?).length) v :=
  phrasedText_append p u _

theorem phrasedText_char (p : Nat) (text : List Char) : phrasedText p (text.map .char) = text := by
  induction text with
  | nil => rfl
  | cons c text ih => exact congrArg (c :: ·) ih

/-- Markers add no parentheses. -/
theorem mem_phrasedText {p : Nat} {c : Char} {glyphs : List (Glyph (List Char))}
    (h : c ∈ phrasedText p glyphs) : .char c ∈ glyphs ∨ c ≠ '(' ∧ c ≠ ')' := by
  induction glyphs generalizing p with
  | nil => exact absurd h List.not_mem_nil
  | cons glyph rest ih =>
    cases glyph with
    | char d =>
      rcases List.mem_cons.mp h with rfl | h
      · exact .inl List.mem_cons_self
      · exact (ih h).imp_left (List.mem_cons_of_mem _)
    | mark phrase =>
      rcases List.mem_append.mp h with h | h
      · exact .inr (of_mem_padded h)
      · exact (ih h).imp_left (List.mem_cons_of_mem _)

theorem open_not_mem_phrasedText {glyphs : List (Glyph (List Char))} (h : .char '(' ∉ glyphs)
    (p : Nat) : '(' ∉ phrasedText p glyphs := by
  intro hmem
  rcases mem_phrasedText hmem with hchar | hnone
  · exact h hchar
  · exact hnone.1 rfl

theorem level_phrasedText {glyphs : List (Glyph (List Char))} (h : ∀ x ∈ glyphs, x.Level)
    {p : Nat} {c : Char} (hc : c ∈ phrasedText p glyphs) : c ≠ '(' ∧ c ≠ ')' := by
  rcases mem_phrasedText hc with hchar | hnone
  · exact h _ hchar
  · exact hnone

theorem phrasedText_ne_nil {glyphs : List (Glyph (List Char))} (h : glyphs ≠ []) (p : Nat) :
    phrasedText p glyphs ≠ [] := by
  cases glyphs with
  | nil => exact absurd rfl h
  | cons glyph rest =>
    cases glyph with
    | char | mark => exact List.cons_ne_nil _ _

/-- A lexeme that belongs to no group. -/
def Lexeme.outside : Lexeme (List Char) → Lexeme Mark
  | .word w => .word w
  | .mark phrase => .mark (.phrase phrase)

theorem lexemesFrom_outside (held : List Char) (glyphs : List (Glyph (List Char))) :
    lexemesFrom held (glyphs.map Glyph.outside) =
      (lexemesFrom held glyphs).map Lexeme.outside := by
  have hclose (held : List Char) : (closeWord held).map Lexeme.outside = closeWord held := by
    unfold closeWord
    split
    · rfl
    · rfl
  induction held, glyphs using lexemesFrom.induct with
  | case1 held => rw [List.map_nil, lexemesFrom, lexemesFrom, hclose]
  | case2 held c rest hblank ih =>
    simp [lexemesFrom, Glyph.outside, hblank, hclose, ih]
  | case3 held c rest hink ih => simp [lexemesFrom, Glyph.outside, hink, ih]
  | case4 held m rest ih => simp [lexemesFrom, Glyph.outside, Lexeme.outside, hclose, ih]

theorem map_groupItem_numberedWords (p g : Nat) (items : List (Lexeme (List Char)))
    (h : ∀ w, .word w ∈ items → ∀ c ∈ w, isReserved c = false) :
    (numberedWords p g (items.map Lexeme.outside)).map groupItem = groupItems p items := by
  induction items generalizing p with
  | nil => rfl
  | cons item rest ih =>
    have hrest (p : Nat) := ih p fun w hw => h w (List.mem_cons_of_mem item hw)
    cases item with
    | word w =>
      rw [List.map_cons, Lexeme.outside, numberedWords, List.map_cons,
        groupItem_word (h w List.mem_cons_self), hrest, groupItems]
    | mark phrase =>
      rw [List.map_cons, Lexeme.outside, numberedWords, List.map_cons, groupItem_phrase, hrest,
        groupItems]

/-- **The items of a group** are the words and phrases between its parentheses. -/
theorem map_groupItem_words (p : Nat) {inside : List (Glyph (List Char))} (h : NoReserved inside) :
    (words (phrasedText p inside)).map groupItem = groupItems p (lexemes inside) := by
  rw [phrasedText_eq p 0, words_numberedText, lexemes, lexemesFrom_outside]
  exact map_groupItem_numberedWords p 0 _ fun w hw => h.word hw

/-! ## 5. Cutting a text -/

variable {c : Char} {u v inside rest : List Char} {phrases : List String} {groups : List Group}

/-- A text is cut at the first character that satisfies `p`. -/
theorem cutAt?_first {p : Char → Bool} (hu : ∀ d ∈ u, p d = false) (hc : p c = true)
    (v : List Char) : cutAt? p (u ++ c :: v) = some (u, c, v) := by
  induction u with
  | nil => exact if_pos hc
  | cons d u ih =>
    have hd : ¬ p d = true := by simp [hu d List.mem_cons_self]
    rw [List.cons_append, cutAt?, if_neg hd, ih fun e he => hu e (List.mem_cons_of_mem d he)]
    rfl

theorem cutAt?_eq_none {p : Char → Bool} (hu : ∀ d ∈ u, p d = false) : cutAt? p u = none := by
  induction u with
  | nil => rfl
  | cons d u ih =>
    have hd : ¬ p d = true := by simp [hu d List.mem_cons_self]
    rw [cutAt?, if_neg hd, ih fun e he => hu e (List.mem_cons_of_mem d he)]
    rfl

theorem beq_eq_false_of_not_mem (hu : c ∉ u) : ∀ d ∈ u, (d == c) = false :=
  fun _ hd => beq_eq_false_iff_ne.mpr (ne_of_mem_of_not_mem hd hu)

theorem cutAt?_char (hu : c ∉ u) (v : List Char) :
    cutAt? (· == c) (u ++ c :: v) = some (u, c, v) :=
  cutAt?_first (beq_eq_false_of_not_mem hu) (beq_self_eq_true c) v

theorem isParenthesis_eq_false (hu : ∀ d ∈ u, d ≠ '(' ∧ d ≠ ')') :
    ∀ d ∈ u, (d == '(' || d == ')') = false := by
  intro d hd
  simpa using hu d hd

/-! ## 6. Extracting phrases -/

theorem extractPhrases_plain (hu : '"' ∉ u) : extractPhrases phrases u = (u, phrases) := by
  have hopen := cutAt?_eq_none (beq_eq_false_of_not_mem hu)
  rw [extractPhrases]
  split
  · rfl
  · rename_i hfound
    cases hfound.symm.trans hopen

theorem extractPhrases_unclosed (hu : '"' ∉ u) (hv : '"' ∉ v) :
    extractPhrases phrases (u ++ '"' :: v) = (u ++ '"' :: v, phrases) := by
  have hopen := cutAt?_char hu v
  have hclose := cutAt?_eq_none (beq_eq_false_of_not_mem hv)
  rw [extractPhrases]
  split
  · rfl
  · rename_i hfound
    cases hfound.symm.trans hopen
    split
    · rfl
    · rename_i hclosed
      cases hclosed.symm.trans hclose

/-- The first pair of a text leaves a marker, or a space if there is nothing in it. -/
theorem extractPhrases_pair (hu : '"' ∉ u) (hinside : '"' ∉ inside) :
    extractPhrases phrases (u ++ '"' :: (inside ++ '"' :: rest)) =
      if inside.isEmpty then
        (u ++ ' ' :: (extractPhrases phrases rest).1, (extractPhrases phrases rest).2)
      else
        (u ++ (Kind.phrase.padded phrases.length ++
            (extractPhrases (phrases ++ [String.ofList inside]) rest).1),
          (extractPhrases (phrases ++ [String.ofList inside]) rest).2) := by
  have hopen := cutAt?_char hu (inside ++ '"' :: rest)
  have hclose := cutAt?_char hinside rest
  rw [extractPhrases]
  split
  · rename_i hnone
    cases hnone.symm.trans hopen
  · rename_i hfound
    cases hfound.symm.trans hopen
    split
    · rename_i hnone
      cases hnone.symm.trans hclose
    · rename_i hclosed
      cases hclosed.symm.trans hclose
      rfl

/-- **What is left of a text without its phrases**, and the phrases that are found. -/
theorem extractPhrases_eq (phrases : List String) (t : List Char) :
    extractPhrases phrases t =
      (phrasedText phrases.length (phrased t),
        phrases ++ ((phrased t).filterMap Glyph.mark?).map String.ofList) := by
  induction t using pairing_induction generalizing phrases with
  | plain t ht =>
    rw [extractPhrases_plain ht, phrased_plain ht, phrasedText_char, filterMap_mark?_char,
      List.map_nil, List.append_nil]
  | unclosed u v hu hv =>
    rw [extractPhrases_unclosed hu hv, phrased_unclosed hu hv, phrasedText_char,
      filterMap_mark?_char, List.map_nil, List.append_nil]
  | pair u inside rest hu hinside ih =>
    rw [extractPhrases_pair hu hinside, phrased_pair hu hinside, phrasedText_append,
      phrasedText_char, filterMap_mark?_char, List.filterMap_append, filterMap_mark?_char]
    cases inside with
    | nil =>
      rw [if_pos List.isEmpty_nil, ih]
      rfl
    | cons c inside =>
      rw [if_neg (by simp), ih]
      simp [Span.glyphs, phrasedText, Glyph.mark?]

/-! ## 7. Extracting groups -/

theorem extractGroups_plain (hu : '(' ∉ u) : extractGroups groups u = (u, groups) := by
  have hopen := cutAt?_eq_none (beq_eq_false_of_not_mem hu)
  rw [extractGroups]
  split
  · rfl
  · rename_i hfound
    cases hfound.symm.trans hopen

theorem extractGroups_unclosed (hu : '(' ∉ u) (hv : ∀ d ∈ v, d ≠ '(' ∧ d ≠ ')') :
    extractGroups groups (u ++ '(' :: v) = (u ++ '(' :: v, groups) := by
  have hopen := cutAt?_char hu v
  have hclose := cutAt?_eq_none (isParenthesis_eq_false hv)
  rw [extractGroups]
  split
  · rfl
  · rename_i hfound
    cases hfound.symm.trans hopen
    split
    · rfl
    · rename_i hclosed
      cases hclosed.symm.trans hclose

/-- The first opening parenthesis begins a group, or it is passed over. -/
theorem extractGroups_cut (hu : '(' ∉ u) (hinside : ∀ d ∈ inside, d ≠ '(' ∧ d ≠ ')')
    (hc : c = '(' ∨ c = ')') :
    extractGroups groups (u ++ '(' :: (inside ++ c :: rest)) =
      if !inside.isEmpty && c == ')' then
        (u ++ (Kind.group.padded groups.length ++
            (extractGroups (groups ++ [⟨(words inside).map groupItem⟩]) rest).1),
          (extractGroups (groups ++ [⟨(words inside).map groupItem⟩]) rest).2)
      else
        (u ++ '(' :: (extractGroups groups (inside ++ c :: rest)).1,
          (extractGroups groups (inside ++ c :: rest)).2) := by
  have hopen := cutAt?_char hu (inside ++ c :: rest)
  have hclose := cutAt?_first (isParenthesis_eq_false hinside) (by simpa using hc) rest
  rw [extractGroups]
  split
  · rename_i hnone
    cases hnone.symm.trans hopen
  · rename_i hfound
    cases hfound.symm.trans hopen
    split
    · rename_i hnone
      cases hnone.symm.trans hclose
    · rename_i hclosed
      cases hclosed.symm.trans hclose
      rfl

/-- **What is left of a text without its groups**, and the groups that are found.  The text has
markers for its phrases and no other reserved character, so a word inside a group is what it is
among the glyphs. -/
theorem extractGroups_eq (groups : List Group) (p : Nat) (glyphs : List (Glyph (List Char)))
    (h : NoReserved glyphs) :
    extractGroups groups (phrasedText p glyphs) =
      (numberedText p groups.length (markGroups none glyphs),
        groups ++ groupsOf p ((markGroups none glyphs).filterMap Glyph.mark?)) := by
  induction glyphs using group_induction generalizing groups p with
  | plain t ht =>
    rw [extractGroups_plain (open_not_mem_phrasedText ht p), markGroups_plain ht, ← phrasedText_eq,
      groupsOf_map_outside, List.append_nil]
  | unclosed u v hu hv =>
    have hopen := open_not_mem_phrasedText hu p
    rw [phrasedText_append_char, extractGroups_unclosed hopen fun _ => level_phrasedText hv,
      markGroups_unclosed hu hv, groupsOf_map_outside, List.append_nil, ← phrasedText_eq,
      phrasedText_append_char]
  | group u inside rest hu hinside hne ih =>
    have hopen := open_not_mem_phrasedText hu p
    have hcount : (phrasesIn (lexemes inside)).length = (inside.filterMap Glyph.mark?).length := by
      rw [phrasesIn_lexemes, List.length_map]
    have hreserved : NoReserved inside := fun c hc => h c (by simp [hc])
    have hrest : NoReserved rest := fun c hc => h c (by simp [hc])
    rw [markGroups_around hinside hne, markGroups_plain hu, numberedText_outside,
      List.filterMap_append, groupsOf_outside, phrasedText_append_char, phrasedText_append_char]
    generalize p + (u.filterMap Glyph.mark?).length = q
    have hne' := phrasedText_ne_nil hne q
    rw [extractGroups_cut hopen (fun _ => level_phrasedText hinside) (.inr rfl),
      if_pos (by simpa using hne'), map_groupItem_words q hreserved, ih _ _ hrest]
    simp [numberedText, groupsOf, Glyph.mark?, hcount]
  | loose u inside c rest hu hinside hc ih =>
    have hopen := open_not_mem_phrasedText hu p
    have hparenthesis : c = '(' ∨ c = ')' := hc.imp_right And.left
    have hbehind : NoReserved (inside ++ .char c :: rest) :=
      fun d hd => h d (List.mem_append_right u (List.mem_cons_of_mem _ hd))
    rw [markGroups_loose hu hinside hc, numberedText_outside, List.filterMap_append,
      groupsOf_outside, phrasedText_append_char, phrasedText_append_char]
    generalize p + (u.filterMap Glyph.mark?).length = q
    have hloose : ¬ (!(phrasedText q inside).isEmpty && c == ')') = true := by
      rcases hc with rfl | ⟨-, rfl⟩
      · simp
      · simp [phrasedText]
    rw [extractGroups_cut hopen (fun _ => level_phrasedText hinside) hparenthesis, if_neg hloose,
      ← phrasedText_append_char, ih _ _ hbehind]
    simp [numberedText, List.filterMap_cons, Glyph.mark?]

/-- A phrase beside a word, and another one in a group. -/
example :
    extractGroups [] (extractPhrases [] "x\"a b\"(y \"c\")".toList).1 =
      ("x \ue0000\ue001  \ue0020\ue003 ".toList, [⟨[.word "y", .phrase 1]⟩]) := by
  decide +kernel

end Query

open Query

/-! ## 8. The whole query -/

/-- **The tokens of a query are those of its outline, numbered.** -/
theorem tokenize_eq (text : String) : tokenize text = .ofLexemes 0 0 (outline text) := by
  have houtline : lexemes (markGroups none (phrased (unreserved text.toList))) = outline text := rfl
  have hglyphs := noReserved_phrased text.toList
  have htokens := map_classify_numberedWords 0 0 (outline text) fun w hw =>
    hglyphs.markGroups.word hw
  have hphrases := phrases_ofLexemes 0 0 (outline text)
  have hgroups := groups_ofLexemes 0 0 (outline text)
  rw [← houtline, filterMap_mark?_lexemes, houtline] at hphrases hgroups
  rw [flatMap_phrases_markGroups, heldGlyphs, List.nil_append] at hphrases
  rw [tokenize, extractPhrases_eq]
  simp only [extractGroups_eq [] 0 _ hglyphs, List.length_nil, List.nil_append,
    words_numberedText, houtline]
  rw [htokens, ← hphrases, ← hgroups]

end Collector
