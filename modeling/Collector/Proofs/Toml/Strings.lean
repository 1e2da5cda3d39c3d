/-
# Strings of a TOML file are read back

A string is written in one of four forms, and the reader takes the string back from each of them,
whatever follows, as long as it is no further mark (`string?_writeString`).  The choice of the form
is a matter of style for the writer; the reader goes by the opening marks alone.

Marks in the text are what the forms in threefold marks have to look out for.  The reader decides
about a mark only when it has seen whether two more follow, so that up to two marks wait in front
of a text, and the induction carries them along (`multiBasic_marks`, `multiLiteral_marks`).  At
the end they stand just before the closing marks, and there are at most five in a row.
-/
import Collector.Toml.Quoted
import Collector.Toml.Write
import Mathlib.Data.List.Basic
import Mathlib.Tactic.SplitIfs

namespace Collector
namespace Toml

/-! ## 1. Characters and their escapes -/

/-- A character that needs no escape is plain or a line end. -/
theorem isPlain_of_not_isCode {c : Char} (h : isCode c = false) (hline : c ≠ '\n') :
    isPlain c = true := by
  by_cases htab : c = '\t'
  · simp [isPlain, htab]
  · have hle : ' ' ≤ c ↔ 0x20 ≤ c.toNat := Iff.rfl
    simp only [isCode, Bool.or_eq_false_iff, Bool.and_eq_false_iff, decide_eq_false_iff_not,
      bne_eq_false_iff_eq] at h
    simp only [isPlain, htab, decide_false, Bool.false_or, hle, Bool.and_eq_true, decide_eq_true_eq]
    obtain ⟨(hspace | htab') | hline', hdelete⟩ := h
    · exact ⟨by omega, hdelete⟩
    · exact absurd htab' htab
    · exact absurd hline' hline

/-- What a backslash begins in a string stands for a character. -/
inductive IsEscape : List Char → Char → Prop where
  | letter {letter c : Char} (h : unescape? letter = some c) : IsEscape ['\\', letter] c
  | number {c₁ c₂ c₃ c₄ c : Char} (h : charOfHex? [c₁, c₂, c₃, c₄] = some c) :
    IsEscape ['\\', 'u', c₁, c₂, c₃, c₄] c

theorem IsEscape.head {code : List Char} {c : Char} (h : IsEscape code c) :
    ∃ more, code = '\\' :: more := by
  cases h with
  | letter | number => exact ⟨_, rfl⟩

theorem charOfHex?_code {c : Char} (h : c.toNat < 0x80) :
    charOfHex? ['0', '0', upperHexDigit (c.toNat / 16), upperHexDigit (c.toNat % 16)] =
      some c := by
  have hall : ∀ n < 0x80, charOfHex? ['0', '0', upperHexDigit (n / 16), upperHexDigit (n % 16)] =
      some (Char.ofNat n) := by decide +kernel
  rw [hall c.toNat h, Char.ofNat_toNat]

/-- A character stands for itself or is escaped. -/
theorem escapeChar_cases {c : Char} (hline : c ≠ '\n') :
    escapeChar c = [c] ∧ isPlain c = true ∧ c ≠ '\\' ∨ IsEscape (escapeChar c) c := by
  unfold escapeChar
  split_ifs with hbackslash htab hreturn hbackspace hfeed hcode
  · subst hbackslash
    exact .inr (.letter rfl)
  · subst htab
    exact .inr (.letter rfl)
  · subst hreturn
    exact .inr (.letter rfl)
  · have hc : c = '\x08' := by rw [← Char.ofNat_toNat c, hbackspace]
    subst hc
    exact .inr (.letter rfl)
  · have hc : c = '\x0c' := by rw [← Char.ofNat_toNat c, hfeed]
    subst hc
    exact .inr (.letter rfl)
  · refine .inr (.number (charOfHex?_code ?_))
    simp only [isCode, Bool.or_eq_true, Bool.and_eq_true, decide_eq_true_eq] at hcode
    omega
  · exact .inl ⟨rfl, isPlain_of_not_isCode (by simpa using hcode) hline, hbackslash⟩

/-! ## 2. Strings on one line -/

variable {c : Char} {code s rest : List Char}

theorem basic_plain (hplain : isPlain c = true) (hmark : c ≠ '"') (hbackslash : c ≠ '\\')
    (rest : List Char) : basic (c :: rest) = prepend c (basic rest) := by
  rw [basic, if_pos (by simp [hplain, hbackslash])]
  · exact hmark
  · exact fun _ _ _ _ _ hc => absurd hc hbackslash
  · exact fun _ _ _ _ _ _ _ _ _ hc => absurd hc hbackslash
  · exact fun _ _ hc => absurd hc hbackslash

theorem basic_escape (h : IsEscape code c) (rest : List Char) :
    basic (code ++ rest) = prepend c (basic rest) := by
  cases h with
  | @letter letter c h =>
    rw [List.cons_append, List.cons_append, List.nil_append, basic, h]
    · rfl
    · rintro _ _ _ _ _ rfl
      exact absurd h nofun
    · rintro _ _ _ _ _ _ _ _ _ rfl
      exact absurd h nofun
  | number h =>
    simp only [List.cons_append, List.nil_append]
    rw [basic, h]
    rfl

/-- A basic string is read up to its closing mark. -/
theorem basic_escapeBasic (s rest : List Char) :
    basic (escapeBasic s ++ '"' :: rest) = some (s, rest) := by
  induction s with
  | nil => rfl
  | cons c s ih =>
    rw [escapeBasic, List.flatMap_cons, List.append_assoc, ← escapeBasic]
    by_cases hmark : c = '"'
    · subst hmark
      rw [if_pos rfl, basic_escape (.letter rfl), ih]
      rfl
    · by_cases hline : c = '\n'
      · subst hline
        rw [if_neg hmark, if_pos rfl, basic_escape (.letter rfl), ih]
        rfl
      · rw [if_neg hmark, if_neg hline]
        rcases escapeChar_cases hline with ⟨hsame, hplain, hbackslash⟩ | hescape
        · rw [hsame, List.singleton_append, basic_plain hplain hmark hbackslash, ih]
          rfl
        · rw [basic_escape hescape, ih]
          rfl

/-- A literal string is read up to its closing mark. -/
theorem literal_append (hplain : ∀ c ∈ s, isPlain c = true ∧ c ≠ '\'') (rest : List Char) :
    literal (s ++ '\'' :: rest) = some (s, rest) := by
  induction s with
  | nil => rfl
  | cons c s ih =>
    obtain ⟨hc, hmark⟩ := hplain c List.mem_cons_self
    rw [List.cons_append, literal, if_pos hc, ih fun d hd => hplain d (List.mem_cons_of_mem _ hd)]
    · rfl
    · exact hmark

/-! ## 3. Strings on several lines -/

/-- Up to two marks in front of something else are read as they stand, by a reader that does so with
one mark that is not the first of three. -/
theorem read_marks {read : List Char → Option (List Char × List Char)} {mark : Char}
    (hmark : ∀ text, (∀ more, text ≠ mark :: mark :: more) →
      read (mark :: text) = prepend mark (read text))
    {n : Nat} (hn : n ≤ 2) {text : List Char} (hnext : text.head? ≠ some mark)
    (hread : read text = some (s, rest)) :
    read (List.replicate n mark ++ text) = some (List.replicate n mark ++ s, rest) := by
  have hone : read (mark :: text) = some (mark :: s, rest) := by
    rw [hmark text fun more htext => hnext (htext ▸ rfl), hread]
    rfl
  match n, hn with
  | 0, _ => exact hread
  | 1, _ => exact hone
  | 2, _ =>
    change read (mark :: mark :: text) = _
    rw [hmark (mark :: text) fun more htext => hnext ((List.cons.inj htext).2 ▸ rfl), hone]
    rfl

/-- A character that neither escapes nor is the first of three marks. -/
theorem multiBasic_char (hc : c = '\n' ∨ isPlain c = true) (hbackslash : c ≠ '\\')
    (hmarks : c = '"' → ∀ more, rest ≠ '"' :: '"' :: more) :
    multiBasic false (c :: rest) = prepend c (multiBasic false rest) := by
  have hreturn : c ≠ '\r' := by
    rintro rfl
    exact absurd hc (by decide)
  rw [multiBasic, if_neg (by simp), if_pos (by simpa [hbackslash] using hc)]
  · exact fun _ hc htext => hmarks hc _ htext
  · exact fun _ hc htext => hmarks hc _ htext
  · exact fun _ hc htext => hmarks hc _ htext
  · exact fun _ _ _ _ _ hc => absurd hc hbackslash
  · exact fun _ _ _ _ _ _ _ _ _ hc => absurd hc hbackslash
  · exact fun _ _ hc => absurd hc hbackslash
  · exact fun _ hc => absurd hc hreturn

theorem multiBasic_mark (text : List Char) (h : ∀ more, text ≠ '"' :: '"' :: more) :
    multiBasic false ('"' :: text) = prepend '"' (multiBasic false text) :=
  multiBasic_char (.inr (by decide)) (by decide) fun _ => h

/-- Behind a backslash, the line does not end in front of a letter. -/
theorem endsLine_letter {letter : Char} (h : unescape? letter = some c) (rest : List Char) :
    endsLine (letter :: rest) = false := by
  unfold unescape? at h
  split at h
  all_goals first
    | rfl
    | exact absurd h nofun

theorem multiBasic_escape (h : IsEscape code c) (rest : List Char) :
    multiBasic false (code ++ rest) = prepend c (multiBasic false rest) := by
  cases h with
  | @letter letter c h =>
    rw [List.cons_append, List.cons_append, List.nil_append, multiBasic,
      if_neg (by simp [endsLine_letter h]), h]
    · rfl
    · rintro _ _ _ _ _ rfl
      exact absurd h nofun
    · rintro _ _ _ _ _ _ _ _ _ rfl
      exact absurd h nofun
  | number h =>
    simp only [List.cons_append, List.nil_append]
    rw [multiBasic, h]
    rfl

theorem multiBasic_close {n : Nat} (hn : n ≤ 2) (hrest : rest.head? ≠ some '"') :
    multiBasic false (List.replicate n '"' ++ '"' :: '"' :: '"' :: rest) =
      some (List.replicate n '"', rest) := by
  match n, hn with
  | 0, _ =>
    change multiBasic false ('"' :: '"' :: '"' :: rest) = _
    rw [multiBasic]
    · rfl
    · rintro more rfl
      exact hrest rfl
    · rintro more rfl
      exact hrest rfl
  | 1, _ =>
    change multiBasic false ('"' :: '"' :: '"' :: '"' :: rest) = _
    rw [multiBasic]
    · rfl
    · rintro more rfl
      exact hrest rfl
  | 2, _ => rfl

/-- A character other than a mark as it stands between threefold marks. -/
def multiCode (c : Char) : List Char :=
  if c = '\n' then ['\n'] else escapeChar c

theorem escapeMulti_cons (hmark : c ≠ '"') (run : Nat) (s : List Char) :
    escapeMulti run (c :: s) = multiCode c ++ escapeMulti 0 s := by
  rw [escapeMulti, if_neg hmark, multiCode]
  split_ifs
  · rfl
  · rfl

theorem multiBasic_multiCode (hmark : c ≠ '"') (text : List Char) :
    (∃ first more, multiCode c = first :: more ∧ first ≠ '"') ∧
      multiBasic false (multiCode c ++ text) = prepend c (multiBasic false text) := by
  by_cases hline : c = '\n'
  · subst hline
    exact ⟨⟨'\n', [], rfl, hmark⟩, multiBasic_char (.inl rfl) (by decide) fun h => absurd h hmark⟩
  · rw [multiCode, if_neg hline]
    rcases escapeChar_cases hline with ⟨hsame, hplain, hbackslash⟩ | hescape
    · rw [hsame]
      exact ⟨⟨c, [], rfl, hmark⟩,
        multiBasic_char (.inr hplain) hbackslash fun h => absurd h hmark⟩
    · obtain ⟨more, hmore⟩ := hescape.head
      exact ⟨⟨'\\', more, hmore, by decide⟩, multiBasic_escape hescape text⟩

/-- **A basic string on several lines is read up to its closing marks.**  The last `n` marks that
have been written are still to be read. -/
theorem multiBasic_escapeMulti {n : Nat} (hn : n ≤ 2) (s : List Char)
    (hrest : rest.head? ≠ some '"') :
    multiBasic false (List.replicate n '"' ++ (escapeMulti n s ++ '"' :: '"' :: '"' :: rest)) =
      some (List.replicate n '"' ++ s, rest) := by
  induction s generalizing n with
  | nil =>
    rw [escapeMulti, List.nil_append, multiBasic_close hn hrest, List.append_nil]
  | cons c s ih =>
    by_cases hmark : c = '"'
    · subst hmark
      rw [escapeMulti, if_pos rfl]
      split_ifs with hrun
      · have hnext := ih (n := n + 1) (by omega)
        rw [List.replicate_succ', List.append_assoc, List.append_assoc] at hnext
        exact hnext
      · refine read_marks multiBasic_mark hn (by simp) ?_
        have hquote : IsEscape ['\\', '"'] '"' := .letter rfl
        have hescape := multiBasic_escape hquote (escapeMulti 0 s ++ '"' :: '"' :: '"' :: rest)
        exact hescape.trans (congrArg (prepend '"') (ih (Nat.zero_le 2)))
    · obtain ⟨⟨first, more, hcode, hfirst⟩, hread⟩ :=
        multiBasic_multiCode hmark (escapeMulti 0 s ++ '"' :: '"' :: '"' :: rest)
      rw [escapeMulti_cons hmark, List.append_assoc]
      refine read_marks multiBasic_mark hn ?_ ?_
      · rw [hcode]
        simpa using hfirst
      · exact hread.trans (congrArg (prepend c) (ih (Nat.zero_le 2)))

theorem multiLiteral_char (hc : c = '\n' ∨ isPlain c = true)
    (hmarks : c = '\'' → ∀ more, rest ≠ '\'' :: '\'' :: more) :
    multiLiteral (c :: rest) = prepend c (multiLiteral rest) := by
  have hreturn : c ≠ '\r' := by
    rintro rfl
    exact absurd hc (by decide)
  rw [multiLiteral, if_pos (by simpa using hc)]
  · exact fun _ hc htext => hmarks hc _ htext
  · exact fun _ hc htext => hmarks hc _ htext
  · exact fun _ hc htext => hmarks hc _ htext
  · exact fun _ hc => absurd hc hreturn

theorem multiLiteral_mark (text : List Char) (h : ∀ more, text ≠ '\'' :: '\'' :: more) :
    multiLiteral ('\'' :: text) = prepend '\'' (multiLiteral text) :=
  multiLiteral_char (.inr (by decide)) fun _ => h

theorem multiLiteral_close {n : Nat} (hn : n ≤ 2) (hrest : rest.head? ≠ some '\'') :
    multiLiteral (List.replicate n '\'' ++ '\'' :: '\'' :: '\'' :: rest) =
      some (List.replicate n '\'', rest) := by
  match n, hn with
  | 0, _ =>
    change multiLiteral ('\'' :: '\'' :: '\'' :: rest) = _
    rw [multiLiteral]
    · rfl
    · rintro more rfl
      exact hrest rfl
    · rintro more rfl
      exact hrest rfl
  | 1, _ =>
    change multiLiteral ('\'' :: '\'' :: '\'' :: '\'' :: rest) = _
    rw [multiLiteral]
    · rfl
    · rintro more rfl
      exact hrest rfl
  | 2, _ => rfl

/-- No run of a character is longer than `n`, `run` of them standing in front. -/
def Short (mark : Char) (n : Nat) : (run : Nat) → List Char → Prop
  | _, [] => True
  | run, c :: s => if c = mark then run < n ∧ Short mark n (run + 1) s else Short mark n 0 s

/-- The longest run so far only grows. -/
theorem short_of_longestRun {mark : Char} {n run longest : Nat}
    (h : (s.foldl (fun (run, longest) d =>
      if d = mark then (run + 1, max longest (run + 1)) else (0, longest)) (run, longest)).2 ≤ n) :
    Short mark n run s ∧ longest ≤ n := by
  induction s generalizing run longest with
  | nil => exact ⟨trivial, h⟩
  | cons c s ih =>
    rw [List.foldl_cons] at h
    rw [Short]
    split_ifs at h ⊢ with hc
    · obtain ⟨hshort, hlongest⟩ := ih h
      exact ⟨⟨by omega, hshort⟩, by omega⟩
    · exact ih h

/-- **A literal string on several lines is read up to its closing marks.**  The last `n` marks that
have been written are still to be read. -/
theorem multiLiteral_append {n : Nat} (hn : n ≤ 2) (hshort : Short '\'' 2 n s)
    (hplain : ∀ c ∈ s, c = '\n' ∨ isPlain c = true) (hrest : rest.head? ≠ some '\'') :
    multiLiteral (List.replicate n '\'' ++ (s ++ '\'' :: '\'' :: '\'' :: rest)) =
      some (List.replicate n '\'' ++ s, rest) := by
  induction s generalizing n with
  | nil => rw [List.nil_append, multiLiteral_close hn hrest, List.append_nil]
  | cons c s ih =>
    have hplain' : ∀ d ∈ s, d = '\n' ∨ isPlain d = true :=
      fun d hd => hplain d (List.mem_cons_of_mem _ hd)
    rw [Short] at hshort
    by_cases hmark : c = '\''
    · subst hmark
      rw [if_pos rfl] at hshort
      obtain ⟨hrun, hshort⟩ := hshort
      have hnext := ih (n := n + 1) (by omega) hshort hplain'
      rw [List.replicate_succ', List.append_assoc, List.append_assoc] at hnext
      exact hnext
    · rw [if_neg hmark] at hshort
      refine read_marks multiLiteral_mark hn (by simpa using hmark) ?_
      have hchar : multiLiteral (c :: (s ++ '\'' :: '\'' :: '\'' :: rest)) =
          prepend c (multiLiteral (s ++ '\'' :: '\'' :: '\'' :: rest)) :=
        multiLiteral_char (hplain c List.mem_cons_self) fun h => absurd h hmark
      exact hchar.trans (congrArg (prepend c) (ih (Nat.zero_le 2) hshort hplain'))

/-! ## 4. Strings of any kind -/

/-- What can be relied on in a literal string. -/
theorem formOf_spec (s : List Char) :
    match formOf s with
    | .literal => ∀ c ∈ s, isPlain c = true ∧ c ≠ '\''
    | .multiLiteral => Short '\'' 2 0 s ∧ ∀ c ∈ s, c = '\n' ∨ isPlain c = true
    | .basic | .multiBasic => True := by
  have hplain (hcodes : ∀ c ∈ s, isCode c = false) : ∀ c ∈ s, c = '\n' ∨ isPlain c = true := by
    intro c hc
    by_cases hline : c = '\n'
    · exact .inl hline
    · exact .inr (isPlain_of_not_isCode (hcodes c hc) hline)
  simp only [formOf]
  split_ifs with hbasic hliteral hmulti hmultiLiteral
  · trivial
  · simp only [Bool.and_eq_true, Bool.not_eq_true', List.any_eq_false, Bool.not_eq_true,
      List.contains_eq_mem, decide_eq_false_iff_not] at hliteral
    obtain ⟨⟨hcodes, hmark⟩, hline⟩ := hliteral
    intro c hc
    rcases hplain hcodes c hc with rfl | hplain
    · exact absurd hc hline
    · exact ⟨hplain, fun h => hmark (h ▸ hc)⟩
  · trivial
  · simp only [Bool.and_eq_true, Bool.not_eq_true', List.any_eq_false, Bool.not_eq_true,
      decide_eq_true_eq] at hmultiLiteral
    obtain ⟨hcodes, hrun⟩ := hmultiLiteral
    exact ⟨(short_of_longestRun hrun).1, hplain hcodes⟩
  · trivial
  · trivial

/-- The text goes on with something else than a mark. -/
def AfterString (rest : List Char) : Prop :=
  rest.head? ≠ some '"' ∧ rest.head? ≠ some '\''

theorem string?_basic {text : List Char} (h : ∀ more, text ≠ '"' :: '"' :: more) :
    string? ('"' :: text) = basic text := by
  rw [string?]
  exact fun more htext => h more htext

theorem string?_literal {text : List Char} (h : ∀ more, text ≠ '\'' :: '\'' :: more) :
    string? ('\'' :: text) = literal text := by
  rw [string?]
  exact fun more htext => h more htext

/-- What stands between basic marks does not begin with a mark. -/
theorem head?_escapeBasic (s : List Char) : (escapeBasic s).head? ≠ some '"' := by
  cases s with
  | nil => simp [escapeBasic]
  | cons c s =>
    rw [escapeBasic, List.flatMap_cons]
    split_ifs with hmark hline
    · simp
    · simp
    · rcases escapeChar_cases hline with ⟨hsame, -⟩ | hescape
      · simpa [hsame] using hmark
      · obtain ⟨more, hmore⟩ := hescape.head
        simp [hmore]

theorem dropNewline_of_head {text : List Char} (h : ∀ c ∈ text.head?, c ≠ '\n' ∧ c ≠ '\r') :
    dropNewline text = text := by
  cases text with
  | nil => rfl
  | cons c text =>
    obtain ⟨hline, hreturn⟩ := h c rfl
    rw [dropNewline, afterNewline?]
    · rfl
    · exact fun _ hc => hline (List.cons.inj hc).1
    · exact fun _ hc => hreturn (List.cons.inj hc).1

/-- The line end behind opening marks is dropped if the writer has put it there.  Else there is
none. -/
theorem dropNewline_leadIn {s text : List Char}
    (h : '\n' ∉ s → ∀ c ∈ text.head?, c ≠ '\n' ∧ c ≠ '\r') :
    dropNewline (leadIn s ++ text) = text := by
  unfold leadIn
  split_ifs with hline
  · rfl
  · exact dropNewline_of_head (h (by simpa using hline))

/-- A plain character is no line end. -/
theorem ne_lineEnd_of_isPlain (h : isPlain c = true) : c ≠ '\n' ∧ c ≠ '\r' := by
  constructor
  · rintro rfl
    exact absurd h (by decide)
  · rintro rfl
    exact absurd h (by decide)

theorem head?_escapeMulti {s : List Char} (hline : '\n' ∉ s) (text : List Char) :
    ∀ c ∈ (escapeMulti 0 s ++ '"' :: text).head?, c ≠ '\n' ∧ c ≠ '\r' := by
  cases s with
  | nil => simp [escapeMulti]
  | cons d s =>
    have hd : d ≠ '\n' := fun h => hline (h ▸ List.mem_cons_self)
    by_cases hmark : d = '"'
    · simp [escapeMulti, hmark]
    · rw [escapeMulti_cons hmark, multiCode, if_neg hd]
      rcases escapeChar_cases hd with ⟨hsame, hplain, -⟩ | hescape
      · simpa [hsame] using ne_lineEnd_of_isPlain hplain
      · obtain ⟨more, hmore⟩ := hescape.head
        simp [hmore]

/-- **A string is read back**, in whatever form it has been written. -/
theorem string?_writeString (s : List Char) {rest : List Char} (hrest : AfterString rest) :
    string? (writeString s ++ rest) = some (s, rest) := by
  have hspec := formOf_spec s
  unfold writeString
  cases hform : formOf s with
  | basic =>
    simp only [List.cons_append, List.append_assoc, List.nil_append]
    rw [string?_basic, basic_escapeBasic]
    intro more hmore
    have hhead := head?_escapeBasic s
    cases hbody : escapeBasic s with
    | nil =>
      rw [hbody] at hmore
      exact hrest.1 ((List.cons.inj hmore).2 ▸ rfl)
    | cons c body =>
      rw [hbody] at hmore hhead
      exact hhead ((List.cons.inj hmore).1 ▸ rfl)
  | literal =>
    rw [hform] at hspec
    simp only [List.cons_append, List.append_assoc, List.nil_append]
    rw [string?_literal, literal_append hspec]
    intro more hmore
    cases s with
    | nil => exact hrest.2 ((List.cons.inj hmore).2 ▸ rfl)
    | cons c s => exact (hspec c List.mem_cons_self).2 (List.cons.inj hmore).1
  | multiBasic =>
    change string? ('"' :: '"' :: '"' :: leadIn s ++ escapeMulti 0 s ++ ['"', '"', '"'] ++ rest) = _
    simp only [List.cons_append, List.append_assoc, List.nil_append]
    rw [string?, dropNewline_leadIn fun hline => head?_escapeMulti hline _]
    exact multiBasic_escapeMulti (n := 0) (Nat.zero_le 2) s hrest.1
  | multiLiteral =>
    rw [hform] at hspec
    obtain ⟨hshort, hplain⟩ := hspec
    change string? ('\'' :: '\'' :: '\'' :: leadIn s ++ s ++ ['\'', '\'', '\''] ++ rest) = _
    simp only [List.cons_append, List.append_assoc, List.nil_append]
    rw [string?, dropNewline_leadIn]
    · exact multiLiteral_append (n := 0) (Nat.zero_le 2) hshort hplain hrest.2
    · intro hline c hc
      cases s with
      | nil =>
        obtain rfl := Option.some.inj hc
        decide
      | cons d s =>
        obtain rfl := Option.some.inj hc
        rcases hplain d List.mem_cons_self with rfl | hd
        · exact absurd List.mem_cons_self hline
        · exact ne_lineEnd_of_isPlain hd

end Toml
end Collector
