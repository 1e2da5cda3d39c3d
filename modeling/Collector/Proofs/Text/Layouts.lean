/-
# Indented texts are read back

A value that has been written in an indented layout is taken back by the reader of the language
(`read?_write`), whatever stands behind it as long as no digit does.  The induction is on the value:
a list is read entry by entry (`entries?_intercalate`), where the marks that follow an entry cannot
be taken for a part of it, and no entry can be taken for a closing mark (`Starts`).
-/
import Collector.Proofs.Text.Literals

namespace Collector

/-! ## 1. Values and what is written of them -/

namespace Json

/-- What holds of a value if it holds of its items and members holds of every value. -/
@[elab_as_elim]
theorem parts_induction {P : Json → Prop} (null : P .null) (bool : ∀ b, P (.bool b))
    (num : ∀ n, P (.num n)) (str : ∀ s, P (.str s))
    (arr : ∀ items, (∀ item ∈ items, P item) → P (.arr items))
    (obj : ∀ members, (∀ member ∈ members, P member.2) → P (.obj members)) :
    (value : Json) → P value
  | .null => null
  | .bool b => bool b
  | .num n => num n
  | .str s => str s
  | .arr items => arr items fun item _ => parts_induction null bool num str arr obj item
  | .obj members => obj members fun member hmember =>
    have hsmaller : sizeOf member.2 < sizeOf members := by
      obtain ⟨name, value⟩ := member
      have hlt := List.sizeOf_lt_of_mem hmember
      rw [Prod.mk.sizeOf_spec] at hlt
      exact Nat.lt_of_le_of_lt (Nat.le_add_left _ _) hlt
    parts_induction null bool num str arr obj member.2

/-- What is joined is no longer than the joined text. -/
theorem length_le_intercalate (separator : List Char) {texts : List (List Char)} {t : List Char}
    (ht : t ∈ texts) : t.length ≤ (separator.intercalate texts).length := by
  induction texts with
  | nil => exact absurd ht List.not_mem_nil
  | cons first more ih =>
    cases more with
    | nil =>
      obtain rfl := List.mem_singleton.mp ht
      exact Nat.le_of_eq (by rw [List.intercalate_singleton])
    | cons second more =>
      rw [List.intercalate_cons_cons, List.length_append, List.length_append]
      rcases List.mem_cons.mp ht with rfl | hmore
      · omega
      · have := ih hmore
        omega

/-- There are no more texts than characters joined, but for one. -/
theorem count_le_intercalate {separator : List Char} (hseparator : separator ≠ [])
    (texts : List (List Char)) : texts.length ≤ (separator.intercalate texts).length + 1 := by
  induction texts with
  | nil => exact Nat.zero_le _
  | cons first more ih =>
    cases more with
    | nil => exact Nat.le_add_left _ _
    | cons second more =>
      have hpos := List.length_pos_iff.mpr hseparator
      rw [List.intercalate_cons_cons, List.length_append, List.length_append, List.length_cons]
      omega

namespace Layout

variable (layout : Layout) (level : Nat)

theorem writeItems_eq (items : List Json) :
    layout.writeItems level items = items.map (layout.write level) := by
  induction items with
  | nil => rfl
  | cons item rest ih => exact congrArg (layout.write level item :: ·) ih

/-- The text of a member. -/
def memberText (member : String × Json) : List Char :=
  quote member.1 ++ ':' :: ' ' :: layout.write level member.2

theorem writeMembers_eq (members : List (String × Json)) :
    layout.writeMembers level members = members.map (layout.memberText level) := by
  induction members with
  | nil => rfl
  | cons member rest ih => exact congrArg (layout.memberText level member :: ·) ih

theorem block_cons (left right : Char) (t : List Char) (texts : List (List Char)) :
    layout.block level left right (t :: texts) =
      left :: layout.newline (level + 1) ++
        (',' :: layout.newline (level + 1)).intercalate (t :: texts) ++ layout.newline level ++
          [right] := rfl

/-- An entry is shorter than the block by the two marks at least. -/
theorem length_lt_block (left right : Char) {t : List Char} {texts : List (List Char)}
    (ht : t ∈ texts) : t.length + 2 ≤ (layout.block level left right texts).length := by
  cases texts with
  | nil => exact absurd ht List.not_mem_nil
  | cons first more =>
    have hle := length_le_intercalate (',' :: layout.newline (level + 1)) ht
    simp only [block_cons, List.length_append, List.length_cons, List.length_nil]
    omega

theorem exists_block (left right : Char) (texts : List (List Char)) :
    ∃ rest, layout.block level left right texts = left :: rest := by
  cases texts with
  | nil => exact ⟨_, rfl⟩
  | cons t texts => exact ⟨_, rfl⟩

end Layout
end Json

namespace Language

/-! ## 2. Texts that begin something -/

/-- The text begins with a character that is neither a gap nor a closing mark. -/
def Starts (t : List Char) : Prop :=
  ∃ c rest, t = c :: rest ∧ isGap c = false ∧ c ≠ ']' ∧ c ≠ '}'

theorem Starts.append {t : List Char} (h : Starts t) (more : List Char) : Starts (t ++ more) := by
  obtain ⟨c, rest, rfl, hc⟩ := h
  exact ⟨c, rest ++ more, rfl, hc⟩

theorem skip_of_starts {t : List Char} (h : Starts t) : skip t = t := by
  obtain ⟨c, rest, rfl, hgap, -⟩ := h
  exact skip_cons hgap rest

theorem isDigit_of_isGap {c : Char} (h : isGap c) : c.isDigit = false := by
  simp only [isGap, Bool.or_eq_true, decide_eq_true_eq] at h
  rcases h with ((rfl | rfl) | rfl) | rfl
  · rfl
  · rfl
  · rfl
  · rfl

theorem ended_gap {gap : List Char} (hgap : ∀ c ∈ gap, isGap c) {c : Char}
    (hc : c.isDigit = false) (rest : List Char) : Ended (gap ++ c :: rest) := by
  cases gap with
  | nil => exact ended_cons hc rest
  | cons g gap => exact ended_cons (isDigit_of_isGap (hgap g List.mem_cons_self)) _

theorem isGap_newline (layout : Json.Layout) (level : Nat) :
    ∀ c ∈ layout.newline level, isGap c := by
  intro c hc
  rcases List.mem_cons.mp hc with rfl | hblank
  · decide
  · rw [List.eq_of_mem_replicate hblank]
    decide

theorem starts_of_isDigit {c : Char} (h : c.isDigit = true) (rest : List Char) :
    Starts (c :: rest) := by
  refine ⟨c, rest, rfl, ?_, ?_, ?_⟩
  · rw [Bool.eq_false_iff]
    intro hgap
    rw [isDigit_of_isGap hgap] at h
    exact absurd h nofun
  · rintro rfl
    exact absurd h (by decide)
  · rintro rfl
    exact absurd h (by decide)

theorem starts_write (lang : Language) (level : Nat) (value : Json) :
    Starts (lang.layout.write level value) := by
  cases value with
  | null =>
    cases lang with
    | json => exact ⟨'n', _, rfl, by decide⟩
    | python => exact ⟨'N', _, rfl, by decide⟩
  | bool b =>
    cases lang with
    | json =>
      cases b with
      | true => exact ⟨'t', _, rfl, by decide⟩
      | false => exact ⟨'f', _, rfl, by decide⟩
    | python =>
      cases b with
      | true => exact ⟨'T', _, rfl, by decide⟩
      | false => exact ⟨'F', _, rfl, by decide⟩
  | num n =>
    rw [Json.Layout.write]
    cases hdigits : Nat.toDigits 10 n with
    | nil => exact absurd hdigits Nat.toDigits_ne_nil
    | cons d ds => exact starts_of_isDigit (Text.isDigit_toDigits n d (by simp [hdigits])) ds
  | str s => exact ⟨'"', _, rfl, by decide⟩
  | arr items =>
    obtain ⟨rest, hrest⟩ := lang.layout.exists_block level '[' ']'
      (lang.layout.writeItems (level + 1) items)
    exact ⟨'[', rest, hrest, by decide⟩
  | obj members =>
    obtain ⟨rest, hrest⟩ := lang.layout.exists_block level '{' '}'
      (lang.layout.writeMembers (level + 1) members)
    exact ⟨'{', rest, hrest, by decide⟩

theorem starts_memberText (lang : Language) (level : Nat) (member : String × Json) :
    Starts (lang.layout.memberText level member) :=
  ⟨'"', _, rfl, by decide⟩

/-! ## 3. Entry by entry -/

theorem starts_intercalate {separator t : List Char} {texts : List (List Char)} (h : Starts t) :
    Starts (separator.intercalate (t :: texts)) := by
  cases texts with
  | nil =>
    rw [List.intercalate_singleton]
    exact h
  | cons t' texts =>
    rw [List.intercalate_cons_cons, List.append_assoc]
    exact h.append _

section Entries

variable {α : Type} {take? : List Char → Option (α × List Char)} {close : Char}
  {text : α → List Char} {gap gap' : List Char}

/-- **Entries with commas and gaps between them are read one after another**, up to the closing
mark.  The induction is on the entries behind the first one. -/
theorem entries?_intercalate (hgap : ∀ c ∈ gap, isGap c) (hgap' : ∀ c ∈ gap', isGap c)
    (hclose : isGap close = false ∧ close ≠ ',' ∧ close.isDigit = false) (first : α)
    (more : List α)
    (htake : ∀ a ∈ first :: more, ∀ rest, Ended rest → take? (text a ++ rest) = some (a, rest))
    (hstarts : ∀ a ∈ first :: more, Starts (text a)) {n : Nat} (hn : more.length < n)
    (rest : List Char) :
    entries? take? close n (gap ++ ((',' :: gap).intercalate ((first :: more).map text) ++
      (gap' ++ close :: rest))) = some (first :: more, rest) := by
  induction more generalizing first n with
  | nil =>
    obtain ⟨n, rfl⟩ : ∃ m, n = m + 1 := ⟨n - 1, by omega⟩
    rw [List.map_singleton, List.intercalate_singleton, entries?, skip_append hgap,
      skip_of_starts ((hstarts first List.mem_cons_self).append _),
      htake first List.mem_cons_self _ (ended_gap hgap' hclose.2.2 rest)]
    simp only [Option.bind_eq_bind, Option.bind_some, mark?_ne hgap' hclose.1 hclose.2.1,
      mark?_append hgap' hclose.1]
    rfl
  | cons second more ih =>
    obtain ⟨n, rfl⟩ : ∃ m, n = m + 1 := ⟨n - 1, by omega⟩
    have hmore := ih second (fun a ha => htake a (List.mem_cons_of_mem first ha))
      (fun a ha => hstarts a (List.mem_cons_of_mem first ha)) (Nat.lt_of_succ_lt_succ hn)
    have htext : (',' :: gap).intercalate ((first :: second :: more).map text) =
        text first ++ ',' :: (gap ++ (',' :: gap).intercalate ((second :: more).map text)) := by
      rw [List.map_cons, List.map_cons, List.intercalate_cons_cons, ← List.map_cons,
        List.append_assoc, List.cons_append]
    rw [htext, List.append_assoc, List.cons_append, List.append_assoc, entries?,
      skip_append hgap, skip_of_starts ((hstarts first List.mem_cons_self).append _),
      htake first List.mem_cons_self _ (ended_cons (by decide) _)]
    have hcomma : isGap ',' = false := by decide
    simp only [Option.bind_eq_bind, Option.bind_some, mark?_cons hcomma, hmore]
    rfl

end Entries

/-! ## 4. Value by value -/

variable (lang : Language)

theorem quote_append (s : String) (rest : List Char) :
    Json.quote s ++ rest = '"' :: (s.toList.flatMap Json.escapeChar ++ '"' :: rest) := by
  simp [Json.quote]

/-- A member is read if its value is. -/
theorem member?_memberText {take? : List Char → Option (Json × List Char)} {level : Nat}
    {member : String × Json} {rest : List Char}
    (htake : take? (lang.layout.write level member.2 ++ rest) = some (member.2, rest)) :
    member? lang take? (lang.layout.memberText level member ++ rest) = some (member, rest) := by
  have hskip : skip (' ' :: (lang.layout.write level member.2 ++ rest)) =
      lang.layout.write level member.2 ++ rest := by
    rw [skip, List.dropWhile_cons_of_pos (by decide), ← skip]
    exact skip_of_starts ((starts_write lang level member.2).append rest)
  have hmark : isGap '"' = false := by decide
  have hcolon : isGap ':' = false := by decide
  rw [Json.Layout.memberText, List.append_assoc, quote_append, member?]
  simp only [Option.bind_eq_bind, Option.bind_some, mark?_cons hmark, body?_chars,
    List.cons_append, mark?_cons hcolon, hskip, htake, String.ofList_toList]
  rfl

theorem value?_num (n : Nat) (k : Nat) {rest : List Char} (hrest : Ended rest) :
    value? lang (n + 1) (Nat.toDigits 10 k ++ rest) = some (.num k, rest) := by
  have hnumber := number?_toDigits k hrest
  cases hdigits : Nat.toDigits 10 k with
  | nil => exact absurd hdigits Nat.toDigits_ne_nil
  | cons d ds =>
    have hd : d.isDigit = true := Text.isDigit_toDigits k d (by simp [hdigits])
    have hne (mark : Char) (hmark : mark.isDigit = false) : d ≠ mark := by
      rintro rfl
      exact absurd hd (by simp [hmark])
    rw [hdigits] at hnumber
    rw [List.cons_append] at hnumber ⊢
    rw [value?, if_pos hd, hnumber]
    · rfl
    · exact hne '"' (by decide)
    · exact hne '[' (by decide)
    · exact hne '{' (by decide)

/-- Entries with gaps between them and behind them are read up to the closing mark of a list or
record, and the first of them is not taken for that mark. -/
theorem entries?_closed {α : Type} {take? : List Char → Option (α × List Char)}
    {text : α → List Char} {gap gap' : List Char} (hgap : ∀ c ∈ gap, isGap c)
    (hgap' : ∀ c ∈ gap', isGap c) {right : Char} (hright : right = ']' ∨ right = '}') (first : α)
    (more : List α)
    (htake : ∀ a ∈ first :: more, ∀ rest, Ended rest → take? (text a ++ rest) = some (a, rest))
    (hstarts : ∀ a ∈ first :: more, Starts (text a)) {n : Nat} (hn : more.length < n)
    (rest : List Char) :
    let body := gap ++ ((',' :: gap).intercalate ((first :: more).map text) ++
      (gap' ++ right :: rest))
    mark? right body = none ∧ entries? take? right n body = some (first :: more, rest) := by
  intro body
  have hclose : isGap right = false ∧ right ≠ ',' ∧ right.isDigit = false := by
    rcases hright with rfl | rfl
    · decide
    · decide
  constructor
  · obtain ⟨c, rest', hfirst, hc, hbracket, hbrace⟩ : Starts ((',' :: gap).intercalate
        ((first :: more).map text)) := starts_intercalate (hstarts first List.mem_cons_self)
    have hne : c ≠ right := by
      rcases hright with rfl | rfl
      · exact hbracket
      · exact hbrace
    simp only [body, hfirst]
    exact mark?_ne hgap hc hne _
  · exact entries?_intercalate hgap hgap' hclose first more htake hstarts hn rest

/-- What follows the opening mark of a list or record with entries is read as the entries, and does
not begin with the closing mark. -/
theorem entries?_block {α : Type} {take? : List Char → Option (α × List Char)}
    {text : α → List Char} (level : Nat) (left : Char) {right : Char}
    (hright : right = ']' ∨ right = '}') (first : α) (more : List α)
    (htake : ∀ a ∈ first :: more, ∀ rest, Ended rest → take? (text a ++ rest) = some (a, rest))
    (hstarts : ∀ a ∈ first :: more, Starts (text a)) {n : Nat}
    (hn : (lang.layout.block level left right ((first :: more).map text)).length ≤ n + 1)
    (rest : List Char) :
    ∃ body, lang.layout.block level left right ((first :: more).map text) ++ rest = left :: body ∧
      mark? right body = none ∧ entries? take? right n body = some (first :: more, rest) := by
  have hgap := isGap_newline lang.layout
  have hcount := Json.count_le_intercalate (List.cons_ne_nil ',' (lang.layout.newline (level + 1)))
    ((first :: more).map text)
  have hshort : more.length < n := by
    rw [List.map_cons, Json.Layout.block_cons, ← List.map_cons] at hn
    simp only [List.length_cons, List.length_append, List.length_map, List.length_nil] at hn hcount
    omega
  have hclosed := entries?_closed (hgap (level + 1)) (hgap level) hright first more htake hstarts
    hshort rest
  refine ⟨_, ?_, hclosed⟩
  rw [List.map_cons, Json.Layout.block_cons]
  simp

theorem value?_arr (level : Nat) {n : Nat} (items : List Json)
    (hn : (lang.layout.write level (.arr items)).length ≤ n + 1)
    (hitems : ∀ item ∈ items, ∀ rest, Ended rest →
      value? lang n (lang.layout.write (level + 1) item ++ rest) = some (item, rest))
    (rest : List Char) :
    value? lang (n + 1) (lang.layout.write level (.arr items) ++ rest) =
      some (.arr items, rest) := by
  cases items with
  | nil => rfl
  | cons first more =>
    rw [Json.Layout.write, Json.Layout.writeItems_eq] at hn ⊢
    obtain ⟨body, hbody, hopen, hentries⟩ := entries?_block lang level '[' (.inl rfl) first more
      hitems (fun item _ => starts_write lang (level + 1) item) hn rest
    rw [hbody, value?, hopen]
    simp only [hentries, Option.map_some]

theorem value?_obj (level : Nat) {n : Nat} (members : List (String × Json))
    (hn : (lang.layout.write level (.obj members)).length ≤ n + 1)
    (hmembers : ∀ member ∈ members, ∀ rest, Ended rest →
      value? lang n (lang.layout.write (level + 1) member.2 ++ rest) = some (member.2, rest))
    (rest : List Char) :
    value? lang (n + 1) (lang.layout.write level (.obj members) ++ rest) =
      some (.obj members, rest) := by
  cases members with
  | nil => rfl
  | cons first more =>
    rw [Json.Layout.write, Json.Layout.writeMembers_eq] at hn ⊢
    obtain ⟨body, hbody, hopen, hentries⟩ := entries?_block lang level '{' (.inr rfl) first more
      (fun member hmember rest hrest =>
        member?_memberText lang (hmembers member hmember rest hrest))
      (fun member _ => starts_memberText lang (level + 1) member) hn rest
    rw [hbody, value?, hopen]
    simp only [hentries, Option.map_some]

theorem value?_null (n : Nat) (level : Nat) (rest : List Char) :
    value? lang (n + 1) (lang.layout.write level .null ++ rest) = some (.null, rest) := by
  cases lang with
  | json => exact word?_null .json rest
  | python => exact word?_null .python rest

theorem value?_bool (n : Nat) (level : Nat) (b : Bool) (rest : List Char) :
    value? lang (n + 1) (lang.layout.write level (.bool b) ++ rest) = some (.bool b, rest) := by
  cases lang with
  | json =>
    cases b with
    | true => exact word?_yes .json rest
    | false => exact word?_no .json rest
  | python =>
    cases b with
    | true => exact word?_yes .python rest
    | false => exact word?_no .python rest

theorem value?_str (n : Nat) (s : String) (rest : List Char) :
    value? lang (n + 1) (Json.quote s ++ rest) = some (.str s, rest) := by
  rw [quote_append, value?, body?_chars]
  simp only [Option.map_some, String.ofList_toList]

/-- **A value is read back from the front of a text** in which no digit follows it. -/
theorem value?_write (value : Json) :
    ∀ (level : Nat) {n : Nat}, (lang.layout.write level value).length ≤ n →
      ∀ {rest : List Char}, Ended rest →
        value? lang n (lang.layout.write level value ++ rest) = some (value, rest) := by
  have hpos (level : Nat) (value : Json) {n : Nat}
      (hn : (lang.layout.write level value).length ≤ n) : ∃ m, n = m + 1 := by
    obtain ⟨c, rest, hstart, -⟩ := starts_write lang level value
    rw [hstart, List.length_cons] at hn
    exact ⟨n - 1, by omega⟩
  induction value using Json.parts_induction with
  | null =>
    intro level n hn rest hrest
    obtain ⟨n, rfl⟩ := hpos level _ hn
    exact value?_null lang n level rest
  | bool b =>
    intro level n hn rest hrest
    obtain ⟨n, rfl⟩ := hpos level _ hn
    exact value?_bool lang n level b rest
  | num k =>
    intro level n hn rest hrest
    obtain ⟨n, rfl⟩ := hpos level _ hn
    exact value?_num lang n k hrest
  | str s =>
    intro level n hn rest hrest
    obtain ⟨n, rfl⟩ := hpos level _ hn
    exact value?_str lang n s rest
  | arr items ih =>
    intro level n hn rest hrest
    obtain ⟨n, rfl⟩ := hpos level _ hn
    refine value?_arr lang level items hn (fun item hitem rest hrest => ?_) rest
    have hmem : lang.layout.write (level + 1) item ∈ lang.layout.writeItems (level + 1) items := by
      rw [Json.Layout.writeItems_eq]
      exact List.mem_map_of_mem hitem
    have hlt := lang.layout.length_lt_block level '[' ']' hmem
    rw [Json.Layout.write] at hn
    exact ih item hitem (level + 1) (by omega) hrest
  | obj members ih =>
    intro level n hn rest hrest
    obtain ⟨n, rfl⟩ := hpos level _ hn
    refine value?_obj lang level members hn (fun member hmember rest hrest => ?_) rest
    have hmem : lang.layout.memberText (level + 1) member ∈
        lang.layout.writeMembers (level + 1) members := by
      rw [Json.Layout.writeMembers_eq]
      exact List.mem_map_of_mem hmember
    have hlt := lang.layout.length_lt_block level '{' '}' hmem
    rw [Json.Layout.write] at hn
    rw [Json.Layout.memberText, List.length_append, List.length_cons, List.length_cons] at hlt
    exact ih member hmember (level + 1) (by omega) hrest

/-- **What is written in a layout is a literal of the value**, also with gaps behind it. -/
theorem read?_write (value : Json) {gap : List Char} (hgap : ∀ c ∈ gap, isGap c) :
    read? lang (String.ofList (lang.layout.write 0 value ++ gap)) = some value := by
  have hended : Ended gap := by
    cases gap with
    | nil => exact ended_nil
    | cons c gap => exact ended_cons (isDigit_of_isGap (hgap c List.mem_cons_self)) gap
  have hlength : (lang.layout.write 0 value).length ≤
      (lang.layout.write 0 value ++ gap).length := by simp
  have hskip : skip gap = [] := by
    have hall := skip_append hgap []
    rwa [List.append_nil] at hall
  rw [read?, String.toList_ofList, skip_of_starts ((starts_write lang 0 value).append gap),
    value?_write lang value 0 hlength hended]
  exact if_pos hskip

/-- The reader takes other layouts and escapes as well, and keeps to the letters of its language. -/
example : read? .json "[1,\"\\u0041\\/\" , [null]]\n" =
    some (.arr [.num 1, .str "A/", .arr [.null]]) := rfl
example : read? .python "[1,\"\\u0041\\/\" , [None]]\n" = none := rfl

end Language
end Collector
