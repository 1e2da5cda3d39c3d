/-
# Compact texts are read back

The compact text of a value has no gaps between its marks, and it is a literal all the same: the
reader of JSON takes the value back (`read?_compact`), whatever stands behind it as long as no digit
does.  Nothing is lost on the way.  The members of an object come back in their order, those of one
name included, and every string comes back character by character.

The induction is on the value, as for the indented texts.  Entry by entry the two are read alike,
with empty gaps here (`Language.entries?_closed`).
-/
import Collector.Proofs.Text.Layouts

namespace Collector

/-! ## 1. What is written of a value -/

namespace Json

theorem compactItems_eq (items : List Json) : compactItems items = items.map compactChars := by
  induction items with
  | nil => rfl
  | cons item rest ih => rw [compactItems, ih, List.map_cons]

/-- The compact text of a member. -/
def compactMember (member : String × Json) : List Char :=
  quote member.1 ++ ':' :: compactChars member.2

theorem compactMembers_eq (members : List (String × Json)) :
    compactMembers members = members.map compactMember := by
  induction members with
  | nil => rfl
  | cons member rest ih => rw [compactMembers, ih, List.map_cons, compactMember]

/-- An entry is shorter than the list or record by the two marks at least. -/
theorem length_lt_enclosed (left right : Char) {t : List Char} {texts : List (List Char)}
    (ht : t ∈ texts) : t.length + 2 ≤ (left :: [','].intercalate texts ++ [right]).length := by
  have hle := length_le_intercalate [','] ht
  simp only [List.length_append, List.length_cons, List.length_nil]
  omega

end Json

namespace Language

open Json (compactChars compactItems compactMember compactMembers)

/-! ## 2. Value by value -/

/-- The value has no items or members. -/
def isSingle : Json → Bool
  | .null | .bool _ | .num _ | .str _ => true
  | .arr _ | .obj _ => false

/-- A value without parts is written alike in the compact and in the indented text. -/
theorem compactChars_of_isSingle {value : Json} (h : isSingle value = true) (level : Nat) :
    value.compactChars = Json.Layout.json.write level value := by
  cases value with
  | null => rfl
  | bool b =>
    cases b with
    | true => rfl
    | false => rfl
  | num n => rfl
  | str s => rfl
  | arr | obj => exact absurd h nofun

theorem starts_compact (value : Json) : Starts value.compactChars := by
  cases value with
  | arr items => exact ⟨'[', _, rfl, by decide⟩
  | obj members => exact ⟨'\x7b', _, rfl, by decide⟩
  | null | bool | num | str =>
    rw [compactChars_of_isSingle rfl 0]
    exact starts_write .json 0 _

theorem starts_compactMember (member : String × Json) : Starts (compactMember member) :=
  ⟨'"', _, rfl, by decide⟩

/-- A member is read if its value is. -/
theorem member?_compact {take? : List Char → Option (Json × List Char)} {member : String × Json}
    {rest : List Char}
    (htake : take? (compactChars member.2 ++ rest) = some (member.2, rest)) :
    member? .json take? (compactMember member ++ rest) = some (member, rest) := by
  have hskip := skip_of_starts ((starts_compact member.2).append rest)
  have hmark : isGap '"' = false := by decide
  have hcolon : isGap ':' = false := by decide
  rw [compactMember, List.append_assoc, quote_append, member?]
  simp only [Option.bind_eq_bind, Option.bind_some, mark?_cons hmark, body?_chars,
    List.cons_append, mark?_cons hcolon, hskip, htake, String.ofList_toList]
  rfl

/-- What follows the opening mark of a list or record with entries is read as the entries, and does
not begin with the closing mark. -/
theorem entries?_enclosed {α : Type} {take? : List Char → Option (α × List Char)}
    {text : α → List Char} (left : Char) {right : Char} (hright : right = ']' ∨ right = '}')
    (first : α) (more : List α)
    (htake : ∀ a ∈ first :: more, ∀ rest, Ended rest → take? (text a ++ rest) = some (a, rest))
    (hstarts : ∀ a ∈ first :: more, Starts (text a)) {n : Nat}
    (hn : (left :: [','].intercalate ((first :: more).map text) ++ [right]).length ≤ n + 1)
    (rest : List Char) :
    ∃ body, left :: [','].intercalate ((first :: more).map text) ++ [right] ++ rest =
        left :: body ∧
      mark? right body = none ∧ entries? take? right n body = some (first :: more, rest) := by
  have hgap : ∀ c ∈ ([] : List Char), isGap c := fun c hc => absurd hc List.not_mem_nil
  have hcount := Json.count_le_intercalate (List.cons_ne_nil ',' []) ((first :: more).map text)
  have hshort : more.length < n := by
    simp only [List.length_cons, List.length_append, List.length_map, List.length_nil] at hn hcount
    omega
  have hclosed := entries?_closed hgap hgap hright first more htake hstarts hshort rest
  refine ⟨_, ?_, hclosed⟩
  rw [List.append_assoc]
  rfl

theorem value?_compactItems {n : Nat} (items : List Json)
    (hn : (compactChars (.arr items)).length ≤ n + 1)
    (hitems : ∀ item ∈ items, ∀ rest, Ended rest →
      value? .json n (compactChars item ++ rest) = some (item, rest))
    (rest : List Char) :
    value? .json (n + 1) (compactChars (.arr items) ++ rest) = some (.arr items, rest) := by
  cases items with
  | nil => rfl
  | cons first more =>
    rw [compactChars, Json.compactItems_eq] at hn ⊢
    obtain ⟨body, hbody, hopen, hentries⟩ := entries?_enclosed '[' (.inl rfl) first more hitems
      (fun item _ => starts_compact item) hn rest
    rw [hbody, value?, hopen]
    simp only [hentries, Option.map_some]

theorem value?_compactMembers {n : Nat} (members : List (String × Json))
    (hn : (compactChars (.obj members)).length ≤ n + 1)
    (hmembers : ∀ member ∈ members, ∀ rest, Ended rest →
      value? .json n (compactChars member.2 ++ rest) = some (member.2, rest))
    (rest : List Char) :
    value? .json (n + 1) (compactChars (.obj members) ++ rest) = some (.obj members, rest) := by
  cases members with
  | nil => rfl
  | cons first more =>
    rw [compactChars, Json.compactMembers_eq] at hn ⊢
    obtain ⟨body, hbody, hopen, hentries⟩ := entries?_enclosed '{' (.inr rfl) first more
      (fun member hmember rest hrest => member?_compact (hmembers member hmember rest hrest))
      (fun member _ => starts_compactMember member) hn rest
    rw [hbody, value?, hopen]
    simp only [hentries, Option.map_some]

/-- **A value is read back from the front of a text** in which no digit follows it. -/
theorem value?_compact (value : Json) :
    ∀ {n : Nat}, value.compactChars.length ≤ n → ∀ {rest : List Char}, Ended rest →
      value? .json n (value.compactChars ++ rest) = some (value, rest) := by
  have hpos (value : Json) {n : Nat} (hn : value.compactChars.length ≤ n) : ∃ m, n = m + 1 := by
    obtain ⟨c, rest, hstart, -⟩ := starts_compact value
    rw [hstart, List.length_cons] at hn
    exact ⟨n - 1, by omega⟩
  induction value using Json.parts_induction with
  | null | bool | num | str =>
    intro n hn rest hrest
    rw [compactChars_of_isSingle rfl 0] at hn ⊢
    exact value?_write .json _ 0 hn hrest
  | arr items ih =>
    intro n hn rest hrest
    obtain ⟨n, rfl⟩ := hpos _ hn
    refine value?_compactItems items hn ?_ rest
    intro item hitem rest hrest
    have hmem : compactChars item ∈ compactItems items := by
      rw [Json.compactItems_eq]
      exact List.mem_map_of_mem hitem
    have hlt := Json.length_lt_enclosed '[' ']' hmem
    rw [compactChars] at hn
    exact ih item hitem (by omega) hrest
  | obj members ih =>
    intro n hn rest hrest
    obtain ⟨n, rfl⟩ := hpos _ hn
    refine value?_compactMembers members hn ?_ rest
    intro member hmember rest hrest
    have hmem : compactMember member ∈ compactMembers members := by
      rw [Json.compactMembers_eq]
      exact List.mem_map_of_mem hmember
    have hlt := Json.length_lt_enclosed '\x7b' '\x7d' hmem
    rw [compactChars] at hn
    rw [compactMember, List.length_append, List.length_cons] at hlt
    exact ih member hmember (by omega) hrest

/-- **A compact text is a literal of its value.** -/
theorem read?_compact (value : Json) : read? .json value.compact = some value := by
  have hread := value?_compact value (Nat.le_refl _) ended_nil
  rw [List.append_nil] at hread
  rw [read?, Json.compact, String.toList_ofList, skip_of_starts (starts_compact value), hread]
  rfl

end Language
end Collector
