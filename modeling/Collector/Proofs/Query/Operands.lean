/-
# Which tokens are operands

The walk over the tokens of a query passes one token or two at a time, so where its cursor comes
to stand seems to depend on the whole way there.  It depends on the tokens right in front only.
Count the `OR`s and `NOT`s that stand together there: if they are odd in number, the last of them
takes the token as its operand (`awaitsOperand`).  In `OR NOT OR x` the first operator takes the
second, so that the third is free to take `x`.

With this every token can be sorted into the buckets by itself, from its place in the list alone
(section 2), and `normalize_eq_places` says that the walk sorts them so.  The reason is one
equation: a token is an operand if the one in front of it is an operator that is not an operand
(`awaitsOperand_concat`).
-/
import Mathlib.Data.List.DropRight
import Collector.Query.Walk

namespace Collector

/-! ## 1. Places -/

/-- The token takes the next one as its operand, unless it is an operand itself. -/
def Token.isOperator : Token → Bool
  | .or _ | .not _ => true
  | _ => false

theorem Token.isOperator_eq_false {token : Token} (hor : ∀ text, token ≠ .or text)
    (hnot : ∀ text, token ≠ .not text) : token.isOperator = false := by
  cases token with
  | or text => exact absurd rfl (hor text)
  | not text => exact absurd rfl (hnot text)
  | word | and | phrase | group => rfl

/-- A token with the tokens in front of it. -/
structure Place where
  before : List Token
  token : Token

/-- The places of a list of tokens, from the first to the last. -/
def places (tokens : List Token) : List Place :=
  tokens.mapIdx fun i token => ⟨tokens.take i, token⟩

/-- The number of operators that stand together at the end of some tokens. -/
def operatorsAtEnd (before : List Token) : Nat :=
  (before.rtakeWhile Token.isOperator).length

/-- The token that comes next is an operand. -/
def awaitsOperand (before : List Token) : Bool :=
  operatorsAtEnd before % 2 == 1

theorem operatorsAtEnd_concat_operator {token : Token} (h : token.isOperator = true)
    (before : List Token) : operatorsAtEnd (before ++ [token]) = operatorsAtEnd before + 1 := by
  rw [operatorsAtEnd, List.rtakeWhile_concat_pos _ _ _ h, List.length_append,
    List.length_singleton, operatorsAtEnd]

theorem operatorsAtEnd_concat_other {token : Token} (h : token.isOperator = false)
    (before : List Token) : operatorsAtEnd (before ++ [token]) = 0 := by
  rw [operatorsAtEnd, List.rtakeWhile_concat_neg _ _ _ (by simp [h]), List.length_nil]

/-- **A token is an operand if the token in front of it is an operator and no operand.** -/
theorem awaitsOperand_concat (before : List Token) (token : Token) :
    awaitsOperand (before ++ [token]) = (token.isOperator && !awaitsOperand before) := by
  unfold awaitsOperand
  cases hoperator : token.isOperator with
  | false =>
    rw [operatorsAtEnd_concat_other hoperator]
    rfl
  | true =>
    rw [operatorsAtEnd_concat_operator hoperator]
    rcases Nat.mod_two_eq_zero_or_one (operatorsAtEnd before) with heven | hodd
    · have hnext : (operatorsAtEnd before + 1) % 2 = 1 := by omega
      rw [heven, hnext]
      rfl
    · have hnext : (operatorsAtEnd before + 1) % 2 = 0 := by omega
      rw [hodd, hnext]
      rfl

/-! ## 2. What a place gives -/

/-- The word `OR`, in exactly this case, is among the items of the group. -/
def Group.hasOr (group : Group) : Prop :=
  .word "OR" ∈ group.items

instance (group : Group) : Decidable group.hasOr :=
  inferInstanceAs (Decidable (_ ∈ _))

/-- The words of a group other than `skip`, and its phrases by name. -/
def Group.termsBut (skip : String) (group : Group) : List String :=
  group.items.filterMap fun
    | .word text => if text = skip then none else some text
    | .phrase n => some (Token.phrase n).verbatim
    | .and _ | .or _ | .not _ | .group _ => none

namespace Place

/-- The token is an operand. -/
def IsOperand (place : Place) : Prop :=
  awaitsOperand place.before = true

instance (place : Place) : Decidable place.IsOperand :=
  inferInstanceAs (Decidable (_ = _))

/-- A word that is no operand must occur, and so must the terms of a group without `OR`. -/
def andTerms (tables : Tables) (place : Place) : List String :=
  if place.IsOperand then []
  else match place.token with
    | .word text => [text]
    | .group n =>
      match tables.groups[n]? with
      | some group => if group.hasOr then [] else group.termsBut "AND"
      | none => []
    | _ => []

/-- An operand of `OR` is an alternative unless it is a placeholder, and so are the terms of a
group with `OR` that is no operand. -/
def orTerms (tables : Tables) (place : Place) : List String :=
  if place.IsOperand then
    match place.before.getLast? with
    | some (.or _) => if place.token.isPlaceholder then [] else [place.token.verbatim]
    | _ => []
  else match place.token with
    | .group n =>
      match tables.groups[n]? with
      | some group => if group.hasOr then group.termsBut "OR" else []
      | none => []
    | _ => []

/-- An operand of `NOT` must not occur, whatever it is. -/
def notTerms (place : Place) : List String :=
  if place.IsOperand then
    match place.before.getLast? with
    | some (.not _) => [place.token.verbatim]
    | _ => []
  else []

/-- A phrase that is no operand is looked up. -/
def exactPhrases (tables : Tables) (place : Place) : List String :=
  if place.IsOperand then []
  else match place.token with
    | .phrase n => tables.phrases[n]?.toList
    | _ => []

/-- All that a place gives. -/
def buckets (tables : Tables) (place : Place) : Buckets where
  andTerms := place.andTerms tables
  orTerms := place.orTerms tables
  notTerms := place.notTerms
  exactPhrases := place.exactPhrases tables

end Place

/-- What some places give, each bucket in the order of the places. -/
def gathered (tables : Tables) (list : List Place) : Buckets where
  andTerms := list.flatMap (Place.andTerms tables)
  orTerms := list.flatMap (Place.orTerms tables)
  notTerms := list.flatMap Place.notTerms
  exactPhrases := list.flatMap (Place.exactPhrases tables)

theorem gathered_cons (tables : Tables) (place : Place) (rest : List Place) :
    gathered tables (place :: rest) = place.buckets tables ++ gathered tables rest := rfl

/-! ## 3. The places of a list that goes on another -/

/-- The places of some tokens that stand behind `before`. -/
def placesAfter : (before tokens : List Token) → List Place
  | _, [] => []
  | before, token :: rest => ⟨before, token⟩ :: placesAfter (before ++ [token]) rest

theorem placesAfter_eq (before tokens : List Token) :
    placesAfter before tokens =
      tokens.mapIdx fun i token => ⟨before ++ tokens.take i, token⟩ := by
  induction tokens generalizing before with
  | nil => rfl
  | cons token rest ih =>
    rw [placesAfter, ih, List.mapIdx_cons]
    simp

theorem places_eq (tokens : List Token) : places tokens = placesAfter [] tokens := by
  rw [placesAfter_eq]
  rfl

/-! ## 4. One step of the walk -/

variable {tables : Tables} {before : List Token}

theorem Group.terms_eq (group : Group) :
    group.terms =
      if group.hasOr then { orTerms := group.termsBut "OR" }
      else { andTerms := group.termsBut "AND" } := by
  rw [terms]
  by_cases hor : group.hasOr
  · have hcontains : group.items.contains (.word "OR") = true := by simpa [hasOr] using hor
    rw [if_pos hor, if_pos hcontains, termsBut]
    congr 1
    refine List.filterMap_congr fun item _ => ?_
    cases item <;> rfl
  · have hcontains : ¬ group.items.contains (.word "OR") = true := by simpa [hasOr] using hor
    rw [if_neg hor, if_neg hcontains, termsBut]
    congr 1
    refine List.filterMap_congr fun item _ => ?_
    cases item <;> rfl

/-- A token that is no operand gives its own terms. -/
theorem buckets_of_free (hfree : awaitsOperand before = false) (token : Token) :
    (Place.mk before token).buckets tables = token.terms tables := by
  have hplace : ¬ (Place.mk before token).IsOperand := by simp [Place.IsOperand, hfree]
  rw [Place.buckets, Place.andTerms, Place.orTerms, Place.notTerms, Place.exactPhrases,
    if_neg hplace, if_neg hplace, if_neg hplace, if_neg hplace]
  cases token with
  | word | and | or | not | phrase => rfl
  | group n =>
    dsimp only [Token.terms]
    cases tables.groups[n]? with
    | none => rfl
    | some group =>
      rw [Option.map_some, Option.getD_some, group.terms_eq]
      by_cases hor : group.hasOr
      · simp only [if_pos hor]
      · simp only [if_neg hor]

/-- What an operand gives is decided by the operator in front of it. -/
theorem buckets_of_operand (hfree : awaitsOperand before = false) {operator : Token}
    (hoperator : operator.isOperator = true) (operand : Token) :
    (Place.mk (before ++ [operator]) operand).buckets tables =
      match operator with
      | .or _ => operand.termsAfterOr
      | _ => operand.termsAfterNot := by
  have hplace : (Place.mk (before ++ [operator]) operand).IsOperand := by
    rw [Place.IsOperand, awaitsOperand_concat, hoperator, hfree]
    rfl
  rw [Place.buckets, Place.andTerms, Place.orTerms, Place.notTerms, Place.exactPhrases,
    if_pos hplace, if_pos hplace, if_pos hplace, if_pos hplace]
  simp only [List.getLast?_concat]
  cases operator with
  | word | and | phrase | group => simp [Token.isOperator] at hoperator
  | not => rfl
  | or =>
    cases hplaceholder : operand.isPlaceholder with
    | true => simp [Token.termsAfterOr, hplaceholder]
    | false => simp [Token.termsAfterOr, hplaceholder]

/-! ## 5. The whole walk -/

/-- Behind an operator and its operand no operand is awaited. -/
theorem awaitsOperand_pair (hfree : awaitsOperand before = false) {operator : Token}
    (hoperator : operator.isOperator = true) (operand : Token) :
    awaitsOperand (before ++ [operator] ++ [operand]) = false := by
  rw [awaitsOperand_concat, awaitsOperand_concat, hoperator, hfree]
  simp

/-- An operator with its operand gives what the operand gives; the operator itself is free and
has no terms. -/
theorem gathered_pair (hfree : awaitsOperand before = false) {operator : Token}
    (hoperator : operator.isOperator = true) (operand : Token) (rest : List Token) :
    gathered tables (placesAfter before (operator :: operand :: rest)) =
      (Place.mk (before ++ [operator]) operand).buckets tables ++
        gathered tables (placesAfter (before ++ [operator] ++ [operand]) rest) := by
  have hnothing : operator.terms tables = {} := by
    cases operator with
    | or | not => rfl
    | word | and | phrase | group => simp [Token.isOperator] at hoperator
  rw [placesAfter, placesAfter, gathered_cons, gathered_cons, buckets_of_free hfree, hnothing,
    Buckets.empty_append]

/-- **The walk gathers what the places give.**  It may have come from anywhere, as long as it has
not stopped in front of an operand. -/
theorem collect_eq (tables : Tables) (tokens before : List Token)
    (hfree : awaitsOperand before = false) :
    Walk.collect tables tokens = gathered tables (placesAfter before tokens) := by
  induction tokens using Walk.collect.induct generalizing before with
  | case1 => rfl
  | case2 text operand rest ih =>
    have hnext : awaitsOperand (before ++ [.or text] ++ [operand]) = false :=
      awaitsOperand_pair hfree rfl operand
    rw [Walk.collect, gathered_pair hfree rfl, buckets_of_operand hfree rfl, ih _ hnext]
  | case3 text operand rest ih =>
    have hnext : awaitsOperand (before ++ [.not text] ++ [operand]) = false :=
      awaitsOperand_pair hfree rfl operand
    rw [Walk.collect, gathered_pair hfree rfl, buckets_of_operand hfree rfl, ih _ hnext]
  | case4 token rest hor hnot ih =>
    rw [Walk.collect, placesAfter, gathered_cons, buckets_of_free hfree]
    · cases rest with
      | nil => rfl
      | cons next rest =>
        have hother : token.isOperator = false :=
          Token.isOperator_eq_false (fun text h => hor text next rest h rfl)
            fun text h => hnot text next rest h rfl
        have hnext : awaitsOperand (before ++ [token]) = false := by
          rw [awaitsOperand_concat, hother]
          rfl
        rw [ih _ hnext]
    · exact hor
    · exact hnot

/-- Every phrase that the walk looks up stands in the table, so that no phrase is lost. -/
theorem restrictPhrases_gathered (tables : Tables) (list : List Place) :
    (gathered tables list).restrictPhrases tables.phrases = gathered tables list := by
  have hknown : ∀ phrase ∈ (gathered tables list).exactPhrases,
      tables.phrases.contains phrase = true := by
    intro phrase hphrase
    obtain ⟨place, -, hplace⟩ := List.mem_flatMap.mp hphrase
    unfold Place.exactPhrases at hplace
    split at hplace
    · exact absurd hplace List.not_mem_nil
    · split at hplace
      · rw [List.contains_iff_mem]
        exact List.mem_of_getElem? (Option.mem_toList.mp hplace)
      · exact absurd hplace List.not_mem_nil
  rw [Buckets.restrictPhrases, List.filter_eq_self.mpr hknown]

/-- The walk looks up no phrase that would have to be taken out again. -/
theorem normalize_eq_collect (tables : Tables) (tokens : List Token) :
    normalize tables tokens = Walk.collect tables tokens := by
  have hstart : awaitsOperand [] = false := rfl
  rw [normalize, collect_eq tables tokens [] hstart, restrictPhrases_gathered]

/-- **Each token is sorted by its place.**  The buckets of a list of tokens hold what its places
give, each bucket in the order of the list, and nothing else. -/
theorem normalize_eq_places (tables : Tables) (tokens : List Token) :
    normalize tables tokens =
      { andTerms := (places tokens).flatMap (Place.andTerms tables)
        orTerms := (places tokens).flatMap (Place.orTerms tables)
        notTerms := (places tokens).flatMap Place.notTerms
        exactPhrases := (places tokens).flatMap (Place.exactPhrases tables) } := by
  have hstart : awaitsOperand [] = false := rfl
  rw [normalize_eq_collect, collect_eq tables tokens [] hstart, ← places_eq]
  rfl

/-- The second `OR` is free again; a phrase is lost behind `OR` and a group kept by its name
behind `NOT`. -/
example :
    normalize { phrases := ["a b"], groups := [⟨[.word "p", .word "OR", .phrase 0]⟩] }
        [.or "OR", .not "not", .or "or", .phrase 0, .not "NOT", .group 0, .group 0, .phrase 0] =
      { orTerms := ["not", "p", "PHRASE_0"]
        notTerms := ["GROUP_0"]
        exactPhrases := ["a b"] } := by
  decide

end Collector
