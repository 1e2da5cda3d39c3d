/-
# Cutting a list of tokens in two

The walk over the tokens of a query keeps nothing in mind but its cursor, and yet a list of tokens
may not be cut anywhere: between `OR` and its operand the operand would become a term of its own.
Everywhere else it may.  If no operand is awaited behind the first part, the second part is sorted
into the buckets as if it stood alone, and the whole gives what the two parts give
(`normalize_append`).

The reason is that the walk over the second part may have come from anywhere (`collect_eq`): what
its places give depends on the tokens in front only through the question whether the first of them
is an operand.

An `AND` that is no operand gives nothing and asks for nothing.  So a list may be cut on both of its
sides, and it can be left out (`normalize_cut`).
-/
import Collector.Proofs.Query.Operands

namespace Collector

variable {tables : Tables}

/-! ## 1. Places of a list in two parts -/

theorem placesAfter_append (before front rest : List Token) :
    placesAfter before (front ++ rest) =
      placesAfter before front ++ placesAfter (before ++ front) rest := by
  induction front generalizing before with
  | nil => simp [placesAfter]
  | cons token front ih =>
    rw [List.cons_append, placesAfter, placesAfter, ih, List.append_assoc, List.singleton_append,
      List.cons_append]

theorem gathered_append (list more : List Place) :
    gathered tables (list ++ more) = gathered tables list ++ gathered tables more := by
  ext1 <;> simp [gathered]

/-! ## 2. The walk over two parts -/

/-- **What two parts give is what each of them gives**, if the second does not begin with the
operand of the first. -/
theorem normalize_append {front : List Token} (hfree : awaitsOperand front = false)
    (rest : List Token) :
    normalize tables (front ++ rest) = normalize tables front ++ normalize tables rest := by
  have hstart : awaitsOperand [] = false := rfl
  have hrest : Walk.collect tables rest = gathered tables (placesAfter ([] ++ front) rest) :=
    collect_eq tables rest front hfree
  rw [normalize_eq_collect, normalize_eq_collect, normalize_eq_collect, hrest,
    collect_eq tables (front ++ rest) [] hstart, collect_eq tables front [] hstart,
    placesAfter_append, gathered_append]

/-- An `AND` in front of some tokens gives nothing. -/
theorem normalize_and_cons (text : String) (rest : List Token) :
    normalize tables (.and text :: rest) = normalize tables rest := by
  have hfree : awaitsOperand [.and text] = false := rfl
  have hnothing : normalize tables [.and text] = {} := rfl
  rw [← List.singleton_append, normalize_append hfree, hnothing, Buckets.empty_append]

/-- **A list of tokens may be cut where no operand is awaited.**  Each bucket of the whole is the
bucket of the first `k` tokens with that of the others behind it; and an `AND` that stands at the
cut may be taken out. -/
theorem normalize_cut (tables : Tables) (tokens : List Token) (k : Nat)
    (hfree : awaitsOperand (tokens.take k) = false) :
    normalize tables tokens =
        normalize tables (tokens.take k) ++ normalize tables (tokens.drop k) ∧
      ∀ text, tokens[k]? = some (.and text) →
        normalize tables (tokens.eraseIdx k) = normalize tables tokens := by
  have hcut : normalize tables tokens =
      normalize tables (tokens.take k) ++ normalize tables (tokens.drop k) := by
    rw [← normalize_append hfree, List.take_append_drop]
  refine ⟨hcut, ?_⟩
  intro text hand
  have hrest : tokens.drop k = .and text :: tokens.drop (k + 1) := by
    obtain ⟨hk, heq⟩ := List.getElem?_eq_some_iff.mp hand
    rw [List.drop_eq_getElem_cons hk, heq]
  rw [List.eraseIdx_eq_take_drop_succ, normalize_append hfree, hcut, hrest, normalize_and_cons]

/-- Behind `OR NOT` the list may be cut although operators stand there, and the `and` that follows
may be taken out: it is the operand of neither. -/
theorem normalize_cut_of_operators :
    let tokens : List Token := [.or "OR", .not "NOT", .and "and", .group 0, .not "not", .word "w"]
    let tables : Tables := { groups := [⟨[.word "p", .word "OR", .word "q"]⟩] }
    awaitsOperand (tokens.take 2) = false ∧ tokens[2]? = some (.and "and") ∧
      normalize tables tokens =
        normalize tables (tokens.take 2) ++ normalize tables (tokens.drop 2) ∧
      normalize tables (tokens.take 2) = { orTerms := ["NOT"] } ∧
      normalize tables (tokens.drop 2) = { orTerms := ["p", "q"], notTerms := ["w"] } ∧
      normalize tables (tokens.eraseIdx 2) =
        { orTerms := ["NOT", "p", "q"], notTerms := ["w"] } := by
  intro tokens tables
  have hfree : awaitsOperand (tokens.take 2) = false := by decide
  have hand : tokens[2]? = some (.and "and") := rfl
  have hfront : normalize tables (tokens.take 2) = { orTerms := ["NOT"] } := by decide
  have hrest : normalize tables (tokens.drop 2) = { orTerms := ["p", "q"], notTerms := ["w"] } := by
    decide
  obtain ⟨hcut, hdelete⟩ := normalize_cut tables tokens 2 hfree
  refine ⟨hfree, hand, hcut, hfront, hrest, ?_⟩
  rw [hdelete "and" hand, hcut, hfront, hrest]
  rfl

/-- Between an operator and its operand the list may not be cut. -/
example :
    normalize {} [.or "OR", .word "a"] ≠ normalize {} [.or "OR"] ++ normalize {} [.word "a"] := by
  decide

end Collector
