/-
# Term buckets

The meaning of a query: four lists of terms, each in the order in which the query gave them
and with repetitions kept.  Buckets are joined list by list (`append`).
-/

namespace Collector

/-- The terms of a query, sorted by what a search has to do with them. -/
structure Buckets where
  /-- Words that must all occur. -/
  andTerms : List String := []
  /-- Words of which one must occur. -/
  orTerms : List String := []
  /-- Words that must not occur. -/
  notTerms : List String := []
  /-- Texts that must occur as they stand. -/
  exactPhrases : List String := []
deriving Repr, DecidableEq, Inhabited

namespace Buckets

/-- Joins two sets of buckets, list by list. -/
def append (a b : Buckets) : Buckets where
  andTerms := a.andTerms ++ b.andTerms
  orTerms := a.orTerms ++ b.orTerms
  notTerms := a.notTerms ++ b.notTerms
  exactPhrases := a.exactPhrases ++ b.exactPhrases

instance : Append Buckets := ⟨append⟩

/-- The number of terms in all four lists. -/
def length (b : Buckets) : Nat :=
  b.andTerms.length + b.orTerms.length + b.notTerms.length + b.exactPhrases.length

/-- No list holds a term. -/
def isEmpty (b : Buckets) : Bool :=
  b.andTerms.isEmpty && b.orTerms.isEmpty && b.notTerms.isEmpty && b.exactPhrases.isEmpty

/-- The exact phrases that stand in `known`; the other lists as they are. -/
def restrictPhrases (known : List String) (b : Buckets) : Buckets :=
  { b with exactPhrases := b.exactPhrases.filter known.contains }

@[simp] theorem append_andTerms (a b : Buckets) :
    (a ++ b).andTerms = a.andTerms ++ b.andTerms := rfl

@[simp] theorem append_orTerms (a b : Buckets) : (a ++ b).orTerms = a.orTerms ++ b.orTerms := rfl

@[simp] theorem append_notTerms (a b : Buckets) :
    (a ++ b).notTerms = a.notTerms ++ b.notTerms := rfl

@[simp] theorem append_exactPhrases (a b : Buckets) :
    (a ++ b).exactPhrases = a.exactPhrases ++ b.exactPhrases := rfl

@[ext] theorem ext {a b : Buckets} (h1 : a.andTerms = b.andTerms) (h2 : a.orTerms = b.orTerms)
    (h3 : a.notTerms = b.notTerms) (h4 : a.exactPhrases = b.exactPhrases) : a = b := by
  cases a; cases b; simp_all

theorem append_assoc (a b c : Buckets) : a ++ b ++ c = a ++ (b ++ c) := by
  ext1 <;> simp

@[simp] theorem empty_append (b : Buckets) : ({} : Buckets) ++ b = b := by
  ext1 <;> simp

@[simp] theorem append_empty (b : Buckets) : b ++ ({} : Buckets) = b := by
  ext1 <;> simp

end Buckets
end Collector
