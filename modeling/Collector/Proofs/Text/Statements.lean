/-
# Assignments of a module

A Python module that consists of assignments, comment lines and blank lines is read as the list of
its names with their values (`statements?`).  A literal may go over several lines between its
marks; outside of them a line end ends the statement.

What is settled here is how each kind of line is read when it has been written in the indented
layout: comments (`statements?_comment`), line ends (`statements?_lineEnd`) and assignments
(`statements?_assignment`).
-/
import Collector.Proofs.Text.Layouts

namespace Collector
namespace Language

/-- A character that ends a line. -/
def isLineEnd (c : Char) : Bool :=
  c = '\n' || c = '\r'

/-- The text is on one line. -/
def OneLine (t : List Char) : Prop :=
  ∀ c ∈ t, isLineEnd c = false

instance (t : List Char) : Decidable (OneLine t) :=
  List.decidableBAll (isLineEnd · = false) t

theorem OneLine.append {u v : List Char} (hu : OneLine u) (hv : OneLine v) : OneLine (u ++ v) := by
  intro c hc
  rcases List.mem_append.mp hc with h | h
  · exact hu c h
  · exact hv c h

/-- A blank inside a line. -/
def isBlank (c : Char) : Bool :=
  c = ' ' || c = '\t'

/-- A character of a name. -/
def isNameChar (c : Char) : Bool :=
  c.isAlphanum || c = '_'

/-- A name with the literal that is assigned to it, up to the end of the line. -/
def assignment? (text : List Char) : Option ((String × Json) × List Char) :=
  let name := text.takeWhile isNameChar
  match (text.dropWhile isNameChar).dropWhile isBlank with
  | '=' :: rest =>
    let literal := rest.dropWhile isBlank
    match value? .python literal.length literal with
    | some (value, rest) =>
      if name ≠ [] ∧ rest.head?.all isLineEnd then some ((String.ofList name, value), rest)
      else none
    | none => none
  | _ => none

/-- The names that a module assigns with their values, in order, in `n` steps at most. -/
def statements? : (n : Nat) → List Char → Option (List (String × Json))
  | 0, _ => none
  | _ + 1, [] => some []
  | n + 1, c :: rest =>
    if isLineEnd c then statements? n rest
    else if c = '#' then statements? n (rest.dropWhile fun d => !isLineEnd d)
    else do
      let (entry, rest) ← assignment? (c :: rest)
      return entry :: (← statements? n rest)

/-- The names that a module assigns with their values.  Every step takes a character. -/
def module? (text : String) : Option (List (String × Json)) :=
  statements? (text.length + 1) text.toList

/-! ## 1. Line by line -/

variable (n : Nat)

theorem statements?_lineEnd {c : Char} (hc : isLineEnd c) (rest : List Char) :
    statements? (n + 1) (c :: rest) = statements? n rest := by
  rw [statements?, if_pos hc]

theorem statements?_comment {comment : List Char} (hcomment : OneLine comment)
    (rest : List Char) :
    statements? (n + 1) ('#' :: (comment ++ '\n' :: rest)) = statements? n ('\n' :: rest) := by
  have hdrop : (comment ++ '\n' :: rest).dropWhile (fun d => !isLineEnd d) = '\n' :: rest :=
    dropWhile_run (fun c hc => by simp [hcomment c hc]) (stops_cons (by decide))
  rw [statements?, if_neg (by decide), if_pos rfl, hdrop]

theorem dropWhile_isBlank {t : List Char} (h : Starts t) : t.dropWhile isBlank = t := by
  obtain ⟨c, rest, rfl, hgap, -⟩ := h
  simp only [isGap, Bool.or_eq_false_iff] at hgap
  exact List.dropWhile_cons_of_neg (by simp [isBlank, hgap.1.1])

/-- An assignment is read up to the end of its line, whatever follows. -/
theorem assignment?_write {name : List Char} (hname : name ≠ [] ∧ ∀ c ∈ name, isNameChar c)
    (value : Json) (rest : List Char) :
    assignment? (name ++ ' ' :: '=' :: ' ' :: (Json.Layout.python.write 0 value ++ '\n' :: rest)) =
      some ((String.ofList name, value), '\n' :: rest) := by
  generalize hliteral : Json.Layout.python.write 0 value ++ '\n' :: rest = literal
  have htake : (name ++ ' ' :: '=' :: ' ' :: literal).takeWhile isNameChar = name :=
    takeWhile_run hname.2 (stops_cons (by decide))
  have hdrop : ((name ++ ' ' :: '=' :: ' ' :: literal).dropWhile isNameChar).dropWhile isBlank =
      '=' :: ' ' :: literal := by
    rw [List.dropWhile_append_of_pos hname.2]
    rfl
  have hblank : (' ' :: literal).dropWhile isBlank = literal := by
    rw [List.dropWhile_cons_of_pos (by decide), ← hliteral]
    exact dropWhile_isBlank ((starts_write .python 0 value).append _)
  have hread : value? .python literal.length literal = some (value, '\n' :: rest) := by
    have hle : (Json.Layout.python.write 0 value).length ≤ literal.length := by simp [← hliteral]
    rw [← hliteral] at hle ⊢
    exact value?_write .python value 0 hle (ended_cons (by decide) rest)
  have hended : name ≠ [] ∧ ('\n' :: rest).head?.all isLineEnd := ⟨hname.1, rfl⟩
  rw [assignment?, htake, hdrop]
  simp only [hblank, hread]
  exact if_pos hended

theorem statements?_assignment {name : List Char} (hname : name ≠ [] ∧ ∀ c ∈ name, isNameChar c)
    (value : Json) (rest : List Char) :
    statements? (n + 1)
        (name ++ ' ' :: '=' :: ' ' :: (Json.Layout.python.write 0 value ++ '\n' :: rest)) =
      (statements? n ('\n' :: rest)).map ((String.ofList name, value) :: ·) := by
  have hassignment := assignment?_write hname value rest
  cases name with
  | nil => exact absurd rfl hname.1
  | cons c name =>
    have hc : isNameChar c := hname.2 c List.mem_cons_self
    have hlineEnd : ¬ isLineEnd c := by
      intro hend
      simp only [isLineEnd, Bool.or_eq_true, decide_eq_true_eq] at hend
      rcases hend with rfl | rfl
      · exact absurd hc (by decide)
      · exact absurd hc (by decide)
    have hcomment : c ≠ '#' := by
      rintro rfl
      exact absurd hc (by decide)
    rw [List.cons_append] at hassignment ⊢
    rw [statements?, if_neg hlineEnd, if_neg hcomment, hassignment]
    simp only [Option.bind_eq_bind, Option.bind_some, Option.pure_def]
    cases statements? n ('\n' :: rest) with
    | none => rfl
    | some more => rfl

end Language
end Collector
