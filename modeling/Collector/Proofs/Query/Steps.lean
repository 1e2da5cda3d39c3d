/-
# The walk, step by step

`Walk.step` looks at the token under a cursor and says where to look next, so that a caller can walk
the tokens by itself, from buckets that may hold anything.  It is not plain that this comes to an
end, nor that it gives what `normalize` gives: a step passes one token or two, and of two the second
need not be there.

A step sees nothing but the tokens that it passes, and it gives what these give as a query of their
own (`exists_passed`).  Behind them no operand is awaited, unless they were the last ones.  So the
tokens that have been passed can be cut off at every moment (`normalize_append`), and the buckets
then hold what `normalize` makes of the tokens in front of the cursor (`Reached`).

The walk gets to the end because the cursor never rests before it, and does not get further because
what a step passes is a piece of the list (`step_passes`).
-/
import Mathlib.Data.Nat.Find
import Collector.Proofs.Query.Cuts

namespace Collector

variable {tables : Tables} {tokens front rest : List Token}

/-! ## 1. What a step passes -/

/-- What comes behind some tokens is an operand or not as it would be without them, unless they end
in front of an operand. -/
theorem awaitsOperand_append (hfree : awaitsOperand front = false) (rest : List Token) :
    awaitsOperand (front ++ rest) = awaitsOperand rest := by
  induction rest using List.reverseRecOn with
  | nil =>
    rw [List.append_nil, hfree]
    rfl
  | append_singleton rest token ih =>
    rw [← List.append_assoc, awaitsOperand_concat, awaitsOperand_concat, ih]

/-- A token that stands alone is no operand. -/
theorem normalize_singleton (token : Token) : normalize tables [token] = token.terms tables := by
  rw [normalize_eq_collect]
  cases token <;> exact Buckets.append_empty _

namespace Walk

/-- **A step passes the front of the tokens and gives what this gives alone.**  What is left does
not begin with an operand. -/
theorem exists_passed (tables : Tables) (hsome : tokens ≠ []) :
    ∃ passed later, tokens = passed ++ later ∧ passed ≠ [] ∧
      gain tables tokens = (passed.length, normalize tables passed) ∧
      (later ≠ [] → awaitsOperand passed = false) := by
  have hstart : awaitsOperand [] = false := rfl
  fun_cases gain tables tokens with
  | case1 => exact absurd rfl hsome
  | case2 text operand later =>
    refine ⟨[.or text, operand], later, rfl, List.cons_ne_nil _ _, ?_, ?_⟩
    · rw [normalize_eq_collect, collect, collect, Buckets.append_empty]
      rfl
    · exact fun _ => awaitsOperand_pair hstart rfl operand
  | case3 text operand later =>
    refine ⟨[.not text, operand], later, rfl, List.cons_ne_nil _ _, ?_, ?_⟩
    · rw [normalize_eq_collect, collect, collect, Buckets.append_empty]
      rfl
    · exact fun _ => awaitsOperand_pair hstart rfl operand
  | case4 token later hor hnot =>
    refine ⟨[token], later, rfl, List.cons_ne_nil _ _, ?_, ?_⟩
    · rw [normalize_singleton]
      rfl
    · -- an operator with a token behind it would have passed both
      intro hlater
      obtain ⟨next, later, rfl⟩ := List.exists_cons_of_ne_nil hlater
      have hother : token.isOperator = false :=
        Token.isOperator_eq_false (fun text h => hor text next later h rfl)
          fun text h => hnot text next later h rfl
      rw [← List.nil_append [token], awaitsOperand_concat, hother]
      rfl

/-! ## 2. One step -/

/-- Past the end there is nothing to look at. -/
theorem step_of_le {cursor : Nat} (hend : tokens.length ≤ cursor) (held : Buckets) :
    step tables tokens cursor held = (tokens.length, held) :=
  if_neg (Nat.not_lt.mpr hend)

/-- Before the end a step sees only what is left of the tokens. -/
theorem step_front (front : List Token) (hrest : rest ≠ []) (held : Buckets) :
    step tables (front ++ rest) front.length held =
      (front.length + (gain tables rest).1, held ++ (gain tables rest).2) := by
  have hbefore : front.length < (front ++ rest).length := by
    have hpos : 0 < rest.length := List.length_pos_iff.mpr hrest
    rw [List.length_append]
    omega
  rw [step, if_pos hbefore, List.drop_left]

/-- **A step only appends.**  Where it goes and what it appends do not depend on what there is
already. -/
theorem step_eq (tables : Tables) (tokens : List Token) (cursor : Nat) (held : Buckets) :
    step tables tokens cursor held =
      ((step tables tokens cursor {}).1, held ++ (step tables tokens cursor {}).2) := by
  rcases Nat.lt_or_ge cursor tokens.length with hbefore | hend
  · rw [step, step, if_pos hbefore, if_pos hbefore]
    dsimp only
    rw [Buckets.empty_append]
  · rw [step_of_le hend, step_of_le hend, Buckets.append_empty]

/-- Before the end a step passes some tokens and sorts them. -/
theorem step_passes (tables : Tables) (front : List Token) (hrest : rest ≠ []) (held : Buckets) :
    ∃ passed later, rest = passed ++ later ∧ passed ≠ [] ∧
      step tables (front ++ rest) front.length held =
        ((front ++ passed).length, held ++ normalize tables passed) ∧
      (later ≠ [] → awaitsOperand passed = false) := by
  obtain ⟨passed, later, hsplit, hsome, hgain, hfree⟩ := exists_passed tables hrest
  refine ⟨passed, later, hsplit, hsome, ?_, hfree⟩
  rw [step_front front hrest, hgain, List.length_append]

/-- The walk stands behind some tokens that are sorted as a query of their own, and not in front of
an operand. -/
def Reached (tables : Tables) (tokens : List Token) (state : Nat × Buckets) : Prop :=
  ∃ front rest, tokens = front ++ rest ∧ state = (front.length, normalize tables front) ∧
    (rest ≠ [] → awaitsOperand front = false)

namespace Reached

variable {state : Nat × Buckets}

theorem start (tables : Tables) (tokens : List Token) : Reached tables tokens (0, {}) :=
  ⟨[], tokens, rfl, rfl, fun _ => rfl⟩

theorem le (h : Reached tables tokens state) : state.1 ≤ tokens.length := by
  obtain ⟨front, rest, rfl, rfl, -⟩ := h
  rw [List.length_append]
  exact Nat.le_add_right _ _

theorem sorted (h : Reached tables tokens state) :
    state.2 = normalize tables (tokens.take state.1) := by
  obtain ⟨front, rest, rfl, rfl, -⟩ := h
  rw [List.take_left]

/-- At the end all tokens are sorted. -/
theorem eq_of_end (h : Reached tables tokens state) (hend : state.1 = tokens.length) :
    state = (tokens.length, normalize tables tokens) := by
  have hsorted : state.2 = normalize tables tokens := by
    rw [h.sorted, hend, List.take_length]
  exact Prod.ext hend hsorted

theorem step (h : Reached tables tokens state) :
    Reached tables tokens (step tables tokens state.1 state.2) := by
  obtain ⟨front, rest, rfl, rfl, hfree⟩ := h
  rcases eq_or_ne rest [] with rfl | hrest
  · have hend : (front ++ []).length ≤ front.length := by rw [List.append_nil]
    rw [step_of_le hend]
    exact ⟨front, [], rfl, by rw [List.append_nil], hfree⟩
  · obtain ⟨passed, later, rfl, -, hstep, hnext⟩ :=
      step_passes tables front hrest (normalize tables front)
    have hfront : awaitsOperand front = false := hfree hrest
    refine ⟨front ++ passed, later, by rw [List.append_assoc], ?_, ?_⟩
    · rw [hstep, normalize_append hfront]
    · intro hlater
      rw [awaitsOperand_append hfront, hnext hlater]

/-- **Before the end the cursor moves on.** -/
theorem lt_step (h : Reached tables tokens state) (hbefore : state.1 < tokens.length) :
    state.1 < (Walk.step tables tokens state.1 state.2).1 := by
  obtain ⟨front, rest, rfl, rfl, -⟩ := h
  have hrest : rest ≠ [] := by
    rintro rfl
    rw [List.append_nil] at hbefore
    exact absurd hbefore (Nat.lt_irrefl _)
  obtain ⟨passed, later, -, hsome, hstep, -⟩ :=
    step_passes tables front hrest (normalize tables front)
  have hpos : 0 < passed.length := List.length_pos_iff.mpr hsome
  rw [hstep, List.length_append]
  exact Nat.lt_add_of_pos_right hpos

end Reached

/-! ## 3. The walk -/

/-- The cursor and the buckets after some steps from the first token. -/
def after (tables : Tables) (tokens : List Token) (held : Buckets) : Nat → Nat × Buckets
  | 0 => (0, held)
  | count + 1 =>
    let state := after tables tokens held count
    step tables tokens state.1 state.2

/-- A walk only appends, as its steps do. -/
theorem after_eq (tables : Tables) (tokens : List Token) (held : Buckets) (count : Nat) :
    after tables tokens held count =
      ((after tables tokens {} count).1, held ++ (after tables tokens {} count).2) := by
  induction count with
  | zero => rw [after, after, Buckets.append_empty]
  | succ count ih =>
    rw [after, after, ih, step_eq, step_eq tables tokens _ (after tables tokens {} count).2,
      Buckets.append_assoc]

theorem reached_after (tables : Tables) (tokens : List Token) (count : Nat) :
    Reached tables tokens (after tables tokens {} count) := by
  induction count with
  | zero => exact Reached.start tables tokens
  | succ count ih => exact ih.step

/-- Until it has come to the end, the cursor has passed a token with each step. -/
theorem le_after (tables : Tables) (tokens : List Token) (count : Nat)
    (hbefore : (after tables tokens {} count).1 < tokens.length) :
    count ≤ (after tables tokens {} count).1 := by
  induction count with
  | zero => exact Nat.zero_le _
  | succ count ih =>
    have hreached := reached_after tables tokens count
    rcases Nat.lt_or_ge (after tables tokens {} count).1 tokens.length with hlt | hend
    · exact Nat.lt_of_le_of_lt (ih hlt) (hreached.lt_step hlt)
    · -- at the end the cursor comes to rest
      rw [after, step_of_le hend] at hbefore
      exact absurd hbefore (Nat.lt_irrefl _)

/-- The first moment at which the cursor is at the end. -/
theorem exists_first_end (tables : Tables) (tokens : List Token) :
    ∃ total ≤ tokens.length, (after tables tokens {} total).1 = tokens.length ∧
      ∀ count < total, (after tables tokens {} count).1 < tokens.length := by
  have hle (count : Nat) : (after tables tokens {} count).1 ≤ tokens.length :=
    (reached_after tables tokens count).le
  have hlast : (after tables tokens {} tokens.length).1 = tokens.length := by
    by_contra hne
    have hbefore := Nat.lt_of_le_of_ne (hle tokens.length) hne
    exact absurd (le_after tables tokens tokens.length hbefore) (Nat.not_le.mpr hbefore)
  have hends : ∃ count, (after tables tokens {} count).1 = tokens.length := ⟨_, hlast⟩
  refine ⟨Nat.find hends, Nat.find_min' hends hlast, Nat.find_spec hends, ?_⟩
  intro count hcount
  exact Nat.lt_of_le_of_ne (hle count) (Nat.find_min hends hcount)

/-- **Stepping to the end is normalizing.**  Each step leaves what there is and appends what it
would append to empty buckets, and so does any number of steps.  From the first token on the cursor
moves on with every step until it is exactly at the end, after at most as many steps as there are
tokens; at every moment the buckets hold what the passed tokens give; and at the end they hold what
all tokens give, with no phrase that would have to be taken out. -/
theorem normalize_by_steps (tables : Tables) (tokens : List Token) :
    (∀ cursor held,
      step tables tokens cursor held =
        ((step tables tokens cursor {}).1, held ++ (step tables tokens cursor {}).2)) ∧
    (∀ held count,
      after tables tokens held count =
        ((after tables tokens {} count).1, held ++ (after tables tokens {} count).2)) ∧
    (∀ count,
      (after tables tokens {} count).1 ≤ tokens.length ∧
      (after tables tokens {} count).2 =
        normalize tables (tokens.take (after tables tokens {} count).1)) ∧
    ∃ total ≤ tokens.length,
      (∀ count < total,
        (after tables tokens {} count).1 < (after tables tokens {} (count + 1)).1) ∧
      after tables tokens {} total = (tokens.length, normalize tables tokens) ∧
      (after tables tokens {} total).2.restrictPhrases tables.phrases =
        (after tables tokens {} total).2 := by
  refine ⟨step_eq tables tokens, after_eq tables tokens, ?_, ?_⟩
  · intro count
    have hreached := reached_after tables tokens count
    exact ⟨hreached.le, hreached.sorted⟩
  · obtain ⟨total, hle, hend, hbefore⟩ := exists_first_end tables tokens
    have hall := (reached_after tables tokens total).eq_of_end hend
    refine ⟨total, hle, ?_, hall, ?_⟩
    · exact fun count hcount => (reached_after tables tokens count).lt_step (hbefore count hcount)
    · -- the buckets before and after the last filter of `normalize` are the same
      rw [hall, normalize_eq_collect, ← normalize, normalize_eq_collect]

/-- The cursor passes the operand of `OR` and stops at the `NOT` behind which there is none. -/
example :
    let tokens : List Token := [.word "a", .or "OR", .phrase 0, .not "NOT"]
    (List.range 5).map (fun count => (after {} tokens {} count).1) = [0, 1, 3, 4, 4] := by
  decide

end Walk
end Collector
