/-
# Counts and their digits

A count that is written in digits is read back: `numeral` is what the library makes of digits
(`numeral_of_digits`), and `Nat.toDigits` writes nothing else.  A digit is no blank.
-/
import Collector.Text.Blank
import Collector.Text.Digits

namespace Collector
namespace Text

theorem isDigit_toDigits (n : Nat) : ∀ c ∈ Nat.toDigits 10 n, c.isDigit = true :=
  fun _ hc => Nat.isDigit_of_mem_toDigits (by decide) (by decide) hc

theorem isBlank_of_isDigit {c : Char} (hc : c.isDigit = true) : isBlank c = false := by
  have hbounds : 48 ≤ c.toNat ∧ c.toNat ≤ 57 := Char.isDigit_iff_toNat.mp hc
  simp [isBlank, blankRanges]
  omega

/-- Digits are worth what they are worth to the library. -/
theorem numeral_of_digits {word : List Char} (h : ∀ c ∈ word, c.isDigit = true) :
    numeral 10 word = Nat.ofDigitChars 10 word 0 := by
  have hfold (n : Nat) :
      word.foldl (fun n c => n * 10 + digitValue c) n = Nat.ofDigitChars 10 word n := by
    induction word generalizing n with
    | nil => rfl
    | cons c word ih =>
      have hvalue : digitValue c = c.toNat - '0'.toNat := if_pos (h c List.mem_cons_self)
      rw [List.foldl_cons, Nat.ofDigitChars_cons, ih fun d hd => h d (List.mem_cons_of_mem c hd),
        hvalue, Nat.mul_comm]
  exact hfold 0

theorem numeral_toDigits (n : Nat) : numeral 10 (Nat.toDigits 10 n) = n := by
  rw [numeral_of_digits (isDigit_toDigits n), Nat.ofDigitChars_ten_toDigits]

/-- **A count is read back from its digits.** -/
theorem count?_toDigits (n : Nat) : count? (String.ofList (Nat.toDigits 10 n)) = some n := by
  have hdigits := isDigit_toDigits n
  have hplus : '+' ∉ Nat.toDigits 10 n := fun h => absurd (hdigits '+' h) (by decide)
  have hall : (Nat.toDigits 10 n).all Char.isDigit = true := List.all_eq_true.mpr hdigits
  have hne : (Nat.toDigits 10 n).isEmpty = false := by simp
  unfold count?
  rw [String.toList_ofList]
  split
  · rename_i heq
    exact absurd (heq ▸ List.mem_cons_self) hplus
  · simp only [hne, hall, numeral_toDigits]
    rfl

end Text
end Collector
