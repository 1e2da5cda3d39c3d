/-
# Sizes for a reader

A number of bytes is shown in the largest unit of which it holds at least one, each unit 1024
times the one before: `2 KiB`, `1.50 GiB`.  Two decimals are shown unless the number of units
is whole.

A size of more than 53 binary digits is first rounded to that many, which is how closely a size
is known once it is divided; a fraction of at most 2^-52 of a unit then counts as none.
Rounding goes to the nearest value and from the middle to the even one.
-/
import Collector.Text.Digits

namespace Collector
namespace Text

/-- The quotient rounded to the nearest number, from the middle to the even one. -/
def roundDiv (n d : Nat) : Nat :=
  let q := n / d
  let r := n % d
  if 2 * r < d || (2 * r == d && q % 2 == 0) then q else q + 1

/-- A number rounded to its 53 leading binary digits. -/
def round53 (n : Nat) : Nat :=
  let spare := Nat.pow 2 (n.log2 + 1 - 53)
  roundDiv n spare * spare

/-- A size in the units from `unit` on, where a unit is `bytes` large. -/
def sizeFrom (n bytes : Nat) : String → List String → String
  | unit, larger :: units =>
    if bytes * 1024 ≤ n then sizeFrom n (bytes * 1024) larger units else shownIn unit
  | unit, [] => shownIn unit
where
  shownIn (unit : String) : String :=
    let decimals :=
      if n % bytes * Nat.pow 2 52 ≤ bytes then Nat.toDigits 10 (n / bytes)
      else
        let hundredths := roundDiv (n * 100) bytes
        Nat.toDigits 10 (hundredths / 100) ++ '.' :: padded 2 (hundredths % 100)
    String.ofList decimals ++ " " ++ unit

/-- A number of bytes with its unit. -/
def size (bytes : Nat) : String :=
  sizeFrom (round53 bytes) 1 "B" ["KiB", "MiB", "GiB", "TiB", "PiB", "EiB"]

end Text
end Collector
