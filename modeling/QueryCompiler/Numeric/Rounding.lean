import QueryCompiler.Numeric.Binary64

/-!
# Rounding to the nearest binary64 number

A quotient of natural numbers is rounded to the nearest representable number, and a quotient halfway
between two of them to the one whose significand is even.
-/

namespace QueryCompiler

/-- The whole number nearest to `num / den`; halfway between two it is the even one. -/
def roundDivEven (num den : Nat) : Nat :=
  let k := num / den
  let r := num % den
  if 2 * r < den then k
  else if den < 2 * r then k + 1
  else k + k % 2

theorem roundDivEven_mul (k : Nat) {den : Nat} (h : 0 < den) : roundDivEven (k * den) den = k := by
  simp [roundDivEven, Nat.mul_div_cancel _ h, h]

namespace Binary64

/--
The binary64 number nearest to `num / den`. The quotient is measured in units of the smallest
positive number `2 ^ (-1074)`; as many low bits are dropped as leave a significand of 53 bits.
-/
def nearest (negative : Bool) (num den : Nat) : Binary64 :=
  let units := num <<< 1074
  let whole := units / den
  let drop := if whole < 2 * fractionCount then 0 else whole.log2 - 52
  ofOrdinal negative (drop * fractionCount + roundDivEven units (den <<< drop))

end Binary64

end QueryCompiler
