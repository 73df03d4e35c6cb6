/-!
# Binary floating-point numbers of 64 bits

The numbers of the IEEE 754 format binary64, each in exactly one way: not-a-number, the two
infinities, and the finite numbers as a sign, an 11-bit exponent below its highest value and a
52-bit fraction. Not-a-number is one value here, as nothing tells two of them apart.
-/

namespace QueryCompiler

/-- How many fractions of 52 bits there are. -/
abbrev fractionCount : Nat := 0x10000000000000

inductive Binary64 where
  | nan
  | infinite (negative : Bool)
  | finite (negative : Bool) (exponent : Fin 2047) (fraction : Fin fractionCount)
  deriving DecidableEq

namespace Binary64

instance : Inhabited Binary64 := ⟨nan⟩

/-- The whole number `m` of the magnitude `m * 2 ^ (s - 1074)` of a finite number. -/
def significand (exponent : Fin 2047) (fraction : Fin fractionCount) : Nat :=
  if exponent.val = 0 then fraction.val else fractionCount + fraction.val

/-- The shift `s` of the magnitude `m * 2 ^ (s - 1074)` of a finite number. -/
def shift (exponent : Fin 2047) : Nat := exponent.val - 1

/--
The number whose magnitude is the `n`-th of the finite magnitudes, counted from zero upward; past
the last of them it is infinite.
-/
def ofOrdinal (negative : Bool) (n : Nat) : Binary64 :=
  if h : n < 2047 * fractionCount then
    finite negative ⟨n / fractionCount, Nat.div_lt_of_lt_mul (Nat.mul_comm 2047 _ ▸ h)⟩
      ⟨n % fractionCount, Nat.mod_lt _ (by decide)⟩
  else
    infinite negative

def isZero : Binary64 → Bool
  | finite _ e f => e.val == 0 && f.val == 0
  | _ => false

/-- Equality of numbers: not-a-number differs from itself, and the two zeros are equal. -/
def equals (x y : Binary64) : Bool :=
  match x, y with
  | nan, _ => false
  | _, nan => false
  | x, y => x == y || (x.isZero && y.isZero)

end Binary64

end QueryCompiler
