import QueryCompiler.Numeric.Decimal

/-!
# The shortest decimal text of a binary64 number

A finite number is written with the fewest digits that still read back as the same number and, among
texts of that many digits, with the nearest to the number. From `10 ^ (-4)` on and below `10 ^ 16`
the text is positional with at least one digit after the point, elsewhere it has an exponent.
-/

namespace QueryCompiler

namespace Binary64

/-! ### Digits -/

/-- A finite magnitude as an exact quotient. -/
def quotient (exponent : Fin 2047) (fraction : Fin fractionCount) : Nat × Nat :=
  (significand exponent fraction <<< shift exponent, 1 <<< 1074)

/-- All digits of a finite magnitude. -/
def exactDecimal (exponent : Fin 2047) (fraction : Fin fractionCount) : Decimal :=
  ⟨(significand exponent fraction <<< shift exponent) * Nat.pow 5 1074, -1074⟩

/--
The neighbours of `num / den` among the multiples of `10 ^ exponent`, the nearer first; halfway the
upper one comes first.
-/
def neighbours (num den : Nat) (exponent : Int) : List Decimal :=
  let (num, den) :=
    if 0 ≤ exponent then (num, den * tenTo exponent.toNat) else (num * tenTo (-exponent).toNat, den)
  let below : Decimal := ⟨num / den, exponent⟩
  let above : Decimal := ⟨num / den + 1, exponent⟩
  let r := num % den
  if r = 0 then [below]
  else if 2 * r < den then [below, above]
  else [above, below]

/--
The first of the next `tries` grids, from `exponent` to finer ones, on which a neighbour reads back.
-/
def firstReadingBack (target : Binary64) (num den : Nat) (exponent : Int) : Nat → Option Decimal
  | 0 => none
  | tries + 1 =>
    match (neighbours num den exponent).find? (fun d => d.toBinary64 false == target) with
    | some d => some d
    | none => firstReadingBack target num den (exponent - 1) tries

/-- Drops trailing zeros from the digits of a decimal number. -/
def dropZeros (d : Decimal) : Nat → Decimal
  | 0 => d
  | tries + 1 =>
    if d.digits ≠ 0 ∧ d.digits % 10 = 0 then dropZeros ⟨d.digits / 10, d.exponent + 1⟩ tries else d

/--
The fewest digits that read back as a finite magnitude. Seventeen always suffice; the exact digits,
which read back in any case, stand behind them.
-/
def shortestDecimal (exponent : Fin 2047) (fraction : Fin fractionCount) : Decimal :=
  let (num, den) := quotient exponent fraction
  let top : Int := (decimalLength (num * tenTo 400 / den) : Int) - 400
  let d := (firstReadingBack (finite false exponent fraction) num den (top - 1) 17).getD
    (exactDecimal exponent fraction)
  dropZeros d (decimalLength d.digits)

theorem reads_back_of_firstReadingBack {target : Binary64} {num den : Nat} {exponent : Int}
    {tries : Nat} {d : Decimal} (h : firstReadingBack target num den exponent tries = some d) :
    d.toBinary64 false = target := by
  induction tries generalizing exponent with
  | zero => simp [firstReadingBack] at h
  | succ n ih =>
    simp only [firstReadingBack] at h
    split at h
    · rename_i found
      cases h
      simpa using List.find?_some found
    · exact ih h

/-! ### Text -/

/-- The digits of a decimal number, positional or with an exponent as its size asks. -/
def decimalText (d : Decimal) : String :=
  let digits := (Nat.toDigits 10 d.digits)
  let point : Int := digits.length + d.exponent
  if -3 ≤ point ∧ point ≤ 16 then
    if point ≤ 0 then
      "0." ++ String.ofList (List.replicate (-point).toNat '0' ++ digits)
    else
      let n := point.toNat
      if digits.length ≤ n then
        String.ofList (digits ++ List.replicate (n - digits.length) '0') ++ ".0"
      else
        String.ofList (digits.take n) ++ "." ++ String.ofList (digits.drop n)
  else
    let mantissa := match digits with
      | [c] => String.ofList [c]
      | c :: cs => String.ofList (c :: '.' :: cs)
      | [] => ""
    mantissa ++ "e" ++ toString (point - 1)

/-- The text of a number: its shortest digits, `NaN`, or `inf`, with the sign in front. -/
def text : Binary64 → String
  | nan => "NaN"
  | infinite negative => if negative then "-inf" else "inf"
  | finite negative exponent fraction =>
    let magnitude :=
      if exponent.val = 0 ∧ fraction.val = 0 then "0.0"
      else decimalText (shortestDecimal exponent fraction)
    if negative then "-" ++ magnitude else magnitude

end Binary64

end QueryCompiler
