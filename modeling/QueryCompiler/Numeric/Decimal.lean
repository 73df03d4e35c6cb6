import QueryCompiler.Numeric.Rounding

/-!
# Decimal numbers and their text

A decimal number is a whole number of digits times a power of ten. Its text is an optional sign,
digits with an optional point among them, and an optional exponent; `inf`, `infinity` and `nan` in
any case stand for the numbers that have no digits. Reading a text gives the binary64 number nearest
to it.
-/

namespace QueryCompiler

/-- The number `digits * 10 ^ exponent`. -/
structure Decimal where
  digits : Nat
  exponent : Int
  deriving DecidableEq, Inhabited

/-- The powers of ten. -/
def tenTo (n : Nat) : Nat := Nat.pow 10 n

/-- The count of decimal digits of `n`; zero has one. -/
def decimalLength (n : Nat) : Nat := (Nat.toDigits 10 n).length

namespace Decimal

/--
The binary64 number nearest to a decimal number. A number of at least `10 ^ 309` is above all finite
ones, and one below `10 ^ (-324)` is nearer to zero than to the smallest positive one, so no larger
powers are ever computed.
-/
def toBinary64 (negative : Bool) (d : Decimal) : Binary64 :=
  if d.digits = 0 then .ofOrdinal negative 0
  else
    let top := d.exponent + decimalLength d.digits
    if 310 ≤ top then .infinite negative
    else if top ≤ -324 then .ofOrdinal negative 0
    else if 0 ≤ d.exponent then .nearest negative (d.digits * tenTo d.exponent.toNat) 1
    else .nearest negative d.digits (tenTo (-d.exponent).toNat)

/-! ### Reading -/

/-- The number that a list of digit characters writes, continuing after `acc`. -/
def ofDigits (acc : Nat) (cs : List Char) : Nat :=
  cs.foldl (fun n c => n * 10 + (c.toNat - '0'.toNat)) acc

/-- An exponent: an optional sign and at least one digit. -/
def readExponent (cs : List Char) : Option Int :=
  let (negative, ds) := match cs with
    | '-' :: ds => (true, ds)
    | '+' :: ds => (false, ds)
    | ds => (false, ds)
  if ds.isEmpty || !ds.all Char.isDigit then none
  else
    let n : Int := ofDigits 0 ds
    some (if negative then -n else n)

/-- An unsigned decimal text: digits before or after a point, and an optional exponent. -/
def readUnsigned (cs : List Char) : Option Decimal :=
  let whole := cs.takeWhile Char.isDigit
  let rest := cs.dropWhile Char.isDigit
  let (part, rest) := match rest with
    | '.' :: rest => (rest.takeWhile Char.isDigit, rest.dropWhile Char.isDigit)
    | rest => ([], rest)
  if whole.isEmpty && part.isEmpty then none
  else
    let digits := ofDigits (ofDigits 0 whole) part
    match rest with
    | [] => some ⟨digits, -part.length⟩
    | 'e' :: rest => (readExponent rest).map fun e => ⟨digits, e - part.length⟩
    | 'E' :: rest => (readExponent rest).map fun e => ⟨digits, e - part.length⟩
    | _ => none

end Decimal

namespace Binary64

/-- The binary64 number nearest to the number that a text writes. -/
def read? (text : String) : Option Binary64 :=
  let (negative, cs) := match text.toList with
    | '-' :: cs => (true, cs)
    | '+' :: cs => (false, cs)
    | cs => (false, cs)
  match String.ofList (cs.map Char.toLower) with
  | "inf" => some (infinite negative)
  | "infinity" => some (infinite negative)
  | "nan" => some nan
  | _ => (Decimal.readUnsigned cs).map (·.toBinary64 negative)

/-- The binary64 number nearest to a whole number. -/
def ofInt (i : Int) : Binary64 := Decimal.toBinary64 (decide (i < 0)) ⟨i.natAbs, 0⟩

end Binary64

end QueryCompiler
