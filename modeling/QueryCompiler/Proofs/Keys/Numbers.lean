import Mathlib.Algebra.Group.Nat.Defs
import QueryCompiler.Proofs.Keys.Text
import QueryCompiler.Numeric.Shortest

/-!
# Texts of numbers read back

Reading the text of a binary64 number gives the number again, so that different numbers have
different texts. The text writes a decimal number that reads back, up to zeros at its ends; zeros
scale the digits and the exponent against each other and leave the number nearest to them alone.
-/

namespace QueryCompiler

/-! ### Scaling -/

theorem roundDivEven_mul_mul (num den : Nat) {c : Nat} (hc : 0 < c) :
    roundDivEven (num * c) (den * c) = roundDivEven num den := by
  simp only [roundDivEven, Nat.mul_div_mul_right _ _ hc, Nat.mul_mod_mul_right, ← Nat.mul_assoc,
    Nat.mul_lt_mul_right hc]

theorem Binary64.nearest_mul_mul (negative : Bool) (num den : Nat) {c : Nat} (hc : 0 < c) :
    nearest negative (num * c) (den * c) = nearest negative num den := by
  have hunits : (num * c) <<< 1074 = num <<< 1074 * c := by
    rw [Nat.shiftLeft_eq, Nat.shiftLeft_eq, Nat.mul_right_comm]
  have hden (drop : Nat) : (den * c) <<< drop = den <<< drop * c := by
    rw [Nat.shiftLeft_eq, Nat.shiftLeft_eq, Nat.mul_right_comm]
  simp only [nearest, hunits, hden, Nat.mul_div_mul_right _ _ hc, roundDivEven_mul_mul _ _ hc]

theorem tenTo_succ (n : Nat) : tenTo (n + 1) = tenTo n * 10 := rfl

theorem decimalLength_mul_ten {n : Nat} (h : n ≠ 0) :
    decimalLength (n * 10) = decimalLength n + 1 := by
  have happend := Nat.toDigits_append_toDigits (b := 10) (n := n) (d := 0) (by decide)
    (Nat.pos_of_ne_zero h) (by decide)
  rw [Nat.add_zero, Nat.mul_comm] at happend
  rw [decimalLength, ← happend, List.length_append]
  rfl

namespace Decimal

variable (negative : Bool)

theorem toBinary64_mul_ten (digits : Nat) (exponent : Int) :
    toBinary64 negative ⟨digits * 10, exponent - 1⟩ = toBinary64 negative ⟨digits, exponent⟩ := by
  by_cases hzero : digits = 0
  · rw [hzero, Nat.zero_mul, toBinary64, toBinary64, if_pos rfl, if_pos rfl]
  have htop : exponent - 1 + ((decimalLength digits + 1 : Nat) : Int) =
      exponent + decimalLength digits := by omega
  have hscaled : digits * 10 ≠ 0 := by omega
  simp only [toBinary64, hzero, hscaled, if_false, decimalLength_mul_ten hzero, htop]
  split
  · rfl
  split
  · rfl
  rcases Int.lt_trichotomy exponent 0 with hneg | rfl | hpos
  · obtain ⟨n, rfl⟩ : ∃ n : Nat, exponent = -n := ⟨(-exponent).toNat, by omega⟩
    have hn : (-(-(n : Int) - 1)).toNat = n + 1 := by omega
    have hn' : (-(-(n : Int))).toNat = n := by omega
    rw [if_neg (by omega), if_neg (by omega), hn, hn', tenTo_succ]
    exact Binary64.nearest_mul_mul negative digits (tenTo n) (by decide)
  · have hone : tenTo (-(0 - 1 : Int)).toNat = 1 * 10 := rfl
    have hdigits : digits * tenTo (0 : Int).toNat = digits := Nat.mul_one digits
    rw [if_neg (by omega), if_pos (by omega), hone, hdigits]
    exact Binary64.nearest_mul_mul negative digits 1 (by decide)
  · obtain ⟨n, rfl⟩ : ∃ n : Nat, exponent = n + 1 := ⟨(exponent - 1).toNat, by omega⟩
    have hn : ((n : Int) + 1 - 1).toNat = n := by omega
    have hn' : ((n : Int) + 1).toNat = n + 1 := by omega
    rw [if_pos (by omega), if_pos (by omega), hn, hn', tenTo_succ, Nat.mul_assoc,
      Nat.mul_comm 10]

/-- Zeros behind the digits do not count, if the exponent makes up for them. -/
theorem toBinary64_scale (d : Decimal) (k : Nat) :
    toBinary64 negative ⟨d.digits * 10 ^ k, d.exponent - k⟩ = d.toBinary64 negative := by
  induction k with
  | zero => simp
  | succ k ih =>
    have hexponent : d.exponent - ((k + 1 : Nat) : Int) = d.exponent - k - 1 := by omega
    rw [Nat.pow_succ, ← Nat.mul_assoc, hexponent, toBinary64_mul_ten, ih]

theorem toBinary64_dropZeros (d : Decimal) (tries : Nat) :
    (Binary64.dropZeros d tries).toBinary64 negative = d.toBinary64 negative := by
  induction tries generalizing d with
  | zero => rfl
  | succ tries ih =>
    rw [Binary64.dropZeros]
    split
    · rename_i h
      have hdigits : d.digits / 10 * 10 = d.digits :=
        Nat.div_mul_cancel (Nat.dvd_of_mod_eq_zero h.2)
      rw [ih, ← toBinary64_mul_ten, hdigits, Int.add_sub_cancel]
    · rfl

end Decimal

/-! ### Signs -/

/-- A number with another sign. -/
def Binary64.signed (negative : Bool) : Binary64 → Binary64
  | nan => nan
  | infinite _ => infinite negative
  | finite _ exponent fraction => finite negative exponent fraction

theorem Binary64.signed_ofOrdinal (negative : Bool) (n : Nat) :
    (ofOrdinal false n).signed negative = ofOrdinal negative n := by
  rw [ofOrdinal, ofOrdinal]
  split
  · rfl
  · rfl

theorem Decimal.signed_toBinary64 (negative : Bool) (d : Decimal) :
    (d.toBinary64 false).signed negative = d.toBinary64 negative := by
  simp only [toBinary64, Binary64.nearest]
  split
  · exact Binary64.signed_ofOrdinal negative 0
  split
  · rfl
  split
  · exact Binary64.signed_ofOrdinal negative 0
  split
  · exact Binary64.signed_ofOrdinal negative _
  · exact Binary64.signed_ofOrdinal negative _

/-! ### Exact digits -/

namespace Binary64

theorem ofOrdinal_finite (negative : Bool) (exponent : Fin 2047) (fraction : Fin fractionCount) :
    ofOrdinal negative (fractionCount * exponent + fraction) =
      finite negative exponent fraction := by
  have hbound : fractionCount * exponent.val + fraction < 2047 * fractionCount := by
    simp only [fractionCount] at fraction ⊢
    omega
  have hexponent : (fractionCount * exponent.val + fraction) / fractionCount = exponent := by
    rw [Nat.mul_add_div (by decide), Nat.div_eq_of_lt fraction.isLt, Nat.add_zero]
  have hfraction : (fractionCount * exponent.val + fraction) % fractionCount = fraction :=
    (Nat.mul_add_mod ..).trans (Nat.mod_eq_of_lt fraction.isLt)
  rw [ofOrdinal, dif_pos hbound]
  simp only [hexponent, hfraction]

theorem log2_mul_pow {n : Nat} (h : n ≠ 0) (s : Nat) : (n * 2 ^ s).log2 = n.log2 + s := by
  induction s with
  | zero => simp
  | succ s ih =>
    have hscaled : n * 2 ^ s ≠ 0 := Nat.mul_ne_zero h (Nat.ne_of_gt (Nat.two_pow_pos s))
    rw [Nat.pow_succ, ← Nat.mul_assoc, Nat.mul_comm _ 2, Nat.log2_two_mul hscaled, ih,
      Nat.add_assoc]

/-- A number of `m * 2 ^ s` of the smallest units is rounded to the significand `m`. -/
theorem nearest_units (negative : Bool) (exponent : Fin 2047) (fraction : Fin fractionCount)
    {a den : Nat} (hden : a <<< 1074 = den) (hpos : 0 < den) :
    nearest negative (significand exponent fraction <<< shift exponent * a) den =
      finite negative exponent fraction := by
  have hunits (m : Nat) : (m * a) <<< 1074 = m * den := by
    rw [← hden, Nat.shiftLeft_eq, Nat.shiftLeft_eq, Nat.mul_assoc]
  simp only [nearest, hunits, Nat.mul_div_cancel _ hpos]
  rw [← ofOrdinal_finite]
  rcases Nat.lt_or_ge exponent 2 with hsmall | hlarge
  · have hshift : shift exponent = 0 := by
      rw [shift]
      omega
    have hbound : significand exponent fraction < 2 * fractionCount := by
      rw [significand]
      split <;> omega
    rw [hshift, Nat.shiftLeft_zero, if_pos hbound, Nat.shiftLeft_zero,
      roundDivEven_mul _ hpos, significand, Nat.zero_mul, Nat.zero_add]
    rcases Nat.lt_or_ge exponent 1 with hzero | hone
    · have hexponent : exponent.val = 0 := by omega
      rw [if_pos hexponent, hexponent, Nat.mul_zero, Nat.zero_add]
    · have hexponent : exponent.val = 1 := by omega
      rw [if_neg (by omega), hexponent, Nat.mul_one]
  · obtain ⟨s, hs⟩ : ∃ s, exponent.val = s + 1 := ⟨exponent - 1, by omega⟩
    have hshift : shift exponent = s := by
      rw [shift, hs, Nat.add_sub_cancel]
    have hsignificand : significand exponent fraction = fractionCount + fraction := by
      rw [significand, if_neg (by omega)]
    have hne : fractionCount + fraction.val ≠ 0 :=
      Nat.ne_of_gt (Nat.lt_of_lt_of_le (by decide) (Nat.le_add_right _ _))
    have hlog : (fractionCount + fraction).log2 = 52 :=
      (Nat.log2_eq_iff hne).2 ⟨Nat.le_add_right _ _, Nat.add_lt_add_left fraction.isLt _⟩
    have hlarge : ¬ (fractionCount + fraction) * 2 ^ s < 2 * fractionCount := by
      have hpow : 2 ^ 1 ≤ 2 ^ s := Nat.pow_le_pow_right (by decide) (by omega)
      have hmul := Nat.mul_le_mul (Nat.le_add_right fractionCount fraction) hpow
      omega
    have hround : roundDivEven ((fractionCount + fraction) * 2 ^ s * den) (den * 2 ^ s) =
        fractionCount + fraction := by
      rw [Nat.mul_assoc, Nat.mul_comm (2 ^ s)]
      exact roundDivEven_mul _ (Nat.mul_pos hpos (Nat.two_pow_pos s))
    rw [hshift, hsignificand, Nat.shiftLeft_eq, if_neg hlarge, log2_mul_pow hne, hlog,
      Nat.add_sub_cancel_left, Nat.shiftLeft_eq, hround, hs, Nat.mul_add, Nat.mul_one,
      Nat.mul_comm s, Nat.add_assoc]

theorem units_lt (exponent : Fin 2047) (fraction : Fin fractionCount) {n : Nat}
    (hn : shift exponent ≤ n) :
    significand exponent fraction <<< shift exponent < 2 ^ 53 * 2 ^ n := by
  have hsignificand : significand exponent fraction < fractionCount + fractionCount := by
    rw [significand]
    split <;> omega
  rw [Nat.shiftLeft_eq]
  exact Nat.mul_lt_mul_of_lt_of_le hsignificand (Nat.pow_le_pow_right (by decide) hn)
    (Nat.two_pow_pos _)

theorem decimalLength_le_iff {n k : Nat} (hk : 0 < k) : decimalLength n ≤ k ↔ n < 10 ^ k :=
  Nat.length_toDigits_le_iff (by decide) hk

/-- All digits of a magnitude read back. -/
theorem toBinary64_exactDecimal (exponent : Fin 2047) (fraction : Fin fractionCount) :
    (exactDecimal exponent fraction).toBinary64 false = finite false exponent fraction := by
  have hread := nearest_units false exponent fraction
    (by decide +kernel : Nat.pow 5 1074 <<< 1074 = tenTo 1074) (by decide +kernel)
  have hunits := units_lt exponent fraction (n := 2045) (by rw [shift]; omega)
  rw [exactDecimal]
  generalize hm : significand exponent fraction <<< shift exponent = units at hread hunits ⊢
  by_cases hzero : units = 0
  · generalize Nat.pow 5 1074 = a at hread ⊢
    rw [hzero, Nat.zero_mul] at hread ⊢
    rw [← hread]
    decide +kernel
  -- between these bounds the conversion neither overflows nor underflows at once
  have hpos : 0 < units := Nat.pos_of_ne_zero hzero
  have hlower : ¬ units * Nat.pow 5 1074 < 10 ^ 750 := by
    have hle := Nat.mul_le_mul_right (Nat.pow 5 1074) hpos
    have hpow : 10 ^ 750 ≤ Nat.succ 0 * Nat.pow 5 1074 := by decide +kernel
    exact Nat.not_lt.2 (Nat.le_trans hpow hle)
  have hupper : units * Nat.pow 5 1074 < 10 ^ 1383 :=
    Nat.lt_of_lt_of_le (Nat.mul_lt_mul_of_pos_right hunits (by decide +kernel)) (by decide +kernel)
  have hdigits : units * Nat.pow 5 1074 ≠ 0 := Nat.mul_ne_zero hzero (by decide +kernel)
  have hmax : decimalLength (units * Nat.pow 5 1074) ≤ 1383 :=
    (decimalLength_le_iff (by decide)).2 hupper
  have hmin : ¬ decimalLength (units * Nat.pow 5 1074) ≤ 750 :=
    mt (decimalLength_le_iff (by decide)).1 hlower
  simp only [Decimal.toBinary64, if_neg hdigits]
  rw [if_neg (by omega), if_neg (by omega), if_neg (by decide)]
  exact hread

theorem toBinary64_shortestDecimal (negative : Bool) (exponent : Fin 2047)
    (fraction : Fin fractionCount) :
    (shortestDecimal exponent fraction).toBinary64 negative =
      finite negative exponent fraction := by
  rw [← Decimal.signed_toBinary64, shortestDecimal]
  dsimp only
  rw [Decimal.toBinary64_dropZeros]
  cases hfound : firstReadingBack (finite false exponent fraction) (quotient exponent fraction).1
      (quotient exponent fraction).2 _ 17 with
  | none =>
    rw [Option.getD_none, toBinary64_exactDecimal]
    rfl
  | some d =>
    rw [Option.getD_some, reads_back_of_firstReadingBack hfound]
    rfl

end Binary64

/-! ### Reading digits -/

namespace Decimal

theorem ofDigits_eq (acc : Nat) (cs : List Char) :
    ofDigits acc cs = Nat.ofDigitChars 10 cs acc := by
  simp only [ofDigits, Nat.ofDigitChars, Nat.mul_comm]

/-- Digits end at the first character that is none. -/
theorem takeWhile_digits {cs r : List Char} (hcs : ∀ c ∈ cs, c.isDigit = true)
    (hr : r.takeWhile Char.isDigit = []) : (cs ++ r).takeWhile Char.isDigit = cs := by
  rw [List.takeWhile_append_of_pos hcs, hr, List.append_nil]

theorem dropWhile_digits {cs r : List Char} (hcs : ∀ c ∈ cs, c.isDigit = true)
    (hr : r.dropWhile Char.isDigit = r) : (cs ++ r).dropWhile Char.isDigit = r := by
  rw [List.dropWhile_append_of_pos hcs, hr]

section

variable (whole part : List Char) (hne : whole ≠ []) (hwhole : ∀ c ∈ whole, c.isDigit = true)
  (hpart : ∀ c ∈ part, c.isDigit = true)

include hne hwhole

theorem readUnsigned_exponent (rest : List Char) :
    readUnsigned (whole ++ 'e' :: rest) =
      (readExponent rest).map fun e => ⟨ofDigits 0 whole, e⟩ := by
  rw [readUnsigned, takeWhile_digits hwhole rfl, dropWhile_digits hwhole rfl]
  simp [hne, ofDigits]

include hpart

theorem readUnsigned_point :
    readUnsigned (whole ++ '.' :: part) =
      some ⟨ofDigits (ofDigits 0 whole) part, -part.length⟩ := by
  have htake := takeWhile_digits (r := []) hpart rfl
  have hdrop := dropWhile_digits (r := []) hpart rfl
  rw [List.append_nil] at htake hdrop
  rw [readUnsigned, takeWhile_digits hwhole rfl, dropWhile_digits hwhole rfl]
  simp [hne, htake, hdrop]

theorem readUnsigned_point_exponent (rest : List Char) :
    readUnsigned (whole ++ '.' :: (part ++ 'e' :: rest)) =
      (readExponent rest).map fun e => ⟨ofDigits (ofDigits 0 whole) part, e - part.length⟩ := by
  rw [readUnsigned, takeWhile_digits hwhole rfl, dropWhile_digits hwhole rfl]
  simp [hne, takeWhile_digits (r := 'e' :: rest) hpart rfl,
    dropWhile_digits (r := 'e' :: rest) hpart rfl]

end

theorem ofDigits_natText (n : Nat) : ofDigits 0 (natText n) = n := by
  rw [ofDigits_eq, natText, Nat.ofDigitChars_ten_toDigits]

/-- Digits neither start with a sign nor end before their end. -/
theorem readExponent_natText (n : Nat) : readExponent (natText n) = some (n : Int) ∧
    readExponent ('-' :: natText n) = some (-(n : Int)) := by
  have hvalue := ofDigits_natText n
  have hdigits := fun c => isDigit_of_mem_natText (n := n) (c := c)
  have hne := natText_ne_nil n
  generalize natText n = cs at hvalue hdigits hne
  constructor
  · rw [readExponent.eq_def]
    split
    rename_i hsign
    split at hsign
    · exact absurd (hdigits '-' List.mem_cons_self) (by decide)
    · exact absurd (hdigits '+' List.mem_cons_self) (by decide)
    · cases hsign
      simpa [hne, hvalue] using hdigits
  · simpa [readExponent, hne, hvalue] using hdigits

theorem readExponent_toString (e : Int) : readExponent (toString e).toList = some e := by
  rw [Int.toString_eq_repr, Int.repr_eq_if]
  split
  · rw [Nat.toList_repr]
    refine (readExponent_natText _).1.trans ?_
    congr
    omega
  · rw [String.toList_append, Nat.toList_repr]
    refine (readExponent_natText _).2.trans ?_
    congr
    omega

theorem ofDigits_append (cs ds : List Char) :
    ofDigits 0 (cs ++ ds) = ofDigits (ofDigits 0 cs) ds := by
  rw [ofDigits, List.foldl_append]
  rfl

theorem ofDigits_zeros (acc n : Nat) : ofDigits acc (List.replicate n '0') = acc * 10 ^ n := by
  rw [ofDigits_eq, Nat.ofDigitChars_replicate_zero, Nat.mul_comm]

theorem isDigit_of_mem_zeros {n : Nat} {c : Char} (h : c ∈ List.replicate n '0') :
    c.isDigit = true := by
  rw [(List.mem_replicate.1 h).2]
  rfl

/-! ### The forms of a decimal text -/

section

variable {digits : List Char} (hne : digits ≠ []) (hdigits : ∀ c ∈ digits, c.isDigit = true)

include hdigits

theorem readUnsigned_zeros_digits (n : Nat) :
    readUnsigned ('0' :: '.' :: (List.replicate n '0' ++ digits)) =
      some ⟨ofDigits 0 digits, -(n + digits.length : Nat)⟩ := by
  have hpart : ∀ c ∈ List.replicate n '0' ++ digits, c.isDigit = true :=
    List.forall_mem_append.2 ⟨fun _ => isDigit_of_mem_zeros, hdigits⟩
  have hread := readUnsigned_point ['0'] _ (by decide) (List.forall_mem_singleton.2 rfl) hpart
  have hzero : ofDigits 0 ['0'] = 0 := rfl
  rw [hzero, ofDigits_append, ofDigits_zeros, Nat.zero_mul, List.length_append,
    List.length_replicate] at hread
  exact hread

include hne

theorem readUnsigned_digits_zeros (n : Nat) :
    readUnsigned (digits ++ List.replicate n '0' ++ ['.', '0']) =
      some ⟨ofDigits 0 digits * 10 ^ (n + 1), -1⟩ := by
  have hwhole : ∀ c ∈ digits ++ List.replicate n '0', c.isDigit = true :=
    List.forall_mem_append.2 ⟨hdigits, fun _ => isDigit_of_mem_zeros⟩
  have hread := readUnsigned_point _ ['0'] (by simp [hne]) hwhole
    (List.forall_mem_singleton.2 rfl)
  rw [ofDigits_append, ofDigits_zeros] at hread
  rw [Nat.pow_succ, ← Nat.mul_assoc]
  exact hread

theorem readUnsigned_take_drop {n : Nat} (hn : 0 < n) :
    readUnsigned (digits.take n ++ '.' :: digits.drop n) =
      some ⟨ofDigits 0 digits, -(digits.length - n : Nat)⟩ := by
  have hread := readUnsigned_point (digits.take n) (digits.drop n)
    (by simp [hne, Nat.ne_of_gt hn]) (fun c hc => hdigits c (List.mem_of_mem_take hc))
    (fun c hc => hdigits c (List.mem_of_mem_drop hc))
  rw [← ofDigits_append, List.take_append_drop, List.length_drop] at hread
  exact hread

end

/-- The text of a decimal number writes it, if need be with zeros at the end of its digits. -/
theorem readUnsigned_decimalText (d : Decimal) :
    ∃ k : Nat, readUnsigned (Binary64.decimalText d).toList =
      some ⟨d.digits * 10 ^ k, d.exponent - k⟩ := by
  have hvalue := ofDigits_natText d.digits
  have hdigits := fun c => isDigit_of_mem_natText (n := d.digits) (c := c)
  have hne := natText_ne_nil d.digits
  rw [natText] at hvalue hdigits hne
  rw [Binary64.decimalText]
  generalize Nat.toDigits 10 d.digits = digits at hvalue hdigits hne
  dsimp only
  split
  · split
    · refine ⟨0, ?_⟩
      have hread := readUnsigned_zeros_digits hdigits (-(digits.length + d.exponent)).toNat
      have hpoint : "0.".toList = ['0', '.'] := rfl
      rw [String.toList_append, hpoint, String.toList_ofList, List.cons_append, List.cons_append,
        List.nil_append, hread, hvalue]
      congr 2 <;> omega
    · split
      · refine ⟨(digits.length + d.exponent).toNat - digits.length + 1, ?_⟩
        have hread := readUnsigned_digits_zeros hne hdigits
          ((digits.length + d.exponent).toNat - digits.length)
        have hpoint : ".0".toList = ['.', '0'] := rfl
        rw [String.toList_append, hpoint, String.toList_ofList, hread, hvalue]
        congr 2
        omega
      · refine ⟨0, ?_⟩
        have hread := readUnsigned_take_drop hne hdigits (n := (digits.length + d.exponent).toNat)
          (by omega)
        have hpoint : ".".toList = ['.'] := rfl
        rw [String.toList_append, String.toList_append, hpoint, String.toList_ofList,
          String.toList_ofList, List.append_assoc, List.singleton_append, hread,
          hvalue]
        congr 2 <;> omega
  · refine ⟨0, ?_⟩
    have hletter : "e".toList = ['e'] := rfl
    rcases digits with - | ⟨c, - | ⟨c', cs⟩⟩
    · exact absurd rfl hne
    · have hread := readUnsigned_exponent [c] hne hdigits
        (toString (([c].length : Int) + d.exponent - 1)).toList
      rw [readExponent_toString, hvalue, Option.map_some] at hread
      rw [String.toList_append, String.toList_append, hletter, String.toList_ofList,
        List.append_assoc]
      have hexponent : ([c].length : Int) + d.exponent - 1 = d.exponent - (0 : Nat) := by
        rw [List.length_singleton]
        omega
      refine hread.trans ?_
      rw [Nat.pow_zero, Nat.mul_one, hexponent]
    · rw [List.forall_mem_cons] at hdigits
      have hread := readUnsigned_point_exponent [c] (c' :: cs) (by simp)
        (List.forall_mem_singleton.2 hdigits.1) hdigits.2
        (toString (((c :: c' :: cs).length : Int) + d.exponent - 1)).toList
      rw [readExponent_toString, ← ofDigits_append, List.singleton_append, List.singleton_append,
        hvalue, Option.map_some] at hread
      rw [String.toList_append, String.toList_append, hletter, String.toList_ofList,
        List.append_assoc, List.singleton_append, List.cons_append, List.cons_append, hread]
      congr 2
      · simp
      · simp
        omega

theorem exists_cons_of_readUnsigned {cs : List Char} {d : Decimal}
    (h : readUnsigned cs = some d) : ∃ c rest, cs = c :: rest ∧ (c.isDigit = true ∨ c = '.') := by
  cases cs with
  | nil => cases h
  | cons c rest =>
    refine ⟨c, rest, rfl, ?_⟩
    by_cases hdigit : c.isDigit = true
    · exact .inl hdigit
    · by_cases hpoint : c = '.'
      · exact .inr hpoint
      · simp [readUnsigned, hdigit, hpoint] at h

end Decimal

namespace Binary64

theorem toLower_eq_of_isDigit {c : Char} (h : c.isDigit = true) : c.toLower = c := by
  rw [Char.isDigit, Bool.and_eq_true, decide_eq_true_eq, decide_eq_true_eq] at h
  refine dif_neg ?_
  rintro ⟨hupper, -⟩
  exact absurd (UInt32.le_trans hupper h.2) (by decide)

/-- A decimal text is no word, and its sign is that of the number. -/
theorem read?_of_readUnsigned {cs : List Char} {d : Decimal}
    (h : Decimal.readUnsigned cs = some d) :
    read? (String.ofList cs) = some (d.toBinary64 false) ∧
      read? (String.ofList ('-' :: cs)) = some (d.toBinary64 true) := by
  obtain ⟨c, rest, rfl, hc⟩ := Decimal.exists_cons_of_readUnsigned h
  have hlower : c.toLower = c := by
    rcases hc with hdigit | rfl
    · exact toLower_eq_of_isDigit hdigit
    · rfl
  have hword (word : String)
      (hhead : word.toList.head?.any (fun d => d.isDigit || d == '.') = false) :
      String.ofList ((c :: rest).map Char.toLower) ≠ word := by
    rintro rfl
    rw [String.toList_ofList, List.map_cons, List.head?_cons, Option.any_some, hlower] at hhead
    rcases hc with hdigit | rfl
    · rw [hdigit] at hhead
      cases hhead
    · cases hhead
  have hinf := hword "inf" rfl
  have hinfinity := hword "infinity" rfl
  have hnan := hword "nan" rfl
  constructor
  · rw [read?.eq_def, String.toList_ofList]
    split
    rename_i hsign
    split at hsign
    · rename_i heq
      cases heq
      simp at hc
    · rename_i heq
      cases heq
      simp at hc
    · cases hsign
      split
      · contradiction
      · contradiction
      · contradiction
      · exact congrArg (Option.map (·.toBinary64 false)) h
  · rw [read?.eq_def, String.toList_ofList]
    dsimp only
    split
    · contradiction
    · contradiction
    · contradiction
    · exact congrArg (Option.map (·.toBinary64 true)) h

/-- The text of a finite number without its sign. -/
def magnitudeText (exponent : Fin 2047) (fraction : Fin fractionCount) : String :=
  if exponent.val = 0 ∧ fraction.val = 0 then "0.0"
  else decimalText (shortestDecimal exponent fraction)

theorem text_finite (negative : Bool) (exponent : Fin 2047) (fraction : Fin fractionCount) :
    (finite negative exponent fraction).text =
      if negative then "-" ++ magnitudeText exponent fraction
      else magnitudeText exponent fraction := rfl

theorem readUnsigned_magnitudeText (exponent : Fin 2047) (fraction : Fin fractionCount) :
    ∃ d, Decimal.readUnsigned (magnitudeText exponent fraction).toList = some d ∧
      ∀ negative, d.toBinary64 negative = finite negative exponent fraction := by
  rw [magnitudeText]
  split
  · rename_i hzero
    refine ⟨⟨0, -1⟩, rfl, fun negative => ?_⟩
    rw [← ofOrdinal_finite, hzero.1, hzero.2, Nat.mul_zero, Decimal.toBinary64, if_pos rfl]
  · obtain ⟨k, hread⟩ := Decimal.readUnsigned_decimalText (shortestDecimal exponent fraction)
    refine ⟨_, hread, fun negative => ?_⟩
    rw [Decimal.toBinary64_scale, toBinary64_shortestDecimal]

/-- Reading the text of a number gives the number. -/
theorem read?_text (x : Binary64) : read? x.text = some x := by
  cases x with
  | nan => rfl
  | infinite negative => cases negative <;> rfl
  | finite negative exponent fraction =>
    obtain ⟨d, hread, hnumber⟩ := readUnsigned_magnitudeText exponent fraction
    obtain ⟨hpositive, hnegative⟩ := read?_of_readUnsigned hread
    rw [text_finite, ← hnumber negative]
    cases negative with
    | false => simpa using hpositive
    | true =>
      rw [String.ofList_cons, String.ofList_toList] at hnegative
      exact hnegative

theorem text_injective {x y : Binary64} (h : x.text = y.text) : x = y := by
  have hread := read?_text x
  rw [h, read?_text] at hread
  exact (Option.some.inj hread).symm

end Binary64

end QueryCompiler
