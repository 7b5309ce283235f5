import Mathlib.Data.List.DropRight
import RealtimeNotify.Python.Json

/-!
# `float.__repr__`

A float is kept as the decimal it was written as. Here that decimal is rounded to
a double, ties to even, and the double is printed with the fewest digits that
round back to it. A decimal beyond the largest double is an infinity.
-/

namespace RealtimeNotify.Python

/-! ## To a double -/

/-- `num / den` as an integer, ties to even. -/
def roundHalfEven (num den : Nat) : Nat :=
  let q := num / den
  if 2 * (num % den) < den ∨ 2 * (num % den) = den ∧ q % 2 = 0 then q else q + 1

/-- The largest `e` with `2 ^ e ≤ num / den`. -/
def floorLog2 (num den : Nat) : Int :=
  let e : Int := (Nat.log2 num : Int) - Nat.log2 den
  if den * 2 ^ e.toNat ≤ num * 2 ^ (-e).toNat then e else e - 1

/-- A finite positive double: `mantissa · 2 ^ exponent`. -/
structure Double where
  mantissa : Nat
  exponent : Int
  deriving DecidableEq

/-- The double nearest to `num / den`, of 53 bits and no exponent below that of the
smallest subnormal; `none` from half a unit beyond the largest double on. -/
def Double.nearest (num den : Nat) : Option Double :=
  let exponent := max (floorLog2 num den - 52) (-1074)
  let mantissa := roundHalfEven (num * 2 ^ (-exponent).toNat) (den * 2 ^ exponent.toNat)
  let x : Double := if mantissa = 2 ^ 53 then ⟨2 ^ 52, exponent + 1⟩ else ⟨mantissa, exponent⟩
  if x.exponent ≤ 971 then some x else none

/-- The double nearest to `digits · 10 ^ exponent`, for digits that are not zero. -/
def Double.ofDecimal (digits : Nat) (exponent : Int) : Option Double :=
  if digits = 0 then none
  else nearest (digits * 10 ^ exponent.toNat) (10 ^ (-exponent).toNat)

/-- A finite number, written or as a double. -/
def PyFloat.isFinite : PyFloat → Bool
  | decimal _ digits exponent => digits = 0 || (Double.ofDecimal digits exponent).isSome
  | nan => false
  | infinity _ => false

/-! ## The fewest digits -/

/-- The `k` with `10 ^ (k - 1) ≤ num / den < 10 ^ k`. -/
def decimalPoint (num den : Nat) : Int :=
  if den ≤ num then (Nat.toDigits 10 (num / den)).length
  else 1 - ((List.range 325).find? fun j => den ≤ num * 10 ^ j).getD 324

/-- A decimal that rounds to `x`, of as few digits as possible and with these as
near to it as can be. Seventeen digits always do, so `written` is never taken. -/
def Double.shortest (x : Double) (written : Nat × Int) : Nat × Int :=
  let num := x.mantissa * 2 ^ x.exponent.toNat
  let den := 2 ^ (-x.exponent).toNat
  let round := fun n : Nat =>
    let e := decimalPoint num den - n
    let a := num * 10 ^ (-e).toNat
    let b := den * 10 ^ e.toNat
    ([roundHalfEven a b, a / b, a / b + 1].find? fun d => ofDecimal d e = some x).map (·, e)
  ((List.range' 1 17).findSome? round).getD written

/-! ## Printing -/

/-- An exponent has a sign and two digits at least. -/
def exponentText (n : Int) : List Char :=
  let digits := Nat.toDigits 10 n.natAbs
  'e' :: (if n < 0 then '-' else '+') :: (if digits.length < 2 then '0' :: digits else digits)

/-- Digits with the point behind the first `decpt` of them: in full while
`-4 < decpt ≤ 16`, else with an exponent. -/
def formatRepr (digits : List Char) (decpt : Int) : List Char :=
  if -4 < decpt ∧ decpt ≤ 0 then
    '0' :: '.' :: (List.replicate (-decpt).toNat '0' ++ digits)
  else if 0 < decpt ∧ decpt ≤ 16 then
    if decpt.toNat < digits.length then digits.take decpt.toNat ++ '.' :: digits.drop decpt.toNat
    else digits ++ (List.replicate (decpt.toNat - digits.length) '0' ++ ['.', '0'])
  else
    digits.take 1 ++ ((if digits.length = 1 then [] else '.' :: digits.drop 1) ++
      exponentText (decpt - 1))

/-- `repr` of `digits · 10 ^ exponent`. -/
def decimalRepr (digits : Nat) (exponent : Int) : List Char :=
  let row := Nat.toDigits 10 digits
  formatRepr (row.rdropWhile (· = '0')) (row.length + exponent)

def signText (negative : Bool) : List Char := if negative then ['-'] else []

/-- `float.__repr__`, with the names that `json` has for what is not finite. -/
def PyFloat.repr : PyFloat → List Char
  | nan => "NaN".toList
  | infinity negative => signText negative ++ "Infinity".toList
  | decimal negative digits exponent =>
      signText negative ++
        if digits = 0 then "0.0".toList
        else match Double.ofDecimal digits exponent with
          | none => "Infinity".toList
          | some x =>
              -- too small for the least subnormal
              if x.mantissa = 0 then "0.0".toList
              else
                let (d, e) := x.shortest (digits, exponent)
                decimalRepr d e

example : (PyFloat.decimal true 150 (-2)).repr = "-1.5".toList := by decide +kernel
example : (PyFloat.decimal false 1 23).repr = "1e+23".toList := by decide +kernel
example : (PyFloat.decimal false 1 999).repr = "Infinity".toList := by decide +kernel

end RealtimeNotify.Python
