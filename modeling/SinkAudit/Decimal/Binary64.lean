/-! # Double-precision numbers

A number is kept as its sign, significand and exponent, so that reading and writing decimals is
exact arithmetic on naturals. -/
namespace SinkAudit.Decimal

/-- A double-precision number. The value of `finite neg m e` is `m · 2 ^ e`, negated when `neg`
holds; `m` has at most 53 bits, and fewer than 53 only where `e` is the least exponent. -/
inductive Binary64 where
  | nan
  | infinity (negative : Bool)
  | finite (negative : Bool) (significand : Nat) (exponent : Int)
  deriving DecidableEq, Repr

/-- The exponent of the smallest positive number. -/
def minExponent : Int := -1074

/-- The least significand of 53 bits. -/
def leastNormal : Nat := 0x10000000000000

/-- The exponent of the largest finite number. -/
def maxExponent : Int := 971

def Binary64.zero (negative : Bool) : Binary64 := .finite negative 0 minExponent

/-- Whether the number is zero, of either sign. -/
def Binary64.isZero : Binary64 → Bool
  | .finite _ m _ => m == 0
  | _ => false

/-- A quotient rounded to the nearest natural, a half to the even one. -/
def roundQuotient (num den : Nat) : Nat :=
  let q := num / den
  let r := num % den
  if 2 * r < den then q else if den < 2 * r then q + 1 else if q % 2 == 0 then q else q + 1

/-- `n · 2 ^ e` as a fraction. -/
def scaleTwo (n : Nat) (e : Int) : Nat × Nat :=
  if 0 ≤ e then (n * Nat.pow 2 e.toNat, 1) else (n, Nat.pow 2 (-e).toNat)

/-- The exponent of the highest power of two that is at most `num / den`. -/
def floorLog2 (num den : Nat) : Int :=
  let e : Int := (num.log2 : Int) - (den.log2 : Int)
  let (p, q) := scaleTwo 1 e
  if num * q < den * p then e - 1 else e

/-- The number nearest to `num / den`. -/
def Binary64.ofFraction (negative : Bool) (num den : Nat) : Binary64 :=
  if num == 0 then .zero negative
  else
    let e := max (floorLog2 num den - 52) minExponent
    let (p, q) := scaleTwo 1 e
    let m := roundQuotient (num * q) (den * p)
    let (m, e) := if m == 2 * leastNormal then (leastNormal, e + 1) else (m, e)
    if maxExponent < e then .infinity negative else .finite negative m e

/-- The number nearest to `digits · 10 ^ e`. Beyond the stated bounds the result is an infinity
or zero whatever the digits. -/
def Binary64.ofDecimal (negative : Bool) (digits : Nat) (e : Int) : Binary64 :=
  let places : Int := (Nat.toDigits 10 digits).length
  if digits == 0 then .zero negative
  else if 400 < e + places then .infinity negative
  else if e + places < -400 then .zero negative
  else if 0 ≤ e then .ofFraction negative (digits * Nat.pow 10 e.toNat) 1
  else .ofFraction negative digits (Nat.pow 10 (-e).toNat)

end SinkAudit.Decimal
