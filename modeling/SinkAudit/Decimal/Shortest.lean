import SinkAudit.Decimal.Binary64

/-! # Shortest decimals

The decimal text of a number has the fewest digits that read back as the same number; among those
it is the nearest one. -/
namespace SinkAudit.Decimal

/-- The numbers that round to `m · 2 ^ e`, in units of a quarter of the last place: the lower end,
the number and the upper end. The gap below a power of two is half as wide. -/
def roundingInterval (m : Nat) (e : Int) : Nat × Nat × Nat :=
  let below := if m == leastNormal && minExponent < e then 1 else 2
  (4 * m - below, 4 * m, 4 * m + 2)

/-- Compares `c · 10 ^ t` with `x · 2 ^ e`. -/
def compareScaled (c : Nat) (t : Int) (x : Nat) (e : Int) : Ordering :=
  let (p, q) := scaleTwo x e
  let (a, b) := if 0 ≤ t then (c * Nat.pow 10 t.toNat, 1) else (c, Nat.pow 10 (-t).toNat)
  compare (a * q) (p * b)

/-- The least `k` from `k` on with `x · 2 ^ e < 10 ^ k`. -/
def decimalPointFrom (x : Nat) (e : Int) : Nat → Int → Int
  | 0, k => k
  | fuel + 1, k => if compareScaled 1 k x e == .gt then k else decimalPointFrom x e fuel (k + 1)

/-- The number of digits before the decimal point; negative where zeros follow the point. -/
def decimalPoint (x : Nat) (e : Int) : Int := decimalPointFrom x e 700 (-340)

/-- `x · 2 ^ e / 10 ^ t`, rounded down. -/
def floorScaled (x : Nat) (e t : Int) : Nat :=
  let (p, q) := scaleTwo x e
  if 0 ≤ t then p / (q * Nat.pow 10 t.toNat) else p * Nat.pow 10 (-t).toNat / q

/-- Whether `c · 10 ^ t` rounds to `m · 2 ^ e`. -/
def roundsTo (m : Nat) (e : Int) (c : Nat) (t : Int) : Bool :=
  let (lo, _, hi) := roundingInterval m e
  let low := compareScaled c t lo (e - 2)
  let high := compareScaled c t hi (e - 2)
  if m % 2 == 0 then low != .lt && high != .gt else low == .gt && high == .lt

/-- The digits of one grid that round to `m · 2 ^ e`, the nearer of the two neighbours. -/
def onGrid? (m : Nat) (e t : Int) : Option Nat :=
  let below := floorScaled (4 * m) (e - 2) t
  let down := roundsTo m e below t
  let up := roundsTo m e (below + 1) t
  match down, up with
  | false, false => none
  | true, false => some below
  | false, true => some (below + 1)
  | true, true =>
    match compareScaled (2 * below + 1) t (8 * m) (e - 2) with
    | .gt => some below
    | .lt => some (below + 1)
    | .eq => some (if below % 2 == 0 then below else below + 1)

/-- Tries grids with ever more digits. -/
def shortestFrom (m : Nat) (e point : Int) : Nat → Nat → Nat × Int
  | 0, n => (floorScaled (4 * m) (e - 2) (point - n), point - n)
  | fuel + 1, n =>
    match onGrid? m e (point - n) with
    | some c => (c, point - n)
    | none => shortestFrom m e point fuel (n + 1)

/-- Digits `c` and exponent `t` such that `c · 10 ^ t` is the shortest decimal for `m · 2 ^ e`. -/
def shortest (m : Nat) (e : Int) : Nat × Int :=
  shortestFrom m e (decimalPoint (4 * m) (e - 2)) 17 1

/-- Drops zeros at the end of the digits. -/
def dropZeros (digits : List Char) : List Char := (digits.reverse.dropWhile (· == '0')).reverse

/-- How decimals are written: positional where the decimal point falls after at least `-3` and at
most `16` digits, otherwise with an exponent of at least two digits. -/
def writeDecimal (digits : List Char) (point : Int) : List Char :=
  let zeros (n : Nat) := List.replicate n '0'
  if -4 < point && point ≤ 16 then
    if point ≤ 0 then '0' :: '.' :: zeros (-point).toNat ++ digits
    else
      let n := point.toNat
      if digits.length ≤ n then digits ++ zeros (n - digits.length) ++ ['.', '0']
      else digits.take n ++ '.' :: digits.drop n
  else
    let fraction := if digits.length ≤ 1 then digits else digits.take 1 ++ '.' :: digits.drop 1
    let e := point - 1
    let places := Nat.toDigits 10 e.natAbs
    fraction ++ 'e' :: (if e < 0 then '-' else '+') ::
      (if places.length < 2 then '0' :: places else places)

/-- The digits of a finite number, its sign left out. -/
def finiteText (m : Nat) (e : Int) : List Char :=
  if m == 0 then ['0', '.', '0']
  else
    let (c, t) := shortest m e
    let digits := Nat.toDigits 10 c
    writeDecimal (dropZeros digits) (t + digits.length)

/-- The text of a number; `notANumber` and `infinite` are the words for the other values. -/
def Binary64.text (notANumber infinite : String) : Binary64 → String
  | .nan => notANumber
  | .infinity negative => (if negative then "-" else "") ++ infinite
  | .finite negative m e => (if negative then "-" else "") ++ String.ofList (finiteText m e)

end SinkAudit.Decimal
