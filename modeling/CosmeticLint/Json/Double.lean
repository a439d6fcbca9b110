/-! Binary floating-point numbers of 53 digits, and the shortest decimal that reads back as
such a number. All arithmetic is exact: a quotient is rounded once, to the nearest number,
and a tie goes to the even one. -/

namespace CosmeticLint.Json

/-- The number `mantissa * 2 ^ exponent`, with `mantissa < 2 ^ 53`. -/
structure Double where
  mantissa : Nat
  exponent : Int
  deriving Repr, DecidableEq, Inhabited

namespace Double

def zero : Double := ⟨0, -1074⟩

/-- Nearest whole number to a quotient; a half goes to the even neighbour. -/
def roundDiv (num den : Nat) : Nat :=
  let q := num / den
  let twice := 2 * (num % den)
  if den < twice || (twice = den && q % 2 = 1) then q + 1 else q

/-- `num / den` in units of `2 ^ e`, rounded. -/
def roundScaled (num den : Nat) (e : Int) : Nat :=
  if 0 ≤ e then roundDiv num (den * Nat.pow 2 e.toNat)
  else roundDiv (num * Nat.pow 2 (-e).toNat) den

/-- The number nearest to `num / den`; `none` if it is too large. -/
def ofRatio? (num den : Nat) : Option Double :=
  if num = 0 then some zero
  else
    -- the quotient lies between `2 ^ (size - 1)` and `2 ^ (size + 1)`
    let size : Int := (num.log2 : Int) - (den.log2 : Int)
    let low := max (-1074) (size - 53)
    let m := roundScaled num den low
    let (m, e) := if m < Nat.pow 2 53 then (m, low) else (roundScaled num den (low + 1), low + 1)
    let (m, e) := if m = Nat.pow 2 53 then (Nat.pow 2 52, e + 1) else (m, e)
    if 971 < e then none else some ⟨m, e⟩

/-- The number as a quotient of whole numbers. -/
def toRatio (d : Double) : Nat × Nat :=
  if 0 ≤ d.exponent then (d.mantissa * Nat.pow 2 d.exponent.toNat, 1)
  else (d.mantissa, Nat.pow 2 (-d.exponent).toNat)

def mul? (a b : Double) : Option Double :=
  let (n, d) := a.toRatio
  let (n', d') := b.toRatio
  ofRatio? (n * n') (d * d')

/-- Division by a number that is not zero. -/
def div? (a b : Double) : Option Double :=
  let (n, d) := a.toRatio
  let (n', d') := b.toRatio
  ofRatio? (n * d') (d * n')

/-- The number nearest to a power of ten. -/
def tenTo (k : Nat) : Double := (ofRatio? (Nat.pow 10 k) 1).getD zero

/-- The largest power of ten in range. -/
def maxTen : Nat := 308

/-- Divides `steps` times by the largest power of ten in range. -/
def divideSteps : (steps : Nat) → Double → Option Double
  | 0, d => some d
  | steps + 1, d => (div? d (tenTo maxTen)).bind (divideSteps steps)

/-- Divides by `10 ^ k`, a large power in steps. Nothing in range is left of any 64-bit number
after more than a thousand places. -/
def divideByTens (d : Double) (k : Nat) : Option Double :=
  if 1000 < k then some zero
  else
    let steps := (k - 1) / maxTen
    (divideSteps steps d).bind fun d => div? d (tenTo (k - steps * maxTen))

/-- The number read from digits and a decimal exponent: the digits are rounded first, and then
scaled by the nearest number to a power of ten. -/
def ofDecimal? (digits : Nat) (exponent : Int) : Option Double :=
  match ofRatio? digits 1 with
  | none => none
  | some d =>
    if exponent < 0 then divideByTens d (-exponent).toNat
    else if d.mantissa = 0 then some zero
    else if maxTen < exponent then none
    else mul? d (tenTo exponent.toNat)

/-- Whether a decimal `digits * 10 ^ exponent` reads back as the number. -/
def readsBack (d : Double) (digits : Nat) (exponent : Int) : Bool :=
  let r := if 0 ≤ exponent then ofRatio? (digits * Nat.pow 10 exponent.toNat) 1
    else ofRatio? digits (Nat.pow 10 (-exponent).toNat)
  match r with
  | some r => r.toRatio.1 * d.toRatio.2 == d.toRatio.1 * r.toRatio.2
  | none => false

/-- The two whole numbers around `num / den` in units of `10 ^ exponent`. -/
def neighbours (num den : Nat) (exponent : Int) : Nat × Nat :=
  let q := if 0 ≤ exponent then num / (den * Nat.pow 10 exponent.toNat)
    else num * Nat.pow 10 (-exponent).toNat / den
  (q, q + 1)

/-- Whether `num / den` is nearer to the upper of its two neighbours. -/
def nearerUpper (num den low : Nat) (exponent : Int) : Bool :=
  if 0 ≤ exponent then (2 * low + 1) * den * Nat.pow 10 exponent.toNat < 2 * num
  else (2 * low + 1) * den < 2 * num * Nat.pow 10 (-exponent).toNat

/-- Digits and decimal exponent of the coarsest decimal grid on which some decimal reads back,
searched from `10 ^ exponent` down. -/
def shortestFrom (d : Double) (exponent : Int) : Nat → Nat × Int
  | 0 => (0, 0)
  | tries + 1 =>
    let (num, den) := d.toRatio
    let (low, high) := neighbours num den exponent
    match readsBack d low exponent, readsBack d high exponent with
    | true, true =>
      if nearerUpper num den low exponent then (high, exponent) else (low, exponent)
    | true, false => (low, exponent)
    | false, true => (high, exponent)
    | false, false => shortestFrom d (exponent - 1) tries

/-- The shortest decimal that reads back; no digit but the first may be a final zero. -/
def shortest (d : Double) : Nat × Int :=
  if d.mantissa = 0 then (0, 0)
  else
    let (num, den) := d.toRatio
    -- `10 ^ top` is above the number
    let top : Int := ((num.log2 : Int) - (den.log2 : Int)) * 3 / 10 + 2
    shortestFrom d top 360

/-- A positive number as text: positional with a point, or with an exponent when the point would
stand more than sixteen digits after the first or five before it. -/
def text (d : Double) : String :=
  let (digits, exponent) := d.shortest
  if digits = 0 then "0.0"
  else
    let ds := Nat.toDigits 10 digits
    let n : Int := ds.length
    let point := n + exponent
    let shown : List Char :=
      if 0 ≤ exponent && point ≤ 16 then
        ds ++ List.replicate exponent.toNat '0' ++ ['.', '0']
      else if 0 < point && point ≤ 16 then
        ds.take point.toNat ++ ['.'] ++ ds.drop point.toNat
      else if -5 < point && point ≤ 0 then
        ['0', '.'] ++ List.replicate (-point).toNat '0' ++ ds
      else
        let e := (toString (point - 1)).toList
        if ds.length = 1 then ds ++ ['e'] ++ e else ds.take 1 ++ ['.'] ++ ds.drop 1 ++ ['e'] ++ e
    String.ofList shown

end Double

end CosmeticLint.Json
