import Coffer.Decimal.Double

-- The shortest decimal that reads back as a given double, the nearest one if
-- several are as short. All comparisons are between naturals.

namespace Coffer.Double

-- `digits * 10 ^ exponent`, without trailing zeros in the digits.
structure Decimal where
  digits : Nat
  exponent : Int
  deriving DecidableEq, Repr

-- The numbers that round to `mantissa * 2 ^ exponent`, in units of a quarter of
-- the last place: from `4 * mantissa - below` to `4 * mantissa + 2`, the ends
-- included when the mantissa is even.
structure Neighbourhood where
  mantissa : Nat
  exponent : Int
  deriving Repr

namespace Neighbourhood

def below (v : Neighbourhood) : Nat :=
  if v.mantissa = hiddenBit ∧ -1074 < v.exponent then 1 else 2

-- `d * 10 ^ p` in quarters of the last place, as a ratio.
def quarters (v : Neighbourhood) (d : Nat) (p : Int) : Nat × Nat :=
  let tens := if 0 ≤ p then (d * Nat.pow 10 p.toNat, 1) else (d, Nat.pow 10 (-p).toNat)
  scaleRatio tens.1 tens.2 (v.exponent - 2)

def holds (v : Neighbourhood) (d : Nat) (p : Int) : Bool :=
  let (n, m) := v.quarters d p
  let low := (4 * v.mantissa - v.below) * m
  let high := (4 * v.mantissa + 2) * m
  if v.mantissa % 2 = 0 then low ≤ n && n ≤ high else low < n && n < high

-- Twice the distance from `d * 10 ^ p` to the number itself, over the
-- denominator that `quarters` gives for `p`.
def distance (v : Neighbourhood) (d : Nat) (p : Int) : Nat :=
  let (n, m) := v.quarters d p
  let centre := 4 * v.mantissa * m
  if n ≤ centre then centre - n else n - centre

-- The largest `d` with `d * 10 ^ p` not above the number.
def floor (v : Neighbourhood) (p : Int) : Nat :=
  let (n, m) := scaleRatio v.mantissa 1 (-v.exponent)
  if 0 ≤ p then n / (m * Nat.pow 10 p.toNat) else n * Nat.pow 10 (-p).toNat / m

-- The best of the two neighbours on the grid of multiples of `10 ^ p`.
def onGrid? (v : Neighbourhood) (p : Int) : Option Nat :=
  let d := v.floor p
  match v.holds d p && d ≠ 0, v.holds (d + 1) p with
  | false, false => none
  | true, false => some d
  | false, true => some (d + 1)
  | true, true =>
      let down := v.distance d p
      let up := v.distance (d + 1) p
      if down < up then some d
      else if up < down then some (d + 1)
      else if d % 2 = 0 then some d else some (d + 1)

-- The exponent of the leading decimal digit.
def leadingDigit (v : Neighbourhood) : Int :=
  let guess := Int.fdiv ((Nat.log2 v.mantissa + v.exponent) * 30102999566) 100000000000
  if v.floor (guess + 1) = 0 then guess else guess + 1

def searchFrom (v : Neighbourhood) (lead : Int) : Nat → Nat → Decimal
  | _, 0 => ⟨v.floor (lead - 16), lead - 16⟩
  | count, fuel + 1 =>
      let p := lead - count
      match v.onGrid? p with
      | some d => ⟨d, p⟩
      | none => searchFrom v lead (count + 1) fuel

end Neighbourhood

def dropZeros : Nat → Nat → Int → Decimal
  | 0, d, p => ⟨d, p⟩
  | fuel + 1, d, p =>
      if d % 10 = 0 ∧ d ≠ 0 then dropZeros fuel (d / 10) (p + 1) else ⟨d, p⟩

def shortest (mantissa : Nat) (exponent : Int) : Decimal :=
  if mantissa = 0 then ⟨0, 0⟩
  else
    let v : Neighbourhood := ⟨mantissa, exponent⟩
    let found := v.searchFrom v.leadingDigit 0 17
    dropZeros 20 found.digits found.exponent

end Coffer.Double
