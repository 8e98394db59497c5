-- Double precision numbers as their bits, with exact conversions from ratios,
-- integers and decimals. Rounding goes to the nearest, ties to the even one.

namespace Coffer

structure Double where
  bits : UInt64
  deriving DecidableEq, Repr

namespace Double

-- The bits above the fraction and above the exponent, as numbers.
def hiddenBit : Nat := 0x10000000000000

def signBit : Nat := 0x8000000000000000

-- A finite number is `mantissa * 2 ^ exponent`, up to its sign.
inductive Shape where
  | nan
  | infinite (negative : Bool)
  | finite (negative : Bool) (mantissa : Nat) (exponent : Int)
  deriving DecidableEq, Repr

def shape (x : Double) : Shape :=
  let n := x.bits.toNat
  let negative : Bool := signBit ≤ n
  let biased : Nat := n / hiddenBit % 2048
  let fraction : Nat := n % hiddenBit
  if biased = 2047 then if fraction = 0 then .infinite negative else .nan
  else if biased = 0 then .finite negative fraction (-1074)
  else .finite negative (hiddenBit + fraction) ((biased : Int) - 1075)

def ofMagnitude (negative : Bool) (n : Nat) : Double :=
  ⟨UInt64.ofNat (if negative then signBit + n else n)⟩

def infinity (negative : Bool) : Double := ofMagnitude negative (2047 * hiddenBit)

def nan : Double := ofMagnitude false (2047 * hiddenBit + hiddenBit / 2)

-- The one not-a-number that has a name of its own: it is identical to itself, where
-- the anonymous ones are identical to nothing.
def namedNan : Double := ofMagnitude false (2047 * hiddenBit + hiddenBit / 2 + 1)

def zero (negative : Bool) : Double := ofMagnitude negative 0

def isInfinite (x : Double) : Bool :=
  match x.shape with
  | .infinite _ => true
  | _ => false

-- Whether two doubles that stand for no finite number are one and the same.
def isIdentical (x y : Double) : Bool := (x.isInfinite || x == namedNan) && x == y

-- The quotient to the nearest integer, a half to the even one.
def roundQuotient (num den : Nat) : Nat :=
  let q := num / den
  let twice := 2 * (num % den)
  if twice < den then q
  else if den < twice then q + 1
  else if q % 2 = 0 then q else q + 1

-- `num * 2 ^ -shift / den` as a pair of naturals.
def scaleRatio (num den : Nat) (shift : Int) : Nat × Nat :=
  if 0 ≤ shift then (num, den * Nat.pow 2 shift.toNat) else (num * Nat.pow 2 (-shift).toNat, den)

-- The exponent of the leading bit of `num / den`.
def leadingBit (num den : Nat) : Int :=
  let guess : Int := Nat.log2 num - Nat.log2 den
  let (n, d) := scaleRatio num den guess
  if n < d then guess - 1 else guess

def ofRatio (negative : Bool) (num den : Nat) : Double :=
  if num = 0 then zero negative
  else
    let exponent := max (leadingBit num den - 52) (-1074)
    let (n, d) := scaleRatio num den exponent
    let magnitude := (exponent + 1074).toNat * hiddenBit + roundQuotient n d
    if 2047 * hiddenBit ≤ magnitude then infinity negative else ofMagnitude negative magnitude

def ofInt (n : Int) : Double := ofRatio (n < 0) n.natAbs 1

def countDigits (n : Nat) : Nat := (Nat.toDigits 10 n).length

-- `digits * 10 ^ exponent`. Far beyond the range the powers are not computed.
def ofDecimal (negative : Bool) (digits : Nat) (exponent : Int) : Double :=
  let order := exponent + countDigits digits
  if digits = 0 ∨ order < -400 then zero negative
  else if 400 < order then infinity negative
  else if 0 ≤ exponent then ofRatio negative (digits * Nat.pow 10 exponent.toNat) 1
  else ofRatio negative digits (Nat.pow 10 (-exponent).toNat)

-- The exact value of a finite number as a signed numerator and a denominator.
def ratio? (x : Double) : Option (Int × Nat) :=
  match x.shape with
  | .finite negative mantissa exponent =>
      let (n, d) := scaleRatio mantissa 1 (-exponent)
      some (if negative then -(n : Int) else n, d)
  | _ => none

def negate (x : Double) : Double := ⟨x.bits ^^^ 0x8000000000000000⟩

-- A sum that is exactly zero is positive, unless both terms are negative zeros.
def add (x y : Double) : Double :=
  match x.shape, y.shape with
  | .nan, _ | _, .nan => nan
  | .infinite s, .infinite t => if s = t then x else nan
  | .infinite _, _ => x
  | _, .infinite _ => y
  | .finite s _ _, .finite t _ _ =>
      match x.ratio?, y.ratio? with
      | some (a, b), some (c, d) =>
          let num := a * d + c * b
          if num = 0 then zero (s && t) else ofRatio (num < 0) num.natAbs (b * d)
      | _, _ => nan

def isNegative (x : Double) : Bool := signBit ≤ x.bits.toNat

-- An infinity times zero is not a number.
def mul (x y : Double) : Double :=
  let negative := x.isNegative != y.isNegative
  match x.shape, y.shape with
  | .nan, _ | _, .nan => nan
  | .infinite _, .infinite _ => infinity negative
  | .infinite _, .finite _ m _ | .finite _ m _, .infinite _ => if m = 0 then nan else infinity negative
  | .finite .., .finite .. =>
      match x.ratio?, y.ratio? with
      | some (a, b), some (c, d) => ofRatio negative (a.natAbs * c.natAbs) (b * d)
      | _, _ => nan

def isBelowOne (x : Double) : Bool :=
  match x.ratio? with
  | some (a, b) => a < b
  | none => false

-- The whole part of a number that is not negative; nothing if it is not finite.
def floor? (x : Double) : Option Nat := x.ratio?.map fun (a, b) => a.natAbs / b

end Double

end Coffer
