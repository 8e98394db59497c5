import Coffer.Decimal.Shortest

-- How the digits of a double are set out. A layout says which exponents of the
-- leading digit are written positionally and how the others are marked.

namespace Coffer.Double

structure Layout where
  lowest : Int
  highest : Int
  plus : Bool
  exponentWidth : Nat

-- Numbers in messages: `0.0001`, `1e-05`, `1e+16`.
def Layout.shown : Layout := ⟨-4, 15, true, 2⟩

-- Numbers in records: `0.00001`, `1e-6`, `1e16`.
def Layout.stored : Layout := ⟨-5, 15, false, 1⟩

def digitsOf (n : Nat) : List Char := Nat.toDigits 10 n

def Layout.exponent (l : Layout) (e : Int) : List Char :=
  let magnitude := digitsOf e.natAbs
  let padded := List.replicate (l.exponentWidth - magnitude.length) '0' ++ magnitude
  if e < 0 then '-' :: padded else if l.plus then '+' :: padded else padded

def Layout.render (l : Layout) (x : Decimal) : List Char :=
  let ds := digitsOf x.digits
  let lead := x.exponent + ds.length - 1
  if lead < l.lowest ∨ l.highest < lead then
    let mantissa :=
      match ds with
      | d :: e :: rest => d :: '.' :: e :: rest
      | _ => ds
    mantissa ++ 'e' :: l.exponent lead
  else if 0 ≤ x.exponent then ds ++ List.replicate x.exponent.toNat '0' ++ ['.', '0']
  else if 0 ≤ lead then ds.take (lead.toNat + 1) ++ '.' :: ds.drop (lead.toNat + 1)
  else ['0', '.'] ++ List.replicate (-lead - 1).toNat '0' ++ ds

def signed (negative : Bool) (cs : List Char) : List Char :=
  if negative then '-' :: cs else cs

-- `none` for what has no digits: infinities and not-a-number.
def layout? (l : Layout) (x : Double) : Option (List Char) :=
  match x.shape with
  | .finite negative mantissa exponent =>
      some (signed negative (l.render (shortest mantissa exponent)))
  | _ => none

def shown (x : Double) : String :=
  match x.layout? .shown, x.shape with
  | some cs, _ => String.ofList cs
  | none, .infinite true => "-inf"
  | none, .infinite false => "inf"
  | none, _ => "nan"

end Coffer.Double
