import Coffer.Decimal.Double

-- Reading the text of a double: digits with an optional point and exponent, or
-- the name of a number that is not finite.

namespace Coffer.Double

def isDigit (c : Char) : Bool := '0' ≤ c && c ≤ '9'

def digitsValue (cs : List Char) : Nat := cs.foldl (fun n c => 10 * n + (c.toNat - 48)) 0

def splitSign : List Char → Bool × List Char
  | '-' :: rest => (true, rest)
  | '+' :: rest => (false, rest)
  | cs => (false, cs)

-- The exponent of ten that ends a numeral; zero if there is none.
def exponentOf? : List Char → Option Int
  | [] => some 0
  | 'e' :: rest | 'E' :: rest =>
      let (negative, ds) := splitSign rest
      if ds.isEmpty || !ds.all isDigit then none
      else
        let magnitude : Int := digitsValue ds
        some (if negative then -magnitude else magnitude)
  | _ => none

def ofUnsigned? (negative : Bool) (cs : List Char) : Option Double :=
  let whole := cs.takeWhile isDigit
  let rest := cs.dropWhile isDigit
  let (fraction, rest) :=
    match rest with
    | '.' :: rest => (rest.takeWhile isDigit, rest.dropWhile isDigit)
    | rest => ([], rest)
  if whole.isEmpty && fraction.isEmpty then none
  else do
    let exponent ← exponentOf? rest
    return ofDecimal negative (digitsValue (whole ++ fraction)) (exponent - fraction.length)

def ofNumeral? (cs : List Char) : Option Double :=
  let (negative, rest) := splitSign cs
  match String.ofList (rest.map Char.toLower) with
  | "inf" | "infinity" => some (infinity negative)
  | "nan" => some nan
  | _ => ofUnsigned? negative rest

end Coffer.Double
