import Coffer.Yaml.Plain
import Coffer.Decimal.Numeral
import Coffer.Text.Digit
import Coffer.Text.Lower

-- Integers and floats as documents spell them: underscores anywhere, other bases,
-- and parts in sixties.

namespace Coffer.Yaml.Number

def isSpace (c : Char) : Bool := c = ' ' || ('\t' ≤ c && c ≤ '\r')

def trim (cs : List Char) : List Char := ((cs.dropWhile isSpace).reverse.dropWhile isSpace).reverse

def unusable {α : Type} (message : String) : Except Failure α := .error (.unusable (.scalar message))

def maxDigits : Nat := 4300

-- An integer of too many decimal digits is not even looked at.
def checkDigits (count : Nat) : Except Failure Unit :=
  if maxDigits < count then
    unusable (s!"Exceeds the limit ({maxDigits} digits) for integer string conversion: " ++
      s!"value has {count} digits; use sys.set_int_max_str_digits() to increase the limit")
  else .ok ()

def baseMark (base : Nat) : Char :=
  if base = 2 then 'b' else if base = 8 then 'o' else 'x'

-- The digits after a mark of the base, if there is one.
def withoutMark (base : Nat) (cs : List Char) : List Char :=
  match cs with
  | '0' :: c :: rest => if base ≠ 10 && c.toLower = baseMark base then rest else cs
  | cs => cs

def isDigitOf (base : Nat) (c : Char) : Bool := (hexValue? c).any (· < base)

def digitsValue (base : Nat) (ds : List Char) : Nat :=
  ds.foldl (fun n d => base * n + (hexValue? d).getD 0) 0

-- Messages show that much of a numeral at most.
def shownLength : Nat := 200

-- A numeral in a base, a sign and spaces around it allowed. In base ten the number of
-- digits is checked before what follows them.
def inBase (base : Nat) (cs : List Char) : Except Failure Int := do
  let (negative, unsigned) := Double.splitSign ((Text.plainNumeral cs).dropWhile isSpace)
  let unmarked := withoutMark base unsigned
  let ds := unmarked.takeWhile (isDigitOf base)
  if base = 10 then checkDigits ds.length
  if ds.isEmpty || !(unmarked.dropWhile (isDigitOf base)).all isSpace then
    unusable (s!"invalid literal for int() with base {base}: " ++
      String.ofList ((Text.quotedChars cs).take shownLength))
  else
    let n : Int := digitsValue base ds
    return if negative then -n else n

def splitColons : List Char → List (List Char)
  | [] => [[]]
  | c :: rest =>
      if c = ':' then [] :: splitColons rest
      else
        match splitColons rest with
        | [] => [[c]]
        | part :: parts => (c :: part) :: parts

def ofParts (parts : List Int) : Int := parts.foldl (fun n part => 60 * n + part) 0

def magnitude (cs : List Char) : Except Failure Int :=
  match cs with
  | [] => .error .emptyNumeral
  | ['0'] => .ok 0
  | '0' :: 'b' :: rest => inBase 2 rest
  | '0' :: 'x' :: rest => inBase 16 rest
  | '0' :: _ => inBase 8 cs
  | _ =>
      if cs.contains ':' then ofParts <$> (splitColons cs).mapM (inBase 10)
      else inBase 10 cs

def withoutBars (text : String) : List Char := text.toList.filter (· ≠ '_')

def int (text : String) : Except Failure Int :=
  let cs := withoutBars text
  if cs.isEmpty then .error .emptyNumeral
  else do
    let n ← magnitude (Plain.unsigned cs)
    return if cs.head? = some '-' then -n else n

def numeral (cs : List Char) : Except Failure Double :=
  match Double.ofNumeral? (trim (Text.plainNumeral cs)) with
  | some x => .ok x
  | none => unusable ("could not convert string to float: " ++ Text.quoted (String.ofList cs))

-- The last part counts ones, the one before it sixties, and so on. Every step rounds,
-- and the weight of a part has to be a double itself.
def sumFrom (base : Nat) (sum : Double) : List Double → Except Failure Double
  | [] => .ok sum
  | x :: rest =>
      let weight := Double.ofInt base
      if weight.isInfinite then .error (.overflow .double)
      else sumFrom (60 * base) (sum.add (x.mul weight)) rest

def floatMagnitude (cs : List Char) : Except Failure Double :=
  if cs = ".inf".toList then .ok (Double.infinity false)
  else if cs.contains ':' then do
    let parts ← (splitColons cs).mapM numeral
    sumFrom 1 (Double.zero false) parts.reverse
  else numeral cs

-- What is not a number has no sign.
def float (text : String) : Except Failure Double :=
  let cs := Text.lower (withoutBars text)
  if cs.isEmpty then .error .emptyNumeral
  else
    let unsigned := Plain.unsigned cs
    if unsigned.isEmpty then numeral unsigned
    else if unsigned = ".nan".toList then .ok Double.namedNan
    else do
      let x ← floatMagnitude unsigned
      return if cs.head? = some '-' then x.negate else x

end Coffer.Yaml.Number
