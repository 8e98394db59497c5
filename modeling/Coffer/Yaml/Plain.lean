import Coffer.Yaml.Timestamp

-- What a scalar without a tag stands for, by its text alone.

namespace Coffer.Yaml.Plain

def isWordAmong (words : List String) (cs : List Char) : Bool := words.contains (String.ofList cs)

def isNull : List Char → Bool := isWordAmong ["", "~", "null", "Null", "NULL"]

def isBool : List Char → Bool :=
  isWordAmong
    ["yes", "Yes", "YES", "no", "No", "NO", "true", "True", "TRUE", "false", "False", "FALSE",
      "on", "On", "ON", "off", "Off", "OFF"]

def unsigned : List Char → List Char
  | '+' :: rest | '-' :: rest => rest
  | cs => cs

def isDigitOrBar (c : Char) : Bool := isDigit c || c = '_'

-- Parts after colons, each a number below sixty.
def isSixties : Nat → List Char → Bool
  | 0, _ => false
  | fuel + 1, cs =>
      match cs with
      | ':' :: rest =>
          let ds := rest.takeWhile isDigit
          let after := rest.dropWhile isDigit
          (ds.length = 1 || (ds.length = 2 && Timestamp.number ds < 60))
            && (after.isEmpty || isSixties fuel after)
      | _ => false

def isDecimal (cs : List Char) : Bool :=
  match cs with
  | [] => false
  | '0' :: rest => rest.isEmpty
  | d :: rest =>
      isDigit d &&
        (let after := rest.dropWhile isDigitOrBar
         after.isEmpty || isSixties after.length after)

def isInt (cs : List Char) : Bool :=
  match unsigned cs with
  | '0' :: 'b' :: rest => !rest.isEmpty && rest.all fun c => c = '0' || c = '1' || c = '_'
  | '0' :: 'x' :: rest => !rest.isEmpty && rest.all fun c => (hexValue? c).isSome || c = '_'
  | '0' :: c :: rest => (c :: rest).all fun c => ('0' ≤ c && c ≤ '7') || c = '_'
  | cs => isDecimal cs

-- An exponent has a sign; none at all is fine too.
def isExponent : List Char → Bool
  | [] => true
  | e :: sign :: rest =>
      (e = 'e' || e = 'E') && (sign = '+' || sign = '-') && !rest.isEmpty && rest.all isDigit
  | _ => false

def isPointed (cs : List Char) : Bool :=
  match cs.dropWhile isDigitOrBar with
  | '.' :: rest => isExponent (rest.dropWhile isDigitOrBar)
  | _ => false

-- Parts after colons, the last with a point.
def isSixtiesPointed (cs : List Char) : Bool :=
  let whole := cs.dropWhile isDigitOrBar
  match whole.dropWhile (· ≠ '.') with
  | '.' :: rest =>
      rest.all isDigitOrBar &&
        (let parts := whole.takeWhile (· ≠ '.')
         isSixties parts.length parts)
  | _ => false

def isFloat (cs : List Char) : Bool :=
  match cs with
  | '.' :: d :: rest =>
      (isDigit d && isExponent (rest.dropWhile isDigitOrBar))
        || isWordAmong ["inf", "Inf", "INF", "nan", "NaN", "NAN"] (d :: rest)
  | _ =>
      match unsigned cs with
      | '.' :: rest => isWordAmong ["inf", "Inf", "INF"] rest
      | d :: rest => isDigit d && (isPointed (d :: rest) || isSixtiesPointed (d :: rest))
      | [] => false

-- Single signs that stand for nothing a document could hold.
def isReserved : List Char → Bool := isWordAmong ["!", "&", "*"]

-- The end of a line at the end of a text does not count, unless it is all there is.
def withoutLineEnd (cs : List Char) : List Char :=
  if cs.length ≠ 1 && cs.getLast? = some '\n' then cs.dropLast else cs

-- The name of the tag.
def tagName (text : String) : String :=
  let cs := withoutLineEnd text.toList
  if isBool cs then "bool"
  else if isFloat cs then "float"
  else if isInt cs then "int"
  else if cs = ['<', '<'] then "merge"
  else if isNull cs then "null"
  else if Timestamp.isPlain cs then "timestamp"
  else if cs = ['='] then "value"
  else if isReserved cs then "yaml"
  else "str"

end Coffer.Yaml.Plain
