import Coffer.Value
import Coffer.Text.Base64

-- Encoding without blanks. Text is written as it is but for quotes, backslashes
-- and control characters; bytes are written in base64; a number that is not
-- finite becomes null. Foreign values have no encoding.

namespace Coffer.Json

inductive EncodeError where
  | unsupported (typeName : String)
  | keyType
  | tooDeep
  deriving DecidableEq, Repr

def EncodeError.message : EncodeError → String
  | .unsupported typeName => s!"Encoding objects of type {typeName} is unsupported"
  | .keyType => "Only dicts with str-like or number-like keys are supported"
  | .tooDeep => "maximum recursion depth exceeded while serializing an object"

def escaped (c : Char) : List Char :=
  if c = '"' then ['\\', '"']
  else if c = '\\' then ['\\', '\\']
  else if c = '\n' then ['\\', 'n']
  else if c = '\r' then ['\\', 'r']
  else if c = '\t' then ['\\', 't']
  else if c = '\x08' then ['\\', 'b']
  else if c = '\x0c' then ['\\', 'f']
  else if c.toNat < 0x20 then ['\\', 'u', '0', '0', hexDigit (c.toNat / 16), hexDigit (c.toNat % 16)]
  else [c]

def textChars (s : String) : List Char := '"' :: s.toList.flatMap escaped ++ ['"']

def commaSeparated : List (List Char) → List Char
  | [] => []
  | [x] => x
  | x :: rest => x ++ ',' :: commaSeparated rest

def listChars (items : List (List Char)) : List Char := '[' :: commaSeparated items ++ [']']

-- Members are given with their keys already written.
def objectChars (members : List (List Char × List Char)) : List Char :=
  '\x7b' :: commaSeparated (members.map fun (k, v) => k ++ ':' :: v) ++ ['\x7d']

def intChars (n : Int) : List Char := Double.signed (n < 0) (Double.digitsOf n.natAbs)

def floatChars (x : Double) : List Char := (x.layout? .stored).getD ['n', 'u', 'l', 'l']

def inQuotes (cs : List Char) : List Char := '"' :: cs ++ ['"']

def bytesChars (b : Bytes) : List Char := inQuotes (Base64.encodeChars Base64.standard b)

-- Keys are texts, numbers or bytes, all written as texts; here even a number that
-- is not finite has its name.
def keyChars : Value → Except EncodeError (List Char)
  | .text s => .ok (textChars s)
  | .choice c => .ok (textChars c.text)
  | .int n => .ok (inQuotes (intChars n))
  | .float x => .ok (inQuotes ((x.layout? .stored).getD x.shown.toList))
  | .bytes b => .ok (bytesChars b)
  | _ => .error .keyType

-- `depth` is how many lists, mappings and records may still open.
mutual

def valueChars : Nat → Value → Except EncodeError (List Char)
  | _, .null => .ok ['n', 'u', 'l', 'l']
  | _, .bool true => .ok ['t', 'r', 'u', 'e']
  | _, .bool false => .ok ['f', 'a', 'l', 's', 'e']
  | _, .int n => .ok (intChars n)
  | _, .float x => .ok (floatChars x)
  | _, .text s => .ok (textChars s)
  | _, .choice c => .ok (textChars c.text)
  | _, .bytes b => .ok (bytesChars b)
  | depth, .list items =>
      if depth = 0 then .error .tooDeep else listChars <$> itemsChars (depth - 1) items
  | depth, .dict entries =>
      if depth = 0 then .error .tooDeep else objectChars <$> entriesChars (depth - 1) entries
  | depth, .record kind fields =>
      if depth = 0 then .error .tooDeep
      else do
        let members ← fieldsChars (depth - 1) kind.omitsNull fields
        let tag := kind.tag.toList.map fun t => (textChars "type", textChars t)
        return objectChars (tag ++ members)
  | _, .moment m => .error (.unsupported m.typeName)
  | _, .foreign typeName _ => .error (.unsupported typeName)
  | _, .again _ => .error .tooDeep

def itemsChars : Nat → List Value → Except EncodeError (List (List Char))
  | _, [] => .ok []
  | depth, v :: rest => do
      let item ← valueChars depth v
      return item :: (← itemsChars depth rest)

def entriesChars : Nat → List (Value × Value) → Except EncodeError (List (List Char × List Char))
  | _, [] => .ok []
  | depth, (k, v) :: rest => do
      let key ← keyChars k
      let member ← valueChars depth v
      return (key, member) :: (← entriesChars depth rest)

def fieldsChars : Nat → Bool → List (String × Value) →
    Except EncodeError (List (List Char × List Char))
  | _, _, [] => .ok []
  | depth, omitsNull, (name, v) :: rest =>
      if omitsNull && v.isNull then fieldsChars depth omitsNull rest
      else do
        let member ← valueChars depth v
        return (textChars name, member) :: (← fieldsChars depth omitsNull rest)

end

def maxEncodeDepth : Nat := 970

def encode (v : Value) : Except EncodeError String := String.ofList <$> valueChars maxEncodeDepth v

-- A mapping of texts to texts, and a list of texts, always encode.
def textMembers (entries : Entries String String) : List Char :=
  objectChars (entries.map fun (k, v) => (textChars k, textChars v))

def textList (items : List String) : List Char := listChars (items.map textChars)

end Coffer.Json
