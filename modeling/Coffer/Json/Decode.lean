import Coffer.Json.Schema
import Coffer.Json.Reader

-- Decoding against a schema, in one pass over the bytes: the first fault met is
-- the one reported, be it of form or of type. Lists and mappings nest up to a
-- given depth.

namespace Coffer.Json

def maxDepth : Nat := 970

-- What stands where a list or a mapping may go on or end.
inductive Slot where
  | closed (rest : Bytes)
  | element (rest : Bytes)

def slot (close : Char) (noComma spareComma : Defect) (first : Bool) (s : Bytes) :
    Except Error Slot := do
  let (b, s) ← next s
  if b = ascii close then .ok (.closed (s.drop 1))
  else if first then .ok (.element s)
  else if b = ascii ',' then do
    let (b, s) ← next (s.drop 1)
    if b = ascii close then malformed spareComma s else .ok (.element s)
  else malformed noComma s

def itemSlot : Bool → Bytes → Except Error Slot := slot ']' .itemEnd .itemComma

def memberSlot : Bool → Bytes → Except Error Slot := slot '\x7d' .memberEnd .memberComma

-- The items of a list after its bracket, the index of the first given. Every item
-- takes at least one byte, so the length of the input is fuel enough.
def itemsFrom {α : Type} (item : Bytes → Except Error (α × Bytes)) :
    Nat → Nat → Bytes → Except Error (List α × Bytes)
  | 0, _, _ => .error .truncated
  | fuel + 1, index, s => do
      match ← itemSlot (index == 0) s with
      | .closed rest => .ok ([], rest)
      | .element s => do
          let (v, s) ← (item s).mapError (Error.within (.item index))
          let (vs, s) ← itemsFrom item fuel (index + 1) s
          .ok (v :: vs, s)

def items {α : Type} (item : Bytes → Except Error (α × Bytes)) (s : Bytes) :
    Except Error (List α × Bytes) :=
  itemsFrom item (s.length + 1) 0 s

def memberKey (skipped : Bool) (s : Bytes) : Except Error (Bytes × Bytes) :=
  match s with
  | [] => .error .truncated
  | b :: rest =>
      if b = ascii '"' then string skipped rest
      else malformed (if skipped then .missingQuote else .keyNotText) s

def colon (s : Bytes) : Except Error Bytes := do
  let (b, s) ← next s
  if b = ascii ':' then .ok (s.drop 1) else malformed .missingColon s

-- The members of a mapping after its brace, each handed with the state so far to
-- `member`; `key` turns the bytes of a key into what `member` takes.
def membersFrom {κ σ : Type} (skipped : Bool) (key : Bytes → Except Error κ)
    (member : σ → κ → Bytes → Except Error (σ × Bytes)) :
    Nat → Bool → σ → Bytes → Except Error (σ × Bytes)
  | 0, _, _, _ => .error .truncated
  | fuel + 1, first, state, s => do
      match ← memberSlot first s with
      | .closed rest => .ok (state, rest)
      | .element s => do
          let (raw, s) ← memberKey skipped s
          let k ← key raw
          let s ← colon s
          let (state, s) ← member state k s
          membersFrom skipped key member fuel false state s

def members {κ σ : Type} (skipped : Bool) (key : Bytes → Except Error κ)
    (member : σ → κ → Bytes → Except Error (σ × Bytes)) (first : Bool) (state : σ) (s : Bytes) :
    Except Error (σ × Bytes) :=
  membersFrom skipped key member (s.length + 1) first state s

-- Passing over a value of any shape. Without an inner reader no list or mapping
-- may open any more.
def skipWith (inner : Option (Bytes → Except Error Bytes)) (s : Bytes) : Except Error Bytes := do
  let (b, s) ← next s
  if b = ascii 'n' then word ['u', 'l', 'l'] true (s.drop 1)
  else if b = ascii 't' then word ['r', 'u', 'e'] true (s.drop 1)
  else if b = ascii 'f' then word ['a', 'l', 's', 'e'] true (s.drop 1)
  else if b = ascii '"' then return (← string true (s.drop 1)).2
  else if b = ascii '[' then
    match inner with
    | none => .error .tooDeep
    | some inner => return (← items (fun s => return ((), ← inner s)) (s.drop 1)).2
  else if b = ascii '\x7b' then
    match inner with
    | none => .error .tooDeep
    | some inner =>
        return (← members true .ok (fun _ _ s => return ((), ← inner s)) true () (s.drop 1)).2
  else return (← number true s).2

def skip : Nat → Bytes → Except Error Bytes
  | 0 => skipWith none
  | depth + 1 => skipWith (some (skip depth))

def mismatch {α : Type} (schema : Schema) (found : String) : Except Error α :=
  .error (.invalid (.mismatch schema.expected found) [])

def complain {α : Type} (complaint : Complaint) : Except Error α := .error (.invalid complaint [])

-- A text after its quote. Where no text is wanted it has to be well formed all the
-- same, but its bytes may be any.
def textValue (schema : Schema) (s : Bytes) : Except Error (Value × Bytes) :=
  match schema.solid with
  | .any | .text => do
      let (b, rest) ← string false s
      return (.text (← decodeText b), rest)
  | .options choices => do
      let (b, rest) ← string false s
      let text ← decodeText b
      match choices.find? fun c => c.text == text with
      | some c => .ok (.choice c, rest)
      | none => complain (.unknownOption text)
  | _ => do
      let _ ← string false s
      mismatch schema "str"

def fitsWord (n : Int) : Bool := -0x8000000000000000 ≤ n && n < 0x10000000000000000

def checkBounds (bounds : Option (Int × Int)) (n : Int) : Except Error Value :=
  match bounds with
  | none => .ok (.int n)
  | some (least, greatest) =>
      if n < least then complain (.below least)
      else if greatest < n then complain (.above greatest)
      else .ok (.int n)

-- A double, unless it is past the largest one.
def finite (x : Double) : Except Error Double :=
  if x.isInfinite then complain .tooLarge else .ok x

-- Integers of more than 4300 characters are refused. Where no integer is wanted,
-- one that fits no machine word counts as a float.
def integerValue (schema : Schema) (n : Int) (length : Nat) : Except Error Value :=
  let bounded (bounds : Option (Int × Int)) : Except Error Value :=
    if 4300 < length then complain .tooManyDigits else checkBounds bounds n
  match schema.solid with
  | .any => bounded none
  | .int bounds => bounded bounds
  | .float => return .float (← finite (Double.ofInt n))
  | _ => do
      if fitsWord n then mismatch schema "int"
      else do
        let _ ← finite (Double.ofInt n)
        mismatch schema "float"

def numberValue (schema : Schema) : Number → Except Error Value
  | .integer n length => integerValue schema n length
  | .decimal negative digits exponent => do
      let x ← finite (Double.ofDecimal negative digits exponent)
      match schema.solid with
      | .any | .float => .ok (.float x)
      | _ => mismatch schema "float"

def tagMember : String := "type"

-- The text that marks a variant. Anything else is passed over before it is refused.
def tagText (skip : Bytes → Except Error Bytes) (s : Bytes) : Except Error (String × Bytes) := do
  let (b, s) ← next s
  if b = ascii '"' then do
    let (tag, rest) ← string false (s.drop 1)
    return (← decodeText tag, rest)
  else do
    let _ ← skip s
    .error (.invalid .notText [.field tagMember])

def unknownVariant {α : Type} (tag : String) : Except Error α :=
  .error (.invalid (.unknownVariant tag) [.field tagMember])

-- The members of a record in the order of its fields, the absent ones filled in.
def fill (found : Entries String Value) : List (Member Schema) → Except Error (List (String × Value))
  | [] => .ok []
  | field :: rest =>
      match Entries.get? found field.name, field.absent with
      | some v, _ | none, some v => return (field.name, v) :: (← fill found rest)
      | none, none => complain (.missing field.name)

-- One member of a record: a field is decoded, the mark has to be the record's own,
-- anything else is passed over.
def recordMember (value : Schema → Bytes → Except Error (Value × Bytes))
    (skip : Bytes → Except Error Bytes) (kind : RecordKind) (fields : List (Member Schema))
    (found : Entries String Value) (key : Bytes) (s : Bytes) :
    Except Error (Entries String Value × Bytes) :=
  match fields.find? fun f => Utf8.encode f.name == key with
  | some field => do
      let (v, rest) ← (value field.schema s).mapError (Error.within (.field field.name))
      .ok (Entries.put found field.name v, rest)
  | none =>
      match kind.tag with
      | some own =>
          if key = Utf8.encode tagMember then do
            let (tag, rest) ← tagText skip s
            if tag = own then .ok (found, rest) else unknownVariant tag
          else return (found, ← skip s)
      | none => return (found, ← skip s)

-- Where the mark of a variant is found: its text, the bytes behind it, and whether
-- it was the first member.
def findTag (skip : Bytes → Except Error Bytes) :
    Nat → Bool → Bytes → Except Error (String × Bytes × Bool)
  | 0, _, _ => .error .truncated
  | fuel + 1, first, s => do
      match ← memberSlot first s with
      | .closed _ => complain (.missing tagMember)
      | .element s => do
          let (key, s) ← memberKey false s
          let s ← colon s
          if key = Utf8.encode tagMember then do
            let (tag, rest) ← tagText skip s
            .ok (tag, rest, first)
          else findTag skip fuel false (← skip s)

-- A mapping after its brace. A variant whose mark is not its first member is read
-- from the start again once the mark is known.
def objectValue (value : Schema → Bytes → Except Error (Value × Bytes))
    (skip : Bytes → Except Error Bytes) (schema : Schema) (s : Bytes) :
    Except Error (Value × Bytes) :=
  let dict (member : Schema) : Except Error (Value × Bytes) := do
    let step (entries : Entries Value Value) (key : String) (s : Bytes) := do
      let (v, rest) ← (value member s).mapError (Error.within .each)
      return (Entries.put entries (.text key) v, rest)
    let (entries, rest) ← members false decodeText step true [] s
    return (.dict entries, rest)
  let record (kind : RecordKind) (fields : List (Member Schema)) (first : Bool) (s : Bytes) :
      Except Error (Value × Bytes) := do
    let (found, rest) ← members false .ok (recordMember value skip kind fields) first [] s
    return (.record kind (← fill found fields), rest)
  match schema.solid with
  | .any => dict .any
  | .dict member => dict member
  | .record kind fields => record kind fields true s
  | .variants kinds => do
      let (tag, rest, first) ← findTag skip (s.length + 1) true s
      match kinds.find? fun (kind, _) => kind.tag == some tag with
      | none => unknownVariant tag
      | some (kind, fields) =>
          if first then record kind fields false rest else record kind fields true s
  | _ => mismatch schema "object"

def opensObject : Schema → Bool
  | .any | .dict _ | .record .. | .variants _ => true
  | _ => false

-- A list after its bracket.
def listValue (value : Schema → Bytes → Except Error (Value × Bytes)) (item : Schema) (s : Bytes) :
    Except Error (Value × Bytes) := do
  let (vs, rest) ← items (value item) s
  return (.list vs, rest)

def valueWith (inner : Option (Schema → Bytes → Except Error (Value × Bytes)))
    (skip : Bytes → Except Error Bytes) (schema : Schema) (s : Bytes) :
    Except Error (Value × Bytes) := do
  let (b, s) ← next s
  if b = ascii '"' then textValue schema (s.drop 1)
  else if b = ascii 'n' then do
    let rest ← word ['u', 'l', 'l'] false (s.drop 1)
    if schema.acceptsNull then .ok (.null, rest) else mismatch schema "null"
  else if b = ascii 't' ∨ b = ascii 'f' then do
    let letters := if b = ascii 't' then ['r', 'u', 'e'] else ['a', 'l', 's', 'e']
    let rest ← word letters false (s.drop 1)
    match schema.solid with
    | .any | .bool => .ok (.bool (b = ascii 't'), rest)
    | _ => mismatch schema "bool"
  else if b = ascii '[' then
    match schema.solid, inner with
    | .any, some value => listValue value .any (s.drop 1)
    | .list item, some value => listValue value item (s.drop 1)
    | .any, none | .list _, none => .error .tooDeep
    | _, _ => mismatch schema "array"
  else if b = ascii '\x7b' then
    match inner with
    | some value => objectValue value skip schema (s.drop 1)
    | none => if opensObject schema.solid then .error .tooDeep else mismatch schema "object"
  else do
    let (n, rest) ← number false s
    return (← numberValue schema n, rest)

def value : Nat → Schema → Bytes → Except Error (Value × Bytes)
  | 0 => valueWith none (skip 0)
  | depth + 1 => valueWith (some (value depth)) (skip depth)

-- One value and nothing but blanks around it.
def decodeWithin (depth : Nat) (schema : Schema) (s : Bytes) : Except Error Value := do
  let (v, rest) ← value depth schema s
  match rest.dropWhile isBlank with
  | [] => .ok v
  | _ :: rest => malformed .trailing rest

def decodeBytes (schema : Schema) (s : Bytes) : Except Error Value := decodeWithin maxDepth schema s

def decode (schema : Schema) (text : String) : Except Error Value :=
  decodeBytes schema (Utf8.encode text)

end Coffer.Json
