import Coffer.Decimal.Layout
import Coffer.Text.Quoted
import Coffer.Entries
import Coffer.Moment

-- Values as they are held in memory: what a record is made from, what decoding
-- gives, and what a configuration file holds.

namespace Coffer

-- What the members of a record share: the name of its kind, the `type` member
-- that marks a variant, and whether null members are left out when written.
structure RecordKind where
  name : String
  tag : Option String
  omitsNull : Bool
  deriving DecidableEq, Repr

-- One of the texts that a kind allows, each of which has a name.
structure Choice where
  kind : String
  name : String
  text : String
  deriving DecidableEq, Repr

-- A foreign value is one that no record can hold; it is known by the name of its
-- type and by how it is shown. Where a collection turns up inside itself, `again`
-- stands for it.
inductive Value where
  | null
  | bool (b : Bool)
  | int (n : Int)
  | float (x : Double)
  | text (s : String)
  | bytes (b : Bytes)
  | list (items : List Value)
  | dict (entries : List (Value × Value))
  | record (kind : RecordKind) (fields : List (String × Value))
  | choice (c : Choice)
  | moment (m : Moment)
  | foreign (typeName : String) (shown : String)
  | again (isMapping : Bool)
  deriving Repr, Inhabited

namespace Value

def typeName : Value → String
  | .null => "NoneType"
  | .bool _ => "bool"
  | .int _ => "int"
  | .float _ => "float"
  | .text _ => "str"
  | .bytes _ => "bytes"
  | .list _ => "list"
  | .dict _ => "dict"
  | .record kind _ => kind.name
  | .choice c => c.kind
  | .moment m => m.typeName
  | .foreign typeName _ => typeName
  | .again isMapping => if isMapping then "dict" else "list"

-- The number that a boolean, an integer or a finite double stands for.
def ratio? : Value → Option (Int × Nat)
  | .bool b => some (if b then 1 else 0, 1)
  | .int n => some (n, 1)
  | .float x => x.ratio?
  | _ => none

def sameRatio : Option (Int × Nat) → Option (Int × Nat) → Bool
  | some (a, b), some (c, d) => a * d == c * b
  | _, _ => false

-- Numbers of different types are the same if they stand for the same number, and a
-- choice is the same as its text. Mappings are the same whatever their order.
mutual

def same : Value → Value → Bool
  | .null, .null => true
  | .text a, .text b => a == b
  | .choice a, .choice b => a.text == b.text
  | .choice a, .text b => a.text == b
  | .text a, .choice b => a == b.text
  | .moment a, .moment b => a.same b
  | .bytes a, .bytes b => a == b
  | .list a, .list b => sameItems a b
  | .dict a, .dict b => a.length == b.length && sameEntries a b
  | .record k a, .record l b => k == l && sameFields a b
  | .foreign k a, .foreign l b => k == l && a == b
  | .float x, .float y => x.isIdentical y || sameRatio x.ratio? y.ratio?
  | a, b => sameRatio a.ratio? b.ratio?

def sameItems : List Value → List Value → Bool
  | [], [] => true
  | a :: as, b :: bs => same a b && sameItems as bs
  | _, _ => false

def sameEntries : List (Value × Value) → List (Value × Value) → Bool
  | [], _ => true
  | (k, a) :: as, bs => (bs.any fun e => same k e.1 && same a e.2) && sameEntries as bs

def sameFields : List (String × Value) → List (String × Value) → Bool
  | [], [] => true
  | (k, a) :: as, (l, b) :: bs => k == l && same a b && sameFields as bs
  | _, _ => false

end

instance : BEq Value := ⟨same⟩

-- How a value is shown in messages.
mutual

def shown : Value → String
  | .null => "None"
  | .bool true => "True"
  | .bool false => "False"
  | .int n => toString n
  | .float x => x.shown
  | .text s => Text.quoted s
  | .bytes b => Text.quotedBytes b
  | .list items => "[" ++ ", ".intercalate (shownItems items) ++ "]"
  | .dict entries => "\x7b" ++ ", ".intercalate (shownEntries entries) ++ "\x7d"
  | .record kind fields => kind.name ++ "(" ++ ", ".intercalate (shownFields fields) ++ ")"
  | .choice c => "<" ++ c.kind ++ "." ++ c.name ++ ": " ++ Text.quoted c.text ++ ">"
  | .moment m => m.shown
  | .foreign _ shown => shown
  | .again isMapping => if isMapping then "\x7b...\x7d" else "[...]"

def shownItems : List Value → List String
  | [] => []
  | v :: rest => shown v :: shownItems rest

def shownEntries : List (Value × Value) → List String
  | [] => []
  | (k, v) :: rest => (shown k ++ ": " ++ shown v) :: shownEntries rest

def shownFields : List (String × Value) → List String
  | [] => []
  | (name, v) :: rest => (name ++ "=" ++ shown v) :: shownFields rest

end

-- A text as it is, any other value as it is shown.
def asText : Value → String
  | .text s => s
  | .choice c => c.kind ++ "." ++ c.name
  | v => v.shown

def isNull : Value → Bool
  | .null => true
  | _ => false

def emptySetShown : String := "set()"

-- Null, false, zero and whatever is empty.
def isBlank : Value → Bool
  | .null => true
  | .bool b => !b
  | .int n => n == 0
  | .float x => sameRatio x.ratio? (some (0, 1))
  | .text s => s.isEmpty
  | .choice c => c.text.isEmpty
  | .bytes b => b.isEmpty
  | .list items => items.isEmpty
  | .dict entries => entries.isEmpty
  | .foreign _ shown => shown == emptySetShown
  | .record .. | .moment _ | .again _ => false

-- Whether nothing in a value stands for a collection around it.
mutual

def isFinite : Value → Bool
  | .again _ => false
  | .list items => areFinite items
  | .dict entries => areFiniteEntries entries
  | .record _ fields => areFiniteFields fields
  | _ => true

def areFinite : List Value → Bool
  | [] => true
  | v :: rest => isFinite v && areFinite rest

def areFiniteEntries : List (Value × Value) → Bool
  | [] => true
  | (k, v) :: rest => isFinite k && isFinite v && areFiniteEntries rest

def areFiniteFields : List (String × Value) → Bool
  | [] => true
  | (_, v) :: rest => isFinite v && areFiniteFields rest

end

-- The type of the first part of a value that may change, which keeps it from being a
-- key. Of the records only the variants stay as they are.
mutual

def changeable? : Value → Option String
  | .list items => some (Value.list items).typeName
  | .dict entries => some (Value.dict entries).typeName
  | .again isMapping => some (Value.again isMapping).typeName
  | .foreign typeName _ => if typeName == "set" then some typeName else none
  | .record kind fields => if kind.tag.isSome then changeableField? fields else some kind.name
  | _ => none

def changeableField? : List (String × Value) → Option String
  | [] => none
  | (_, v) :: rest => (changeable? v).or (changeableField? rest)

end

-- The mapping with text keys that holds the given members.
def ofMembers (members : List (String × Value)) : Value :=
  .dict (members.map fun (k, v) => (.text k, v))

-- The texts in a mapping of texts, and in a list of texts.
def textEntries : Value → List (String × String)
  | .dict entries => entries.map fun (k, v) => (k.asText, v.asText)
  | _ => []

def textItems : Value → List String
  | .list items => items.map asText
  | _ => []

def member? (v : Value) (key : String) : Option Value :=
  match v with
  | .dict entries => Entries.get? entries (.text key)
  | _ => none

end Value

end Coffer
