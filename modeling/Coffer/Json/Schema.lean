import Coffer.Value

-- What a stored value has to look like.

namespace Coffer.Json

-- A member of a record; without a value for its absence it is required.
structure Member (σ : Type) where
  name : String
  schema : σ
  absent : Option Value

inductive Schema where
  | any
  | int (bounds : Option (Int × Int))
  | float
  | text
  | bool
  | list (item : Schema)
  | dict (member : Schema)
  | nullable (inner : Schema)
  | options (choices : List Choice)
  | record (kind : RecordKind) (fields : List (Member Schema))
  | variants (kinds : List (RecordKind × List (Member Schema)))

namespace Schema

-- The name of a schema in messages.
def expected : Schema → String
  | .any => "any"
  | .int _ => "int"
  | .float => "float"
  | .text | .options _ => "str"
  | .bool => "bool"
  | .list _ => "array"
  | .dict _ | .record .. | .variants _ => "object"
  | .nullable inner => inner.expected ++ " | null"

-- The schema of what is not null.
def solid : Schema → Schema
  | .nullable inner => inner.solid
  | s => s

def acceptsNull : Schema → Bool
  | .any | .nullable _ => true
  | _ => false

end Schema

end Coffer.Json
