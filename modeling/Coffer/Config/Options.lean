import Coffer.Wallet.Record
import Coffer.Store.Backend

-- Where and how a wallet is stored, and how a section of a configuration is taken
-- for it.

namespace Coffer.Config

open Json (Complaint Error Member Schema Step)

structure Options where
  backend : BackendKind
  path : Option String
  keyFile : Option String
  deriving DecidableEq, Repr

namespace Options

def textOrNull : Option String → Value
  | some s => .text s
  | none => .null

def toValue (o : Options) : Value :=
  .record Wallet.optionsKind
    [("backend", .choice o.backend.choice), ("path", textOrNull o.path),
      ("key_file", textOrNull o.keyFile)]

def text? : Value → Option String
  | .text s => some s
  | _ => none

-- The name of what a value is, where another was expected.
def found : Value → String
  | .null => "null"
  | .bool _ => "bool"
  | .int _ => "int"
  | .float _ => "float"
  | .text _ | .choice _ => "str"
  | .bytes _ => "bytes"
  | .list _ => "array"
  | .dict _ | .record .. => "object"
  | .moment m => m.plainName
  | .foreign typeName _ => typeName
  | .again isMapping => if isMapping then "object" else "array"

-- A value for a field that takes text, one of several names, or null.
def fieldValue (schema : Schema) (v : Value) : Except Error Value :=
  match schema.solid, v with
  | .text, .text s => .ok (.text s)
  | .options choices, .text s =>
      match choices.find? fun c => c.text == s with
      | some c => .ok (.choice c)
      | none => .error (.invalid (.unknownOption s) [])
  | _, .null =>
      if schema.acceptsNull then .ok .null
      else .error (.invalid (.mismatch schema.expected (found .null)) [])
  | _, v => .error (.invalid (.mismatch schema.expected (found v)) [])

-- The members of a mapping that are fields, in the order they come.
def fieldValues (fields : List (Member Schema)) :
    List (Value × Value) → Except Error (Entries String Value)
  | [] => .ok []
  | (.text name, v) :: rest =>
      match fields.find? fun f => f.name == name with
      | some field => do
          let v ← (fieldValue field.schema v).mapError (Error.within (.field name))
          return (name, v) :: (← fieldValues fields rest)
      | none => fieldValues fields rest
  | _ :: _ => .error (.invalid .notText [.key])

def valueOf (found : Entries String Value) (field : Member Schema) : Value :=
  (Entries.get? found field.name).getD (field.absent.getD .null)

-- The options that a mapping gives; what it leaves out has its usual value.
def ofEntries (entries : List (Value × Value)) : Except Failure Options := do
  let found ← (fieldValues Wallet.optionsFields entries).mapError fun e => .unusable (.options e)
  let backend ← BackendKind.ofValue (valueOf found Wallet.backendMember)
  return ⟨backend, text? (valueOf found Wallet.pathMember), text? (valueOf found Wallet.keyFileMember)⟩

-- A section that is not a mapping is no options.
def ofSection (v : Value) : Except Failure Options :=
  match v with
  | .dict entries => ofEntries entries
  | v => .error (.unusable (.options (.invalid (.mismatch "object" (found v)) [])))

end Options

end Coffer.Config
