import Coffer.Text.Utf8
import Coffer.Text.Quoted

-- Why a text is not the JSON of a value. A defect of form carries how many bytes
-- were left unread; a complaint about a value carries the way to it from the root.

namespace Coffer.Json

inductive Defect where
  | invalidCharacter
  | invalidNumber
  | invalidEscape
  | invalidEscaped
  | invalidUnicodeEscape
  | unpairedSurrogate
  | missingSurrogate
  | hexEscapeEnd
  | itemEnd
  | memberEnd
  | itemComma
  | memberComma
  | missingColon
  | keyNotText
  | missingQuote
  | trailing
  deriving DecidableEq, Repr

def Defect.message : Defect → String
  | .invalidCharacter => "invalid character"
  | .invalidNumber => "invalid number"
  | .invalidEscape => "invalid escape character in string"
  | .invalidEscaped => "invalid escaped character"
  | .invalidUnicodeEscape => "invalid character in unicode escape"
  | .unpairedSurrogate => "invalid utf-16 surrogate pair"
  | .missingSurrogate => "unexpected end of escaped utf-16 surrogate pair"
  | .hexEscapeEnd => "unexpected end of hex escape"
  | .itemEnd => "expected ',' or ']'"
  | .memberEnd => "expected ',' or '\x7d'"
  | .itemComma => "trailing comma in array"
  | .memberComma => "trailing comma in object"
  | .missingColon => "expected ':'"
  | .keyNotText => "object keys must be strings"
  | .missingQuote => "expected '\"'"
  | .trailing => "trailing characters"

-- One step from a value into it. `each` stands for every member of a mapping,
-- `key` for the key of a member itself.
inductive Step where
  | field (name : String)
  | item (index : Nat)
  | each
  | key
  deriving DecidableEq, Repr

def pathFrom (root : String) : List Step → String
  | [] => root
  | .field name :: rest => pathFrom (root ++ "." ++ name) rest
  | .item index :: rest => pathFrom (root ++ s!"[{index}]") rest
  | .each :: rest => pathFrom (root ++ "[...]") rest
  | .key :: rest => pathFrom root rest

-- A complaint about a key names the mapping it stands in.
def pathText (steps : List Step) : String :=
  let quoted := "\x60" ++ pathFrom "$" steps ++ "\x60"
  if steps.getLast? = some .key then "\x60key\x60 in " ++ quoted else quoted

inductive Complaint where
  | mismatch (wanted found : String)
  | notText
  | below (least : Int)
  | above (greatest : Int)
  | missing (field : String)
  | unknownOption (name : String)
  | unknownVariant (name : String)
  | tooManyDigits
  | tooLarge
  deriving DecidableEq, Repr

def Complaint.message : Complaint → String
  | .mismatch wanted found => s!"Expected \x60{wanted}\x60, got \x60{found}\x60"
  | .notText => "Expected \x60str\x60"
  | .below least => s!"Expected \x60int\x60 >= {least}"
  | .above greatest => s!"Expected \x60int\x60 <= {greatest}"
  | .missing field => s!"Object missing required field \x60{field}\x60"
  | .unknownOption name => "Invalid enum value " ++ Text.quoted name
  | .unknownVariant name => "Invalid value '" ++ name ++ "'"
  | .tooManyDigits => "Integer value out of range"
  | .tooLarge => "Number out of range"

inductive Error where
  | truncated
  | malformed (defect : Defect) (left : Nat)
  | invalid (complaint : Complaint) (path : List Step)
  | tooDeep
  | undecodable (fault : Utf8.Fault)
  deriving DecidableEq, Repr

-- The same error seen from one step further out.
def Error.within (step : Step) : Error → Error
  | .invalid complaint path => .invalid complaint (step :: path)
  | e => e

-- The message for an input of the given size.
def Error.message (size : Nat) : Error → String
  | .truncated => "Input data was truncated"
  | .malformed defect left => s!"JSON is malformed: {defect.message} (byte {size - left})"
  | .invalid complaint [] => complaint.message
  | .invalid complaint path => complaint.message ++ " - at " ++ pathText path
  | .tooDeep => "maximum recursion depth exceeded while deserializing an object"
  | .undecodable fault => fault.message

end Coffer.Json
