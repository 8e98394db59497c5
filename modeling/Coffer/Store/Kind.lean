import Coffer.Failure

-- The kinds of stores and their names.

namespace Coffer

inductive BackendKind where
  | database
  | log
  | memory
  | document
  deriving DecidableEq, Repr

namespace BackendKind

def name : BackendKind → String
  | .database => "sqlite"
  | .log => "log"
  | .memory => "memory"
  | .document => "filesystem"

def constant : BackendKind → String
  | .database => "SQLITE"
  | .log => "LOG"
  | .memory => "MEMORY"
  | .document => "FILESYSTEM"

def choice (kind : BackendKind) : Choice := ⟨"BackendKind", kind.constant, kind.name⟩

def all : List BackendKind := [.database, .log, .memory, .document]

def ofName? (s : String) : Option BackendKind := all.find? fun kind => kind.name == s

def ofValue (v : Value) : Except Failure BackendKind :=
  match v with
  | .text s | .choice ⟨_, _, s⟩ => (ofName? s).elim (.error (.unusable (.backendKind v))) .ok
  | _ => .error (.unusable (.backendKind v))

end BackendKind

end Coffer
