import Coffer.Json.Decode
import Coffer.Json.Encode
import Coffer.Store.Memory

-- Records in one JSON document that is replaced as a whole. Stores on the same
-- directory share the document: every commit is merged into its latest form.

namespace Coffer

structure DocumentStore where
  directory : PathName
  records : Entries String String
  deriving DecidableEq, Repr

namespace DocumentStore

def label : String := "FileSystem"

def shown (d : DocumentStore) : String := "FileSystemBackend(" ++ Text.quoted d.directory.text ++ ")"

def documentPath (directory : PathName) : PathName := directory.join "store.json"

def lockPath (directory : PathName) : PathName := directory.join "store.lock"

def encode (records : Entries String String) : Bytes := Utf8.encodeChars (Json.textMembers records)

def decode (b : Bytes) : Except Json.Error (Entries String String) :=
  Value.textEntries <$> Json.decodeBytes (.dict .text) b

def corruption (path : PathName) (size : Nat) : Json.Error → Failure
  | .undecodable fault => .undecodable fault
  | .tooDeep => .readTooDeep
  | error => .storage (.corruptDocument path.text size error)

-- A document that is not there holds no records.
def read (directory : PathName) : Action Host (Entries String String) := do
  let path := documentPath directory
  match ← (Host.readFile path).attempt with
  | .ok data => .ofExcept ((decode data).mapError (corruption path data.length))
  | .error (.system (.missing _)) => return []
  | .error e => .fail e

def load (directory : PathName) : Action Host (Entries String String) := do
  let _ ← Host.obtainFile (lockPath directory)
  read directory

def write (directory : PathName) (records : Entries String String) : Action Host Unit := do
  let temporary ← Host.stage directory (encode records)
  Host.install temporary (documentPath directory)

-- The document with changes merged in. It is written only if they change it.
def merge (directory : PathName) (puts : Entries String String) (deletes : List String) :
    Action Host (Entries String String) := do
  let current ← load directory
  let records := (current.putAll puts).eraseAll deletes
  if records.sameMap current then return records
  else do
    write directory records
    return records

def openAt (directory : PathName) : Action Host DocumentStore := Action.guarded do
  Host.ensureDirectories directory
  return ⟨directory, ← load directory⟩

def commit (puts : Entries String String) (deletes : List String) :
    Action (Seat DocumentStore) Unit := do
  let d ← Seat.current
  let records ← Seat.onHost (merge d.directory puts deletes).guarded
  Seat.setStore { d with records }

def get (key : String) : Action (Seat DocumentStore) String := fun s =>
  (MemoryStore.lookup s.store.records key, s)

def put (batch : Entries String String) : Action (Seat DocumentStore) Unit := commit batch []

def erase (key : String) : Action (Seat DocumentStore) Unit := commit [] [key]

-- Nothing is there to be erased, but the key is looked at if there are records at all.
def eraseAbsent (key : Value) : Action (Seat DocumentStore) Unit := do
  let d ← Seat.current
  let records ← Seat.onHost (load d.directory).guarded
  if records.isEmpty then pure () else .ofExcept (checkKey key)
  Seat.setStore { d with records }

def reload : Action (Seat DocumentStore) Unit := do
  let d ← Seat.current
  let records ← Seat.onHost (load d.directory).guarded
  Seat.setStore { d with records }

end DocumentStore

end Coffer
