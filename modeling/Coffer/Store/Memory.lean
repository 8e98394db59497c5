import Coffer.Store.Basic

-- Records in memory only.

namespace Coffer

structure MemoryStore where
  records : Entries String String
  deriving DecidableEq, Repr

namespace MemoryStore

def empty : MemoryStore := ⟨[]⟩

def label : String := "Memory"

def shown : String := "MemoryBackend()"

def lookup (records : Entries String String) (key : String) : Except Failure String :=
  match records.get? key with
  | some v => .ok v
  | none => .error (.notFound key)

-- A key that is no text.
def absent (key : Value) : Except Failure String := do
  checkKey key
  .error (.notFound key.asText)

def get (key : String) : Action (Seat MemoryStore) String := fun s =>
  (lookup s.store.records key, s)

def put (batch : Entries String String) : Action (Seat MemoryStore) Unit :=
  Action.update fun s => { s with store := ⟨s.store.records.putAll batch⟩ }

def erase (key : String) : Action (Seat MemoryStore) Unit :=
  Action.update fun s => { s with store := ⟨s.store.records.erase key⟩ }

end MemoryStore

end Coffer
