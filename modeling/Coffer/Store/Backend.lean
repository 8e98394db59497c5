import Coffer.Store.Database
import Coffer.Store.Document
import Coffer.Store.Kind
import Coffer.Store.Log

-- A store of any of the four kinds.

namespace Coffer

inductive Backend where
  | memory (m : MemoryStore)
  | log (l : LogStore)
  | document (d : DocumentStore)
  | database (d : DatabaseStore)
  deriving Repr

namespace Backend

def label : Backend → String
  | .memory _ => MemoryStore.label
  | .log _ => LogStore.label
  | .document _ => DocumentStore.label
  | .database _ => DatabaseStore.label

def shown : Backend → String
  | .memory _ => MemoryStore.shown
  | .log l => l.shown
  | .document d => d.shown
  | .database d => d.shown

-- Only a store in memory needs no path.
def create (home : String) (kind : BackendKind) (path : Value) : Action Host Backend :=
  match kind, path with
  | .memory, _ => return .memory MemoryStore.empty
  | kind, .null => .fail (.unusable (.pathRequired kind.name))
  | kind, path => do
      let path ← .ofExcept ((PathName.ofValue path).bind (PathName.expandHome home))
      match kind with
      | .database => return .database (← DatabaseStore.openAt path)
      | .log => return .log (← LogStore.openAt path LogStore.defaultThreshold)
      | _ => return .document (← DocumentStore.openAt path)

def get (key : String) : Action (Seat Backend) String := fun s =>
  match s.store with
  | .memory m => Seat.focus .memory m (MemoryStore.get key) s
  | .log l => Seat.focus .log l (LogStore.get key) s
  | .document d => Seat.focus .document d (DocumentStore.get key) s
  | .database d => Seat.focus .database d (DatabaseStore.get key) s

def put (batch : Entries String String) : Action (Seat Backend) Unit := fun s =>
  match s.store with
  | .memory m => Seat.focus .memory m (MemoryStore.put batch) s
  | .log l => Seat.focus .log l (LogStore.put batch) s
  | .document d => Seat.focus .document d (DocumentStore.put batch) s
  | .database d => Seat.focus .database d (DatabaseStore.put batch) s

-- A batch as it is handed in; one that is not all text is refused first.
def putBatch (batch : Value) : Action (Seat Backend) Unit := do
  put (← .ofExcept (do textRecords (← batchOf batch)))

def putAt (key value : Value) : Action (Seat Backend) Unit := do
  .ofExcept (checkKey key)
  putBatch (.dict [(key, value)])

def erase (key : String) : Action (Seat Backend) Unit := fun s =>
  match s.store with
  | .memory m => Seat.focus .memory m (MemoryStore.erase key) s
  | .log l => Seat.focus .log l (LogStore.erase key) s
  | .document d => Seat.focus .document d (DocumentStore.erase key) s
  | .database d => Seat.focus .database d (DatabaseStore.erase key) s

-- Of a key that is no text there is no record, except that a database looks for some
-- by the text they are written as.

def getAt (key : Value) : Action (Seat Backend) String :=
  match key with
  | .text k => get k
  | key => fun s =>
      match s.store with
      | .database d => Seat.focus .database d (DatabaseStore.getAt key) s
      | _ => (MemoryStore.absent key, s)

def eraseAt (key : Value) : Action (Seat Backend) Unit :=
  match key with
  | .text k => erase k
  | key => fun s =>
      match s.store with
      | .memory m => (if m.records.isEmpty then .ok () else checkKey key, s)
      | .log _ => (checkKey key, s)
      | .document d => Seat.focus .document d (DocumentStore.eraseAbsent key) s
      | .database d => Seat.focus .database d (DatabaseStore.eraseAt key) s

def keys : Action (Seat Backend) (List String) := fun s =>
  match s.store with
  | .memory m => (.ok m.records.keys, s)
  | .log l => (.ok l.records.keys, s)
  | .document d => (.ok d.records.keys, s)
  | .database d => Seat.focus .database d DatabaseStore.keys s

-- Stores in memory and in a document have nothing to close.
def close : Action (Seat Backend) Unit := fun s =>
  match s.store with
  | .memory _ => (.ok (), s)
  | .log l => Seat.focus .log l LogStore.close s
  | .document _ => (.ok (), s)
  | .database d => Seat.focus .database d DatabaseStore.close s

def typeName : Backend → String
  | .memory _ => "MemoryBackend"
  | .log _ => "LogStructuredBackend"
  | .document _ => "FileSystemBackend"
  | .database _ => "SQLiteBackend"

def lacks {α : Type} (b : Backend) (member : String) : Action (Seat Backend) α :=
  .fail (.noMember b.typeName member)

-- What only one kind of store offers.

def size : Action (Seat Backend) Nat := fun s =>
  match s.store with
  | .memory m => (.ok m.records.length, s)
  | b => lacks b "get_size" s

def reload : Action (Seat Backend) Unit := fun s =>
  match s.store with
  | .document d => Seat.focus .document d DocumentStore.reload s
  | b => lacks b "reload" s

def compact : Action (Seat Backend) Unit := fun s =>
  match s.store with
  | .log l => Seat.focus .log l LogStore.compact s
  | b => lacks b "compact" s

def plan (fault : ShortWrite) : Action (Seat Backend) Unit := fun s =>
  match s.store with
  | .log l => (.ok (), { s with store := .log { l with shortWrites := l.shortWrites ++ [fault] } })
  | b => lacks b "write" s

def deny (key : String) : Action (Seat Backend) Unit := fun s =>
  match s.store with
  | .database d => Seat.focus .database d (DatabaseStore.deny key) s
  | b => lacks b "connection" s

def dropTable : Action (Seat Backend) Unit := fun s =>
  match s.store with
  | .database d => Seat.focus .database d DatabaseStore.drop s
  | b => lacks b "connection" s

def getEach : List String → Action (Seat Backend) (Entries String String)
  | [] => return []
  | key :: rest => do
      let v ← get key
      return (key, v) :: (← getEach rest)

-- Every record, in the order of the keys.
def dump : Action (Seat Backend) (Entries String String) := do getEach (← keys)

instance : RecordStore (Seat Backend) where
  label s := s.store.label
  shown s := s.store.shown
  get := get
  put := put
  erase := erase
  close := close
  draw := Seat.onHost Host.draw
  note n := Seat.onHost (Host.note n)

end Backend

end Coffer
