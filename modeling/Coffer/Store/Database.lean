import Coffer.Store.Memory

-- Records in the one table of a database file. Every change is a transaction.

namespace Coffer

-- `compiled` says that the connection has compiled the statement that inserts a row.
structure DatabaseStore where
  path : PathName
  file : Option FileId
  compiled : Bool
  deriving DecidableEq, Repr

namespace DatabaseStore

def label : String := "SQLite"

def shown (d : DatabaseStore) : String := "SQLiteBackend(" ++ Text.quoted d.path.text ++ ")"

def tableName : String := "records"

-- The name of a database that no file holds.
def privateName : String := ":memory:"

-- Beside a database there has to be room for its journals, in the length of its name
-- and of its whole path, of which the part above the top directory is taken to have
-- seventeen bytes.
def maxNameLength : Nat := 247

def maxPathLength : Nat := 487

-- What a file holds once a database has been opened on it; an empty file is
-- taken for a new database.
def prepared : Content → Option Table
  | .table t => some (if t.present then t else Table.empty)
  | .bytes [] => some Table.empty
  | .bytes _ => none

def prepare (path : PathName) (id : FileId) : Action Host DatabaseStore := fun h =>
  match (h.disk.content? id).bind prepared with
  | some t => (.ok ⟨path, some id, false⟩, { h with disk := h.disk.setContent id (.table t) })
  | none => (.error (.storage .notDatabase), h)

def isLongPath (d : Disk) (path : PathName) : Bool :=
  match d.locate path with
  | .ok place => maxPathLength < Disk.byteLength (PathName.joinParts place)
  | .error _ => false

def isLongName (path : PathName) : Bool :=
  match path.name? with
  | some name => maxNameLength < Disk.byteLength name.toList
  | none => false

def isPrivate (path : PathName) : Bool := path.text == privateName

def connect (path : PathName) : Action Host FileId := fun h =>
  if isPrivate path then
    let (disk, id) := h.disk.allocate (.bytes [])
    (.ok id, { h with disk })
  else if isLongPath h.disk path then (.error (.storage .cannotOpenDatabase), h)
  else
    (Host.obtainFile path).orElse (fun
      | .system _ => .fail (.storage .cannotOpenDatabase)
      | e => .fail e) h

-- A file that is no database is found out before its name is.
def openAt (path : PathName) : Action Host DatabaseStore := do
  (Host.ensureDirectories path.parent).guarded
  let id ← connect path
  let isNew ← fun h => (.ok (h.disk.bytesOf id).isEmpty, h)
  if isNew && !isPrivate path && isLongName path then .fail (.storage .cannotOpenDatabase)
  else prepare path id

-- The open connection.
def connection : Action (Seat DatabaseStore) FileId := fun s =>
  match s.store.file with
  | some id => (.ok id, s)
  | none => (.error (.storage .databaseClosed), s)

def tableOf (s : Seat DatabaseStore) (id : FileId) : Table :=
  match s.host.disk.content? id with
  | some (.table t) => t
  | _ => { Table.empty with present := false }

def table : Action (Seat DatabaseStore) Table := do
  let id ← connection
  fun s => (.ok (tableOf s id), s)

def presentTable : Action (Seat DatabaseStore) Table := do
  let t ← table
  if t.present then return t else .fail (.storage (.noTable tableName))

def setTable (t : Table) : Action (Seat DatabaseStore) Unit := do
  let id ← connection
  Seat.onHost (Host.changeDisk fun d => d.setContent id (.table t))

def get (key : String) : Action (Seat DatabaseStore) String := do
  let t ← presentTable
  .ofExcept (MemoryStore.lookup t.rows key)

def keys : Action (Seat DatabaseStore) (List String) := do return (← presentTable).sortedKeys

-- The statement that inserts a row is compiled when it is first needed. That takes the table;
-- to have it at hand again does not.
def compileInsert : Action (Seat DatabaseStore) Unit := do
  let d ← Seat.current
  if d.compiled then pure ()
  else
    let _ ← presentTable
    Seat.setStore { d with compiled := true }

def insert (key value : String) : Action (Seat DatabaseStore) Unit := do
  let t ← presentTable
  if t.denied.contains key then .fail (.storage .rejected)
  else setTable { t with rows := t.rows.put key value }

def insertAll : Entries String String → Action (Seat DatabaseStore) Unit
  | [] => pure ()
  | (key, value) :: rest => do
      insert key value
      insertAll rest

-- What a failed transaction has written is undone.
def transaction (x : Action (Seat DatabaseStore) Unit) : Action (Seat DatabaseStore) Unit := fun s =>
  match x s with
  | (.ok u, t) => (.ok u, t)
  | (.error e, t) => (.error e, { t with host := { t.host with disk := s.host.disk } })

def put (batch : Entries String String) : Action (Seat DatabaseStore) Unit := do
  let _ ← connection
  transaction do
    compileInsert
    insertAll batch

def erase (key : String) : Action (Seat DatabaseStore) Unit := do
  let t ← presentTable
  setTable { t with rows := t.rows.erase key }

-- The text that a key which is no text is compared as, if it is compared at all.
-- Doubles are not compared.
def boundKey? : Value → Except Failure (Option String)
  | .int n =>
      if -0x8000000000000000 ≤ n ∧ n ≤ 0x7FFFFFFFFFFFFFFF then .ok (some (toString n))
      else .error (.overflow .databaseInteger)
  | .bool b => .ok (some (if b then "1" else "0"))
  | .text s => .ok (some s)
  | .null | .bytes _ | .float _ => .ok none
  | v => .error (.storage (.unsupportedKey v.typeName))

def getAt (key : Value) : Action (Seat DatabaseStore) String := do
  let t ← presentTable
  let found := (← .ofExcept (boundKey? key)).bind t.rows.get?
  .ofExcept (found.elim (.error (.notFound key.asText)) .ok)

def eraseAt (key : Value) : Action (Seat DatabaseStore) Unit := do
  let _ ← presentTable
  match ← .ofExcept (boundKey? key) with
  | some k => erase k
  | none => pure ()

def close : Action (Seat DatabaseStore) Unit :=
  Action.update fun s => { s with store := { s.store with file := none, compiled := false } }

-- From now on the table accepts no record under the key.
def deny (key : String) : Action (Seat DatabaseStore) Unit := do
  let t ← presentTable
  setTable { t with denied := key :: t.denied }

def drop : Action (Seat DatabaseStore) Unit := do
  let _ ← presentTable
  setTable { Table.empty with present := false }

end DatabaseStore

end Coffer
