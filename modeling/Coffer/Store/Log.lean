import Coffer.Store.Commit
import Coffer.Store.Memory

-- An append-only log of commits with its records in memory. A commit that fails
-- is cut out of the log again; past a threshold the log is written anew with the
-- live records only. A lock file lets one store use a log at a time.

namespace Coffer

-- A planned fault of the next write: how many bytes it lets through, and its
-- message unless it only falls short.
structure ShortWrite where
  keep : Nat
  message : Option String
  deriving DecidableEq, Repr

structure LogStore where
  path : PathName
  threshold : Int
  records : Entries String String
  file : Option FileId
  lock : Option FileId
  shortWrites : List ShortWrite
  deriving Repr

namespace LogStore

def label : String := "LogStructured"

def defaultThreshold : Int := 1024 * 1024

def shown (l : LogStore) : String := "LogStructuredBackend(" ++ Text.quoted l.path.text ++ ")"

-- Opening

def acquire (path lockPath : PathName) : Action Host FileId := do
  let id ← Host.obtainFile lockPath
  if ← Host.tryLock id then return id
  else .fail (.storage (.logLocked path.text))

def corruption (path : PathName) (c : Commit.Corruption) : Failure :=
  match c.error with
  | .undecodable fault => .undecodable fault
  | .tooDeep => .readTooDeep
  | error => .storage (.corruptCommit c.number path.text c.size error)

def tornNotice (path : PathName) (tail : Bytes) : Notice :=
  ⟨.warning, s!"Discarding torn commit at end of {path.text} ({tail.length} bytes)"⟩

-- The records of an existing log, whose torn last line is cut off.
def replay (path : PathName) : Action Host (Entries String String) := do
  let there ← fun h => ((h.disk.has path).mapError .system, h)
  if there then do
    let data ← Host.readFile path
    let (lines, tail) := Commit.splitLines data
    let records ← .ofExcept ((Commit.replay lines).mapError (corruption path))
    if tail.isEmpty then return records
    else do
      Host.note (tornNotice path tail)
      let id ← Host.obtainFile path
      Host.setFileBytes id (data.take (data.length - tail.length))
      return records
  else return []

def openHeld (path : PathName) (threshold : Int) (lock : FileId) : Action Host LogStore := do
  let records ← replay path
  let file ← Host.obtainFile path
  return ⟨path, threshold, records, some file, some lock, []⟩

def openAt (path : PathName) (threshold : Int) : Action Host LogStore :=
  match path.withSuffix? ".lock" with
  | none => .fail (.unusable (.emptyName path.text))
  | some lockPath => Action.guarded do
      Host.ensureDirectories path.parent
      let lock ← acquire path lockPath
      (openHeld path threshold lock).orElse fun e => do
        Host.unlock lock
        .fail e

-- Committing

-- The bytes that reach the file, the fault that stopped the write if one did,
-- and the planned faults that are left.
def write : List ShortWrite → Bytes → Bytes × Option String × List ShortWrite
  | [], data => (data, none, [])
  | fault :: rest, data =>
      if data.isEmpty then ([], none, fault :: rest)
      else
        match fault.message with
        | some message => (data.take fault.keep, some message, rest)
        | none =>
            let (written, failed, left) := write rest (data.drop fault.keep)
            (data.take fault.keep ++ written, failed, left)

def sizeOf (file : FileId) : Action (Seat LogStore) Nat := Seat.onHost do
  Host.interrupt .fstat
  return (← Host.fileBytes file).length

def append (file : FileId) (data : Bytes) : Action (Seat LogStore) Unit := do
  let l ← Seat.current
  let (written, failed, left) := write l.shortWrites data
  Seat.setStore { l with shortWrites := left }
  Seat.onHost do
    Host.setFileBytes file ((← Host.fileBytes file) ++ written)
    match failed with
    | some message => .fail (.system (.injected message))
    | none => Host.interrupt .fsync

def systemFault : Failure → SystemFault
  | .system fault => fault
  | e => .injected e.message

-- Without the cut the log is no longer fit for writing.
def rollBack (file : FileId) (start : Nat) (cause : Failure) : Action (Seat LogStore) Unit := do
  let cut : Action (Seat LogStore) Unit := Seat.onHost do
    Host.interrupt .ftruncate
    Host.setFileBytes file ((← Host.fileBytes file).take start)
  cut.orElse fun e => do
    let l ← Seat.current
    Seat.onHost (Host.note
      ⟨.error, s!"Could not roll back failed commit in {l.path.text}: " ++ e.message⟩)
    Seat.setStore { l with file := none, shortWrites := [] }
    .fail (.storage (.notRolledBack (systemFault cause)))
  .fail cause.asStorage

def liveLine (records : Entries String String) : Bytes :=
  if records.isEmpty then [] else Commit.line ⟨records, []⟩

def compactionFailure : Failure → Failure
  | .system fault => .storage (.compaction fault)
  | e => e

-- The log is opened anew once its name may stand for another file.
def reopen : Action (Seat LogStore) FileId := do
  let l ← Seat.current
  let file ← Seat.onHost (Host.obtainFile l.path)
  Seat.setStore { l with file := some file, shortWrites := [] }
  return file

def compact : Action (Seat LogStore) Unit := do
  let l ← Seat.current
  match l.file with
  | none => .fail (.storage .logClosed)
  | some file => do
      let before ← sizeOf file
      let temporary ← (Seat.onHost (Host.stage l.path.parent (liveLine l.records))).orElse fun e =>
        .fail (compactionFailure e)
      let installed ← (Seat.onHost (Host.install temporary l.path)).attempt
      let file ← reopen
      match installed with
      | .error e => .fail (compactionFailure e)
      | .ok () => do
          let after ← sizeOf file
          Seat.onHost (Host.note
            ⟨.info, s!"Compacted {l.path.text}: {before} -> {after} bytes"⟩)

-- A failed compaction is put off to the next commit.
def compactOrDefer : Action (Seat LogStore) Unit :=
  compact.orElse fun
    | .storage fault => do
        let l ← Seat.current
        Seat.onHost (Host.note
          ⟨.warning, s!"Deferred compaction of {l.path.text}: " ++ (Failure.storage fault).message⟩)
    | e => .fail e

def commit (c : Commit) : Action (Seat LogStore) Unit := do
  let l ← Seat.current
  match l.file with
  | none => .fail (.storage .logClosed)
  | some file => do
      let data := c.line
      let start ← (sizeOf file).guarded
      (append file data).orElse (rollBack file start)
      let l ← Seat.current
      Seat.setStore { l with records := c.apply l.records }
      if l.threshold < (start + data.length : Nat) then compactOrDefer else pure ()

-- Reading and changing records

def get (key : String) : Action (Seat LogStore) String := fun s =>
  (MemoryStore.lookup s.store.records key, s)

def put (batch : Entries String String) : Action (Seat LogStore) Unit :=
  if batch.isEmpty then pure () else commit ⟨batch, []⟩

def erase (key : String) : Action (Seat LogStore) Unit := do
  let l ← Seat.current
  if l.records.has key then commit ⟨[], [key]⟩ else pure ()

def close : Action (Seat LogStore) Unit := do
  let l ← Seat.current
  match l.lock with
  | some lock => Seat.onHost (Host.unlock lock)
  | none => pure ()
  Seat.setStore { l with file := none, lock := none, shortWrites := [] }

end LogStore

end Coffer
