import Coffer.Disk.Basic
import Coffer.Action

-- What stores work on: a disk, the faults planned for it, the locks held on its
-- files, the nonces drawn so far and the notices left for the operator.

namespace Coffer

inductive SystemCall where
  | fsync
  | ftruncate
  | fstat
  | mkstemp
  | replace
  deriving DecidableEq, Repr

-- Of the calls of its kind, the first `skip` pass and the next `count` fail.
structure FaultPlan where
  call : SystemCall
  skip : Nat
  count : Nat
  message : String
  deriving DecidableEq, Repr

namespace FaultPlan

-- A call goes through the plans in order. A plan with calls to skip counts down
-- and passes the call on; the first one that may fire does.
def consult (call : SystemCall) : List FaultPlan → Option String × List FaultPlan
  | [] => (none, [])
  | plan :: rest =>
      if plan.call = call ∧ 0 < plan.skip then
        let (m, rest) := consult call rest
        (m, { plan with skip := plan.skip - 1 } :: rest)
      else if plan.call = call ∧ 0 < plan.count then
        (some plan.message, { plan with count := plan.count - 1 } :: rest)
      else
        let (m, rest) := consult call rest
        (m, plan :: rest)

end FaultPlan

inductive Level where
  | info
  | warning
  | error
  deriving DecidableEq, Repr

structure Notice where
  level : Level
  message : String
  deriving DecidableEq, Repr

structure Host where
  disk : Disk
  plans : List FaultPlan
  locks : List FileId
  drawn : Nat
  notices : List Notice
  deriving Repr

namespace Host

def empty : Host := ⟨Disk.empty, [], [], 0, []⟩

def note (n : Notice) : Action Host Unit := Action.update fun h => { h with notices := h.notices ++ [n] }

-- The number of the next nonce.
def draw : Action Host Nat := fun h => (.ok (h.drawn + 1), { h with drawn := h.drawn + 1 })

-- A call that a plan makes fail has no effect.
def interrupt (call : SystemCall) : Action Host Unit := fun h =>
  match FaultPlan.consult call h.plans with
  | (none, plans) => (.ok (), { h with plans })
  | (some message, plans) => (.error (.system (.injected message)), { h with plans })

def changeDisk (f : Disk → Disk) : Action Host Unit := Action.update fun h => { h with disk := f h.disk }

def checkName (path : PathName) : Action Host Unit :=
  if path.hasNullByte then .fail (.unusable .nullByte) else pure ()

-- A step on the disk that fails without a change or gives a new disk.
def onDisk (step : Disk → Except SystemFault Disk) : Action Host Unit := fun h =>
  match step h.disk with
  | .ok disk => (.ok (), { h with disk })
  | .error fault => (.error (.system fault), h)

def ensureDirectories (path : PathName) : Action Host Unit := do
  checkName path
  fun h =>
    match h.disk.ensureDirectories path with
    | (r, disk) => (r.mapError .system, { h with disk })

def obtainFile (path : PathName) : Action Host FileId := do
  checkName path
  fun h =>
    match h.disk.obtain path with
    | .ok (disk, id) => (.ok id, { h with disk })
    | .error fault => (.error (.system fault), h)

def readFile (path : PathName) : Action Host Bytes := do
  checkName path
  fun h => ((h.disk.readBytes path).mapError .system, h)

def fileBytes (id : FileId) : Action Host Bytes := fun h => (.ok (h.disk.bytesOf id), h)

def setFileBytes (id : FileId) (b : Bytes) : Action Host Unit := changeDisk fun d => d.setBytes id b

-- The lock of a file goes to one holder at a time.
def tryLock (id : FileId) : Action Host Bool := fun h =>
  if h.locks.contains id then (.ok false, h) else (.ok true, { h with locks := id :: h.locks })

def unlock (id : FileId) : Action Host Unit := Action.update fun h => { h with locks := h.locks.erase id }

-- An empty file under a fresh name in a directory.
def makeTemporary (directory : PathName) : Action Host Place := do
  interrupt .mkstemp
  fun h =>
    match h.disk.find directory with
    | .error o => (.error (.system (o.fault directory)), h)
    | .ok (_, .file _) => (.error (.system (.notDirectory directory.text)), h)
    | .ok (place, .directory) =>
        let temporary := h.disk.freshPlace place
        let (disk, id) := h.disk.allocate (.bytes [])
        (.ok temporary, { h with disk := disk.link temporary id })

def removeFile (place : Place) : Action Host Unit := changeDisk fun d => d.unlink place

def writeAt (place : Place) (b : Bytes) : Action Host Unit := changeDisk fun d =>
  match d.node? place with
  | some (.file id) => d.setBytes id b
  | _ => d

-- A temporary file that holds the given bytes for good; none is left on failure.
def stage (directory : PathName) (b : Bytes) : Action Host Place := do
  let temporary ← makeTemporary directory
  writeAt temporary b
  (interrupt .fsync).orElse fun e => do
    removeFile temporary
    .fail e
  return temporary

-- The staged file takes over the name of another; it is removed on failure.
def install (temporary : Place) (path : PathName) : Action Host Unit :=
  Action.orElse
    (do
      interrupt .replace
      onDisk fun d =>
        match d.locate path with
        | .error o => .error (o.fault path)
        | .ok place =>
            if d.node? place = some .directory then .error (.isDirectory path.text)
            else .ok (d.rename temporary place))
    fun e => do
      removeFile temporary
      .fail e

end Host

end Coffer
