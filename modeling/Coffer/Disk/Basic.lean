import Coffer.Disk.Table
import Coffer.PathName

-- A disk: a tree of names over numbered files. A file keeps its number when its
-- name goes or is given to another file, so whoever opened it still reaches it.

namespace Coffer

-- The names that lead to a directory or file from the top.
abbrev Place := List String

abbrev FileId := Nat

inductive Node where
  | directory
  | file (id : FileId)
  deriving DecidableEq, Repr

inductive Content where
  | bytes (b : Bytes)
  | table (t : Table)
  deriving Repr

structure Disk where
  nodes : Entries Place Node
  files : List Content
  deriving Repr

-- Where a path stops leading on.
inductive Obstacle where
  | missing
  | notDirectory
  | nameTooLong
  deriving DecidableEq, Repr

def Obstacle.fault (path : PathName) : Obstacle → SystemFault
  | .missing => .missing path.text
  | .notDirectory => .notDirectory path.text
  | .nameTooLong => .nameTooLong path.text

namespace Disk

def empty : Disk := ⟨[], []⟩

def node? (d : Disk) (place : Place) : Option Node :=
  if place = [] then some .directory else d.nodes.get? place

def maxNameLength : Nat := 255

def maxPathLength : Nat := 4095

def byteLength (cs : List Char) : Nat := (Utf8.encodeChars cs).length

-- Following the parts of a path. Only its last part may name what is not there.
def walk (d : Disk) (place : Place) : List String → Except Obstacle Place
  | [] => .ok place
  | part :: rest =>
      match d.node? place with
      | none => .error .missing
      | some (.file _) => .error .notDirectory
      | some .directory =>
          if part = ".." then d.walk place.dropLast rest
          else if maxNameLength < byteLength part.toList then .error .nameTooLong
          else d.walk (place ++ [part]) rest

-- Nothing is known of what lies outside the top directory.
def locate (d : Disk) (path : PathName) : Except Obstacle Place :=
  if maxPathLength < byteLength path.chars then .error .nameTooLong
  else if path.anchor = .here then d.walk [] path.parts
  else .error .missing

def find (d : Disk) (path : PathName) : Except Obstacle (Place × Node) := do
  let place ← d.locate path
  match d.node? place with
  | some node => .ok (place, node)
  | none => .error .missing

-- A path that leads nowhere is absent; one with a part too long is an error.
def has (d : Disk) (path : PathName) : Except SystemFault Bool :=
  if path.hasNullByte then .ok false
  else
    match d.find path with
    | .ok _ => .ok true
    | .error .nameTooLong => .error (.nameTooLong path.text)
    | .error _ => .ok false

def content? (d : Disk) (id : FileId) : Option Content := d.files[id]?

def bytesOf (d : Disk) (id : FileId) : Bytes :=
  match d.content? id with
  | some (.bytes b) => b
  | _ => []

def setContent (d : Disk) (id : FileId) (c : Content) : Disk := { d with files := d.files.set id c }

def setBytes (d : Disk) (id : FileId) (b : Bytes) : Disk := d.setContent id (.bytes b)

-- A new file without a name.
def allocate (d : Disk) (c : Content) : Disk × FileId :=
  ({ d with files := d.files ++ [c] }, d.files.length)

def link (d : Disk) (place : Place) (id : FileId) : Disk :=
  { d with nodes := d.nodes.put place (.file id) }

def unlink (d : Disk) (place : Place) : Disk := { d with nodes := d.nodes.erase place }

-- The file takes the place of whatever had the new name.
def rename (d : Disk) (source target : Place) : Disk :=
  match d.node? source with
  | some (.file id) => (d.unlink source).link target id
  | _ => d

-- The file at a path, made empty if there is none.
def obtain (d : Disk) (path : PathName) : Except SystemFault (Disk × FileId) :=
  match d.locate path with
  | .error o => .error (o.fault path)
  | .ok place =>
      match d.node? place with
      | some (.file id) => .ok (d, id)
      | some .directory => .error (.isDirectory path.text)
      | none =>
          match d.node? place.dropLast with
          | some .directory =>
              let (d, id) := d.allocate (.bytes [])
              .ok (d.link place id, id)
          | some (.file _) => .error (.notDirectory path.text)
          | none => .error (.missing path.text)

def readBytes (d : Disk) (path : PathName) : Except SystemFault Bytes :=
  match d.find path with
  | .error o => .error (o.fault path)
  | .ok (_, .directory) => .error (.isDirectory path.text)
  | .ok (_, .file id) => .ok (d.bytesOf id)

def makeDirectory (d : Disk) (path : PathName) : Except SystemFault Disk :=
  match d.locate path with
  | .error o => .error (o.fault path)
  | .ok place =>
      match d.node? place, d.node? place.dropLast with
      | some _, _ => .error (.exists path.text)
      | none, none => .error (.missing path.text)
      | none, some (.file _) => .error (.notDirectory path.text)
      | none, some .directory => .ok { d with nodes := d.nodes.put place .directory }

def isDirectory (d : Disk) (path : PathName) : Bool :=
  match d.find path with
  | .ok (_, .directory) => true
  | _ => false

-- A directory that is there already is as good as one made.
def ensureDirectory (d : Disk) (path : PathName) : Except SystemFault Disk :=
  match d.makeDirectory path with
  | .error e => if d.isDirectory path then .ok d else .error e
  | r => r

-- The disk that a step leaves, be it a new one or the old one.
def settle (d : Disk) : Except SystemFault Disk → Except SystemFault Unit × Disk
  | .ok new => (.ok (), new)
  | .error e => (.error e, d)

-- A directory and those above it. A fault leaves what was made before it. The fuel
-- is the number of parts.
def ensureDirectoriesFrom (d : Disk) : Nat → PathName → Except SystemFault Unit × Disk
  | 0, path => d.settle (d.ensureDirectory path)
  | fuel + 1, path =>
      match d.makeDirectory path with
      | .ok d => (.ok (), d)
      | .error (.missing text) =>
          if path.parts = [] then (.error (.missing text), d)
          else
            match d.ensureDirectoriesFrom fuel path.parent with
            | (.ok (), d) => d.settle (d.ensureDirectory path)
            | r => r
      | .error e => if d.isDirectory path then (.ok (), d) else (.error e, d)

def ensureDirectories (d : Disk) (path : PathName) : Except SystemFault Unit × Disk :=
  d.ensureDirectoriesFrom path.parts.length path

-- A name in a directory that no file has yet.
def freshPlace (d : Disk) (directory : Place) : Place :=
  let places := (List.range (d.nodes.length + 1)).map fun n => directory ++ [s!"tmp{n}.tmp"]
  (places.find? fun place => !d.nodes.has place).getD directory

-- The places of everything on the disk, as texts in order.
def listing (d : Disk) : List String :=
  (d.nodes.keys.map fun place => String.ofList (PathName.joinParts place)).mergeSort Table.keyOrder

end Disk

end Coffer
