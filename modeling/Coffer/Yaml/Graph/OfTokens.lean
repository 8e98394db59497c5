import Coffer.Yaml.Stream
import Coffer.Yaml.Graph.Basic

-- The graph of a document from its tokens. Tokens are asked for one after the other,
-- so a fault that stops their coming is met only where the next one is needed.

namespace Coffer.Yaml

-- What is left to read, the nodes and anchors so far and the tag handles of the
-- document. An anchor names its node as soon as the node has begun.
structure Reading where
  tokens : Tokens
  graph : Graph
  anchors : Entries String NodeId
  handles : Entries String String

abbrev Reader := StateT Reading (Except Failure)

namespace Reader

def refuse {α : Type} : Reader α := fun _ => malformed

def peek : Reader Token := fun r =>
  match r.tokens.list, r.tokens.fault with
  | t :: _, _ => .ok (t, r)
  | [], some failure => .error failure
  | [], none => .ok (.streamEnd, r)

def skip : Reader Unit :=
  modify fun r => { r with tokens := { r.tokens with list := r.tokens.list.tail } }

-- Whether the next token is one of the given; it stays.
def sees (ts : List Token) : Reader Bool := do return ts.contains (← peek)

-- The next token is skipped if it is the given one.
def takes (t : Token) : Reader Bool := do
  if (← peek) = t then do
    skip
    return true
  else return false

def expect (t : Token) : Reader Unit := do
  if !(← takes t) then refuse

-- Tags

def resolveHandle (handle : Option String) (suffix : String) : Reader String := do
  match handle with
  | none => return suffix
  | some handle =>
      match (← get).handles.get? handle with
      | some start => return start ++ suffix
      | none => refuse

def anchor? : Reader (Option String) := do
  match ← peek with
  | .anchor name => do
      skip
      return some name
  | _ => return none

def tag? : Reader (Option (Option String × String)) := do
  match ← peek with
  | .tag handle suffix => do
      skip
      return some (handle, suffix)
  | _ => return none

-- An anchor and a tag, in any order, neither needed.
def properties : Reader (Option String × Option String) := do
  let first ← anchor?
  let tag ← tag?
  let name ← if first.isNone && tag.isSome then anchor? else pure first
  match tag with
  | some (handle, suffix) => return (name, some (← resolveHandle handle suffix))
  | none => return (name, none)

-- A tag of a single exclamation mark is as good as none.
def isOpen (tag : Option String) : Bool := tag == none || tag == some "!"

def tagOr (tag : Option String) (name : String) : String :=
  if isOpen tag then Node.coreTag name else tag.getD ""

end Reader

-- The tag of a plain scalar follows from its text.
def scalarNode (resolve : String → String) (tag : Option String) (text : String) (plain : Bool) :
    Node :=
  if tag = some "!" || (tag = none && plain) then .scalar (Node.coreTag (resolve text)) text
  else .scalar (tag.getD (Node.coreTag "str")) text

def emptyNode (resolve : String → String) (tag : Option String) : Node :=
  if Reader.isOpen tag then .scalar (Node.coreTag (resolve "")) "" else .scalar (tag.getD "") ""

namespace Reader

def add (n : Node) : Reader NodeId := fun r =>
  let (graph, id) := r.graph.push n
  .ok (id, { r with graph })

-- A name is given once.
def checkNew (name : Option String) : Reader Unit := do
  if name.any (← get).anchors.has then refuse

-- A node under its name, if it has one.
def enter (name : Option String) (n : Node) : Reader NodeId := do
  let id ← add n
  match name with
  | none => return id
  | some name => do
      modify fun r => { r with anchors := r.anchors.put name id }
      return id

def fill (id : NodeId) (n : Node) : Reader NodeId := do
  modify fun r => { r with graph := r.graph.set id n }
  return id

def named (name : String) : Reader NodeId := do
  match (← get).anchors.get? name with
  | some id => return id
  | none => refuse

-- A collection is entered before its parts are read.
def sequence (name : Option String) (tag : String) (items : Reader (List NodeId)) :
    Reader NodeId := do
  let id ← enter name (.sequence tag [])
  fill id (.sequence tag (← items))

def mapping (name : Option String) (tag : String) (entries : Reader (List (NodeId × NodeId))) :
    Reader NodeId := do
  let id ← enter name (.mapping tag [])
  fill id (.mapping tag (← entries))

-- How deep collections may nest.
def maxDepth : Nat := 488

-- Where a node may stand: anywhere, in a block, or as the value of a key, where a
-- sequence needs no indentation.
inductive Context where
  | flow
  | block
  | entry
  deriving DecidableEq

-- Every call reads a token or goes one step down towards one, which bounds the
-- fuel by the number of tokens. `room` is how many levels may still open.
mutual

def node (resolve : String → String) : Nat → Nat → Context → Reader NodeId
  | 0, _, _ => refuse
  | fuel + 1, room, context => do
      match ← peek with
      | .alias name => do
          skip
          named name
      | _ => do
          let (name, tag) ← properties
          let next ← peek
          let inner ←
            match next with
            | .flowSequenceStart | .flowMappingStart | .blockSequenceStart | .blockMappingStart
            | .blockEntry =>
                if room = 0 then fun _ => .error .documentTooDeep else pure (room - 1)
            | _ => pure room
          checkNew name
          match next with
          | .scalar text plain => do
              skip
              enter name (scalarNode resolve tag text plain)
          | .flowSequenceStart =>
              sequence name (tagOr tag "seq") do
                skip
                flowItems resolve fuel inner true
          | .flowMappingStart =>
              mapping name (tagOr tag "map") do
                skip
                flowEntries resolve fuel inner true
          | .blockEntry =>
              if context = .entry then
                sequence name (tagOr tag "seq") (entryItems resolve fuel inner)
              else bare resolve name tag
          | .blockSequenceStart =>
              if context = .flow then bare resolve name tag
              else
                sequence name (tagOr tag "seq") do
                  skip
                  blockItems resolve fuel inner
          | .blockMappingStart =>
              if context = .flow then bare resolve name tag
              else
                mapping name (tagOr tag "map") do
                  skip
                  blockEntries resolve fuel inner
          | _ => bare resolve name tag

-- Nothing but properties stands for an empty scalar.
def bare (resolve : String → String) (name tag : Option String) : Reader NodeId := do
  if name.isNone && tag.isNone then refuse else enter name (emptyNode resolve tag)

-- A node, or an empty one where one of the given tokens follows.
def nodeUnless (resolve : String → String) : Nat → Nat → Context → List Token → Reader NodeId
  | 0, _, _, _ => refuse
  | fuel + 1, room, context, ends => do
      if ← sees ends then add (emptyNode resolve none) else node resolve fuel room context

-- The value of a key: nothing but a colon asks for one.
def valueUnless (resolve : String → String) : Nat → Nat → Context → List Token → Reader NodeId
  | 0, _, _, _ => refuse
  | fuel + 1, room, context, ends => do
      if ← takes .value then nodeUnless resolve fuel room context ends
      else add (emptyNode resolve none)

def blockItems (resolve : String → String) : Nat → Nat → Reader (List NodeId)
  | 0, _ => refuse
  | fuel + 1, room => do
      if ← takes .blockEntry then do
        let item ← nodeUnless resolve fuel room .block [.blockEntry, .blockEnd]
        return item :: (← blockItems resolve fuel room)
      else do
        expect .blockEnd
        return []

def entryItems (resolve : String → String) : Nat → Nat → Reader (List NodeId)
  | 0, _ => refuse
  | fuel + 1, room => do
      if ← takes .blockEntry then do
        let item ← nodeUnless resolve fuel room .block [.blockEntry, .key, .value, .blockEnd]
        return item :: (← entryItems resolve fuel room)
      else return []

def blockEntries (resolve : String → String) : Nat → Nat → Reader (List (NodeId × NodeId))
  | 0, _ => refuse
  | fuel + 1, room => do
      if ← takes .key then do
        let ends : List Token := [.key, .value, .blockEnd]
        let key ← nodeUnless resolve fuel room .entry ends
        let value ← valueUnless resolve fuel room .entry ends
        return (key, value) :: (← blockEntries resolve fuel room)
      else do
        expect .blockEnd
        return []

-- A comma before every part but the first. A key in a sequence makes a mapping of one
-- entry.
def flowItems (resolve : String → String) : Nat → Nat → Bool → Reader (List NodeId)
  | 0, _, _ => refuse
  | fuel + 1, room, first => do
      if ← takes .flowSequenceEnd then return []
      else do
        if !first then expect .flowEntry
        if ← sees [.key] then do
          let pair ← mapping none (Node.coreTag "map") do
            skip
            let key ← nodeUnless resolve fuel room .flow [.value, .flowEntry, .flowSequenceEnd]
            let value ← valueUnless resolve fuel room .flow [.flowEntry, .flowSequenceEnd]
            return [(key, value)]
          return pair :: (← flowItems resolve fuel room false)
        else if ← takes .flowSequenceEnd then return []
        else do
          let item ← node resolve fuel room .flow
          return item :: (← flowItems resolve fuel room false)

def flowEntries (resolve : String → String) : Nat → Nat → Bool → Reader (List (NodeId × NodeId))
  | 0, _, _ => refuse
  | fuel + 1, room, first => do
      if ← takes .flowMappingEnd then return []
      else do
        if !first then expect .flowEntry
        if ← takes .key then do
          let key ← nodeUnless resolve fuel room .flow [.value, .flowEntry, .flowMappingEnd]
          let value ← valueUnless resolve fuel room .flow [.flowEntry, .flowMappingEnd]
          return (key, value) :: (← flowEntries resolve fuel room false)
        else if ← takes .flowMappingEnd then return []
        else do
          let key ← node resolve fuel room .flow
          let value ← add (emptyNode resolve none)
          return (key, value) :: (← flowEntries resolve fuel room false)

end

-- Directives before a document: the version once and of the first major number,
-- every tag handle once.
def directives : Nat → Bool → Entries String String → Reader (Entries String String)
  | 0, _, handles => return handles
  | fuel + 1, versioned, handles => do
      match ← peek with
      | .directive (.version major) =>
          if versioned || major ≠ 1 then refuse
          else do
            skip
            directives fuel true handles
      | .directive (.tag handle start) =>
          if handles.has handle then refuse
          else do
            skip
            directives fuel versioned (handles.put handle start)
      | .directive .other => do
          skip
          directives fuel versioned handles
      | _ => return handles

def defaultHandles : Entries String String := [("!", "!"), ("!!", Node.tagStem)]

def skipDocumentEnds : Nat → Reader Unit
  | 0 => pure ()
  | fuel + 1 => do
      if ← takes .documentEnd then skipDocumentEnds fuel

def isDirective : Token → Bool
  | .directive _ => true
  | _ => false

-- A document after its marker may be empty.
def content (resolve : String → String) (fuel : Nat) : Reader NodeId := do
  let t ← peek
  if isDirective t || t = .documentStart || t = .documentEnd || t = .streamEnd then
    add (emptyNode resolve none)
  else node resolve fuel maxDepth .block

-- The directives of a document and the marker they lead up to.
def opening (fuel : Nat) : Reader Unit := do
  let handles ← directives fuel false []
  modify fun r => { r with handles := handles ++ defaultHandles }
  expect .documentStart

-- Nothing may follow a document, not even another one.
def ending (fuel : Nat) : Reader Unit := do
  skipDocumentEnds fuel
  if !(← sees [.streamEnd]) then do
    opening fuel
    refuse

-- The only document of a text, if it has one.
def document (resolve : String → String) (fuel : Nat) : Reader (Option NodeId) := do
  let t ← peek
  if isDirective t || t = .documentStart then do
    opening fuel
    let n ← content resolve fuel
    ending fuel
    return some n
  else if t = .streamEnd then return none
  else do
    let n ← node resolve fuel maxDepth .block
    ending fuel
    return some n

end Reader

namespace Graph

-- The graph of a text's only document and the node it starts from; `resolve` gives the
-- tags of plain scalars.
def ofTokens (resolve : String → String) (ts : Tokens) :
    Except Failure (Graph × Option NodeId) := do
  let start : Reading := ⟨ts, empty, [], Reader.defaultHandles⟩
  let (root, r) ← (Reader.document resolve (4 * ts.list.length + 8)).run start
  return (r.graph, root)

end Graph

end Coffer.Yaml
