import Coffer.Yaml.Graph.Basic
import Coffer.Yaml.Number
import Coffer.Text.Base64

-- What the nodes of a document hold. Collections are begun empty and filled level by
-- level, so of several faults the one nearest to the root is met first, and a
-- collection may hold itself. What is begun once is the same wherever it is named.

namespace Coffer.Yaml

-- A part is a value, or stands for the collection of a node.
inductive Part where
  | value (v : Value)
  | collection (id : NodeId)
  deriving Inhabited

inductive Content where
  | list (items : List Part)
  | dict (entries : List (Value × Part))
  | set (keys : List Value)
  | pairs (entries : List (Part × Part))
  deriving Inhabited

namespace Scalar

def boolOf (s : String) : Except Failure Value :=
  let word := String.ofList (Text.lower s.toList)
  if ["yes", "true", "on"].contains word then .ok (.bool true)
  else if ["no", "false", "off"].contains word then .ok (.bool false)
  else .error (.unknownWord word)

def momentOf (s : String) : Except Failure Value :=
  match Timestamp.parse? (Plain.withoutLineEnd s.toList) with
  | none => .error (.noMember Value.null.typeName "groupdict")
  | some (m, _) =>
      match m.fault? with
      | some message => .error (.unusable (.scalar message))
      | none => .ok (.moment m)

-- Base64 of the standard alphabet; whatever is not in it is skipped.
def bytesOf (s : String) : Except Failure Value :=
  let cs := s.toList
  if cs.any fun c => 128 ≤ c.toNat then malformed
  else
    match Base64.decodeChars (cs.filter fun c => c ≠ '-' && c ≠ '_') with
    | some b => .ok (.bytes b)
    | none => malformed

-- The value of a text by the name of its tag; `none` if the tag is for others.
def value? (name text : String) : Option (Except Failure Value) :=
  match name with
  | "null" => some (.ok .null)
  | "bool" => some (boolOf text)
  | "int" => some ((Number.int text).map .int)
  | "float" => some ((Number.float text).map .float)
  | "binary" => some (bytesOf text)
  | "timestamp" => some (momentOf text)
  | "str" => some (.ok (.text text))
  | _ => none

end Scalar

def isCollectionName (name : String) : Bool := ["seq", "map", "set", "omap", "pairs"].contains name

-- The graph, what has been begun and filled of it, and what has been begun but not
-- filled, from the last to the first.
structure Making where
  graph : Graph
  parts : Array (Option Part)
  contents : Array (Option Content)
  begun : List NodeId

abbrev Maker := StateT Making (Except Failure)

namespace Maker

def refuse {α : Type} : Maker α := fun _ => malformed

def nodeOf (id : NodeId) : Maker Node := do return (← get).graph.node id

-- A mapping has a text, but no moment is read from it.
def scalar (id : NodeId) (n : Node) (name : String) : Maker Part := fun m => do
  let text ← m.graph.text id
  if name == "timestamp" && n matches .mapping .. then
    .error (.mistyped (.notMatchable (Value.list []).typeName))
  else
    match Scalar.value? name text with
    | some r => return (.value (← r), m)
    | none => malformed

def start (id : NodeId) : Maker Part := do
  let n ← nodeOf id
  match n.coreName? with
  | none => refuse
  | some name =>
      if isCollectionName name then do
        modify fun m => { m with begun := id :: m.begun }
        return .collection id
      else if (Scalar.value? name "").isSome then scalar id n name
      else refuse

def part (id : NodeId) : Maker Part := do
  match (← get).parts.getD id none with
  | some p => return p
  | none => do
      let p ← start id
      modify fun m => { m with parts := m.parts.setIfInBounds id (some p) }
      return p

-- Collections are no keys.
def key (id : NodeId) : Maker Value := do
  match ← part id with
  | .value v => return v
  | .collection _ => refuse

def entry (e : NodeId × NodeId) : Maker (Value × Part) := do
  let k ← key e.1
  return (k, ← part e.2)

-- Of entries with the same key the first keeps its place and the last its value.
def entriesOf (id : NodeId) : Maker (List (Value × Part)) := do
  match ← nodeOf id with
  | .mapping .. => do
      let graph ← fun m => (Merging.run id m.graph).map (·, m)
      modify fun m => { m with graph }
      return Entries.putAll [] (← (graph.node id).entries.mapM entry)
  | _ => refuse

def itemsOf (id : NodeId) : Maker (List NodeId) := do
  match ← nodeOf id with
  | .sequence _ items => return items
  | _ => refuse

-- An item of a list of pairs is a mapping of one entry.
def pair (id : NodeId) : Maker (Part × Part) := do
  match (← nodeOf id).entries with
  | [(k, v)] => do
      let k ← part k
      return (k, ← part v)
  | _ => refuse

def fill (id : NodeId) : Maker Unit := do
  let content ←
    match (← nodeOf id).coreName?.getD "" with
    | "seq" => Content.list <$> (← itemsOf id).mapM part
    | "map" => Content.dict <$> entriesOf id
    | "set" => (fun es => Content.set (Entries.keys es)) <$> entriesOf id
    | _ => Content.pairs <$> (← itemsOf id).mapM pair
  modify fun m => { m with contents := m.contents.setIfInBounds id (some content) }

-- Each level fills a node at least, and no node is filled twice.
def fillLevels : Nat → Maker Unit
  | 0 => pure ()
  | fuel + 1 => do
      let level := (← get).begun.reverse
      if level.isEmpty then pure ()
      else do
        modify fun m => { m with begun := [] }
        level.forM fill
        fillLevels fuel

end Maker

namespace Graph

-- What a node holds, with the contents of all collections that it leads to.
def contents (g : Graph) (root : NodeId) : Except Failure (Part × Array (Option Content)) := do
  let size := g.nodes.size
  let making : Making := ⟨g, Array.replicate size none, Array.replicate size none, []⟩
  let (p, m) ←
    (do
      let p ← Maker.part root
      Maker.fillLevels (size + 1)
      return p : Maker Part).run making
  return (p, m.contents)

end Graph

end Coffer.Yaml
