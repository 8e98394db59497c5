import Coffer.Yaml.Cursor
import Coffer.Entries

-- The nodes of a document, each with its tag. A node that several places name is
-- there once, and a node may be found again inside itself.

namespace Coffer.Yaml

abbrev NodeId := Nat

inductive Node where
  | scalar (tag text : String)
  | sequence (tag : String) (items : List NodeId)
  | mapping (tag : String) (entries : List (NodeId × NodeId))
  deriving Repr, Inhabited

namespace Node

def tagStem : String := "tag:yaml.org,2002:"

def coreTag (name : String) : String := tagStem ++ name

def tag : Node → String
  | .scalar tag _ | .sequence tag _ | .mapping tag _ => tag

def withTag (tag : String) : Node → Node
  | .scalar _ text => .scalar tag text
  | .sequence _ items => .sequence tag items
  | .mapping _ entries => .mapping tag entries

def isTagged (n : Node) (name : String) : Bool := n.tag == coreTag name

-- The name of a tag that every document knows.
def coreName? (n : Node) : Option String :=
  if n.tag.startsWith tagStem then some (String.ofList (n.tag.toList.drop tagStem.length)) else none

def entries : Node → List (NodeId × NodeId)
  | .mapping _ entries => entries
  | _ => []

end Node

structure Graph where
  nodes : Array Node
  deriving Repr, Inhabited

namespace Graph

def empty : Graph := ⟨#[]⟩

def node (g : Graph) (id : NodeId) : Node := g.nodes.getD id (.scalar "" "")

def set (g : Graph) (id : NodeId) (n : Node) : Graph := ⟨g.nodes.setIfInBounds id n⟩

def push (g : Graph) (n : Node) : Graph × NodeId := (⟨g.nodes.push n⟩, g.nodes.size)

def isTagged (g : Graph) (id : NodeId) (name : String) : Bool := (g.node id).isTagged name

-- The text of a scalar, or of what a mapping gives as its value. A mapping may give
-- itself, and then there is no end to it.
def textFrom (g : Graph) : Nat → NodeId → Except Failure String
  | 0, _ => .error .documentTooDeep
  | fuel + 1, id =>
      match g.node id with
      | .scalar _ s => .ok s
      | .mapping _ entries =>
          match entries.find? fun e => g.isTagged e.1 "value" with
          | some (_, value) => textFrom g fuel value
          | none => malformed
      | .sequence .. => malformed

def text (g : Graph) (id : NodeId) : Except Failure String := g.textFrom (g.nodes.size + 1) id

def mergeCount (g : Graph) : Nat :=
  g.nodes.foldl (fun count n => count + (n.entries.filter fun e => g.isTagged e.1 "merge").length) 0

-- The value key of a mapping is a text like any other once merging is done.
def plainKeys (g : Graph) (entries : List (NodeId × NodeId)) : Graph :=
  entries.foldl
    (fun g (key, _) =>
      if g.isTagged key "value" then g.set key ((g.node key).withTag (Node.coreTag "str")) else g)
    g

end Graph

-- Merging: a mapping takes over the entries of those it merges in, before its own. An
-- entry that asks for it is taken out first, so a mapping may even merge itself.

abbrev Merging := StateT Graph (Except Failure)

namespace Merging

def refuse {α : Type} : Merging α := fun _ => malformed

-- Each step takes out one entry, so the number of those there are bounds the fuel.
mutual

def settle : Nat → NodeId → Merging Unit
  | 0, _ => refuse
  | fuel + 1, id => do
      let g ← get
      match g.node id with
      | .mapping tag entries =>
          match entries.span fun e => !g.isTagged e.1 "merge" with
          | (_, []) => set (g.plainKeys entries)
          | (before, (_, source) :: after) => do
              set (g.set id (.mapping tag (before ++ after)))
              let gained ← gather fuel source
              settle fuel id
              modify fun g => g.set id (.mapping tag (gained ++ (g.node id).entries))
      | _ => pure ()

-- The entries that a mapping, or each mapping of a sequence, has to offer; of several
-- the last comes first.
def gather : Nat → NodeId → Merging (List (NodeId × NodeId))
  | 0, _ => refuse
  | fuel + 1, source => do
      match (← get).node source with
      | .mapping .. => do
          settle fuel source
          return ((← get).node source).entries
      | .sequence _ items => do
          let parts ← items.mapM fun item => do
            match (← get).node item with
            | .mapping .. => do
                settle fuel item
                return ((← get).node item).entries
            | _ => refuse
          return parts.reverse.flatten
      | .scalar .. => refuse

end

def run (id : NodeId) (g : Graph) : Except Failure Graph :=
  (StateT.run (settle (2 * g.mergeCount + 2) id) g).map (·.2)

end Merging

end Coffer.Yaml
