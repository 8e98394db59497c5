import Coffer.Yaml.Content
import Coffer.Yaml.SetOrder
import Coffer.Yaml.Graph.OfTokens

-- The value of a document. A collection that holds itself has no end; it is unrolled a
-- few times, further than anything looks into it.

namespace Coffer.Yaml

def setType : String := "set"

def setShown (keys : List Value) : String :=
  if keys.isEmpty then Value.emptySetShown
  else "\x7b" ++ ", ".intercalate ((SetOrder.arrange keys).map Value.shown) ++ "\x7d"

def pairValue (k v : Value) : Value := .foreign "tuple" ("(" ++ k.shown ++ ", " ++ v.shown ++ ")")

namespace Content

-- What stands for a collection inside itself.
def again : Content → Value
  | .dict _ => .again true
  | _ => .again false

end Content

-- How far the value of a node has come.
inductive Progress where
  | fresh
  | underWay
  | done (v : Value)
  deriving Inhabited

-- `earlier` holds what stands for a collection inside itself.
structure Unrolling where
  progress : Array Progress
  earlier : Array Value
  isCyclic : Bool

namespace Unrolling

def partWith (collection : NodeId → StateM Unrolling Value) : Part → StateM Unrolling Value
  | .value v => pure v
  | .collection id => collection id

-- Every collection under way is another one, so their number bounds the fuel.
def valueOf (contents : Array (Option Content)) : Nat → NodeId → StateM Unrolling Value
  | 0, _ => pure .null
  | fuel + 1, id => do
      match (← get).progress.getD id .fresh with
      | .done v => return v
      | .underWay => do
          modify fun u => { u with isCyclic := true }
          return (← get).earlier.getD id .null
      | .fresh => do
          modify fun u => { u with progress := u.progress.setIfInBounds id .underWay }
          let part := partWith (valueOf contents fuel)
          let v ←
            match contents.getD id none with
            | some (.list items) => Value.list <$> items.mapM part
            | some (.dict entries) => Value.dict <$> entries.mapM fun (k, v) => return (k, ← part v)
            | some (.set keys) => pure (.foreign setType (setShown keys))
            | some (.pairs entries) =>
                Value.list <$> entries.mapM fun (k, v) => return pairValue (← part k) (← part v)
            | none => pure .null
          modify fun u => { u with progress := u.progress.setIfInBounds id (.done v) }
          return v

def doneOr (v : Value) : Progress → Value
  | .done w => w
  | _ => v

def pass (contents : Array (Option Content)) (root : Part) (earlier : Array Value) :
    Value × Unrolling :=
  (partWith (valueOf contents (contents.size + 1)) root).run
    ⟨Array.replicate contents.size .fresh, earlier, false⟩

-- The passes left, each of which starts from what the one before made.
def repeated (contents : Array (Option Content)) (root : Part) : Nat → Array Value → Value
  | 0, earlier => (pass contents root earlier).1
  | passes + 1, earlier =>
      let (v, u) := pass contents root earlier
      if u.isCyclic then
        repeated contents root passes ((u.progress.zip earlier).map fun (p, w) => doneOr w p)
      else v

end Unrolling

namespace Document

def unrollings : Nat := 3

def valueOf (p : Part) (contents : Array (Option Content)) : Value :=
  Unrolling.repeated contents p unrollings
    (contents.map fun c => (c.map Content.again).getD .null)

-- The value of the only document of a text; null if there is none.
def load (source : Source) : Except Failure Value := do
  match ← Graph.ofTokens Plain.tagName (Tokens.ofSource source) with
  | (_, none) => .ok .null
  | (g, some root) => do
      let (p, contents) ← g.contents root
      return valueOf p contents

end Document

end Coffer.Yaml
