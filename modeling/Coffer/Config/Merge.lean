import Coffer.Failure

-- Merging configurations. Where both sides hold a mapping the mappings are
-- merged; anything else is replaced.

namespace Coffer.Config

mutual

def mergeValue (old : Option Value) : Value → Value
  | .dict entries =>
      match old with
      | some (.dict base) => .dict (mergeEntries base entries)
      | _ => .dict entries
  | v => v

def mergeEntries (base : List (Value × Value)) : List (Value × Value) → List (Value × Value)
  | [] => base
  | (k, v) :: rest => mergeEntries (Entries.put base k (mergeValue (Entries.get? base k) v)) rest

end

-- Only a mapping can be merged in.
def merge (base : List (Value × Value)) (config : Value) : Except Failure (List (Value × Value)) :=
  match config with
  | .dict entries => .ok (mergeEntries base entries)
  | v => .error (.noMember v.typeName "items")

def mergeAll (configs : List Value) : Except Failure (List (Value × Value)) :=
  configs.foldlM merge []

end Coffer.Config
