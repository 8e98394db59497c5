import Coffer.Failure

-- Keys and batches as they are handed in, before it is known that they are text.

namespace Coffer

-- What may change can be no key.
def checkKey (key : Value) : Except Failure Unit :=
  match key.changeable? with
  | some typeName => .error (.mistyped (.notHashable typeName))
  | none => .ok ()

-- What a value holds, one after another.
def sequence? : Value → Option (List Value)
  | .list items => some items
  | .text s => some (s.toList.map fun c => .text (String.singleton c))
  | .bytes b => some (b.map fun x => .int x.toNat)
  | .dict entries => some (Entries.keys entries)
  | _ => none

def pairOf (position : Nat) (v : Value) : Except Failure (Value × Value) :=
  match sequence? v with
  | none => .error (.mistyped (.notSequence position))
  | some [key, value] => do
      checkKey key
      return (key, value)
  | some items => .error (.unusable (.pairLength position items.length))

def pairsFrom (position : Nat) : List Value → Except Failure (Entries Value Value)
  | [] => .ok []
  | v :: rest => do
      let pair ← pairOf position v
      return pair :: (← pairsFrom (position + 1) rest)

-- A batch is a mapping, or pairs one after another.
def batchOf (v : Value) : Except Failure (Entries Value Value) :=
  match v with
  | .dict entries => .ok entries
  | v =>
      match sequence? v with
      | none => .error (.mistyped (.notIterable v.typeName))
      | some items => Entries.putAll [] <$> pairsFrom 0 items

-- The first entry of a batch that is not text under text makes it unusable.
def textRecords : Entries Value Value → Except Failure (Entries String String)
  | [] => .ok []
  | (.text k, .text v) :: rest => return (k, v) :: (← textRecords rest)
  | (k, v) :: _ => .error (.mistyped (.notText k v))

end Coffer
