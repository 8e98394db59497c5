import Coffer.Value

-- The order in which the members of a set are shown. Numbers stand in the places of a
-- table that their hashes lead to; anything else has no place of its own, and a set
-- that holds it keeps the order in which its members came.

namespace Coffer.Yaml.SetOrder

-- Numbers are hashed modulo a prime in which every power of two has an inverse that is
-- a power of two again.
def primeBits : Nat := 61

def prime : Nat := Nat.pow 2 primeBits - 1

def infinityHash : Int := 314159

def hashOfRatio (num : Int) (den : Nat) : Int :=
  let inverse := Nat.pow 2 ((primeBits - Nat.log2 den % primeBits) % primeBits)
  let magnitude : Int := num.natAbs * inverse % prime
  let h := if num < 0 then -magnitude else magnitude
  if h = -1 then -2 else h

-- What is not a number has no hash.
def hash? (v : Value) : Option Int :=
  match v.ratio?, v with
  | some (num, den), _ => some (hashOfRatio num den)
  | none, .float x =>
      if x.isInfinite then some (if x.isNegative then -infinityHash else infinityHash) else none
  | none, _ => none

def wordSize : Int := 0x10000000000000000

-- The least power of two above a count, and eight at least.
def tableSize (count : Nat) : Nat :=
  let least := if 21 ≤ 5 * count then 2 * count else 0
  max 8 (Nat.pow 2 (Nat.log2 least + 1))

-- How many neighbours of a place are tried before a jump.
def reach : Nat := 9

def tried (size place : Nat) : List Nat :=
  if place + reach < size then (List.range (reach + 1)).map (place + ·) else [place]

-- The first free place. Once nothing is left of the hash the jumps lead through the
-- whole table, which bounds the fuel.
def freePlace (table : Array (Option Value)) : Nat → Nat → Nat → Nat
  | 0, _, place => place
  | fuel + 1, left, place =>
      match (tried table.size place).find? fun i => (table.getD i none).isNone with
      | some i => i
      | none =>
          let left := left / 32
          freePlace table fuel left ((5 * place + 1 + left) % table.size)

def insert (table : Array (Option Value)) (v : Value) (hash : Int) : Array (Option Value) :=
  let h := (hash % wordSize).toNat
  table.setIfInBounds (freePlace table (table.size + 16) h (h % table.size)) (some v)

-- The members of a set in the order they are shown.
def arrange (members : List Value) : List Value :=
  match members.mapM hash? with
  | none => members
  | some hashes =>
      let table := Array.replicate (tableSize members.length) none
      let filled := (members.zip hashes).foldl (fun table (v, h) => insert table v h) table
      filled.toList.filterMap id

end Coffer.Yaml.SetOrder
