import Coffer.Yaml.Cursor
import Coffer.Text.Arrival

-- The characters of a document as they come in, portion by portion. Each portion is
-- checked as a whole when it is first needed, so that a fault in one is of no concern
-- to what the portions before it decide.

namespace Coffer.Yaml

-- The characters up to the first faulty portion, and the fault.
structure Source where
  chars : List Char
  fault : Option Failure

namespace Source

def isPrintable (c : Char) : Bool :=
  let n := c.toNat
  n = 0x09 || n = 0x0A || n = 0x0D || (0x20 ≤ n && n ≤ 0x7E) || n = 0x85
    || (0xA0 ≤ n && n ≤ 0xD7FF) || (0xE000 ≤ n && n ≤ 0xFFFD) || 0x10000 ≤ n

-- Where the portion with the given character starts. The first two portions come
-- together.
def portionStart (index : Nat) : Nat :=
  let start := index / Text.portionSize * Text.portionSize
  if start < 2 * Text.portionSize then 0 else start

def firstUnprintable? (cs : List Char) : Option Nat := cs.findIdx? fun c => !isPrintable c

-- Bytes that are no text are found before the characters around them are looked at.
def ofArrival (a : Text.Arrival) : Source :=
  let unprintable := (firstUnprintable? a.chars).map portionStart
  let cut (start : Nat) (fault : Failure) : Source := ⟨a.chars.take start, some fault⟩
  match a.fault, unprintable with
  | none, none => ⟨a.chars, none⟩
  | none, some start => cut start (.unusable .document)
  | some fault, none => cut (portionStart a.chars.length) (.undecodable fault)
  | some fault, some start =>
      if start < portionStart a.chars.length then cut start (.unusable .document)
      else cut (portionStart a.chars.length) (.undecodable fault)

def ofBytes (b : Bytes) : Source := ofArrival (Text.Arrival.ofBytes b)

end Source

end Coffer.Yaml
