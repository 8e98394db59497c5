import Coffer.Decimal.Double
import Coffer.Text.Utf8

-- A text that is read from bytes piece by piece. The places of faults are counted
-- from the start of the piece at hand, with what the piece before left unfinished.
-- Line ends become one newline each, whatever they were.

namespace Coffer.Text

-- How many characters are asked for at a time.
def portionSize : Nat := 4096

-- The least size of a piece, in bytes.
def pieceSize : Nat := 8192

-- The characters that came in before the first fault, and the fault.
structure Arrival where
  chars : List Char
  fault : Option Utf8.Fault

namespace Arrival

def unifyLines : List Char → List Char
  | [] => []
  | '\r' :: '\n' :: rest => '\n' :: unifyLines rest
  | '\r' :: rest => '\n' :: unifyLines rest
  | c :: rest => c :: unifyLines rest

-- The characters of a piece, and the bytes at its end that are not a character yet.
-- After the last piece there is nothing to wait for.
def decodePiece (last : Bool) (b : Bytes) : Except Utf8.Fault (List Char × Bytes) :=
  match Utf8.decodeChars b with
  | .ok cs => .ok (cs, [])
  | .error fault =>
      if fault.reason = .truncated && !last then
        (Utf8.decodeChars (b.take fault.start)).map fun cs => (cs, b.drop fault.start)
      else .error fault

-- What is carried from piece to piece: bytes to be finished, whether a carriage
-- return waits for what follows it, how many bytes the last piece had for each of its
-- characters, and the characters so far, from the last to the first.
structure State where
  tail : Bytes
  waiting : Bool
  density : Double
  count : Nat
  found : List Char

def start : State := ⟨[], false, Double.zero false, 0, []⟩

-- The size of the next piece: what is still wanted of the portion under way, if it
-- needs as many bytes for a character as the piece before.
def nextSize (s : State) : Nat :=
  let wanted := portionSize - s.count % portionSize
  let bytes :=
    if s.density.isBelowOne then wanted
    else ((s.density.mul (Double.ofInt wanted)).floor?).getD wanted
  max pieceSize bytes

-- The characters of a piece with its line ends unified, and whether a carriage return
-- at its end is held back.
def settleLines (waiting last : Bool) (cs : List Char) : List Char × Bool :=
  if waiting && cs.isEmpty && !last then ([], true)
  else
    let cs := if waiting then '\r' :: cs else cs
    if !last && cs.getLast? = some '\r' then (unifyLines cs.dropLast, true)
    else (unifyLines cs, false)

def take (s : State) (piece : Bytes) : Except Utf8.Fault State := do
  let last := piece.isEmpty
  let (cs, tail) ← decodePiece last (s.tail ++ piece)
  let (cs, waiting) := settleLines s.waiting last cs
  let density :=
    if cs.isEmpty then Double.zero false else Double.ofRatio false piece.length cs.length
  return ⟨tail, waiting, density, s.count + cs.length, cs.reverse ++ s.found⟩

-- The fuel bounds the number of pieces; the last one is empty.
def readFrom : Nat → State → Bytes → Arrival
  | 0, s, _ => ⟨s.found.reverse, none⟩
  | fuel + 1, s, b =>
      let size := nextSize s
      match take s (b.take size) with
      | .error fault => ⟨s.found.reverse, some fault⟩
      | .ok s =>
          if b.isEmpty then ⟨s.found.reverse, none⟩
          else readFrom fuel s (b.drop size)

def ofBytes (b : Bytes) : Arrival := readFrom (b.length + 1) start b

end Arrival

end Coffer.Text
