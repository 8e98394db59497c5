import Coffer.Text.DecompositionTable
import Coffer.Text.CombiningClass

-- Compatibility decomposition: every character replaced by its full
-- decomposition, then marks in a row sorted by combining class.

namespace Coffer.Text

-- A Hangul syllable is composed of two or three jamo by position.
def decomposeHangul (n : Nat) : List Nat :=
  let index := n - 0xAC00
  let tail := index % 28
  [0x1100 + index / 588, 0x1161 + index % 588 / 28] ++ if tail = 0 then [] else [0x11A7 + tail]

def decomposeChar (c : Char) : List Char :=
  let n := c.toNat
  if n < 0xA0 then [c]
  else if 0xAC00 ≤ n ∧ n ≤ 0xD7A3 then (decomposeHangul n).map Char.ofNat
  else
    match decompositions[n]? with
    | some parts => parts.map Char.ofNat
    | none => [c]

-- Puts a mark behind the marks of no higher class.
def insertMark (c : Char) : List Char → List Char
  | [] => [c]
  | d :: rest =>
      if combiningClass c < combiningClass d then c :: d :: rest else d :: insertMark c rest

-- `marks` are the sorted marks since the last starter.
def reorderFrom (marks : List Char) : List Char → List Char
  | [] => marks
  | c :: rest =>
      if combiningClass c = 0 then marks ++ c :: reorderFrom [] rest
      else reorderFrom (insertMark c marks) rest

def reorder (cs : List Char) : List Char := reorderFrom [] cs

def decompose (cs : List Char) : List Char := reorder (cs.flatMap decomposeChar)

end Coffer.Text
