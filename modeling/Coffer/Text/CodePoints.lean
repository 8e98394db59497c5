import Coffer.Bytes

-- Tables of code points, written as hexadecimal text: words separated by
-- spaces and newlines, ranges written with a hyphen between their ends.

namespace Coffer.Text

def isGap (c : Char) : Bool := c = ' ' || c = '\n'

-- The pieces between the separators, empty ones kept.
def splitEvery (separator : Char) : List Char → List (List Char)
  | [] => [[]]
  | c :: rest =>
      if c = separator then [] :: splitEvery separator rest
      else
        match splitEvery separator rest with
        | [] => [[c]]
        | piece :: pieces => (c :: piece) :: pieces

-- The text before the first separator and the text after it.
def splitAt (separator : Char) (cs : List Char) : List Char × List Char :=
  (cs.takeWhile (· ≠ separator), (cs.dropWhile (· ≠ separator)).drop 1)

-- The words of a text, from its end to its start; `word` is the one under way.
def wordsFrom (found : List (List Char)) (word : List Char) : List Char → List (List Char)
  | [] => if word.isEmpty then found else word.reverse :: found
  | c :: rest =>
      if isGap c then wordsFrom (if word.isEmpty then found else word.reverse :: found) [] rest
      else wordsFrom found (c :: word) rest

def words (s : String) : List (List Char) := (wordsFrom [] [] s.toList).reverse

def hexNat (cs : List Char) : Nat :=
  cs.foldl (fun n c => 16 * n + (hexValue? c).getD 0) 0

structure CodeRange where
  first : Nat
  last : Nat
  deriving DecidableEq, Repr

namespace CodeRange

def contains (r : CodeRange) (n : Nat) : Bool := r.first ≤ n && n ≤ r.last

def ofWord (w : List Char) : CodeRange :=
  match splitAt '-' w with
  | (first, []) => ⟨hexNat first, hexNat first⟩
  | (first, last) => ⟨hexNat first, hexNat last⟩

def ofText (s : String) : Array CodeRange := ((words s).map ofWord).toArray

-- Ranges that carry a number, in hexadecimal after a colon.
def ofLabelledText (s : String) : Array (Nat × CodeRange) :=
  ((words s).map labelled).toArray
where
  labelled (w : List Char) : Nat × CodeRange :=
    match splitAt ':' w with
    | (range, label) => (hexNat label, ofWord range)

end CodeRange

end Coffer.Text
