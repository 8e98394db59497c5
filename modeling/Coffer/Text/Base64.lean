import Coffer.Bytes

-- Base64. Writing pads to whole quads of characters. Reading is lenient: it
-- takes either alphabet, skips every other character, and stops at the padding
-- that completes a quad.

namespace Coffer.Base64

structure Alphabet where
  plus : Char
  slash : Char

def standard : Alphabet := ⟨'+', '/'⟩

def urlSafe : Alphabet := ⟨'-', '_'⟩

def Alphabet.digit (a : Alphabet) (n : Nat) : Char :=
  if n < 26 then Char.ofNat (65 + n)
  else if n < 52 then Char.ofNat (71 + n)
  else if n < 62 then Char.ofNat (n - 4)
  else if n = 62 then a.plus
  else a.slash

def encodeChars (a : Alphabet) : Bytes → List Char
  | [] => []
  | [x] => [a.digit (x.toNat / 4), a.digit (x.toNat % 4 * 16), '=', '=']
  | [x, y] =>
      [a.digit (x.toNat / 4), a.digit (x.toNat % 4 * 16 + y.toNat / 16),
        a.digit (y.toNat % 16 * 4), '=']
  | x :: y :: z :: rest =>
      a.digit (x.toNat / 4) :: a.digit (x.toNat % 4 * 16 + y.toNat / 16) ::
        a.digit (y.toNat % 16 * 4 + z.toNat / 64) :: a.digit (z.toNat % 64) :: encodeChars a rest

def encode (a : Alphabet) (b : Bytes) : String := String.ofList (encodeChars a b)

-- The value of a character in either alphabet.
def digitValue? (c : Char) : Option Nat :=
  if 'A' ≤ c ∧ c ≤ 'Z' then some (c.toNat - 65)
  else if 'a' ≤ c ∧ c ≤ 'z' then some (c.toNat - 71)
  else if '0' ≤ c ∧ c ≤ '9' then some (c.toNat + 4)
  else if c = '+' ∨ c = '-' then some 62
  else if c = '/' ∨ c = '_' then some 63
  else none

-- The whole bytes that the digits of a quad spell; spare low bits are dropped.
def quadBytes : List Nat → Bytes
  | [a, b] => [UInt8.ofNat (4 * a + b / 16)]
  | [a, b, c] => [UInt8.ofNat (4 * a + b / 16), UInt8.ofNat (16 * b + c / 4)]
  | [a, b, c, d] =>
      [UInt8.ofNat (4 * a + b / 16), UInt8.ofNat (16 * b + c / 4), UInt8.ofNat (64 * c + d)]
  | _ => []

-- `quad` holds the digits of the quad under way and `pads` counts the padding
-- since its last digit. Padding counts from the second digit on.
def decodeFrom (quad : List Nat) (pads : Nat) : List Char → Option Bytes
  | [] => if quad.isEmpty then some [] else none
  | c :: rest =>
      if c = '=' then
        if quad.length < 2 then decodeFrom quad pads rest
        else if 4 ≤ quad.length + pads + 1 then some (quadBytes quad)
        else decodeFrom quad (pads + 1) rest
      else
        match digitValue? c with
        | none => decodeFrom quad pads rest
        | some d =>
            if quad.length = 3 then (quadBytes (quad ++ [d]) ++ ·) <$> decodeFrom [] 0 rest
            else decodeFrom (quad ++ [d]) 0 rest

def decodeChars (cs : List Char) : Option Bytes := decodeFrom [] 0 cs

end Coffer.Base64
