import Coffer.Seal.Record
import Coffer.Host

-- Key files: the bytes of a key, or its hexadecimal digits with blanks around.

namespace Coffer.Config.KeyFile

def isBlank (b : UInt8) : Bool := b = 0x20 || (0x09 ≤ b && b ≤ 0x0D)

def trim (b : Bytes) : Bytes := ((b.dropWhile isBlank).reverse.dropWhile isBlank).reverse

-- Pairs of digits; blanks may stand between pairs.
def hexPairs? : Bytes → Option Bytes
  | [] => some []
  | b :: rest =>
      if isBlank b then hexPairs? rest
      else
        match rest with
        | [] => none
        | c :: rest => do
            let high ← hexValue? (Char.ofNat b.toNat)
            let low ← hexValue? (Char.ofNat c.toNat)
            return UInt8.ofNat (16 * high + low) :: (← hexPairs? rest)

-- The bytes that a key file's content stands for.
def keyBytes? (content : Bytes) : Option Bytes :=
  let text := trim content
  if content.length ≠ Seal.keyLength ∧ text.length = 2 * Seal.keyLength then hexPairs? text
  else some content

def parse (path : String) (content : Bytes) : Except Failure Seal.Key :=
  match keyBytes? content with
  | some b => Seal.Key.check b
  | none => .error (.unusable (.hexKey path))

def load (home path : String) : Action Host Seal.Key := do
  let name ← .ofExcept ((PathName.ofText path).expandHome home)
  .ofExcept (parse path (← Host.readFile name))

end Coffer.Config.KeyFile
