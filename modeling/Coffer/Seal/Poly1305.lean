import Coffer.Bytes

-- The Poly1305 authenticator: the message as a polynomial over a prime field,
-- evaluated at one half of a key that is used once and masked by the other half.

namespace Coffer.Poly1305

-- Five less than the 130th power of two.
def prime : Nat := 0x3fffffffffffffffffffffffffffffffb

def clampMask : Nat := 0x0ffffffc0ffffffc0ffffffc0fffffff

-- Every part of up to 16 bytes counts as a number with a one above its last byte.
def accumulate (r : Nat) (message : Bytes) : Nat :=
  (Bytes.chunks 16 message).foldl (fun (acc : Nat) part => (acc + Bytes.toNatLE (part ++ [1])) * r % prime) 0

def tag (key message : Bytes) : Bytes :=
  let r := Bytes.toNatLE (key.take 16) &&& clampMask
  let s := Bytes.toNatLE (key.drop 16)
  Bytes.ofNatLE 16 (accumulate r message + s)

@[simp] theorem length_tag (key message : Bytes) : (tag key message).length = 16 := by
  simp [tag]

end Coffer.Poly1305
