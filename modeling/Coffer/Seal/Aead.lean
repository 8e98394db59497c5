import Coffer.Seal.ChaCha20
import Coffer.Seal.Poly1305

-- Authenticated encryption with associated data: the cipher text, followed by a
-- tag over the associated data, the cipher text and both their lengths.

namespace Coffer.Aead

def tagLength : Nat := 16

def padding (b : Bytes) : Bytes := List.replicate ((16 - b.length % 16) % 16) 0

def authenticated (associated cipher : Bytes) : Bytes :=
  associated ++ padding associated ++ cipher ++ padding cipher ++
    Bytes.ofNatLE 8 associated.length ++ Bytes.ofNatLE 8 cipher.length

-- The first block of the stream keys the tag; data starts at the second.
def tag (key nonce associated cipher : Bytes) : Bytes :=
  Poly1305.tag ((ChaCha20.block key nonce 0).take 32) (authenticated associated cipher)

def encrypt (key nonce associated plain : Bytes) : Bytes :=
  let cipher := ChaCha20.apply key nonce 1 plain
  cipher ++ tag key nonce associated cipher

def decrypt? (key nonce associated body : Bytes) : Option Bytes :=
  let cipher := body.take (body.length - tagLength)
  if body.drop (body.length - tagLength) = tag key nonce associated cipher then
    some (ChaCha20.apply key nonce 1 cipher)
  else none

end Coffer.Aead
