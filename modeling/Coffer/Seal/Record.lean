import Coffer.Failure
import Coffer.Entries
import Coffer.Text.Base64
import Coffer.Seal.Aead

-- Sealed records. A record is written as the URL-safe base64 of its nonce, its
-- cipher text and its tag; the key it is stored under is bound to it.

namespace Coffer.Seal

def keyLength : Nat := 32

def nonceLength : Nat := 12

structure Key where
  bytes : Bytes
  length_eq : bytes.length = keyLength
  deriving DecidableEq

def Key.ofBytes? (b : Bytes) : Option Key :=
  if h : b.length = keyLength then some ⟨b, h⟩ else none

def Key.check (b : Bytes) : Except Failure Key :=
  match Key.ofBytes? b with
  | some key => .ok key
  | none => .error (.unusable (.keyLength b.length))

-- A list of small integers as bytes.
def bytesOf : List Value → Except Failure Bytes
  | [] => .ok []
  | .int n :: rest =>
      if 0 ≤ n ∧ n < 256 then return UInt8.ofNat n.toNat :: (← bytesOf rest)
      else .error (.unusable .notByte)
  | .bool b :: rest => return (if b then 1 else 0) :: (← bytesOf rest)
  | v :: _ => .error (.mistyped (.notInteger v.typeName))

-- The largest count of bytes that there is, and the largest there is room for.
def maxCount : Int := 0x7FFFFFFFFFFFFFFF

def maxByteCount : Int := maxCount - 33

def maxMemory : Int := 0x4000000000

-- Bytes are taken as they are, a list or the keys of a mapping as the bytes they
-- name, and an integer as so many zeros.
def Key.ofValue (v : Value) : Except Failure Key :=
  match v with
  | .bytes b => Key.check b
  | .list items => do Key.check (← bytesOf items)
  | .dict entries => do Key.check (← bytesOf (Entries.keys entries))
  | .int n =>
      if n < -maxCount - 1 ∨ maxCount < n then .error (.overflow .size)
      else if n < 0 then .error (.unusable .negativeCount)
      else if maxByteCount < n then .error (.overflow .byteCount)
      else if maxMemory < n then .error .outOfMemory
      else if n = keyLength then Key.check (List.replicate keyLength 0)
      else .error (.unusable (.keyLength n.toNat))
  | .bool b => .error (.unusable (.keyLength (if b then 1 else 0)))
  | .text _ => .error (.mistyped .textWithoutEncoding)
  | v => .error (.mistyped (.notBytes v.typeName))

-- The nonce that is drawn as the n-th.
def nonce (n : Nat) : Bytes := Bytes.ofNatBE nonceLength n

def sealRecord (key : Key) (nonce : Bytes) (recordKey text : String) : String :=
  Base64.encode Base64.urlSafe
    (nonce ++ Aead.encrypt key.bytes nonce (Utf8.encode recordKey) (Utf8.encode text))

-- The nonce of a sealed text, and what follows it.
def split? (sealedText : String) : Option (Bytes × Bytes) := do
  let cs := sealedText.toList
  guard (cs.all fun c => c.toNat < 128)
  let raw ← Base64.decodeChars cs
  guard (nonceLength + Aead.tagLength ≤ raw.length)
  return (raw.take nonceLength, raw.drop nonceLength)

def openRecord (key : Key) (recordKey sealedText : String) : Except Failure String :=
  match split? sealedText with
  | none => .error (.notAuthentic recordKey)
  | some (nonce, body) =>
      match Aead.decrypt? key.bytes nonce (Utf8.encode recordKey) body with
      | none => .error (.notAuthentic recordKey)
      | some plain => (Utf8.decode plain).mapError .undecodable

-- Sealing and opening with bytes that may not have the length of a key. A text
-- that is no sealed record is found out first.
def sealUnchecked (key nonce : Bytes) (recordKey text : String) : Except Failure String :=
  match Key.ofBytes? key with
  | some key => .ok (sealRecord key nonce recordKey text)
  | none => .error (.unusable .cipherKeyLength)

def openUnchecked (key : Bytes) (recordKey sealedText : String) : Except Failure String :=
  match split? sealedText, Key.ofBytes? key with
  | none, _ => .error (.notAuthentic recordKey)
  | some _, none => .error (.unusable .cipherKeyLength)
  | some _, some key => openRecord key recordKey sealedText

end Coffer.Seal
