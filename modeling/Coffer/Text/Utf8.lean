import Coffer.Bytes

-- UTF-8: characters to bytes, and bytes to characters with the place and the
-- reason of the first fault.

namespace Coffer.Utf8

def encodeChar (c : Char) : Bytes :=
  let n := c.toNat
  if n < 0x80 then [UInt8.ofNat n]
  else if n < 0x800 then [UInt8.ofNat (0xC0 + n / 64), UInt8.ofNat (0x80 + n % 64)]
  else if n < 0x10000 then
    [UInt8.ofNat (0xE0 + n / 4096), UInt8.ofNat (0x80 + n / 64 % 64), UInt8.ofNat (0x80 + n % 64)]
  else
    [UInt8.ofNat (0xF0 + n / 262144), UInt8.ofNat (0x80 + n / 4096 % 64),
      UInt8.ofNat (0x80 + n / 64 % 64), UInt8.ofNat (0x80 + n % 64)]

def encodeChars (cs : List Char) : Bytes := cs.flatMap encodeChar

def encode (s : String) : Bytes := encodeChars s.toList

inductive Reason where
  | startByte
  | continuation
  | truncated
  deriving DecidableEq, Repr

-- The bytes from `start` up to but not including `stop` are no character;
-- `first` is the byte at `start`.
structure Fault where
  first : UInt8
  start : Nat
  stop : Nat
  reason : Reason
  deriving DecidableEq, Repr

def Reason.message : Reason → String
  | .startByte => "invalid start byte"
  | .continuation => "invalid continuation byte"
  | .truncated => "unexpected end of data"

def Fault.message (f : Fault) : String :=
  let place :=
    if f.stop = f.start + 1 then s!"byte 0x" ++ Bytes.toHex [f.first] ++ s!" in position {f.start}"
    else s!"bytes in position {f.start}-{f.stop - 1}"
  "'utf-8' codec can't decode " ++ place ++ ": " ++ f.reason.message

-- A character of which `more` bytes are still to come, the next one within
-- `low` and `high`; `code` is what the `taken` bytes so far spell.
structure Pending where
  first : UInt8
  taken : Nat
  more : Nat
  low : UInt8
  high : UInt8
  code : Nat

-- The bounds on the second byte shut out overlong forms, surrogates and
-- numbers past the last code point.
def Pending.ofLead? (b : UInt8) : Option Pending :=
  let tail (more : Nat) (low high : UInt8) (code : Nat) : Option Pending :=
    some ⟨b, 1, more, low, high, code⟩
  if b < 0x80 then tail 0 0x80 0xBF b.toNat
  else if b < 0xC2 then none
  else if b < 0xE0 then tail 1 0x80 0xBF (b.toNat - 0xC0)
  else if b = 0xE0 then tail 2 0xA0 0xBF 0
  else if b = 0xED then tail 2 0x80 0x9F 0xD
  else if b < 0xF0 then tail 2 0x80 0xBF (b.toNat - 0xE0)
  else if b = 0xF0 then tail 3 0x90 0xBF 0
  else if b < 0xF4 then tail 3 0x80 0xBF (b.toNat - 0xF0)
  else if b = 0xF4 then tail 3 0x80 0x8F 4
  else none

def Pending.push (p : Pending) (b : UInt8) : Pending :=
  ⟨p.first, p.taken + 1, p.more - 1, 0x80, 0xBF, 64 * p.code + b.toNat % 64⟩

def decodeFrom : Option Pending → Nat → Bytes → Except Fault (List Char)
  | none, _, [] => .ok []
  | some p, pos, [] => .error ⟨p.first, pos - p.taken, pos, .truncated⟩
  | none, pos, b :: rest =>
      match Pending.ofLead? b with
      | none => .error ⟨b, pos, pos + 1, .startByte⟩
      | some p =>
          if p.more = 0 then (Char.ofNat p.code :: ·) <$> decodeFrom none (pos + 1) rest
          else decodeFrom (some p) (pos + 1) rest
  | some p, pos, b :: rest =>
      if p.low ≤ b ∧ b ≤ p.high then
        let p := p.push b
        if p.more = 0 then (Char.ofNat p.code :: ·) <$> decodeFrom none (pos + 1) rest
        else decodeFrom (some p) (pos + 1) rest
      else .error ⟨p.first, pos - p.taken, pos, .continuation⟩

def decodeChars (b : Bytes) : Except Fault (List Char) := decodeFrom none 0 b

def decode (b : Bytes) : Except Fault String := String.ofList <$> decodeChars b

end Coffer.Utf8
