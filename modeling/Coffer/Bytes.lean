-- Byte strings, their hexadecimal spelling, and integers of a fixed number of bytes.

namespace Coffer

abbrev Bytes := List UInt8

-- One hexadecimal digit, in lower case.
def hexDigit (n : Nat) : Char :=
  if n < 10 then Char.ofNat (48 + n) else Char.ofNat (87 + n)

def hexValue? (c : Char) : Option Nat :=
  if '0' ≤ c ∧ c ≤ '9' then some (c.toNat - 48)
  else if 'a' ≤ c ∧ c ≤ 'f' then some (c.toNat - 87)
  else if 'A' ≤ c ∧ c ≤ 'F' then some (c.toNat - 55)
  else none

namespace Bytes

def hexPair (b : UInt8) : List Char := [hexDigit (b.toNat / 16), hexDigit (b.toNat % 16)]

def toHex (b : Bytes) : String := String.ofList (b.flatMap hexPair)

-- Two digits to a byte, either case, nothing between them.
def ofHexDigits? : List Char → Option Bytes
  | [] => some []
  | h :: l :: rest => do
      let high ← hexValue? h
      let low ← hexValue? l
      let tail ← ofHexDigits? rest
      return UInt8.ofNat (16 * high + low) :: tail
  | [_] => none

def ofHex? (s : String) : Option Bytes := ofHexDigits? s.toList

-- The least significant byte first; bits beyond the width are dropped.
def ofNatLE : Nat → Nat → Bytes
  | 0, _ => []
  | width + 1, n => UInt8.ofNat n :: ofNatLE width (n / 256)

def toNatLE : Bytes → Nat
  | [] => 0
  | b :: rest => b.toNat + 256 * toNatLE rest

-- The most significant byte first.
def ofNatBE (width n : Nat) : Bytes := (ofNatLE width n).reverse

def toNatBE (b : Bytes) : Nat := b.foldl (fun n x => 256 * n + x.toNat) 0

-- The parts of a byte string, each of the given size but the last.
def chunksFrom (size : Nat) : Nat → Bytes → List Bytes
  | 0, _ => []
  | fuel + 1, b => if b.isEmpty then [] else b.take size :: chunksFrom size fuel (b.drop size)

def chunks (size : Nat) (b : Bytes) : List Bytes := chunksFrom size b.length b

def xor (a b : Bytes) : Bytes := List.zipWith (· ^^^ ·) a b

@[simp] theorem length_ofNatLE (width n : Nat) : (ofNatLE width n).length = width := by
  induction width generalizing n with
  | zero => rfl
  | succ width ih => simp [ofNatLE, ih]

@[simp] theorem length_ofNatBE (width n : Nat) : (ofNatBE width n).length = width := by
  simp [ofNatBE]

theorem toNatLE_ofNatLE (width n : Nat) : toNatLE (ofNatLE width n) = n % Nat.pow 256 width := by
  induction width generalizing n with
  | zero => simp [ofNatLE, toNatLE, Nat.mod_one]
  | succ width ih =>
      have hbyte : (UInt8.ofNat n).toNat = n % 256 := by simp
      have hpow : Nat.pow 256 (width + 1) = 256 * Nat.pow 256 width := Nat.mul_comm _ _
      rw [ofNatLE, toNatLE, ih, hbyte, hpow, Nat.mod_mul]

end Bytes

end Coffer
