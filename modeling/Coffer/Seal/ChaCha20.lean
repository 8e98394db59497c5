import Coffer.Bytes

-- The ChaCha20 stream cipher: a block of key stream for every counter value, and
-- data joined to the stream by exclusive or.

namespace Coffer.ChaCha20

abbrev Block := Vector UInt32 16

def rotateLeft (x n : UInt32) : UInt32 := (x <<< n) ||| (x >>> (32 - n))

def quarterRound (s : Block) (i j k l : Fin 16) : Block :=
  let a := s[i]
  let b := s[j]
  let c := s[k]
  let d := s[l]
  let a := a + b
  let d := rotateLeft (d ^^^ a) 16
  let c := c + d
  let b := rotateLeft (b ^^^ c) 12
  let a := a + b
  let d := rotateLeft (d ^^^ a) 8
  let c := c + d
  let b := rotateLeft (b ^^^ c) 7
  (((s.set i a).set j b).set k c).set l d

-- One round over the columns and one over the diagonals.
def doubleRound (s : Block) : Block :=
  let s := quarterRound s 0 4 8 12
  let s := quarterRound s 1 5 9 13
  let s := quarterRound s 2 6 10 14
  let s := quarterRound s 3 7 11 15
  let s := quarterRound s 0 5 10 15
  let s := quarterRound s 1 6 11 12
  let s := quarterRound s 2 7 8 13
  quarterRound s 3 4 9 14

def rounds : Nat → Block → Block
  | 0, s => s
  | n + 1, s => rounds n (doubleRound s)

def words (b : Bytes) : List UInt32 := (b.chunks 4).map fun w => UInt32.ofNat w.toNatLE

def constants : List UInt32 := [0x61707865, 0x3320646e, 0x79622d32, 0x6b206574]

def initial (key nonce : Bytes) (counter : Nat) : Block :=
  let ws := constants ++ words key ++ [UInt32.ofNat counter] ++ words nonce
  Vector.ofFn fun i => ws.getD i 0

def blockBytes (s : Block) : Bytes := s.toList.flatMap fun w => Bytes.ofNatLE 4 w.toNat

def block (key nonce : Bytes) (counter : Nat) : Bytes :=
  let start := initial key nonce counter
  blockBytes (Vector.zipWith (· + ·) start (rounds 10 start))

-- The blocks from a counter value on.
def stream (key nonce : Bytes) (counter blocks : Nat) : Bytes :=
  (List.range blocks).flatMap fun i => block key nonce (counter + i)

def apply (key nonce : Bytes) (counter : Nat) (data : Bytes) : Bytes :=
  data.xor (stream key nonce counter ((data.length + 63) / 64))

theorem length_flatMap_const {α β : Type} (f : α → List β) (n : Nat) (hf : ∀ a, (f a).length = n)
    (xs : List α) : (xs.flatMap f).length = xs.length * n := by
  induction xs with
  | nil => simp
  | cons x rest ih => simp [List.flatMap_cons, hf, ih, Nat.succ_mul, Nat.add_comm]

theorem length_block (key nonce : Bytes) (counter : Nat) : (block key nonce counter).length = 64 := by
  rw [block, blockBytes, length_flatMap_const _ 4 fun w : UInt32 => Bytes.length_ofNatLE 4 w.toNat]
  simp

theorem length_stream (key nonce : Bytes) (counter blocks : Nat) :
    (stream key nonce counter blocks).length = blocks * 64 := by
  rw [stream, length_flatMap_const _ 64 fun i => length_block key nonce (counter + i)]
  simp

end Coffer.ChaCha20
