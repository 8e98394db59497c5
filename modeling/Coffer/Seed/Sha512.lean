import Coffer.Bytes

-- SHA-512 and its keyed form. The compression of a block is apart from the
-- padding, so that a state reached after whole blocks can be used again.

namespace Coffer.Sha512

abbrev Digest := Vector UInt64 8

def initial : Digest :=
  #v[0x6a09e667f3bcc908, 0xbb67ae8584caa73b, 0x3c6ef372fe94f82b, 0xa54ff53a5f1d36f1,
    0x510e527fade682d1, 0x9b05688c2b3e6c1f, 0x1f83d9abfb41bd6b, 0x5be0cd19137e2179]

def roundConstants : Array UInt64 :=
  #[0x428a2f98d728ae22, 0x7137449123ef65cd, 0xb5c0fbcfec4d3b2f, 0xe9b5dba58189dbbc,
    0x3956c25bf348b538, 0x59f111f1b605d019, 0x923f82a4af194f9b, 0xab1c5ed5da6d8118,
    0xd807aa98a3030242, 0x12835b0145706fbe, 0x243185be4ee4b28c, 0x550c7dc3d5ffb4e2,
    0x72be5d74f27b896f, 0x80deb1fe3b1696b1, 0x9bdc06a725c71235, 0xc19bf174cf692694,
    0xe49b69c19ef14ad2, 0xefbe4786384f25e3, 0x0fc19dc68b8cd5b5, 0x240ca1cc77ac9c65,
    0x2de92c6f592b0275, 0x4a7484aa6ea6e483, 0x5cb0a9dcbd41fbd4, 0x76f988da831153b5,
    0x983e5152ee66dfab, 0xa831c66d2db43210, 0xb00327c898fb213f, 0xbf597fc7beef0ee4,
    0xc6e00bf33da88fc2, 0xd5a79147930aa725, 0x06ca6351e003826f, 0x142929670a0e6e70,
    0x27b70a8546d22ffc, 0x2e1b21385c26c926, 0x4d2c6dfc5ac42aed, 0x53380d139d95b3df,
    0x650a73548baf63de, 0x766a0abb3c77b2a8, 0x81c2c92e47edaee6, 0x92722c851482353b,
    0xa2bfe8a14cf10364, 0xa81a664bbc423001, 0xc24b8b70d0f89791, 0xc76c51a30654be30,
    0xd192e819d6ef5218, 0xd69906245565a910, 0xf40e35855771202a, 0x106aa07032bbd1b8,
    0x19a4c116b8d2d0c8, 0x1e376c085141ab53, 0x2748774cdf8eeb99, 0x34b0bcb5e19b48a8,
    0x391c0cb3c5c95a63, 0x4ed8aa4ae3418acb, 0x5b9cca4f7763e373, 0x682e6ff3d6b2b8a3,
    0x748f82ee5defb2fc, 0x78a5636f43172f60, 0x84c87814a1f0ab72, 0x8cc702081a6439ec,
    0x90befffa23631e28, 0xa4506cebde82bde9, 0xbef9a3f7b2c67915, 0xc67178f2e372532b,
    0xca273eceea26619c, 0xd186b8c721c0c207, 0xeada7dd6cde0eb1e, 0xf57d4f7fee6ed178,
    0x06f067aa72176fba, 0x0a637dc5a2c898a6, 0x113f9804bef90dae, 0x1b710b35131c471b,
    0x28db77f523047d84, 0x32caab7b40c72493, 0x3c9ebe0a15c9bebc, 0x431d67c49c100d4c,
    0x4cc5d4becb3e42b6, 0x597f299cfc657e2a, 0x5fcb6fab3ad6faec, 0x6c44198c4a475817]

def rotateRight (x n : UInt64) : UInt64 := (x >>> n) ||| (x <<< (64 - n))

def wordAt (block : Array UInt8) (i : Nat) : UInt64 :=
  (List.range 8).foldl (fun w j => (w <<< 8) ||| (block.getD (8 * i + j) 0).toUInt64) 0

def scheduleStep (w : Array UInt64) : Array UInt64 :=
  let t := w.size
  let back (n : Nat) := w.getD (t - n) 0
  let x := back 15
  let y := back 2
  let small := rotateRight x 1 ^^^ rotateRight x 8 ^^^ (x >>> 7)
  let large := rotateRight y 19 ^^^ rotateRight y 61 ^^^ (y >>> 6)
  w.push (back 16 + small + back 7 + large)

def extend : Nat → Array UInt64 → Array UInt64
  | 0, w => w
  | n + 1, w => extend n (scheduleStep w)

def schedule (block : Array UInt8) : Array UInt64 :=
  extend 64 ((Array.range 16).map (wordAt block))

def round (d : Digest) (constant word : UInt64) : Digest :=
  let e := d[4]
  let a := d[0]
  let big1 := rotateRight e 14 ^^^ rotateRight e 18 ^^^ rotateRight e 41
  let choice := (e &&& d[5]) ^^^ (~~~e &&& d[6])
  let t1 := d[7] + big1 + choice + constant + word
  let big0 := rotateRight a 28 ^^^ rotateRight a 34 ^^^ rotateRight a 39
  let majority := (a &&& d[1]) ^^^ (a &&& d[2]) ^^^ (d[1] &&& d[2])
  #v[t1 + (big0 + majority), a, d[1], d[2], d[3] + t1, e, d[5], d[6]]

def compress (d : Digest) (block : Array UInt8) : Digest :=
  let w := schedule block
  let last := (List.range 80).foldl (fun s t => round s (roundConstants.getD t 0) (w.getD t 0)) d
  Vector.zipWith (· + ·) d last

-- Compression of all blocks of 128 bytes.
def absorb (d : Digest) (data : Bytes) : Digest :=
  (data.chunks 128).foldl (fun d block => compress d block.toArray) d

-- What ends a message of which `total` bytes have been read in all.
def ending (total : Nat) : Bytes :=
  0x80 :: List.replicate ((239 - total % 128) % 128) 0 ++ Bytes.ofNatBE 16 (8 * total)

def digestBytes (d : Digest) : Bytes := d.toList.flatMap fun w => Bytes.ofNatBE 8 w.toNat

-- The hash of whole blocks already absorbed, `before` bytes of them, and the rest.
def finish (d : Digest) (before : Nat) (rest : Bytes) : Bytes :=
  digestBytes (absorb d (rest ++ ending (before + rest.length)))

def hash (data : Bytes) : Bytes := finish initial 0 data

-- A key for authentication as the two states that its pads lead to.
structure Keyed where
  inner : Digest
  outer : Digest

def Keyed.ofKey (key : Bytes) : Keyed :=
  let short := if 128 < key.length then hash key else key
  let whole := short ++ List.replicate (128 - short.length) 0
  ⟨absorb initial (whole.map (· ^^^ 0x36)), absorb initial (whole.map (· ^^^ 0x5c))⟩

def Keyed.mac (k : Keyed) (data : Bytes) : Bytes := finish k.outer 128 (finish k.inner 128 data)

end Coffer.Sha512
