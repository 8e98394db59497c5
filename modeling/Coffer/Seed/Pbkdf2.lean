import Coffer.Seed.Sha512

-- Key stretching over keyed SHA-512: every output block is the exclusive or of
-- a chain of authentication codes.

namespace Coffer.Pbkdf2

def chain (mac : Bytes → Bytes) : Nat → Bytes → Bytes → Bytes
  | 0, _, acc => acc
  | n + 1, u, acc =>
      let u := mac u
      chain mac n u (acc.xor u)

def block (mac : Bytes → Bytes) (salt : Bytes) (iterations index : Nat) : Bytes :=
  let u := mac (salt ++ Bytes.ofNatBE 4 index)
  chain mac (iterations - 1) u u

def derive (password salt : Bytes) (iterations length : Nat) : Bytes :=
  let mac := (Sha512.Keyed.ofKey password).mac
  ((List.range ((length + 63) / 64)).flatMap fun i => block mac salt iterations (i + 1)).take length

end Coffer.Pbkdf2
