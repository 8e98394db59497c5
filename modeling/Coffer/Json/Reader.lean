import Coffer.Json.Error

-- The lexical parts of JSON: blanks, strings and numbers, read from bytes. Every
-- reader gives what it read and the bytes that follow. What is passed over keeps
-- the same rules, but some of its faults are told in other words.

namespace Coffer.Json

def malformed {α : Type} (defect : Defect) (rest : Bytes) : Except Error α :=
  .error (.malformed defect rest.length)

def ascii (c : Char) : UInt8 := UInt8.ofNat c.toNat

def isBlank (b : UInt8) : Bool := b = 0x20 || b = 0x0A || b = 0x0D || b = 0x09

def isDigit (b : UInt8) : Bool := 0x30 ≤ b && b ≤ 0x39

-- The next byte that is not blank, and the bytes from it on.
def next (s : Bytes) : Except Error (UInt8 × Bytes) :=
  match s.dropWhile isBlank with
  | [] => .error .truncated
  | b :: rest => .ok (b, b :: rest)

-- The rest of a word whose first letter has been read. A value has to spell it
-- letter by letter, a skipped one as a whole: that is where a fault is found.
def word (letters : List Char) (skipped : Bool) (s : Bytes) : Except Error Bytes :=
  let wanted := letters.map ascii
  if s.length < wanted.length then .error .truncated
  else if s.take wanted.length = wanted then .ok (s.drop wanted.length)
  else malformed .invalidCharacter (if skipped then s else s.drop wanted.length)

def hexByte? (b : UInt8) : Option Nat := hexValue? (Char.ofNat b.toNat)

-- Four hexadecimal digits.
def codeUnit (s : Bytes) : Except Error (Nat × Bytes) :=
  if s.length < 4 then .error .truncated else go 4 0 s
where
  go : Nat → Nat → Bytes → Except Error (Nat × Bytes)
    | 0, n, s => .ok (n, s)
    | _ + 1, _, [] => .error .truncated
    | k + 1, n, b :: rest =>
        match hexByte? b with
        | some d => go k (16 * n + d) rest
        | none => malformed .invalidUnicodeEscape rest

def isHighSurrogate (n : Nat) : Bool := 0xD800 ≤ n && n ≤ 0xDBFF

def isLowSurrogate (n : Nat) : Bool := 0xDC00 ≤ n && n ≤ 0xDFFF

-- The bytes of the character that a unicode escape spells, with the second half
-- of a surrogate pair when the first unit asks for one.
def unicodeEscape (skipped : Bool) (s : Bytes) : Except Error (Bytes × Bytes) := do
  let (high, rest) ← codeUnit s
  if isLowSurrogate high then malformed .unpairedSurrogate rest
  else if isHighSurrogate high then
    if rest.length < 6 then .error .truncated
    else if rest.take 2 = [ascii '\\', ascii 'u'] then do
      let (low, rest) ← codeUnit (rest.drop 2)
      if isLowSurrogate low then
        .ok (Utf8.encodeChar (Char.ofNat (0x10000 + 1024 * (high - 0xD800) + (low - 0xDC00))), rest)
      else malformed .unpairedSurrogate rest
    else malformed (if skipped then .hexEscapeEnd else .missingSurrogate) rest
  else .ok (Utf8.encodeChar (Char.ofNat high), rest)

-- What a backslash and a byte stand for; `none` if a unicode escape follows.
inductive Escape where
  | byte (b : UInt8)
  | unicode
  | unknown
  deriving DecidableEq

def Escape.of (b : UInt8) : Escape :=
  if b = 0x22 ∨ b = 0x5C ∨ b = 0x2F then .byte b
  else if b = ascii 'b' then .byte 0x08
  else if b = ascii 'f' then .byte 0x0C
  else if b = ascii 'n' then .byte 0x0A
  else if b = ascii 'r' then .byte 0x0D
  else if b = ascii 't' then .byte 0x09
  else if b = ascii 'u' then .unicode
  else .unknown

-- The rest of a string after its opening quote: its bytes with escapes resolved.
-- The fuel bounds the number of characters and escapes.
def stringFrom (skipped : Bool) : Nat → Bytes → Except Error (Bytes × Bytes)
  | 0, _ => .error .truncated
  | _ + 1, [] => .error .truncated
  | fuel + 1, b :: rest =>
      if b = 0x22 then .ok ([], rest)
      else if b = 0x5C then
        match rest with
        | [] => .error .truncated
        | e :: rest =>
            match Escape.of e with
            | .byte b => do
                let (tail, rest) ← stringFrom skipped fuel rest
                .ok (b :: tail, rest)
            | .unicode => do
                let (bytes, rest) ← unicodeEscape skipped rest
                let (tail, rest) ← stringFrom skipped fuel rest
                .ok (bytes ++ tail, rest)
            | .unknown =>
                if skipped then malformed .invalidEscaped (e :: rest) else malformed .invalidEscape rest
      else if b < 0x20 then malformed .invalidCharacter (b :: rest)
      else do
        let (tail, rest) ← stringFrom skipped fuel rest
        .ok (b :: tail, rest)

def string (skipped : Bool) (s : Bytes) : Except Error (Bytes × Bytes) :=
  stringFrom skipped (s.length + 1) s

def decodeText (b : Bytes) : Except Error String :=
  match Utf8.decode b with
  | .ok s => .ok s
  | .error fault => .error (.undecodable fault)

-- An integer keeps its length as it was written, the sign included.
inductive Number where
  | integer (value : Int) (length : Nat)
  | decimal (negative : Bool) (digits : Nat) (exponent : Int)
  deriving DecidableEq, Repr

def digitsNat (ds : Bytes) : Nat := ds.foldl (fun n d => 10 * n + (d.toNat - 48)) 0

-- The digits after a point, at least one.
def fraction (s : Bytes) : Except Error (Bytes × Bytes) :=
  match s with
  | 0x2E :: rest =>
      let ds := rest.takeWhile isDigit
      if ds.isEmpty then malformed .invalidNumber rest else .ok (ds, rest.dropWhile isDigit)
  | _ => .ok ([], s)

-- The exponent after an `e`, a sign allowed, at least one digit; `none` if there is no `e`.
def exponentPart (s : Bytes) : Except Error (Option Int × Bytes) :=
  match s with
  | e :: rest =>
      if e = ascii 'e' ∨ e = ascii 'E' then
        let (negative, rest) :=
          match rest with
          | 0x2B :: rest => (false, rest)
          | 0x2D :: rest => (true, rest)
          | rest => (false, rest)
        let ds := rest.takeWhile isDigit
        if ds.isEmpty then malformed .invalidNumber rest
        else
          let magnitude : Int := digitsNat ds
          .ok (some (if negative then -magnitude else magnitude), rest.dropWhile isDigit)
      else .ok (none, s)
  | [] => .ok (none, s)

-- The digits before the point: a single zero, or digits that do not start with one.
def whole (skipped : Bool) (s : Bytes) : Except Error (Bytes × Bytes) :=
  match s with
  | [] => malformed (if skipped then .invalidCharacter else .invalidNumber) []
  | 0x30 :: rest =>
      if (rest.head?.map isDigit).getD false then malformed .invalidNumber rest
      else .ok ([0x30], rest)
  | _ =>
      let ds := s.takeWhile isDigit
      if ds.isEmpty then malformed .invalidCharacter s else .ok (ds, s.dropWhile isDigit)

def number (skipped : Bool) (s : Bytes) : Except Error (Number × Bytes) := do
  let (negative, unsigned) :=
    match s with
    | 0x2D :: rest => (true, rest)
    | _ => (false, s)
  let (ds, rest) ← whole skipped unsigned
  let (fs, afterPoint) ← fraction rest
  let (exponent, rest) ← exponentPart afterPoint
  if fs.isEmpty && exponent.isNone then
    let magnitude : Int := digitsNat ds
    .ok (.integer (if negative then -magnitude else magnitude) (s.length - rest.length), rest)
  else .ok (.decimal negative (digitsNat (ds ++ fs)) (exponent.getD 0 - fs.length), rest)

end Coffer.Json
