import Coffer.Json.Decode
import Coffer.Json.Encode

-- One commit of a log: records put and keys deleted, written as one line of
-- JSON that leaves out what is empty.

namespace Coffer

structure Commit where
  puts : Entries String String
  deletes : List String
  deriving DecidableEq, Repr

namespace Commit

def newline : UInt8 := 0x0A

def members (c : Commit) : List (List Char × List Char) :=
  (if c.puts.isEmpty then [] else [(Json.textChars "puts", Json.textMembers c.puts)]) ++
    (if c.deletes.isEmpty then [] else [(Json.textChars "deletes", Json.textList c.deletes)])

def encode (c : Commit) : Bytes := Utf8.encodeChars (Json.objectChars c.members)

def line (c : Commit) : Bytes := c.encode ++ [newline]

def schema : Json.Schema :=
  .record ⟨"LogCommit", none, false⟩
    [⟨"puts", .dict .text, some (.dict [])⟩, ⟨"deletes", .list .text, some (.list [])⟩]

-- The commit in what decoding by the schema gives.
def ofValue : Value → Commit
  | .record _ [(_, puts), (_, deletes)] => ⟨puts.textEntries, deletes.textItems⟩
  | _ => ⟨[], []⟩

def decode (b : Bytes) : Except Json.Error Commit := ofValue <$> Json.decodeBytes schema b

def apply (c : Commit) (records : Entries String String) : Entries String String :=
  (records.putAll c.puts).eraseAll c.deletes

-- The whole lines of a log and the bytes after the last newline.
def splitLines : Bytes → List Bytes × Bytes
  | [] => ([], [])
  | b :: rest =>
      let (lines, tail) := splitLines rest
      if b = newline then ([] :: lines, tail)
      else
        match lines with
        | [] => ([], b :: tail)
        | line :: lines => ((b :: line) :: lines, tail)

def isBlankByte (b : UInt8) : Bool := b = 0x20 || (0x09 ≤ b && b ≤ 0x0D)

-- A line that is no commit, with its number.
structure Corruption where
  number : Nat
  size : Nat
  error : Json.Error
  deriving Repr

-- The records that whole lines leave behind; blank lines are counted only.
def replayFrom (number : Nat) (records : Entries String String) :
    List Bytes → Except Corruption (Entries String String)
  | [] => .ok records
  | line :: rest =>
      if line.all isBlankByte then replayFrom (number + 1) records rest
      else
        match decode line with
        | .ok c => replayFrom (number + 1) (c.apply records) rest
        | .error e => .error ⟨number, line.length, e⟩

def replay (lines : List Bytes) : Except Corruption (Entries String String) := replayFrom 1 [] lines

end Commit

end Coffer
