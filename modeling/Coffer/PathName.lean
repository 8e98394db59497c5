import Coffer.Failure

-- Names of files: where a path starts and the parts that follow. Empty parts and
-- single dots are dropped, two dots are kept.

namespace Coffer

-- Two leading slashes are kept apart from one; three or more count as one.
inductive Anchor where
  | here
  | root
  | doubleRoot
  deriving DecidableEq, Repr

def Anchor.chars : Anchor → List Char
  | .here => []
  | .root => ['/']
  | .doubleRoot => ['/', '/']

def Anchor.of : List Char → Anchor
  | '/' :: '/' :: '/' :: _ => .root
  | '/' :: '/' :: _ => .doubleRoot
  | '/' :: _ => .root
  | _ => .here

structure PathName where
  anchor : Anchor
  parts : List String
  deriving DecidableEq, Repr

namespace PathName

-- The pieces between slashes, empty ones included.
def splitSlashes : List Char → List (List Char)
  | [] => [[]]
  | c :: rest =>
      if c = '/' then [] :: splitSlashes rest
      else
        match splitSlashes rest with
        | [] => [[c]]
        | piece :: pieces => (c :: piece) :: pieces

def isPart (piece : List Char) : Bool := !piece.isEmpty && piece != ['.']

def ofChars (cs : List Char) : PathName :=
  ⟨Anchor.of cs, ((splitSlashes cs).filter isPart).map String.ofList⟩

def ofText (s : String) : PathName := ofChars s.toList

def ofValue : Value → Except Failure PathName
  | .text s => .ok (ofText s)
  | .bytes _ => .error (.mistyped .pathOfBytes)
  | v => .error (.mistyped (.notPath v.typeName))

def joinParts : List String → List Char
  | [] => []
  | [part] => part.toList
  | part :: rest => part.toList ++ '/' :: joinParts rest

def chars (p : PathName) : List Char :=
  match p.anchor, p.parts with
  | .here, [] => ['.']
  | _, _ => p.anchor.chars ++ joinParts p.parts

def text (p : PathName) : String := String.ofList p.chars

-- The directory that holds the named file; a path without parts is its own.
def parent (p : PathName) : PathName := { p with parts := p.parts.dropLast }

def name? (p : PathName) : Option String := p.parts.getLast?

def join (p : PathName) (part : String) : PathName := { p with parts := p.parts ++ [part] }

-- A file beside the named one, its name continued.
def withSuffix? (p : PathName) (suffix : String) : Option PathName :=
  (p.name?).map fun name => p.parent.join (name ++ suffix)

-- `/` joins; a right side with an anchor of its own replaces the left one.
def append (p q : PathName) : PathName :=
  match q.anchor with
  | .here => { p with parts := p.parts ++ q.parts }
  | _ => q

def startsWithTilde (s : String) : Bool := s.toList.head? == some '~'

-- The one account that is known, and its home directory.
def accountName : String := "root"

def accountHome : String := "/root"

-- The home directory that a first part with a tilde stands for.
def homeText? (home part : String) : Option String :=
  if part == "~" then
    let trimmed := (home.toList.reverse.dropWhile (· == '/')).reverse
    some (if trimmed.isEmpty then "/" else String.ofList trimmed)
  else if part == "~" ++ accountName then some accountHome
  else none

def expandHome (home : String) (p : PathName) : Except Failure PathName :=
  match p.anchor, p.parts with
  | .here, first :: rest =>
      if startsWithTilde first then
        match homeText? home first with
        | none => .error .noHome
        | some h =>
            if startsWithTilde h then .error .noHome
            else
              let base := ofText h
              .ok { base with parts := base.parts ++ rest }
      else .ok p
  | _, _ => .ok p

def hasNullByte (p : PathName) : Bool := p.chars.any fun c => c.toNat == 0

end PathName

end Coffer
