import Coffer.Failure

-- A place in a text, with its line and column. The NUL character stands for the
-- end of the text, which holds none.

namespace Coffer.Yaml

-- Why there is no token: a failure, and whether it only came up because the text is
-- at its end.
structure Flaw where
  failure : Failure
  atEnd : Bool
  deriving Repr

-- A text that is no document.
def malformed {α : Type} : Except Failure α := .error (.unusable .document)

def stop : Char := '\x00'

def isBreak (c : Char) : Bool :=
  c = '\n' || c = '\r' || c = '\x85' || c = '\u2028' || c = '\u2029'

def isBreakOrStop (c : Char) : Bool := isBreak c || c = stop

def isGap (c : Char) : Bool := c = ' ' || isBreakOrStop c

def isGapOrTab (c : Char) : Bool := c = '\t' || isGap c

def isSpace (c : Char) : Bool := c = ' '

def isSpaceOrTab (c : Char) : Bool := c = ' ' || c = '\t'

def isDigit (c : Char) : Bool := '0' ≤ c && c ≤ '9'

def isLetter (c : Char) : Bool := ('a' ≤ c && c ≤ 'z') || ('A' ≤ c && c ≤ 'Z')

def isWordChar (c : Char) : Bool := isDigit c || isLetter c || c = '-' || c = '_'

structure Cursor where
  rest : List Char
  index : Nat
  line : Nat
  column : Nat
  deriving Repr

namespace Cursor

def start (cs : List Char) : Cursor := ⟨cs, 0, 0, 0⟩

def peekAt (c : Cursor) (n : Nat) : Char := c.rest.getD n stop

def peek (c : Cursor) : Char := c.peekAt 0

-- The text is found malformed by the character here, or by one further on.
def refuseAhead {α : Type} (c : Cursor) (n : Nat) : Except Flaw α :=
  .error ⟨.unusable .document, c.rest.length ≤ n⟩

def refuse {α : Type} (c : Cursor) : Except Flaw α := c.refuseAhead 0

-- A byte order mark takes no column.
def advance (c : Cursor) : Cursor :=
  match c.rest with
  | [] => c
  | ch :: rest =>
      if isBreak ch && !(ch = '\r' && rest.head? == some '\n') then ⟨rest, c.index + 1, c.line + 1, 0⟩
      else ⟨rest, c.index + 1, c.line, if ch = '\uFEFF' then c.column else c.column + 1⟩

def skip (c : Cursor) : Nat → Cursor
  | 0 => c
  | n + 1 => c.advance.skip n

def span (c : Cursor) (p : Char → Bool) : List Char × Cursor :=
  let taken := c.rest.takeWhile p
  (taken, c.skip taken.length)

def skipWhile (c : Cursor) (p : Char → Bool) : Cursor := (c.span p).2

-- Up to the end of the line.
def skipLine (c : Cursor) : Cursor := c.skipWhile fun ch => !isBreak ch

-- A line break as one character; nothing if there is none.
def lineBreak (c : Cursor) : List Char × Cursor :=
  if c.peek = '\r' && c.peekAt 1 = '\n' then (['\n'], c.skip 2)
  else if c.peek = '\r' || c.peek = '\n' || c.peek = '\x85' then (['\n'], c.advance)
  else if isBreak c.peek then ([c.peek], c.advance)
  else ([], c)

-- Three dashes or dots on their own.
def atMarker (c : Cursor) (mark : Char) : Bool :=
  c.peek = mark && c.peekAt 1 = mark && c.peekAt 2 = mark && isGapOrTab (c.peekAt 3)

def atBoundary (c : Cursor) : Bool := c.atMarker '-' || c.atMarker '.'

end Cursor

end Coffer.Yaml
