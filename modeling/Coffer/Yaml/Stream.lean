import Coffer.Yaml.Scalar
import Coffer.Yaml.Source

-- The tokens of a text. Indentation opens and closes blocks; what turns out to be a
-- key, because a colon follows, gets its token put in afterwards. Tokens are handed out
-- while the text is still being read, so what is wrong with it further on is told only
-- to a reader that gets there.

namespace Coffer.Yaml

-- A place where a key may have begun. A required one has to be a key.
structure Candidate where
  position : Nat
  required : Bool
  index : Nat
  line : Nat
  column : Nat
  deriving Repr

-- `depth` counts open flow brackets; there is one candidate at most for each depth.
structure Stream where
  cursor : Cursor
  tokens : Array Token
  depth : Nat
  indent : Int
  outer : List Int
  keyAllowed : Bool
  candidates : Entries Nat Candidate
  deriving Repr

namespace Stream

def start (cs : List Char) : Stream := ⟨Cursor.start cs, #[], 0, -1, [], true, []⟩

def inFlow (s : Stream) : Bool := 0 < s.depth

def push (s : Stream) (t : Token) : Stream := { s with tokens := s.tokens.push t }

def insertAt (s : Stream) (position : Nat) (t : Token) : Stream :=
  { s with tokens := (s.tokens.toList.insertIdx position t).toArray }

def column (s : Stream) : Int := s.cursor.column

-- A key stands on one line and is not too long.
def isStale (c : Cursor) (k : Candidate) : Bool := k.line != c.line || 1024 < c.index - k.index

def dropStale (s : Stream) : Except Flaw Stream :=
  let (stale, fresh) := s.candidates.partition fun e => isStale s.cursor e.2
  if stale.any fun e => e.2.required then s.cursor.refuse else .ok { s with candidates := fresh }

def dropCandidate (s : Stream) : Except Flaw Stream :=
  match s.candidates.get? s.depth with
  | some k =>
      if k.required then s.cursor.refuse else .ok { s with candidates := s.candidates.erase s.depth }
  | none => .ok s

def addCandidate (s : Stream) : Except Flaw Stream :=
  if s.keyAllowed then do
    let required := !s.inFlow && s.indent = s.column
    let s ← s.dropCandidate
    let k : Candidate :=
      ⟨s.tokens.size, required, s.cursor.index, s.cursor.line, s.cursor.column⟩
    .ok { s with candidates := s.candidates.put s.depth k }
  else .ok s

-- Blocks indented further than the column end.
def closeBlocks (column : Int) : Nat → Stream → Stream
  | 0, s => s
  | fuel + 1, s =>
      if column < s.indent then
        closeBlocks column fuel
          { s.push .blockEnd with indent := s.outer.headD (-1), outer := s.outer.tail }
      else s

def unwind (s : Stream) (column : Int) : Stream :=
  if s.inFlow then s else closeBlocks column (s.outer.length + 1) s

-- A block opens where the column is further than the indentation so far.
def openBlock (s : Stream) (column : Int) (position : Nat) (t : Token) : Stream :=
  if s.indent < column then
    { s.insertAt position t with indent := column, outer := s.indent :: s.outer }
  else s

def skipBlanks : Nat → Stream → Stream
  | 0, s => s
  | fuel + 1, s =>
      let c := if s.cursor.index = 0 && s.cursor.peek = '\uFEFF' then s.cursor.advance else s.cursor
      let c := c.skipWhile isSpace
      let c := if c.peek = '#' then c.skipLine else c
      if isBreak c.peek then
        skipBlanks fuel { s with cursor := c.lineBreak.2, keyAllowed := s.keyAllowed || !s.inFlow }
      else { s with cursor := c }

def advance (s : Stream) (n : Nat) : Stream := { s with cursor := s.cursor.skip n }

-- The end of all blocks, before a directive, a document or the end of the text.
def endBlocks (s : Stream) : Except Flaw Stream := do
  let s ← (s.unwind (-1)).dropCandidate
  .ok { s with keyAllowed := false }

def finish (s : Stream) : Except Flaw Stream := do
  let s ← s.endBlocks
  .ok ({ s with candidates := [] }.push .streamEnd)

def marker (s : Stream) (t : Token) : Except Flaw Stream := do
  let s ← s.endBlocks
  .ok ((s.advance 3).push t)

def directive (s : Stream) : Except Flaw Stream := do
  let s ← s.endBlocks
  let (t, c) ← Token.ofDirective s.cursor
  .ok { s.push t with cursor := c }

def openFlow (s : Stream) (t : Token) : Except Flaw Stream := do
  let s ← s.addCandidate
  .ok (({ s with depth := s.depth + 1, keyAllowed := true }.advance 1).push t)

-- A closing bracket needs an open one.
def closeFlow (s : Stream) (t : Token) : Except Flaw Stream := do
  let s ← s.dropCandidate
  if s.inFlow then .ok (({ s with depth := s.depth - 1, keyAllowed := false }.advance 1).push t)
  else (s.advance 1).cursor.refuse

def flowEntry (s : Stream) : Except Flaw Stream := do
  let s ← s.dropCandidate
  .ok (({ s with keyAllowed := true }.advance 1).push .flowEntry)

-- A block opened by an indicator, which is allowed only where a key is.
def openByIndicator (s : Stream) (t : Token) : Except Flaw Stream :=
  if s.inFlow then .ok s
  else if s.keyAllowed then .ok (s.openBlock s.column s.tokens.size t)
  else s.cursor.refuseAhead 1

def blockEntry (s : Stream) : Except Flaw Stream := do
  let s ← s.openByIndicator .blockSequenceStart
  let s ← s.dropCandidate
  .ok (({ s with keyAllowed := true }.advance 1).push .blockEntry)

def explicitKey (s : Stream) : Except Flaw Stream := do
  let s ← s.openByIndicator .blockMappingStart
  let s ← s.dropCandidate
  .ok (({ s with keyAllowed := !s.inFlow }.advance 1).push .key)

-- A colon makes a key of the candidate, if there is one.
def valueIndicator (s : Stream) : Except Flaw Stream := do
  match s.candidates.get? s.depth with
  | some k =>
      let s := { s with candidates := s.candidates.erase s.depth, keyAllowed := false }
      let s := s.insertAt k.position .key
      let s := if s.inFlow then s else s.openBlock k.column k.position .blockMappingStart
      .ok ((s.advance 1).push .value)
  | none =>
      let s ← s.openByIndicator .blockMappingStart
      let s ← { s with keyAllowed := !s.inFlow }.dropCandidate
      .ok ((s.advance 1).push .value)

def nodeToken (s : Stream) (read : Cursor → Except Flaw (Token × Cursor)) :
    Except Flaw Stream := do
  let s ← s.addCandidate
  let (t, c) ← read s.cursor
  .ok { s.push t with cursor := c, keyAllowed := false }

def named (make : String → Token) (c : Cursor) : Except Flaw (Token × Cursor) := do
  let (name, c) ← Token.anchorName c
  .ok (make name, c)

def block (s : Stream) (folded : Bool) : Except Flaw Stream := do
  let s ← s.dropCandidate
  let (t, c) ← Scalar.block folded s.indent s.cursor
  .ok { s.push t with cursor := c, keyAllowed := true }

def plain (s : Stream) : Except Flaw Stream := do
  let s ← s.addCandidate
  let (t, ended, c) := Scalar.plain s.inFlow s.indent s.cursor
  .ok { s.push t with cursor := c, keyAllowed := ended }

def startsPlain (s : Stream) : Bool :=
  let ch := s.cursor.peek
  let next := s.cursor.peekAt 1
  !(isGapOrTab ch || "-?:,[]\x7b\x7d#&*!|>'\"%@\x60".toList.contains ch)
    || (!isGapOrTab next && (ch = '-' || (!s.inFlow && (ch = '?' || ch = ':'))))

-- The next token, or several; only called before the end of the text.
def fetch (s : Stream) : Except Flaw Stream :=
  let c := s.cursor
  let ch := c.peek
  let alone := isGapOrTab (c.peekAt 1)
  if ch = '%' && c.column = 0 then s.directive
  else if c.column = 0 && c.atMarker '-' then s.marker .documentStart
  else if c.column = 0 && c.atMarker '.' then s.marker .documentEnd
  else if ch = '[' then s.openFlow .flowSequenceStart
  else if ch = '\x7b' then s.openFlow .flowMappingStart
  else if ch = ']' then s.closeFlow .flowSequenceEnd
  else if ch = '\x7d' then s.closeFlow .flowMappingEnd
  else if ch = ',' then s.flowEntry
  else if ch = '-' && alone then s.blockEntry
  else if ch = '?' && (s.inFlow || alone) then s.explicitKey
  else if ch = ':' && (s.inFlow || alone) then s.valueIndicator
  else if ch = '*' then s.nodeToken (named .alias)
  else if ch = '&' then s.nodeToken (named .anchor)
  else if ch = '!' then s.nodeToken Token.ofTag
  else if ch = '|' && !s.inFlow then s.block false
  else if ch = '>' && !s.inFlow then s.block true
  else if ch = '\'' then s.nodeToken (Scalar.quoted false)
  else if ch = '"' then s.nodeToken (Scalar.quoted true)
  else if s.startsPlain then s.plain
  else s.cursor.refuse

-- The next tokens, or the end of the text, which closes everything.
def step (s : Stream) : Except Flaw (Stream × Bool) := do
  let s ← (s.skipBlanks (s.cursor.rest.length + 1)).dropStale
  let s := s.unwind s.column
  if s.cursor.rest.isEmpty then return (← s.finish, true)
  else return (← s.fetch, false)

-- A token is handed out once it is certain that no key token comes before it.
def certain (s : Stream) : List Token :=
  let fresh := s.candidates.filter fun e => !isStale s.cursor e.2
  s.tokens.toList.take ((fresh.map fun e => e.2.position).foldl min s.tokens.size)

end Stream

-- The tokens that can be handed out, and why there are no more if the text does not
-- simply end.
structure Tokens where
  list : List Token
  fault : Option Failure
  deriving Repr

namespace Tokens

-- Whatever only came up because the characters gave out is put down to what is wrong
-- with those that follow. Every step takes at least one character of the text.
def run (missing : Option Failure) : Nat → Stream → Tokens
  | 0, s => ⟨s.certain, some (.unusable .document)⟩
  | fuel + 1, s =>
      match s.step with
      | .error flaw =>
          ⟨s.certain, some (if flaw.atEnd then missing.getD flaw.failure else flaw.failure)⟩
      | .ok (next, finished) =>
          match missing with
          | some failure =>
              if next.cursor.rest.isEmpty then ⟨s.certain, some failure⟩ else run missing fuel next
          | none => if finished then ⟨next.tokens.toList, none⟩ else run missing fuel next

def ofSource (source : Source) : Tokens :=
  run source.fault (source.chars.length + 1) (Stream.start source.chars)

end Tokens

end Coffer.Yaml
