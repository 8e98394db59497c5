import Coffer.Yaml.Token

-- The texts of scalars: quoted, in blocks, and plain. Line breaks inside are
-- folded or kept as each style has it.

namespace Coffer.Yaml.Scalar

-- What a backslash and a character stand for.
def escape? : Char → Option Char
  | '0' => some '\x00'
  | 'a' => some '\x07'
  | 'b' => some '\x08'
  | 't' | '\t' => some '\t'
  | 'n' => some '\n'
  | 'v' => some '\x0b'
  | 'f' => some '\x0c'
  | 'r' => some '\r'
  | 'e' => some '\x1b'
  | ' ' => some ' '
  | '"' => some '"'
  | '\\' => some '\\'
  | '/' => some '/'
  | 'N' => some '\x85'
  | '_' => some '\xa0'
  | 'L' => some '\u2028'
  | 'P' => some '\u2029'
  | _ => none

-- How many digits a numeric escape has.
def escapeDigits? : Char → Option Nat
  | 'x' => some 2
  | 'u' => some 4
  | 'U' => some 8
  | _ => none

def isHexDigit (c : Char) : Bool := (hexValue? c).isSome

-- The numbers up to which a code point can be asked for at all.
def maxCode : Nat := 0x7FFFFFFF

def codeFailure (n : Nat) : Failure :=
  if maxCode < n then .overflow .codePoint
  else .unusable (.scalar "chr() arg not in range(0x110000)")

def numericEscape (digits : Nat) (c : Cursor) : Except Flaw (Char × Cursor) :=
  let ds := (c.rest.take digits).takeWhile isHexDigit
  let n := Number.digitsValue 16 ds
  if ds.length < digits then c.refuseAhead ds.length
  else if 0x10FFFF < n then .error ⟨codeFailure n, false⟩
  else .ok (Char.ofNat n, c.skip digits)

-- The line breaks inside a quoted scalar, blanks around them dropped.
def quotedBreaks : Nat → Cursor → Except Flaw (List Char × Cursor)
  | 0, c => .ok ([], c)
  | fuel + 1, c =>
      if c.atBoundary then c.refuseAhead 3
      else
        let c := c.skipWhile isSpaceOrTab
        if isBreak c.peek then do
          let (lineBreak, c) := c.lineBreak
          let (more, c) ← quotedBreaks fuel c
          .ok (lineBreak ++ more, c)
        else .ok ([], c)

-- A single line break becomes a space; of several the first is dropped.
def foldBreaks (lineBreak breaks : List Char) : List Char :=
  if lineBreak ≠ ['\n'] then lineBreak ++ breaks
  else if breaks.isEmpty then [' ']
  else breaks

-- The rest of a quoted scalar up to its closing quote. The fuel bounds the number
-- of characters and escapes.
def quotedFrom (double : Bool) : Nat → Cursor → Except Flaw (List Char × Cursor)
  | 0, c => c.refuse
  | fuel + 1, c =>
      let ch := c.peek
      let quote := if double then '"' else '\''
      if c.rest.isEmpty then c.refuse
      else if !double && ch = '\'' && c.peekAt 1 = '\'' then do
        let (more, c) ← quotedFrom double fuel (c.skip 2)
        .ok ('\'' :: more, c)
      else if ch = quote then .ok ([], c.advance)
      else if double && ch = '\\' then
        let c := c.advance
        match escape? c.peek, escapeDigits? c.peek with
        | some e, _ => do
            let (more, c) ← quotedFrom double fuel c.advance
            .ok (e :: more, c)
        | none, some digits => do
            let (e, c) ← numericEscape digits c.advance
            let (more, c) ← quotedFrom double fuel c
            .ok (e :: more, c)
        | none, none =>
            if isBreak c.peek then do
              let (breaks, c) ← quotedBreaks fuel c.lineBreak.2
              let (more, c) ← quotedFrom double fuel c
              .ok (breaks ++ more, c)
            else c.refuse
      else if isSpaceOrTab ch || isBreak ch then do
        let (blanks, c) := c.span isSpaceOrTab
        if isBreak c.peek then do
          let (lineBreak, c) := c.lineBreak
          let (breaks, c) ← quotedBreaks fuel c
          let (more, c) ← quotedFrom double fuel c
          .ok (foldBreaks lineBreak breaks ++ more, c)
        else do
          let (more, c) ← quotedFrom double fuel c
          .ok (blanks ++ more, c)
      else do
        let (more, c) ← quotedFrom double fuel c.advance
        .ok (ch :: more, c)

def quoted (double : Bool) (c : Cursor) : Except Flaw (Token × Cursor) := do
  let (cs, c) ← quotedFrom double (c.rest.length + 1) c.advance
  .ok (.scalar (String.ofList cs) false, c)

-- What becomes of the line breaks at the end of a block.
inductive Chomping where
  | clip
  | strip
  | keep
  deriving DecidableEq, Repr

def chomping? : Char → Option Chomping
  | '+' => some .keep
  | '-' => some .strip
  | _ => none

def blockIncrement (c : Cursor) : Except Flaw (Option Nat × Cursor) :=
  if isDigit c.peek then
    if c.peek = '0' then c.refuse else .ok (some (c.peek.toNat - 48), c.advance)
  else .ok (none, c)

-- The chomping and the indentation that follow the sign of a block, in any order.
def blockHeader (c : Cursor) : Except Flaw (Chomping × Option Nat × Cursor) := do
  let (chomping, increment, c) ←
    match chomping? c.peek with
    | some chomping => do
        let (increment, c) ← blockIncrement c.advance
        .ok (chomping, increment, c)
    | none => do
        let (increment, c) ← blockIncrement c
        match increment, chomping? c.peek with
        | some _, some chomping => .ok (chomping, increment, c.advance)
        | _, _ => .ok (Chomping.clip, increment, c)
  if isGap c.peek then .ok (chomping, increment, ← Token.emptyLine c) else c.refuse

-- Spaces up to a column.
def indentTo (column : Nat) (c : Cursor) : Cursor :=
  c.skip (min (column - c.column) (c.rest.takeWhile isSpace).length)

-- Empty lines at the given indentation.
def blockBreaks (indent : Nat) : Nat → Cursor → List Char × Cursor
  | 0, c => ([], c)
  | fuel + 1, c =>
      let c := indentTo indent c
      if isBreak c.peek then
        let (lineBreak, c) := c.lineBreak
        let (more, c) := blockBreaks indent fuel c
        (lineBreak ++ more, c)
      else ([], c)

-- Empty lines before a block whose indentation is still to be found, and the
-- furthest column reached.
def leadingBreaks : Nat → Nat → Cursor → List Char × Nat × Cursor
  | 0, deepest, c => ([], deepest, c)
  | fuel + 1, deepest, c =>
      if c.peek = ' ' then
        let c := c.advance
        leadingBreaks fuel (max deepest c.column) c
      else if isBreak c.peek then
        let (lineBreak, c) := c.lineBreak
        let (more, deepest, c) := leadingBreaks fuel deepest c
        (lineBreak ++ more, deepest, c)
      else ([], deepest, c)

-- The lines of a block, and what is left of line breaks after the last one.
def blockLines (folded : Bool) (indent : Nat) : Nat → List Char → Cursor →
    List Char × List Char × List Char × Cursor
  | 0, breaks, c => ([], [], breaks, c)
  | fuel + 1, breaks, c =>
      if c.column = indent && !c.rest.isEmpty then
        let solid := !isSpaceOrTab c.peek
        let (text, c) := c.span fun ch => !isBreak ch
        let (lineBreak, c) := c.lineBreak
        let (next, c) := blockBreaks indent c.rest.length c
        if c.column = indent && !c.rest.isEmpty then
          let joint :=
            if folded && lineBreak = ['\n'] && solid && !isSpaceOrTab c.peek then
              if next.isEmpty then [' '] else []
            else lineBreak
          let (more, last, after, c) := blockLines folded indent fuel next c
          (breaks ++ text ++ joint ++ more, last, after, c)
        else (breaks ++ text, lineBreak, next, c)
      else ([], [], breaks, c)

-- A block scalar after its sign, inside the given indentation.
def block (folded : Bool) (outer : Int) (c : Cursor) : Except Flaw (Token × Cursor) := do
  let (chomping, increment, c) ← blockHeader c.advance
  let least := max (outer + 1).toNat 1
  let size := c.rest.length
  let (breaks, indent, c) :=
    match increment with
    | none =>
        let (breaks, deepest, c) := leadingBreaks size 0 c
        (breaks, max least deepest, c)
    | some n =>
        let indent := least + n - 1
        let (breaks, c) := blockBreaks indent size c
        (breaks, indent, c)
  let (text, last, after, c) := blockLines folded indent (size + 1) breaks c
  let ending :=
    match chomping with
    | .strip => []
    | .clip => last
    | .keep => last ++ after
  .ok (.scalar (String.ofList (text ++ ending)) false, c)

-- The breaks between two lines of a plain scalar; `none` at a document boundary.
def plainBreaks : Nat → Cursor → Option (List Char) × Cursor
  | 0, c => (some [], c)
  | fuel + 1, c =>
      if c.peek = ' ' then plainBreaks fuel c.advance
      else if isBreak c.peek then
        let (lineBreak, c) := c.lineBreak
        if c.atBoundary then (none, c)
        else
          let (more, c) := plainBreaks fuel c
          (more.map (lineBreak ++ ·), c)
      else (some [], c)

-- What lies between two parts of a plain scalar, and whether a line was ended.
-- Nothing between them ends the scalar.
def plainGap (c : Cursor) : List Char × Bool × Cursor :=
  let (blanks, c) := c.span isSpace
  if isBreak c.peek then
    let (lineBreak, c) := c.lineBreak
    if c.atBoundary then ([], true, c)
    else
      let (breaks, c) := plainBreaks c.rest.length c
      match breaks with
      | none => ([], true, c)
      | some breaks => (foldBreaks lineBreak breaks, true, c)
  else (blanks, false, c)

def endsPlain (inFlow : Bool) (cs : List Char) : Bool :=
  match cs with
  | [] => true
  | ch :: rest =>
      let next := rest.headD stop
      isGapOrTab ch
        || (ch = ':' && (isGapOrTab next || (inFlow && ",[]\x7b\x7d".toList.contains next)))
        || (inFlow && ",?[]\x7b\x7d".toList.contains ch)

def plainRun (inFlow : Bool) : List Char → List Char
  | [] => []
  | ch :: rest => if endsPlain inFlow (ch :: rest) then [] else ch :: plainRun inFlow rest

-- The flag tells whether the last gap read ended a line.
def plainFrom (inFlow : Bool) (indent : Nat) : Nat → List Char → Bool → Cursor →
    List Char × Bool × Cursor
  | 0, _, ended, c => ([], ended, c)
  | fuel + 1, gap, ended, c =>
      let run := if c.peek = '#' then [] else plainRun inFlow c.rest
      if run.isEmpty then ([], ended, c)
      else
        let (next, ended, c) := plainGap (c.skip run.length)
        if next.isEmpty || c.peek = '#' || (!inFlow && c.column < indent) then (gap ++ run, ended, c)
        else
          let (more, ended, c) := plainFrom inFlow indent fuel next ended c
          (gap ++ run ++ more, ended, c)

-- A plain scalar, and whether a new line was begun after it.
def plain (inFlow : Bool) (outer : Int) (c : Cursor) : Token × Bool × Cursor :=
  let (cs, ended, c) := plainFrom inFlow (outer + 1).toNat (c.rest.length + 1) [] false c
  (.scalar (String.ofList cs) true, ended, c)

end Coffer.Yaml.Scalar
