import Coffer.Yaml.Cursor
import Coffer.Yaml.Number

-- The tokens of a document, and the small ones among them: directives, anchors
-- and tags.

namespace Coffer.Yaml

inductive Directive where
  | version (major : Nat)
  | tag (handle start : String)
  | other
  deriving DecidableEq, Repr

inductive Token where
  | directive (d : Directive)
  | documentStart
  | documentEnd
  | streamEnd
  | blockSequenceStart
  | blockMappingStart
  | blockEnd
  | flowSequenceStart
  | flowSequenceEnd
  | flowMappingStart
  | flowMappingEnd
  | blockEntry
  | flowEntry
  | key
  | value
  | alias (name : String)
  | anchor (name : String)
  | tag (handle : Option String) (suffix : String)
  | scalar (text : String) (plain : Bool)
  deriving DecidableEq, Repr

namespace Token

def isUriChar (c : Char) : Bool :=
  isDigit c || isLetter c || "-;/?:@&=+$,_.!~*'()[]".toList.contains c

-- The bytes that a run of percent signs with two digits each spells.
def escapedBytes : Nat → Cursor → Except Flaw (Bytes × Cursor)
  | 0, c => .ok ([], c)
  | fuel + 1, c =>
      if c.peek = '%' then
        match hexValue? (c.peekAt 1), hexValue? (c.peekAt 2) with
        | some h, some l => do
            let (bytes, c) ← escapedBytes fuel (c.skip 3)
            .ok (UInt8.ofNat (16 * h + l) :: bytes, c)
        | high, _ => c.refuseAhead (if high.isSome then 2 else 1)
      else .ok ([], c)

def uriFrom : Nat → Cursor → Except Flaw (List Char × Cursor)
  | 0, c => .ok ([], c)
  | fuel + 1, c =>
      let (plain, c) := c.span isUriChar
      if c.peek = '%' then do
        let (bytes, c) ← escapedBytes c.rest.length c
        match Utf8.decodeChars bytes with
        | .ok cs => do
            let (more, c) ← uriFrom fuel c
            .ok (plain ++ cs ++ more, c)
        | .error _ => .error ⟨.unusable .document, false⟩
      else .ok (plain, c)

def uri (c : Cursor) : Except Flaw (String × Cursor) := do
  let (cs, c) ← uriFrom c.rest.length c
  if cs.isEmpty then c.refuse else .ok (String.ofList cs, c)

-- An exclamation mark, or a word between two.
def tagHandle (c : Cursor) : Except Flaw (String × Cursor) :=
  if c.peek ≠ '!' then c.refuse
  else if c.peekAt 1 = ' ' then .ok ("!", c.advance)
  else
    let (word, after) := c.advance.span isWordChar
    if after.peek = '!' then .ok (String.ofList ('!' :: word ++ ['!']), after.advance) else after.refuse

def ofTag (c : Cursor) : Except Flaw (Token × Cursor) := do
  let next := c.peekAt 1
  let (token, c) ←
    if next = '<' then do
      let (suffix, c) ← uri (c.skip 2)
      if c.peek = '>' then .ok (Token.tag none suffix, c.advance) else c.refuse
    else if isGapOrTab next then .ok (Token.tag none "!", c.advance)
    else if ((c.rest.drop 1).takeWhile fun ch => !isGap ch).contains '!' then do
      let (handle, c) ← tagHandle c
      let (suffix, c) ← uri c
      .ok (Token.tag (some handle) suffix, c)
    else do
      let (suffix, c) ← uri c.advance
      .ok (Token.tag (some "!") suffix, c)
  if isGap c.peek then .ok (token, c) else c.refuse

-- The name after an asterisk or an ampersand.
def anchorName (c : Cursor) : Except Flaw (String × Cursor) :=
  let (name, c) := c.advance.span isWordChar
  if name.isEmpty then c.refuse
  else if isGapOrTab c.peek || "?:,]\x7d%@\x60".toList.contains c.peek then .ok (String.ofList name, c)
  else c.refuse

-- The rest of a line that holds nothing but a comment.
def emptyLine (c : Cursor) : Except Flaw Cursor :=
  let c := c.skipWhile isSpace
  let c := if c.peek = '#' then c.skipLine else c
  if isBreakOrStop c.peek then .ok c.lineBreak.2 else c.refuse

def directiveNumber (c : Cursor) : Except Flaw (Nat × Cursor) := do
  let (ds, after) := c.span isDigit
  if ds.isEmpty then c.refuse
  else
    (Number.checkDigits ds.length).mapError (⟨·, after.rest.isEmpty⟩)
    .ok (Number.digitsValue 10 ds, after)

def versionDirective (c : Cursor) : Except Flaw (Directive × Cursor) := do
  let (major, c) ← directiveNumber (c.skipWhile isSpace)
  if c.peek = '.' then do
    let (_, c) ← directiveNumber c.advance
    if isGap c.peek then .ok (.version major, c) else c.refuse
  else c.refuse

def tagDirective (c : Cursor) : Except Flaw (Directive × Cursor) := do
  let (handle, c) ← tagHandle (c.skipWhile isSpace)
  if c.peek = ' ' then do
    let (start, c) ← uri (c.skipWhile isSpace)
    if isGap c.peek then .ok (.tag handle start, c) else c.refuse
  else c.refuse

def ofDirective (c : Cursor) : Except Flaw (Token × Cursor) := do
  let (name, c) := c.advance.span isWordChar
  if name.isEmpty || !isGap c.peek then c.refuse
  else do
    let (d, c) ←
      match String.ofList name with
      | "YAML" => versionDirective c
      | "TAG" => tagDirective c
      | _ => .ok (Directive.other, c.skipLine)
    .ok (.directive d, ← emptyLine c)

end Token

end Coffer.Yaml
