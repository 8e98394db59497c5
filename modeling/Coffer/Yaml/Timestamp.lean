import Coffer.Moment
import Coffer.Yaml.Cursor

-- Dates and times of day as documents spell them.

namespace Coffer.Yaml.Timestamp

def number (ds : List Char) : Nat := ds.foldl (fun n d => 10 * n + (d.toNat - 48)) 0

-- The digits at the front, as many as are wanted at most.
def digits (most : Nat) (cs : List Char) : List Char × List Char :=
  let ds := (cs.take most).takeWhile isDigit
  (ds, cs.drop ds.length)

def digits? (least most : Nat) (cs : List Char) : Option (List Char × List Char) :=
  let (ds, rest) := digits most cs
  if ds.length < least then none else some (ds, rest)

def expect? (c : Char) : List Char → Option (List Char)
  | ch :: rest => if ch = c then some rest else none
  | [] => none

-- The offset that ends a time of day; a lone `Z` is no offset at all.
def offset? (cs : List Char) : Option (Option Int) :=
  match cs with
  | [] => some none
  | _ =>
      match cs.dropWhile isSpaceOrTab with
      | ['Z'] => some (some 0)
      | sign :: rest =>
          if sign = '+' || sign = '-' then do
            let (hours, rest) ← digits? 1 2 rest
            let minutes ←
              match rest with
              | [] => some []
              | ':' :: rest => do
                  let (ds, rest) ← digits? 2 2 rest
                  if rest.isEmpty then some ds else none
              | _ => none
            let total : Int := 60 * number hours + number minutes
            return some (if sign = '-' then -total else total)
          else none
      | [] => none

-- Six digits of a fraction of a second.
def microseconds (ds : List Char) : Nat := number ((ds ++ List.replicate 6 '0').take 6)

def separated? (cs : List Char) : Option (List Char) :=
  match cs with
  | 'T' :: rest | 't' :: rest => some rest
  | ch :: _ => if isSpaceOrTab ch then some (cs.dropWhile isSpaceOrTab) else none
  | [] => none

def clock? (cs : List Char) : Option (Clock × Option Int) := do
  let (hour, rest) ← digits? 1 2 (← separated? cs)
  let (minute, rest) ← digits? 2 2 (← expect? ':' rest)
  let (second, rest) ← digits? 2 2 (← expect? ':' rest)
  let (fraction, rest) :=
    match rest with
    | '.' :: rest => (rest.takeWhile isDigit, rest.dropWhile isDigit)
    | rest => ([], rest)
  let offset ← offset? rest
  return (⟨number hour, number minute, number second, microseconds fraction⟩, offset)

-- A date, with a time of day or without one. The flag tells whether month and day
-- have two digits each.
def parse? (cs : List Char) : Option (Moment × Bool) := do
  let (year, rest) ← digits? 4 4 cs
  let (month, rest) ← digits? 1 2 (← expect? '-' rest)
  let (day, rest) ← digits? 1 2 (← expect? '-' rest)
  let full := month.length = 2 && day.length = 2
  if rest.isEmpty then return (⟨number year, number month, number day, none, none⟩, full)
  else
    let (clock, offset) ← clock? rest
    return (⟨number year, number month, number day, some clock, offset⟩, full)

-- A plain date needs all of its digits to be told from other texts.
def isPlain (cs : List Char) : Bool :=
  match parse? cs with
  | some (m, full) => full || m.clock.isSome
  | none => false

end Coffer.Yaml.Timestamp
