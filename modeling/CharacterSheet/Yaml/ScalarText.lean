import CharacterSheet.Number.Integer
import CharacterSheet.Yaml.Cursor

/-!
# Scalars as they are written

A scalar is written plain, in single or double quotes, or as a block of lines.  A line break inside
a plain or quoted scalar counts as a blank, and the blank lines after it count as line breaks.
-/

namespace CharacterSheet.Yaml

/-- What a line break and the breaks of the blank lines after it count as. -/
def foldBreaks (first : Char) (breaks : List Char) : List Char :=
  if first ≠ '\n' then first :: breaks
  else if breaks.isEmpty then [' '] else breaks

/-! ## Quoted scalars -/

/-- The breaks of blank lines inside a quoted scalar; no document may start or end there. -/
def quotedBreaks : Nat → Cursor → Except Fault (List Char × Cursor)
  | 0, c => c.refuse
  | fuel + 1, c => do
    if ← c.atMarker then c.refuse
    else
      let c := c.dropWhile isBlank
      match c.lineBreak? with
      | none => return ([], c)
      | some (b, c) =>
        let (bs, c) ← quotedBreaks fuel c
        return (b :: bs, c)

def quotedGap (c : Cursor) : Except Fault (List Char × Cursor) :=
  let (blanks, c) := c.span isBlank
  match c.lineBreak? with
  | none => .ok (blanks, c)
  | some (b, c) => do
    let (bs, c) ← quotedBreaks (c.rest.length + 1) c
    return (foldBreaks b bs, c)

/-- Characters that stand for one character after a backslash. -/
def shortEscapes : List (Char × Char) :=
  [('0', '\x00'), ('a', '\x07'), ('b', '\x08'), ('t', '\t'), ('\t', '\t'), ('n', '\n'),
    ('v', '\x0b'), ('f', '\x0c'), ('r', '\r'), ('e', '\x1b'), (' ', ' '), ('"', '"'),
    ('\\', '\\'), ('/', '/'), ('N', '\x85'), ('_', '\xa0'), ('L', '\u2028'), ('P', '\u2029')]

/-- Letters after which a code point is written in a number of hexadecimal digits. -/
def codeEscapes : List (Char × Nat) := [('x', 2), ('u', 4), ('U', 8)]

def hexNumber? (cs : List Char) : Option Nat :=
  if cs.all (Integer.isDigitOf 16) then some (Integer.ofDigitsOf 16 cs) else none

/-- The characters that hold a code point, if there is such a one. -/
def holdPoint (n : Nat) : Except Fault (List Char) :=
  if 0x80000000 ≤ n then .error (.crash (.scalar .characterTooLarge))
  else if 0x110000 ≤ n then .error (.crash (.scalar .noSuchCharacter))
  else .ok (Text.hold n)

/-- What an escape stands for; the cursor is after the backslash. -/
def escape (c : Cursor) : Except Fault (List Char × Cursor) :=
  match c.peek? with
  | none => c.refuse
  | some ch => match shortEscapes.lookup ch, codeEscapes.lookup ch, c.lineBreak? with
    | some e, _, _ => .ok ([e], c.next)
    | none, some width, _ =>
      let digits := (c.next.rest.take width).takeWhile (Integer.isDigitOf 16)
      if digits.length = width then do
        let e ← holdPoint (Integer.ofDigitsOf 16 digits)
        return (e, c.skip (width + 1))
      else (c.next.skip digits.length).refuse
    | none, none, some (_, c) => quotedBreaks (c.rest.length + 1) c
    | none, none, none => c.refuse

/-- The inside of a quoted scalar; the characters read so far come last first. -/
def quotedFrom (quote : Char) : Nat → List Char → Cursor → Except Fault (List Char × Cursor)
  | 0, _, c => c.refuse
  | fuel + 1, read, c =>
    match c.rest with
    | [] => c.refuse
    | ch :: more =>
      if ch = quote then
        if quote = '\'' && more.head? = some '\'' then
          quotedFrom quote fuel ('\'' :: read) (c.skip 2)
        else .ok (read.reverse, c.next)
      else if quote = '"' && ch = '\\' then do
        let (cs, c) ← escape c.next
        quotedFrom quote fuel (cs.reverse ++ read) c
      else if isBlank ch || isBreak ch then do
        let (cs, c) ← quotedGap c
        quotedFrom quote fuel (cs.reverse ++ read) c
      else quotedFrom quote fuel ((Text.hold ch.toNat).reverse ++ read) c.next

/-- A quoted scalar; the cursor is at its opening quote. -/
def quotedScalar (quote : Char) (c : Cursor) : Except Fault (List Char × Cursor) :=
  quotedFrom quote (c.rest.length + 1) [] c.next

/-! ## Plain scalars -/

/-- Characters that end a plain scalar inside brackets. -/
def isFlowEnd (c : Char) : Bool := ",?[]\x7b\x7d".toList.contains c

/-- Whether a colon is followed by something that makes it end a plain scalar. -/
def colonEnds (flow : Bool) : List Char → Bool
  | [] => true
  | ch :: _ => isBlank ch || isBreak ch || (flow && isFlowEnd ch && ch ≠ '?')

/-- How many characters follow before a blank, or before something that ends a plain scalar. -/
def plainRun (flow : Bool) : List Char → Nat
  | [] => 0
  | ch :: more =>
    if isBlank ch || isBreak ch then 0
    else if (ch = ':' && colonEnds flow more) || (flow && isFlowEnd ch) then 0
    else 1 + plainRun flow more

structure PlainGap where
  text : List Char
  crossed : Bool
  cursor : Cursor

/-- The breaks of blank lines inside a plain scalar, unless a document starts or ends there. -/
def plainBreaks : Nat → Cursor → Except Fault (Option (List Char) × Cursor)
  | 0, c => .ok (none, c)
  | fuel + 1, c => do
    let c := c.dropWhile (· = ' ')
    match c.lineBreak? with
    | none => return (some [], c)
    | some (b, c) =>
      if ← c.atMarker then return (none, c)
      else
        let (bs, c) ← plainBreaks fuel c
        return (bs.map (b :: ·), c)

def plainGap (c : Cursor) : Except Fault PlainGap := do
  let (blanks, c) := c.span (· = ' ')
  match c.lineBreak? with
  | none => return ⟨blanks, false, c⟩
  | some (b, c) =>
    if ← c.atMarker then return ⟨[], true, c⟩
    else match ← plainBreaks (c.rest.length + 1) c with
      | (none, c) => return ⟨[], true, c⟩
      | (some bs, c) => return ⟨foldBreaks b bs, true, c⟩

/-- Reads the runs of a plain scalar, with the gaps between them; `gap` is the last gap. -/
def plainFrom (flow : Bool) (indent : Nat) :
    Nat → List Char → PlainGap → Except Fault (List Char × PlainGap)
  | 0, read, gap => .ok (read, gap)
  | fuel + 1, read, gap => do
    let c := gap.cursor
    let n := plainRun flow c.rest
    if c.peek? = some '#' || n = 0 then return (read, gap)
    else
      let read := read ++ gap.text ++ c.rest.take n
      let gap ← plainGap (c.skip n)
      if gap.text.isEmpty || (!flow && gap.cursor.column < indent) then return (read, gap)
      else plainFrom flow indent fuel read gap

/-- A plain scalar and what follows it.  Outside of brackets its later lines are indented. -/
def plainScalar (flow : Bool) (indent : Nat) (c : Cursor) :
    Except Fault (List Char × PlainGap) :=
  plainFrom flow indent (c.rest.length + 1) [] ⟨[], false, c⟩

/-! ## Block scalars -/

/-- What is kept of the line breaks at the end of a block scalar. -/
inductive Chomping where
  | strip | clip | keep
  deriving DecidableEq, Repr

def chomping? : Char → Option Chomping
  | '+' => some .keep
  | '-' => some .strip
  | _ => none

def increment? (c : Char) : Option Nat :=
  if Integer.isDigit c then some (Integer.digitValue c) else none

/-- The header of a block scalar: chomping and an increment of the indentation, in either order.
The cursor ends up at the first line. -/
def blockHeader (c : Cursor) : Except Fault (Chomping × Option Nat × Cursor) :=
  let first := c.peek?
  let (chomping, increment, width) := match first.bind chomping?, first.bind increment? with
    | some chomping, _ => match (c.peek? 1).bind increment? with
      | some n => (chomping, some n, 2)
      | none => (chomping, none, 1)
    | none, some n => match (c.peek? 1).bind chomping? with
      | some chomping => (chomping, some n, 2)
      | none => (.clip, some n, 1)
    | none, none => (.clip, none, 0)
  let c := c.skip width
  if increment = some 0 || !c.spaceAt 0 then c.refuse
  else match c.endLine? with
    | some c => .ok (chomping, increment, c)
    | none => c.refuse

def skipIndent (indent : Nat) (c : Cursor) : Cursor :=
  c.skip (min (indent - c.column) (c.rest.takeWhile (· = ' ')).length)

/-- The breaks of blank lines in a block scalar of known indentation. -/
def blockBreaks (indent : Nat) : Nat → Cursor → List Char × Cursor
  | 0, c => ([], c)
  | fuel + 1, c =>
    let c := skipIndent indent c
    match c.lineBreak? with
    | none => ([], c)
    | some (b, c) =>
      let (bs, c) := blockBreaks indent fuel c
      (b :: bs, c)

/-- The breaks of the blank lines before a block scalar, and the furthest column on the way. -/
def blockStart : Nat → Nat → Cursor → List Char × Nat × Cursor
  | 0, furthest, c => ([], furthest, c)
  | fuel + 1, furthest, c =>
    let c := c.dropWhile (· = ' ')
    let furthest := max furthest c.column
    match c.lineBreak? with
    | none => ([], furthest, c)
    | some (b, c) =>
      let (bs, furthest, c) := blockStart fuel furthest c
      (b :: bs, furthest, c)

def startsBlank (c : Cursor) : Bool := (c.peek?).any isBlank

/-- The text between two lines of a block scalar: a folded break is a blank, unless one of the lines
begins with a blank. -/
def blockJoint (folded : Bool) (first : List Char) (plain : Bool) (breaks : List Char) :
    List Char :=
  if folded && first = ['\n'] && plain then (if breaks.isEmpty then [' '] else []) else first

/-- Reads the lines of a block scalar: its text, its last line break and the breaks after it.
`breaks` are the breaks before the next line. -/
def blockLines (folded : Bool) (indent : Nat) :
    Nat → List Char → List Char → List Char → Cursor → List Char × List Char × List Char × Cursor
  | 0, read, last, breaks, c => (read, last, breaks, c)
  | fuel + 1, read, last, breaks, c =>
    if c.column ≠ indent || c.atEnd then (read, last, breaks, c)
    else
      let plain := !startsBlank c
      let (line, c) := c.span fun ch ↦ !isBreak ch
      let read := read ++ breaks ++ line
      let (last, c) := match c.lineBreak? with
        | some (b, c) => ([b], c)
        | none => ([], c)
      let (breaks, c) := blockBreaks indent (c.rest.length + 1) c
      if c.column ≠ indent || c.atEnd then (read, last, breaks, c)
      else
        blockLines folded indent fuel
          (read ++ blockJoint folded last (plain && !startsBlank c) breaks) last breaks c

/-- A block scalar; the cursor is after its indicator.  It is indented by one column at least. -/
def blockScalar (folded : Bool) (least : Nat) (c : Cursor) : Except Fault (List Char × Cursor) := do
  let (chomping, increment, c) ← blockHeader c
  let fuel := c.rest.length + 1
  let (indent, breaks, c) := match increment with
    | some n =>
      let indent := least + n - 1
      let (breaks, c) := blockBreaks indent fuel c
      (indent, breaks, c)
    | none =>
      let (breaks, furthest, c) := blockStart fuel 0 c
      (max least furthest, breaks, c)
  let (text, last, breaks, c) := blockLines folded indent fuel [] [] breaks c
  match chomping with
  | .strip => return (text, c)
  | .clip => return (text ++ last, c)
  | .keep => return (text ++ last ++ breaks, c)

end CharacterSheet.Yaml
