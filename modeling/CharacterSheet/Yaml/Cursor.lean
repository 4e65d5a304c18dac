import CharacterSheet.Yaml.Fault

/-!
# Cursors

A cursor stands in a text.  It knows what follows, and its line and column.  A byte order mark takes
no column.  Nothing follows the end of a text, and the end counts as blank.  A text that cannot be
read to its end stops with a fault.
-/

namespace CharacterSheet.Yaml

def isBreak (c : Char) : Bool :=
  c = '\n' || c = '\r' || c = '\x85' || c = '\u2028' || c = '\u2029'

def isBlank (c : Char) : Bool := c = ' ' || c = '\t'

/-- Letters, digits, the hyphen and the underscore make up names. -/
def isNameChar (c : Char) : Bool :=
  ('0' ≤ c && c ≤ '9') || ('A' ≤ c && c ≤ 'Z') || ('a' ≤ c && c ≤ 'z') || c = '-' || c = '_'

structure Cursor where
  rest : List Char
  /-- The fault behind the rest. -/
  fault : Option Fault := none
  index : Nat := 0
  line : Nat := 0
  column : Nat := 0
  deriving Repr

namespace Cursor

def peek? (c : Cursor) (ahead : Nat := 0) : Option Char := c.rest[ahead]?

def next (c : Cursor) : Cursor :=
  match c.rest with
  | [] => c
  | ch :: rest =>
    let c := { c with rest, index := c.index + 1 }
    if isBreak ch then { c with line := c.line + 1, column := 0 }
    else { c with column := if ch = '\ufeff' then c.column else c.column + 1 }

def skip : Nat → Cursor → Cursor
  | 0, c => c
  | n + 1, c => skip n c.next

/-- The longest run of characters of a class, and the cursor after it. -/
def span (p : Char → Bool) (c : Cursor) : List Char × Cursor :=
  (c.rest.takeWhile p, c.skip (c.rest.takeWhile p).length)

def dropWhile (p : Char → Bool) (c : Cursor) : Cursor := (c.span p).2

/-- Whether the character ahead is of a class or the text ends there. -/
def endsAt (c : Cursor) (ahead : Nat) (p : Char → Bool) : Bool :=
  match c.peek? ahead with
  | none => true
  | some ch => p ch

def atEnd (c : Cursor) : Bool := c.rest.isEmpty

/-- Refuses a text that goes wrong at the cursor. -/
def refuse {α : Type} (c : Cursor) : Except Fault α :=
  .error (if c.atEnd then c.fault.getD .notADocument else .notADocument)

/-- Refuses a text that cannot be read beyond the cursor. -/
def check (c : Cursor) : Except Fault Unit :=
  if c.atEnd && c.fault.isSome then c.refuse else .ok ()

/-- Whether a blank, a line break or the end of the text is ahead. -/
def gapAt (c : Cursor) (ahead : Nat) : Bool := c.endsAt ahead fun ch ↦ isBlank ch || isBreak ch

/-- The same without tabs. -/
def spaceAt (c : Cursor) (ahead : Nat) : Bool := c.endsAt ahead fun ch ↦ ch = ' ' || isBreak ch

/-- A line break as it counts in a scalar, and the cursor after it. -/
def lineBreak? (c : Cursor) : Option (Char × Cursor) :=
  match c.rest with
  | [] => none
  | ch :: _ =>
    if isBreak ch then some (if ch = '\u2028' || ch = '\u2029' then ch else '\n', c.next) else none

def startsWith (c : Cursor) (word : String) : Bool := word.toList.isPrefixOf c.rest

def atStartMarker (c : Cursor) : Bool := c.startsWith "---" && c.gapAt 3

def atEndMarker (c : Cursor) : Bool := c.startsWith "..." && c.gapAt 3

/-- Whether a marker is here, which takes three characters to tell, and then one more. -/
def atMarker (c : Cursor) : Except Fault Bool :=
  let needed := if c.startsWith "---" || c.startsWith "..." then 4 else 3
  match c.fault with
  | some f => if c.rest.length < needed then .error f else .ok (c.atStartMarker || c.atEndMarker)
  | none => .ok (c.atStartMarker || c.atEndMarker)

def skipComment (c : Cursor) : Cursor :=
  if c.peek? = some '#' then c.dropWhile fun ch ↦ !isBreak ch else c

/-- Skips what may stand at the end of a line, if nothing else stands there. -/
def endLine? (c : Cursor) : Option Cursor :=
  let c := (c.dropWhile (· = ' ')).skipComment
  match c.lineBreak? with
  | some (_, c) => some c
  | none => if c.atEnd then some c else none

end Cursor

end CharacterSheet.Yaml
