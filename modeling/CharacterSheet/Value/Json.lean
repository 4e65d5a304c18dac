import CharacterSheet.Number.Integer

/-!
# JSON text

Values are read from JSON text and written as JSON text.  Reading keeps the order of the members
and tells integers from other numbers.  Writing uses ASCII only, either on one line or with two
blanks of indentation a level.  Integers of too many digits are neither read nor written.
-/

namespace CharacterSheet.Json

open Integer (isDigit ofDigits)

/-! ## Reading -/

def isGap (c : Char) : Bool := c = ' ' || c = '\t' || c = '\n' || c = '\r'

def hexValue? (c : Char) : Option Nat := Integer.digit? 16 c

def fourHex? : List Char → Option (Nat × List Char)
  | a :: b :: c :: d :: rest => do
    let a ← hexValue? a
    let b ← hexValue? b
    let c ← hexValue? c
    let d ← hexValue? d
    some (((a * 16 + b) * 16 + c) * 16 + d, rest)
  | _ => none

def shortEscape? : Char → Option Char
  | '"' => some '"'
  | '\\' => some '\\'
  | '/' => some '/'
  | 'b' => some '\x08'
  | 'f' => some '\x0c'
  | 'n' => some '\n'
  | 'r' => some '\r'
  | 't' => some '\t'
  | _ => none

/-- Reads the second half of a surrogate pair. -/
def lowSurrogate? : List Char → Option (Nat × List Char)
  | '\\' :: 'u' :: rest => do
    let (low, rest) ← fourHex? rest
    if 0xdc00 ≤ low && low < 0xe000 then some (low, rest) else none
  | _ => none

/-- Reads the rest of a string after its opening quote; the characters read so far come last
first. -/
def readString : Nat → List Char → List Char → Option (String × List Char)
  | 0, _, _ => none
  | fuel + 1, read, cs =>
    match cs with
    | '"' :: rest => some (String.ofList read.reverse, rest)
    | '\\' :: 'u' :: rest => do
      let (high, rest) ← fourHex? rest
      if 0xd800 ≤ high && high < 0xdc00 then
        match lowSurrogate? rest with
        | some (low, rest) =>
          let n := 0x10000 + (high - 0xd800) * 0x400 + (low - 0xdc00)
          readString fuel ((Text.hold n).reverse ++ read) rest
        | none => readString fuel ((Text.hold high).reverse ++ read) rest
      else readString fuel ((Text.hold high).reverse ++ read) rest
    | '\\' :: c :: rest => do
      let c ← shortEscape? c
      readString fuel (c :: read) rest
    | c :: rest => if c.toNat < 0x20 then none else readString fuel (c :: read) rest
    | [] => none

/-- A fraction: a point and at least one digit. -/
def readFraction (cs : List Char) : List Char × List Char :=
  match cs with
  | '.' :: rest =>
    let ds := rest.takeWhile isDigit
    if ds.isEmpty then ([], cs) else (ds, rest.dropWhile isDigit)
  | _ => ([], cs)

/-- An exponent: a letter, an optional sign and at least one digit. -/
def readExponent (cs : List Char) : Option Int × List Char :=
  match cs with
  | c :: rest =>
    if c = 'e' || c = 'E' then
      let (negative, rest) := match rest with
        | '-' :: r => (true, r)
        | '+' :: r => (false, r)
        | r => (false, r)
      let ds := rest.takeWhile isDigit
      if ds.isEmpty then (none, cs)
      else
        let n : Int := ofDigits ds
        (some (if negative then -n else n), rest.dropWhile isDigit)
    else (none, cs)
  | [] => (none, cs)

/-- Reads a number after its sign. -/
def readNumber (negative : Bool) (cs : List Char) : Option (Value × List Char) :=
  let whole := match cs with
    | '0' :: _ => ['0']
    | _ => cs.takeWhile isDigit
  if whole.isEmpty then none
  else
    let rest := cs.drop whole.length
    let (fraction, rest) := readFraction rest
    let (exponent, rest) := readExponent rest
    if fraction.isEmpty && exponent.isNone then
      match Integer.convert negative whole with
      | .ok n => some (.int n, rest)
      | .error _ => none
    else
      let e := exponent.getD 0 - fraction.length
      some (.float (.ofDecimal negative (ofDigits (whole ++ fraction)) e), rest)

def skipGap (cs : List Char) : List Char := cs.dropWhile isGap

/-- The text after a word that the text has to begin with. -/
def afterWord? (word cs : List Char) : Option (List Char) :=
  if word.isPrefixOf cs then some (cs.drop word.length) else none

def words : List (String × Value) :=
  [("null", .null), ("true", .bool true), ("false", .bool false), ("NaN", .float .nan),
    ("Infinity", .float (.infinite false)), ("-Infinity", .float (.infinite true))]

def readWord (cs : List Char) : Option (Value × List Char) :=
  words.findSome? fun w ↦ (afterWord? w.1.toList cs).map fun rest ↦ (w.2, rest)

mutual

def readValue : Nat → List Char → Option (Value × List Char)
  | 0, _ => none
  | fuel + 1, cs =>
    match readWord cs with
    | some r => some r
    | none =>
      match cs with
      | '"' :: rest => do
        let (s, rest) ← readString (rest.length + 1) [] rest
        some (.text s, rest)
      | '[' :: rest =>
        match skipGap rest with
        | ']' :: rest => some (.list [], rest)
        | rest => readItems fuel [] rest
      | '{' :: rest =>
        match skipGap rest with
        | '}' :: rest => some (.map [], rest)
        | rest => readMembers fuel [] rest
      | '-' :: rest => readNumber true rest
      | rest => readNumber false rest

def readItems : Nat → List Value → List Char → Option (Value × List Char)
  | 0, _, _ => none
  | fuel + 1, read, cs => do
    let (v, rest) ← readValue fuel cs
    match skipGap rest with
    | ',' :: rest => readItems fuel (v :: read) (skipGap rest)
    | ']' :: rest => some (.list (v :: read).reverse, rest)
    | _ => none

def readMembers : Nat → List (Value × Value) → List Char → Option (Value × List Char)
  | 0, _, _ => none
  | fuel + 1, read, cs =>
    match cs with
    | '"' :: rest => do
      let (key, rest) ← readString (rest.length + 1) [] rest
      match skipGap rest with
      | ':' :: rest => do
        let (v, rest) ← readValue fuel (skipGap rest)
        let read := Value.putField (.text key) v read
        match skipGap rest with
        | ',' :: rest => readMembers fuel read (skipGap rest)
        | '}' :: rest => some (.map read, rest)
        | _ => none
      | _ => none
    | _ => none

end

def read? (s : String) : Option Value :=
  let cs := s.toList
  match readValue (cs.length + 1) (skipGap cs) with
  | some (v, rest) => if (skipGap rest).isEmpty then some v else none
  | none => none

/-! ## Writing -/

/-- The escape of one unit of sixteen bits. -/
def unitEscape (n : Nat) : List Char := '\\' :: 'u' :: Text.hexDigits 4 n

def escapeChar (c : Char) : List Char :=
  if c = '"' then ['\\', '"']
  else if c = '\\' then ['\\', '\\']
  else if c = '\n' then ['\\', 'n']
  else if c = '\r' then ['\\', 'r']
  else if c = '\t' then ['\\', 't']
  else if c = '\x08' then ['\\', 'b']
  else if c = '\x0c' then ['\\', 'f']
  else if 0x20 ≤ c.toNat && c.toNat < 0x7f then [c]
  else if c.toNat < 0x10000 then unitEscape c.toNat
  else
    let n := c.toNat - 0x10000
    unitEscape (0xd800 + n / 0x400) ++ unitEscape (0xdc00 + n % 0x400)

def escapePoint (n : Nat) : List Char :=
  if Text.isHalf n then unitEscape n else escapeChar (Char.ofNat n)

def writeString (s : String) : String :=
  String.ofList ('"' :: ((Text.codePoints s.toList).flatMap escapePoint ++ ['"']))

def writeFloat : Binary64 → String
  | .nan => "NaN"
  | .infinite negative => if negative then "-Infinity" else "Infinity"
  | x => x.text

/-- The text of a key; keys of JSON text are strings. -/
def keyText : Value → String
  | .text s => s
  | .null => "null"
  | .bool b => if b then "true" else "false"
  | .float x => writeFloat x
  | v => v.display

/-- How the items of a collection are laid out: on one line, or on lines of their own at a depth. -/
inductive Layout where
  | line
  | indented (depth : Nat)

def Layout.deeper : Layout → Layout
  | line => line
  | indented depth => indented (depth + 1)

/-- The break before an item or a closing bracket. -/
def Layout.lineBreak : Layout → String
  | line => ""
  | indented depth => String.ofList ('\n' :: List.replicate (2 * depth) ' ')

def Layout.comma : Layout → String
  | line => ", "
  | indented depth => "," ++ (indented depth).lineBreak

mutual

def write (layout : Layout) : Value → String
  | .null => "null"
  | .bool b => if b then "true" else "false"
  | .int n => toString n
  | .float x => writeFloat x
  | .text s => writeString s
  | .bytes bs => writeString (Value.bytes bs).display
  | .date d => writeString d.text
  | .moment m => writeString m.text
  | .tuple items =>
    if items.isEmpty then "[]"
    else "[" ++ layout.deeper.lineBreak
      ++ layout.deeper.comma.intercalate (writeItems layout.deeper items)
      ++ layout.lineBreak ++ "]"
  | .list items =>
    if items.isEmpty then "[]"
    else "[" ++ layout.deeper.lineBreak
      ++ layout.deeper.comma.intercalate (writeItems layout.deeper items)
      ++ layout.lineBreak ++ "]"
  | .set members =>
    if members.isEmpty then "[]"
    else "[" ++ layout.deeper.lineBreak
      ++ layout.deeper.comma.intercalate (writeItems layout.deeper members)
      ++ layout.lineBreak ++ "]"
  | .map entries =>
    if entries.isEmpty then "\x7b\x7d"
    else "\x7b" ++ layout.deeper.lineBreak
      ++ layout.deeper.comma.intercalate (writeMembers layout.deeper entries)
      ++ layout.lineBreak ++ "\x7d"
  | .again v => writeString (Value.ellipsis v.kind)

def writeItems (layout : Layout) : List Value → List String
  | [] => []
  | v :: vs => write layout v :: writeItems layout vs

def writeMembers (layout : Layout) : List (Value × Value) → List String
  | [] => []
  | e :: es =>
    (writeString (keyText e.1) ++ ": " ++ write layout e.2) :: writeMembers layout es

end

mutual

def isWritable : Value → Bool
  | .int n => (toString n.natAbs).length ≤ SourceError.digitLimit
  | .tuple items => areWritable items
  | .list items => areWritable items
  | .set members => areWritable members
  | .map entries => areWritableMembers entries
  | _ => true

def areWritable : List Value → Bool
  | [] => true
  | v :: vs => isWritable v && areWritable vs

def areWritableMembers : List (Value × Value) → Bool
  | [] => true
  | e :: es => isWritable e.2 && areWritableMembers es

end

def compact (v : Value) : String := write .line v

def pretty (v : Value) : String := write (.indented 0) v

end CharacterSheet.Json
