import CharacterSheet.SourceError
import CharacterSheet.Text.Blank

/-!
# Written integers

Integers are unbounded, but a written integer of more than 4300 digits is not converted.  Leading
zeros count as digits, the sign does not.
-/

namespace CharacterSheet.Integer

def isDigit (c : Char) : Bool := '0' ≤ c && c ≤ '9'

def digitValue (c : Char) : Nat := c.toNat - '0'.toNat

/-- The number that some decimal digits write. -/
def ofDigits (ds : List Char) : Nat := ds.foldl (fun n d ↦ 10 * n + digitValue d) 0

/-- The value of a digit; letters are digits from ten on. -/
def anyDigit? (c : Char) : Option Nat :=
  if isDigit c then some (digitValue c)
  else if 'a' ≤ c && c ≤ 'z' then some (c.toNat - 'a'.toNat + 10)
  else if 'A' ≤ c && c ≤ 'Z' then some (c.toNat - 'A'.toNat + 10)
  else none

/-- The value of a digit of a base. -/
def digit? (base : Nat) (c : Char) : Option Nat := (anyDigit? c).filter (· < base)

def isDigitOf (base : Nat) (c : Char) : Bool := (digit? base c).isSome

/-- The number that some digits of a base write. -/
def ofDigitsOf (base : Nat) (ds : List Char) : Nat :=
  ds.foldl (fun n d ↦ base * n + (digit? base d).getD 0) 0

def withSign (negative : Bool) (n : Nat) : Int := if negative then -(n : Int) else n

/-- Converts digits, unless there are too many of them. -/
def convert (negative : Bool) (ds : List Char) : Except SourceError Int :=
  if SourceError.digitLimit < ds.length then .error (.overlong ds.length)
  else .ok (withSign negative (ofDigits ds))

/-! ## Integers as texts

A text may hold an integer of a base: blanks around it, a sign, the mark of the base, digits of any
script, and single underscores between digits.
-/

/-- The zeros of the decimal digits of all scripts. -/
def zeros : List Nat :=
  [0x30, 0x660, 0x6f0, 0x7c0, 0x966, 0x9e6, 0xa66, 0xae6, 0xb66, 0xbe6, 0xc66, 0xce6, 0xd66,
    0xde6, 0xe50, 0xed0, 0xf20, 0x1040, 0x1090, 0x17e0, 0x1810, 0x1946, 0x19d0, 0x1a80, 0x1a90,
    0x1b50, 0x1bb0, 0x1c40, 0x1c50, 0xa620, 0xa8d0, 0xa900, 0xa9d0, 0xa9f0, 0xaa50, 0xabf0,
    0xff10, 0x104a0, 0x10d30, 0x11066, 0x110f0, 0x11136, 0x111d0, 0x112f0, 0x11450, 0x114d0,
    0x11650, 0x116c0, 0x11730, 0x118e0, 0x11950, 0x11c50, 0x11d50, 0x11da0, 0x16a60, 0x16ac0,
    0x16b50, 0x1d7ce, 0x1d7d8, 0x1d7e2, 0x1d7ec, 0x1d7f6, 0x1e140, 0x1e2f0, 0x1e950, 0x1fbf0]

/-- The ASCII digit with the value of a digit of any script; other characters stay. -/
def asciiDigit (c : Char) : Char :=
  match zeros.find? fun z ↦ z ≤ c.toNat && c.toNat < z + 10 with
  | some z => Char.ofNat (c.toNat - z + '0'.toNat)
  | none => c

/-- Splits an optional sign off a text. -/
def splitSign : List Char → Bool × List Char
  | '-' :: cs => (true, cs)
  | '+' :: cs => (false, cs)
  | cs => (false, cs)

/-- The digits of a text in which single underscores may stand between digits. -/
def groupedDigits? (isDigit : Char → Bool) (cs : List Char) : Option (List Char) :=
  let groups := Text.splitAt '_' cs
  if groups.all fun g ↦ !g.isEmpty && g.all isDigit then some groups.flatten else none

/-- The letters that mark a base after a zero. -/
def baseMarks : List (Nat × List Char) := [(2, ['b', 'B']), (8, ['o', 'O']), (16, ['x', 'X'])]

/-- Drops the mark of a base, with an underscore after it. -/
def withoutMark (base : Nat) (cs : List Char) : List Char :=
  match cs with
  | '0' :: c :: rest =>
    if ((baseMarks.lookup base).getD []).contains c then
      if rest.head? = some '_' then rest.tail else rest
    else cs
  | _ => cs

/-- Converts the digits of a base.  There can be too many decimal digits only. -/
def convertOf (base : Nat) (negative : Bool) (ds : List Char) : Except SourceError Int :=
  if base = 10 then convert negative ds else .ok (withSign negative (ofDigitsOf base ds))

/-- Reads an integer of a base from characters, or tells how they are written.  Too many digits are
noticed before what follows them. -/
def ofChars (base : Nat) (written : String) (cs : List Char) : Except SourceError Int :=
  let (negative, body) := splitSign (cs.dropWhile Text.isSpace)
  let (digits, rest) := (withoutMark base body).span fun c ↦ isDigitOf base c || c = '_'
  match groupedDigits? (isDigitOf base) digits with
  | none => .error (.notAnInteger base written)
  | some ds => do
    let n ← convertOf base negative ds
    if rest.all Text.isSpace then .ok n else .error (.notAnInteger base written)

def ofText (s : String) (base : Nat := 10) : Except SourceError Int :=
  ofChars base (Text.quoted s) (s.toList.map asciiDigit)

/-- The character of ASCII that a byte is.  Other bytes are no part of a number. -/
def byteChar (b : Nat) : Char := if b < 0x80 then Char.ofNat b else '?'

def ofBytes (bs : List Nat) : Except SourceError Int :=
  ofChars 10 (Text.quotedBytes bs) (bs.map byteChar)

/-- Reads an integer in a field of any kind; a double loses its fraction. -/
def ofValue : Value → Except SourceError Int
  | .bool b => .ok (if b then 1 else 0)
  | .int n => .ok n
  | .float (.infinite _) => .error .infiniteInteger
  | .float .nan => .error .nanInteger
  | .float x => .ok (x.truncate?.getD 0)
  | .text s => ofText s
  | .bytes bs => ofBytes bs
  | v => .error (.notANumber v.kind)

end CharacterSheet.Integer
