/-!
# Tags

The tag of a node tells the type of its value.  A node without a tag gets one from its form.
-/

namespace CharacterSheet.Yaml

inductive Tag where
  | null | bool | int | float | timestamp | text | binary | seq | map
  | set
  /-- A sequence of mappings of one entry each, by either of two names. -/
  | pairs
  /-- A key that merges the entries of other mappings. -/
  | merge
  /-- A key that marks the main value of a mapping. -/
  | main
  | other (uri : String)
  deriving DecidableEq, Repr

/-- The names under the common URI of tags. -/
def Tag.named : List (String × Tag) :=
  [("null", .null), ("bool", .bool), ("int", .int), ("float", .float), ("timestamp", .timestamp),
    ("str", .text), ("binary", .binary), ("seq", .seq), ("map", .map), ("set", .set),
    ("omap", .pairs), ("pairs", .pairs), ("merge", .merge), ("value", .main)]

def Tag.commonUri : String := "tag:yaml.org,2002:"

def Tag.ofUri (uri : String) : Tag :=
  match named.find? fun t ↦ commonUri ++ t.1 == uri with
  | some t => t.2
  | none => other uri

/-! ## Tags of plain scalars -/

def isDecimal (c : Char) : Bool := '0' ≤ c && c ≤ '9'

def isOctal (c : Char) : Bool := '0' ≤ c && c ≤ '7'

def isHex (c : Char) : Bool := isDecimal c || ('a' ≤ c && c ≤ 'f') || ('A' ≤ c && c ≤ 'F')

/-- Characters of a class and underscores, at least one. -/
def grouped (p : Char → Bool) (cs : List Char) : Bool :=
  !cs.isEmpty && cs.all fun c ↦ p c || c = '_'

def isDigitGroup : List Char → Bool
  | [] => false
  | c :: cs => isDecimal c && cs.all fun c ↦ isDecimal c || c = '_'

/-- One digit, or two of which the first is below six. -/
def isSexagesimal : List Char → Bool
  | [c] => isDecimal c
  | [d, c] => '0' ≤ d && d ≤ '5' && isDecimal c
  | _ => false

def withoutSign : List Char → List Char
  | '-' :: cs => cs
  | '+' :: cs => cs
  | cs => cs

/-- Cuts a text at its first separator. -/
def cutAt? (sep : Char) (cs : List Char) : Option (List Char × List Char) :=
  match cs.span (· != sep) with
  | (before, _ :: after) => some (before, after)
  | (_, []) => none

/-- Groups of a number of base sixty between colons, of which there is at least one. -/
def sexagesimalRest : Nat → List Char → Bool
  | 0, _ => false
  | fuel + 1, cs => match cutAt? ':' cs with
    | none => isSexagesimal cs
    | some (group, rest) => isSexagesimal group && sexagesimalRest fuel rest

def isSexagesimalInt (cs : List Char) : Bool :=
  match cutAt? ':' cs with
  | some (first, rest) =>
    isDigitGroup first && first.head? != some '0' && sexagesimalRest (rest.length + 1) rest
  | none => false

/-- The form of an integer: binary, octal, decimal, hexadecimal or of base sixty. -/
def isInt (cs : List Char) : Bool :=
  match withoutSign cs with
  | ['0'] => true
  | '0' :: 'b' :: ds => grouped (fun c ↦ c = '0' || c = '1') ds
  | '0' :: 'x' :: ds => grouped isHex ds
  | '0' :: ds => grouped isOctal ds
  | ds => isDigitGroup ds || isSexagesimalInt ds

/-- An exponent has a sign; there may be none. -/
def isExponent : List Char → Bool
  | [] => true
  | e :: sign :: ds =>
    (e = 'e' || e = 'E') && (sign = '-' || sign = '+') && !ds.isEmpty && ds.all isDecimal
  | _ => false

/-- What follows the point of a number: digits and underscores, then an exponent. -/
def isFraction (cs : List Char) : Bool :=
  isExponent (cs.dropWhile fun c ↦ isDecimal c || c = '_')

/-- The form of a number with a point. -/
def isFloat (cs : List Char) : Bool :=
  let body := withoutSign cs
  let signed := body.length < cs.length
  match cutAt? '.' body with
  | none => false
  | some ([], fraction) =>
    ["inf", "Inf", "INF"].contains (String.ofList fraction)
      || (!signed && ["nan", "NaN", "NAN"].contains (String.ofList fraction))
      || (!signed && fraction.head?.any isDecimal && isFraction fraction)
  | some (whole, fraction) =>
    (isDigitGroup whole && isFraction fraction)
      || (match cutAt? ':' whole with
        | some (first, rest) => isDigitGroup first && sexagesimalRest (rest.length + 1) rest
        | none => false) && fraction.all fun c ↦ isDecimal c || c = '_'

/-- Digits at the start of a text, at least one and at most a number of them. -/
def digitsUpTo? (most : Nat) (cs : List Char) : Option (List Char × List Char) :=
  let ds := (cs.take most).takeWhile isDecimal
  if ds.isEmpty then none else some (ds, cs.drop ds.length)

def twoDigits? (cs : List Char) : Option (List Char × List Char) :=
  (digitsUpTo? 2 cs).filter fun r ↦ r.1.length = 2

def expect? (c : Char) (cs : List Char) : Option (List Char) :=
  if cs.head? = some c then some cs.tail else none

def twoDigitsAfter? (c : Char) (cs : List Char) : Option (List Char × List Char) :=
  expect? c cs >>= twoDigits?

/-- The offset of a clock from universal time: a sign, hours and minutes. -/
structure Zone where
  behind : Bool
  hours : List Char
  minutes : List Char := []

/-- The time of day in a timestamp. -/
structure TimeOfDay where
  hour : List Char
  minute : List Char
  second : List Char
  fraction : List Char := []
  /-- Nothing is known about the zone, or it is universal time, or it has an offset. -/
  zone : Option (Option Zone) := none

structure Timestamp where
  year : List Char
  month : List Char
  day : List Char
  time : Option TimeOfDay := none

def isGap (c : Char) : Bool := c = ' ' || c = '\t'

/-- What may follow the seconds and their fraction, to the end: blanks and a zone. -/
def zone? (cs : List Char) : Option (Option (Option Zone)) :=
  match cs.dropWhile isGap with
  | [] => if cs.isEmpty then some none else none
  | ['Z'] => some (some none)
  | sign :: ds =>
    if sign = '-' || sign = '+' then match digitsUpTo? 2 ds with
      | some (hours, []) => some (some (some { behind := sign = '-', hours }))
      | some (hours, rest) => match twoDigitsAfter? ':' rest with
        | some (minutes, []) => some (some (some { behind := sign = '-', hours, minutes }))
        | _ => none
      | none => none
    else none

/-- The time after a date, to the end. -/
def time? (cs : List Char) : Option TimeOfDay := do
  let gap := cs.takeWhile isGap
  let cs ← if gap.isEmpty then (expect? 'T' cs <|> expect? 't' cs) else some (cs.drop gap.length)
  let (hour, cs) ← digitsUpTo? 2 cs
  let (minute, cs) ← twoDigitsAfter? ':' cs
  let (second, cs) ← twoDigitsAfter? ':' cs
  let (fraction, cs) := match cs with
    | '.' :: cs => cs.span isDecimal
    | cs => ([], cs)
  let zone ← zone? cs
  some { hour, minute, second, fraction, zone }

/-- A date, or a date and a time, with a year of four digits. -/
def timestamp? (cs : List Char) : Option Timestamp := do
  let (year, cs) ← digitsUpTo? 4 cs
  let cs ← expect? '-' cs
  let (month, cs) ← digitsUpTo? 2 cs
  let cs ← expect? '-' cs
  let (day, cs) ← digitsUpTo? 2 cs
  if year.length ≠ 4 then none
  else if cs.isEmpty then some { year, month, day }
  else (time? cs).map fun t ↦ { year, month, day, time := some t }

/-- The form of a timestamp: a date without a time is written with two digits each for the month
and the day. -/
def isTimestamp (cs : List Char) : Bool :=
  (timestamp? cs).any fun t ↦ t.time.isSome || (t.month.length = 2 && t.day.length = 2)

def truthWords : List (String × Bool) :=
  [("yes", true), ("no", false), ("true", true), ("false", false), ("on", true), ("off", false)]

/-- A word as it may be written: in small letters, with a capital one first, or in capital ones. -/
def spellings (word : String) : List String := [word, word.capitalize, word.map Char.toUpper]

def withoutLineFeed (s : String) : String :=
  if s.toList.getLast? = some '\n' then String.ofList s.toList.dropLast else s

/-- The tag of a text that has a form. -/
def Tag.ofForm (s : String) : Tag :=
  let cs := s.toList
  if (truthWords.flatMap fun w ↦ spellings w.1).contains s then .bool
  else if isFloat cs then .float
  else if isInt cs then .int
  else if s = "<<" then .merge
  else if ("~" :: spellings "null").contains s then .null
  else if isTimestamp cs then .timestamp
  else if s = "=" then .main
  else if ["!", "&", "*"].contains s then .other (commonUri ++ "yaml")
  else .text

/-- The tag of a scalar without one: nothing is null, anything else goes by its form.  A line feed
at the end does not count. -/
def Tag.ofScalar (s : String) : Tag := if s = "" then .null else .ofForm (withoutLineFeed s)

end CharacterSheet.Yaml
