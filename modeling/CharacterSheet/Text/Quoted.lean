import CharacterSheet.Text.CodePoint

/-!
# Quoted text

A text inside a message is quoted so that its ends and its invisible characters can be seen.
Single quotes are used unless the text has a single quote and no double quote.
-/

namespace CharacterSheet.Text

def hexDigit (n : Nat) : Char := (Nat.toDigits 16 (n % 16)).headD '0'

/-- The last `width` hexadecimal digits of a number. -/
def hexDigits : Nat → Nat → List Char
  | 0, _ => []
  | width + 1, n => hexDigits width (n / 16) ++ [hexDigit n]

/-- The quote that a text is written in. -/
def quoteFor (cs : List Char) : Char := if '\'' ∈ cs ∧ ¬ '"' ∈ cs then '"' else '\''

def escapeChar (quote c : Char) : List Char :=
  if c = quote ∨ c = '\\' then ['\\', c]
  else if c = '\n' then ['\\', 'n']
  else if c = '\r' then ['\\', 'r']
  else if c = '\t' then ['\\', 't']
  else if isPrintable c then [c]
  else if c.toNat < 0x100 then '\\' :: 'x' :: hexDigits 2 c.toNat
  else if c.toNat < 0x10000 then '\\' :: 'u' :: hexDigits 4 c.toNat
  else '\\' :: 'U' :: hexDigits 8 c.toNat

def escapePoint (quote : Char) (n : Nat) : List Char :=
  if isHalf n then '\\' :: 'u' :: hexDigits 4 n else escapeChar quote (Char.ofNat n)

def quoteChars (cs : List Char) : List Char :=
  quoteFor cs :: ((codePoints cs).flatMap (escapePoint (quoteFor cs)) ++ [quoteFor cs])

def quoted (s : String) : String := String.ofList (quoteChars s.toList)

def escapeByte (quote : Char) (b : Nat) : List Char :=
  if b < 0x7f then escapeChar quote (Char.ofNat b) else '\\' :: 'x' :: hexDigits 2 b

/-- Bytes are quoted as the characters of ASCII that they are, after a mark. -/
def quotedBytes (bs : List Nat) : String :=
  let quote := quoteFor (bs.map Char.ofNat)
  String.ofList ('b' :: quote :: (bs.flatMap (escapeByte quote) ++ [quote]))

end CharacterSheet.Text
