import CharacterSheet.Text.Printable

/-!
# Code points of texts

An escape can name half of a surrogate pair, which is a code point but no character.  A text holds
it as two characters: a mark, and the character that is as far from the mark as the half is from the
first of all halves.  The mark itself is held as two marks.  So a text holds any list of code
points, and reading it gives them back.
-/

namespace CharacterSheet.Text

/-- The first code point that is half of a surrogate pair. -/
def firstHalf : Nat := 0xd800

def isHalf (n : Nat) : Bool := inRanges [(firstHalf, 0xdfff)] n

/-- The code point of the mark. -/
def markPoint : Nat := 0x10a000

def mark : Char := Char.ofNat markPoint

/-- The characters that hold a code point. -/
def hold (n : Nat) : List Char :=
  if isHalf n then [mark, Char.ofNat (markPoint + 1 + (n - firstHalf))]
  else if n = markPoint then [mark, mark]
  else [Char.ofNat n]

def codePoints : List Char → List Nat
  | [] => []
  | [c] => [c.toNat]
  | c :: d :: cs =>
    if c = mark then
      (if d = mark then markPoint else firstHalf + (d.toNat - (markPoint + 1))) :: codePoints cs
    else c.toNat :: codePoints (d :: cs)

/-- A text that holds some characters. -/
def holdAll (cs : List Char) : List Char := cs.flatMap fun c ↦ hold c.toNat

/-- The characters that a text holds. -/
def heldChars (s : String) : List Char := (codePoints s.toList).map Char.ofNat

def isWhole (s : String) : Bool := !(codePoints s.toList).any isHalf

end CharacterSheet.Text
