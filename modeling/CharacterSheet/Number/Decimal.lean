import CharacterSheet.Number.Integer

/-!
# Written decimals

A text may hold a double: blanks around it, a sign, digits of any script with a point among them,
and an exponent, or a word for an infinity or for what is no number.
-/

namespace CharacterSheet.Binary64

open Integer (isDigit ofDigits splitSign withSign)

/-- Words for doubles that no digits write. -/
def words : List (String × (Bool → Binary64)) :=
  [("inf", infinite), ("infinity", infinite), ("nan", fun _ ↦ nan)]

/-- The exponent of a decimal; there may be none. -/
def exponent? : List Char → Option Int
  | [] => some 0
  | e :: cs =>
    let (below, ds) := splitSign cs
    if (e = 'e' || e = 'E') && !ds.isEmpty && ds.all isDigit then
      some (withSign below (ofDigits ds))
    else none

/-- A decimal after its sign, with a point or without. -/
def ofDigits? (negative : Bool) (cs : List Char) : Option Binary64 := do
  let (whole, rest) := cs.span isDigit
  let (fraction, rest) := match rest with
    | '.' :: rest => rest.span isDigit
    | rest => ([], rest)
  let exponent ← exponent? rest
  if whole.isEmpty && fraction.isEmpty then none
  else some (.ofDecimal negative (ofDigits (whole ++ fraction)) (exponent - fraction.length))

/-- Reads a double from a text. -/
def ofText? (cs : List Char) : Option Binary64 :=
  let (negative, body) := splitSign ((Text.trimBy Text.isSpace cs).map Integer.asciiDigit)
  match words.lookup (String.ofList (body.map Char.toLower)) with
  | some x => some (x negative)
  | none => ofDigits? negative body

end CharacterSheet.Binary64
