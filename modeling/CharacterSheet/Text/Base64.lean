import CharacterSheet.Number.Integer

/-!
# Bytes as letters

Three bytes are written as four letters of six bits each.  Characters that are no such letters do
not count.  Equals signs fill up the last four letters, and nothing after them is read.
-/

namespace CharacterSheet.Text.Base64

/-- The six bits of a letter. -/
def sextet? (c : Char) : Option Nat :=
  if 'A' ≤ c && c ≤ 'Z' then some (c.toNat - 'A'.toNat)
  else if 'a' ≤ c && c ≤ 'z' then some (c.toNat - 'a'.toNat + 26)
  else if Integer.isDigit c then some (Integer.digitValue c + 52)
  else if c = '+' then some 62
  else if c = '/' then some 63
  else none

/-- The letters up to the end, or up to the equals signs that fill up the last four of them.
`count` is how many letters of the last four there are, `signs` how many equals signs after
them. -/
def letters : Nat → Nat → List Char → List Nat × Bool
  | _, _, [] => ([], false)
  | count, signs, c :: cs =>
    if c = '=' then
      if 2 ≤ count && 4 ≤ count + signs + 1 then ([], true)
      else letters count (if 2 ≤ count then signs + 1 else signs) cs
    else match sextet? c with
      | none => letters count signs cs
      | some n =>
        let (ns, filled) := letters ((count + 1) % 4) 0 cs
        (n :: ns, filled)

/-- The bytes that some letters write; what is left of the last four of them. -/
def bytes : List Nat → List Nat × Nat
  | a :: b :: c :: d :: ns =>
    let (bs, left) := bytes ns
    ((a * 4 + b / 16) :: (b % 16 * 16 + c / 4) :: (c % 4 * 64 + d) :: bs, left)
  | [a, b, c] => ([a * 4 + b / 16, b % 16 * 16 + c / 4], 3)
  | [a, b] => ([a * 4 + b / 16], 2)
  | [_] => ([], 1)
  | [] => ([], 0)

/-- The bytes that a text writes, unless its last letters are not filled up. -/
def decode? (cs : List Char) : Option (List Nat) :=
  let (ns, filled) := letters 0 0 cs
  let (bs, left) := bytes ns
  if left = 0 || filled then some bs else none

end CharacterSheet.Text.Base64
