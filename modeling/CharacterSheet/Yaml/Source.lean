import CharacterSheet.Yaml.Fault

/-!
# Sources of YAML texts

A file is read in blocks while its text is looked at.  So a fault of the text in front of the block
that cannot be read is found before the fault of that block.
-/

namespace CharacterSheet.Yaml

/-- The part of a text that can be read, and the fault behind it. -/
structure Source where
  chars : List Char
  fault : Option Fault := none
  deriving Repr

/-- Characters that a text may hold. -/
def isPrintable (c : Char) : Bool :=
  Text.inRanges [(0x9, 0xa), (0xd, 0xd), (0x20, 0x7e), (0x85, 0x85), (0xa0, 0xd7ff),
    (0xe000, 0xfffd), (0x10000, 0x10ffff)] c.toNat

namespace Source

/-- The number of characters that are read before any of them is looked at. -/
def headSize : Nat := 2 * Text.Utf8.blockSize

/-- Where the block begins that holds a position. -/
def blockStart (i : Nat) : Nat :=
  if i < headSize then 0 else i / Text.Utf8.blockSize * Text.Utf8.blockSize

/-- Characters that are no part of any text spoil their block. -/
def ofChars (cs : List Char) (fault : Option Fault) : Source :=
  match cs.findIdx? fun c ↦ !isPrintable c with
  | none => ⟨cs, fault⟩
  | some i => ⟨cs.take (blockStart i), some .notADocument⟩

/-- The text of a file. -/
def ofStream (s : Text.Utf8.Stream) : Source :=
  match s.error with
  | none => ofChars s.chars none
  | some e =>
    let fault := some (.crash (.notText e))
    if s.chars.length < headSize then ⟨[], fault⟩ else ofChars s.chars fault

end Source

end CharacterSheet.Yaml
