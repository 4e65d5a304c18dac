/-!
# Injuries

What injuries contribute to the pain and the stress of a character.
-/

namespace CharacterSheet

/-- An injury adds to pain and stress for as long as it is there. -/
structure Injury where
  id : String
  name : String
  pain : Nat := 0
  stress : Nat := 0
  deriving DecidableEq, Repr

end CharacterSheet
