/-!
# Settings

The numbers and names that the engine takes from its surroundings, with their defaults.
-/

namespace CharacterSheet

structure Settings where
  /-- The directory that holds the content files. -/
  contentDirectory : String := "data/content"
  /-- Walking speed where none is recorded. -/
  defaultWalk : Int := 5
  /-- Walking speed while prone. -/
  proneWalk : Int := 1
  /-- Conditions that bring walking to a stop. -/
  immobilizing : List String := ["incapacitated", "stunned", "immobilized"]
  /-- Spell slots before any bonus. -/
  baseSpellSlots : Int := 10
  logLevel : String := "INFO"
  logFormat : String := "console"
  deriving DecidableEq, Repr

end CharacterSheet
