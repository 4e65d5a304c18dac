import CharacterSheet.Delta
import CharacterSheet.Settings
import CharacterSheet.Value.Tally

/-!
# States

The numbers of one character.  A fresh state has every entry of the schema at its default; a state
may also lack entries or have more of them.
-/

namespace CharacterSheet

/-- An entry for a skill of any category. -/
structure SkillEntry where
  value : Int := 0
  talent : Int := 0
  /-- The tier, unset until it is normalised. -/
  tier : Option Int := some 0
  /-- The attribute that governs a basic skill. -/
  governor : Option String := none
  /-- Tiers recorded under older field names. -/
  legacy : Table Int := .empty
  deriving DecidableEq, Repr

/-- Older field names of a tier. -/
def legacyTierFields : List String := ["diceTierModifier", "dice_tier_modifier", "tierModifier"]

/-- A resource with a maximum, a recovery rate and a current value that lasts. -/
structure Pool where
  max : Int := 0
  current : Option Int := none
  recovery : Int := 0
  deriving DecidableEq, Repr

/-- Pools that every character has. -/
def defaultPools : List String := ["health", "resolve", "energy", "morale"]

theorem nodup_defaultPools : defaultPools.Nodup := by decide

/-- What a gate adds while it is satisfied. -/
structure GateTotals where
  mitigation : Table Int := .ofNames Schema.mitigations 0 Schema.nodup_mitigations
  skills : Table Int := .ofNames Schema.skills 0 Schema.nodup_skills
  deriving DecidableEq, Repr

/-- Gated effects, the totals of each gate, and flags. -/
structure Conditionals where
  effects : Table (List GatedEffect) := .ofNames Schema.gates [] Schema.nodup_gates
  totals : Table GateTotals := .ofNames Schema.gates {} Schema.nodup_gates
  flags : Table Bool := .empty
  deriving DecidableEq, Repr

/-- A pain or stress track.  The modifier is set by hand, all else is derived. -/
structure Track where
  sourceTotal : Int := 0
  thresholdBonus : Int := 0
  modifier : Int := 0
  calculated : Int := 0
  penaltyDice : Int := 0
  deriving DecidableEq, Repr

structure State where
  attributes : Table Int
  basic : Table SkillEntry
  weapon : Table SkillEntry
  magic : Table SkillEntry
  crafting : Table SkillEntry
  mitigation : Table Int
  resources : Table Pool
  spellSlots : Int
  movement : Table Int
  movementBonuses : Table Int
  weaponRanges : Table Int
  features : Table Int
  /-- Names of conditions; an unchecked item may add members that are no names. -/
  immunities : List Value
  /-- Strengths of senses; an unchecked item may add some whose keys are no names. -/
  detections : Tally
  grantedEffects : List Value
  abilities : List Ability
  traits : List Trait
  conditionals : Conditionals
  encumbrance : Int
  satisfiedGates : List String
  effectiveConditions : List String
  pain : Track
  stress : Track
  deriving Repr

namespace State

/-- The basic skills, each under the attribute that governs it. -/
def basicSkills : Table SkillEntry :=
  (Table.ofNames Schema.skills () Schema.nodup_skills).mapWithKey fun name _ ↦
    { governor := Schema.skillAttributes.lookup name }

/-- The state of a character of whom nothing is known. -/
def fresh (settings : Settings) : State where
  attributes := .ofNames Schema.attributes 0 Schema.nodup_attributes
  basic := basicSkills
  weapon := .ofNames Schema.weaponSkills {} Schema.nodup_weaponSkills
  magic := .ofNames Schema.magicSkills {} Schema.nodup_magicSkills
  crafting := .ofNames Schema.craftingSkills {} Schema.nodup_craftingSkills
  mitigation := .ofNames Schema.mitigations 0 Schema.nodup_mitigations
  resources := .ofNames defaultPools {} nodup_defaultPools
  spellSlots := settings.baseSpellSlots
  movement :=
    (Table.ofNames Schema.movementModes 0 Schema.nodup_movementModes).set "walk"
      settings.defaultWalk
  movementBonuses := .ofNames Schema.movementModes 0 Schema.nodup_movementModes
  weaponRanges := .ofNames Schema.weaponRanges 0 Schema.nodup_weaponRanges
  features := .ofNames Schema.combatFeatures 0 Schema.nodup_combatFeatures
  immunities := []
  detections := .empty
  grantedEffects := []
  abilities := []
  traits := []
  conditionals := {}
  encumbrance := 0
  satisfiedGates := []
  effectiveConditions := []
  pain := {}
  stress := {}

/-- Looks a skill up in all categories, basic skills first. -/
def skill? (s : State) (name : String) : Option SkillEntry :=
  s.basic.get? name <|> s.weapon.get? name <|> s.magic.get? name <|> s.crafting.get? name

/-- Changes a skill in the first category that has it. -/
def modifySkill (s : State) (name : String) (f : SkillEntry → SkillEntry) : State :=
  if s.basic.contains name then { s with basic := s.basic.modify name f }
  else if s.weapon.contains name then { s with weapon := s.weapon.modify name f }
  else if s.magic.contains name then { s with magic := s.magic.modify name f }
  else { s with crafting := s.crafting.modify name f }

end State

end CharacterSheet
