import CharacterSheet.NameSet

/-!
# The schema of a character

Every quantity that a data code can address, with the letters that address it.  A letter table
lists letters with the names they stand for; the order of a table is the order in which its names
are listed everywhere else.
-/

namespace CharacterSheet

/-- Letters of a data code with what they stand for. -/
abbrev Letters (α : Type) := List (Char × α)

/-- What the table lists under a letter. -/
def Letters.find? {α : Type} (letters : Letters α) (letter : Char) : Option α :=
  List.lookup letter letters

def Letters.names {α : Type} (letters : Letters α) : List α := List.map Prod.snd letters

namespace Schema

def attributeLetters : Letters String :=
  [('1', "physique"), ('2', "finesse"), ('3', "mind"), ('4', "knowledge"), ('5', "social")]

def skillLetters : Letters String :=
  [('A', "fitness"), ('B', "deflection"), ('C', "might"), ('D', "endurance"), ('E', "evasion"),
    ('F', "stealth"), ('G', "coordination"), ('H', "thievery"), ('I', "resilience"),
    ('J', "concentration"), ('K', "senses"), ('L', "logic"), ('M', "wildcraft"),
    ('N', "academics"), ('O', "magic"), ('P', "medicine"), ('Q', "expression"),
    ('R', "presence"), ('S', "insight"), ('T', "persuasion")]

def weaponLetters : Letters String :=
  [('1', "brawling"), ('2', "throwing"), ('3', "simple_melee_weapons"),
    ('4', "simple_ranged_weapons"), ('5', "complex_melee_weapons"),
    ('6', "complex_ranged_weapons")]

def magicLetters : Letters String :=
  [('1', "black"), ('2', "primal"), ('3', "metamagic"), ('4', "divine"), ('5', "mysticism")]

def craftingLetters : Letters String :=
  [('1', "engineering"), ('2', "fabrication"), ('3', "alchemy"), ('4', "cooking"),
    ('5', "glyphcraft"), ('6', "bioshaping")]

def mitigationLetters : Letters String :=
  [('1', "physical"), ('2', "heat"), ('3', "cold"), ('4', "electric"), ('5', "dark"),
    ('6', "divine"), ('7', "aetheric"), ('8', "psychic"), ('9', "toxic"), ('A', "true")]

/-- Resource fields; there is no field under the letter `4`. -/
def resourceLetters : Letters String :=
  [('1', "health"), ('2', "resolve"), ('3', "energy"), ('5', "health_regen"),
    ('6', "resolve_regen"), ('7', "energy_regen"), ('8', "max_morale"), ('9', "spell_capacity"),
    ('M', "mana_points")]

def weaponRangeLetters : Letters String :=
  [('A', "simple_ranged_min_range"), ('B', "simple_ranged_max_range"),
    ('C', "complex_ranged_min_range"), ('D', "complex_ranged_max_range"),
    ('E', "throwing_min_range"), ('F', "throwing_max_range")]

def movementLetters : Letters String :=
  [('1', "walk"), ('2', "swim"), ('3', "climb"), ('4', "fly")]

def flagLetters : Letters String :=
  [('A', "NO_COMFORTS"), ('B', "EMBRACE_SUFFERING"), ('C', "URBAN_COMFORT"),
    ('D', "BADGE_OF_HONOR"), ('E', "WEAPON_COLLECTOR"), ('F', "TWIN_FURY"),
    ('G', "PASSIVE_SHELL"), ('H', "EFFICIENT_WEAPONRY")]

/-- Conditions that a character can be made immune to. -/
def immunityLetters : Letters String :=
  [('A', "afraid"), ('B', "bleeding"), ('C', "blinded"), ('D', "charmed"), ('E', "confused"),
    ('F', "dazed"), ('G', "deafened"), ('H', "diseased"), ('I', "winded"), ('J', "prone"),
    ('K', "poisoned"), ('L', "muted"), ('M', "stunned"), ('N', "impaired"), ('O', "numbed"),
    ('P', "broken"), ('Q', "incapacitated"), ('R', "ignited"), ('S', "hidden"),
    ('T', "maddened")]

def dualWieldTier : String := "dual_wield_tier"

def combatFeatures : List String := [dualWieldTier]

/-- Combat features of which the highest tier counts; all others add up. -/
def tieredFeatures : List String := [dualWieldTier]

def dualWieldTiers : List Int := [1, 2]

def attributes : List String := attributeLetters.names
def skills : List String := skillLetters.names
def weaponSkills : List String := weaponLetters.names
def magicSkills : List String := magicLetters.names
def craftingSkills : List String := craftingLetters.names
def mitigations : List String := mitigationLetters.names
def resourceFields : List String := resourceLetters.names
def weaponRanges : List String := weaponRangeLetters.names
def movementModes : List String := movementLetters.names

theorem nodup_attributes : attributes.Nodup := by decide
theorem nodup_skills : skills.Nodup := by decide
theorem nodup_weaponSkills : weaponSkills.Nodup := by decide
theorem nodup_magicSkills : magicSkills.Nodup := by decide
theorem nodup_craftingSkills : craftingSkills.Nodup := by decide
theorem nodup_mitigations : mitigations.Nodup := by decide
theorem nodup_resourceFields : resourceFields.Nodup := by decide
theorem nodup_weaponRanges : weaponRanges.Nodup := by decide
theorem nodup_movementModes : movementModes.Nodup := by decide
theorem nodup_combatFeatures : combatFeatures.Nodup := by decide

/-- Each attribute governs four basic skills, in order. -/
def skillAttributes : List (String × String) :=
  skills.zip (attributes.flatMap fun a ↦ [a, a, a, a])

end Schema

/-! ## Kinds -/

/-- Conditions on the equipped gear, under which a gated effect counts. -/
inductive Gate where
  | noArmor | lightArmor | heavyArmor | anyArmor | anyShield | lightShield | heavyShield
  deriving DecidableEq, Repr

namespace Gate

def name : Gate → String
  | noArmor => "no_armor"
  | lightArmor => "light_armor"
  | heavyArmor => "heavy_armor"
  | anyArmor => "any_armor"
  | anyShield => "any_shield"
  | lightShield => "light_shield"
  | heavyShield => "heavy_shield"

def letters : Letters Gate :=
  [('A', noArmor), ('B', lightArmor), ('C', heavyArmor), ('D', anyArmor), ('E', anyShield),
    ('F', lightShield), ('G', heavyShield)]

def all : List Gate := letters.names

end Gate

def Schema.gates : List String := Gate.all.map Gate.name

theorem Schema.nodup_gates : Schema.gates.Nodup := by decide

inductive TraitKind where
  | ancestry | general | crafting
  deriving DecidableEq, Repr

namespace TraitKind

def name : TraitKind → String
  | ancestry => "ancestry"
  | general => "general"
  | crafting => "crafting"

def all : List TraitKind := [ancestry, general, crafting]

def letters : Letters TraitKind :=
  [('A', ancestry), ('G', general), ('C', crafting), ('X', general)]

end TraitKind

/-- What a gated effect adds to. -/
inductive EffectKind where
  | skill | mitigation
  deriving DecidableEq, Repr

namespace EffectKind

def name : EffectKind → String
  | skill => "skill"
  | mitigation => "mitigation"

def all : List EffectKind := [skill, mitigation]

end EffectKind

inductive AbilityKind where
  | action | reaction
  deriving DecidableEq, Repr

namespace AbilityKind

def name : AbilityKind → String
  | action => "action"
  | reaction => "reaction"

def all : List AbilityKind := [action, reaction]

end AbilityKind

end CharacterSheet
