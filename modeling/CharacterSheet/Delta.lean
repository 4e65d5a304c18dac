import CharacterSheet.Schema
import CharacterSheet.Table

/-!
# Deltas

A delta is everything that one or more data codes contribute to a character.  The empty delta has
all numbers zero and all collections empty.  Deltas are combined entry by entry: numbers add up,
tiered combat features take the maximum, lists are appended, and a trait keeps the last payload
given to its code.
-/

namespace CharacterSheet

structure SkillGain where
  skill : Int := 0
  talent : Int := 0
  tier : Int := 0
  deriving DecidableEq, Repr, Inhabited

namespace SkillGain

def zero : SkillGain := {}

def add (a b : SkillGain) : SkillGain :=
  ⟨a.skill + b.skill, a.talent + b.talent, a.tier + b.tier⟩

def isZero (g : SkillGain) : Bool := g == zero

@[simp] theorem add_zero (a : SkillGain) : a.add zero = a := by simp [add, zero]

@[simp] theorem zero_add (a : SkillGain) : zero.add a = a := by simp [add, zero]

theorem add_comm (a b : SkillGain) : a.add b = b.add a := by simp [add, Int.add_comm]

theorem add_assoc (a b c : SkillGain) : (a.add b).add c = a.add (b.add c) := by
  simp [add, Int.add_assoc]

end SkillGain

structure Ability where
  kind : AbilityKind
  daily : Bool
  magical : Bool
  energy : Int
  name : Option String := none
  deriving DecidableEq, Repr

/-- A trait marker, known by its code, with an optional payload. -/
structure Trait where
  kind : TraitKind
  code : String
  payload : Option String := none
  deriving DecidableEq, Repr

structure GatedEffect where
  kind : EffectKind
  subtype : String
  value : Int
  deriving DecidableEq, Repr

/-- Adds a trait to a list with one trait a code: a code that is there only takes the new payload,
and only if there is one. -/
def addTrait : List Trait → Trait → List Trait
  | [], new => [new]
  | old :: rest, new =>
    if old.code = new.code then
      { old with payload := new.payload <|> old.payload } :: rest
    else old :: addTrait rest new

theorem map_code_addTrait (ts : List Trait) (new : Trait) :
    (addTrait ts new).map Trait.code =
      if new.code ∈ ts.map Trait.code then ts.map Trait.code
      else ts.map Trait.code ++ [new.code] := by
  induction ts with
  | nil => simp [addTrait]
  | cons old ts ih =>
    by_cases h : old.code = new.code
    · simp [addTrait, h]
    · have h' : ¬ new.code = old.code := fun hh ↦ h hh.symm
      simp only [addTrait, h, if_false, List.map_cons, ih, List.mem_cons, h', false_or]
      split <;> simp

theorem nodup_code_addTrait {ts : List Trait} (new : Trait)
    (h : (ts.map Trait.code).Nodup) : ((addTrait ts new).map Trait.code).Nodup := by
  rw [map_code_addTrait]
  split
  · exact h
  · next hn =>
    refine List.nodup_append.2 ⟨h, by simp, ?_⟩
    intro a ha b hb
    rw [List.mem_singleton.1 hb]
    exact fun hab ↦ hn (hab ▸ ha)

/-- Everything that data codes contribute to a character. -/
structure Delta where
  attributes : Table Int := .ofNames Schema.attributes 0 Schema.nodup_attributes
  skills : Table Int := .ofNames Schema.skills 0 Schema.nodup_skills
  tiers : Table Int := .ofNames Schema.skills 0 Schema.nodup_skills
  weapon : Table SkillGain := .ofNames Schema.weaponSkills .zero Schema.nodup_weaponSkills
  magic : Table SkillGain := .ofNames Schema.magicSkills .zero Schema.nodup_magicSkills
  crafting : Table SkillGain := .ofNames Schema.craftingSkills .zero Schema.nodup_craftingSkills
  mitigation : Table Int := .ofNames Schema.mitigations 0 Schema.nodup_mitigations
  resources : Table Int := .ofNames Schema.resourceFields 0 Schema.nodup_resourceFields
  movement : Table Int := .ofNames Schema.movementModes 0 Schema.nodup_movementModes
  weaponRanges : Table Int := .ofNames Schema.weaponRanges 0 Schema.nodup_weaponRanges
  features : Table Int := .ofNames Schema.combatFeatures 0 Schema.nodup_combatFeatures
  immunities : NameSet := .empty
  abilities : List Ability := []
  traits : List Trait := []
  gated : Table (List GatedEffect) := .ofNames Schema.gates [] Schema.nodup_gates
  flags : Table Bool := .empty
  deriving DecidableEq, Repr

namespace Delta

def empty : Delta := {}

instance : Inhabited Delta := ⟨empty⟩

def addTrait (d : Delta) (t : Trait) : Delta :=
  { d with traits := CharacterSheet.addTrait d.traits t }

def sum (_ : String) (a b : Int) : Int := a + b

/-- A tiered feature takes the higher tier; any other feature adds up. -/
def combineFeature (name : String) (a b : Int) : Int :=
  if name ∈ Schema.tieredFeatures then max a b else a + b

/-- Only flags that are on are taken over. -/
def raiseFlags (flags other : Table Bool) : Table Bool :=
  other.entries.foldl (fun acc e ↦ if e.2 then acc.set e.1 true else acc) flags

/-- Folds the second delta into the first. -/
def absorb (d other : Delta) : Delta where
  attributes := d.attributes.absorb 0 sum other.attributes
  skills := d.skills.absorb 0 sum other.skills
  tiers := d.tiers.absorb 0 sum other.tiers
  weapon := d.weapon.absorb .zero (fun _ ↦ SkillGain.add) other.weapon
  magic := d.magic.absorb .zero (fun _ ↦ SkillGain.add) other.magic
  crafting := d.crafting.absorb .zero (fun _ ↦ SkillGain.add) other.crafting
  mitigation := d.mitigation.absorb 0 sum other.mitigation
  resources := d.resources.absorb 0 sum other.resources
  movement := d.movement.absorb 0 sum other.movement
  weaponRanges := d.weaponRanges.absorb 0 sum other.weaponRanges
  features := d.features.absorb 0 combineFeature other.features
  immunities := d.immunities.union other.immunities
  abilities := d.abilities ++ other.abilities
  traits := other.traits.foldl CharacterSheet.addTrait d.traits
  gated := d.gated.absorb [] (fun _ ↦ List.append) other.gated
  flags := raiseFlags d.flags other.flags

/-- Combines two deltas, starting from the empty one; the second wins when both give a payload to
one trait code. -/
def merge (a b : Delta) : Delta := (empty.absorb a).absorb b

def mergeAll (ds : List Delta) : Delta := ds.foldl merge empty

/-- Two deltas agree in every field; tables are compared without their order. -/
def same (a b : Delta) : Bool :=
  a.attributes.same b.attributes && a.skills.same b.skills && a.tiers.same b.tiers
    && a.weapon.same b.weapon && a.magic.same b.magic && a.crafting.same b.crafting
    && a.mitigation.same b.mitigation && a.resources.same b.resources
    && a.movement.same b.movement && a.weaponRanges.same b.weaponRanges
    && a.features.same b.features && a.immunities == b.immunities
    && a.abilities == b.abilities && a.traits == b.traits
    && a.gated.same b.gated && a.flags.same b.flags

def isEmpty (d : Delta) : Bool := d.same empty

end Delta

end CharacterSheet
