import CharacterSheet.Delta
import CharacterSheet.Text.Quoted

/-!
# Canonical views of deltas

The canonical view of a delta forgets the order of its lists: each list is sorted by the written
form of its members.  Two deltas that differ only in the order in which their sources were merged
have the same view.
-/

namespace CharacterSheet

/-- An absent name is written without quotes. -/
def nameText : Option String → String
  | none => "null"
  | some s => Text.quoted s

/-- The written form by which abilities are ordered. -/
def Ability.writtenForm (a : Ability) : String :=
  a.kind.name ++ ", " ++ toString a.daily ++ ", " ++ toString a.magical ++ ", "
    ++ toString a.energy ++ ", " ++ nameText a.name ++ ")"

/-- The written form by which gated effects are ordered. -/
def GatedEffect.writtenForm (e : GatedEffect) : String :=
  e.kind.name ++ ", " ++ Text.quoted e.subtype ++ ", " ++ toString e.value ++ ")"

/-- A trait as its code, its kind and its payload, an absent payload being empty. -/
structure TraitView where
  code : String
  kind : String
  payload : String
  deriving DecidableEq, Repr

def Trait.view (t : Trait) : TraitView := ⟨t.code, t.kind.name, t.payload.getD ""⟩

def TraitView.le (a b : TraitView) : Bool :=
  if a.code = b.code then
    if a.kind = b.kind then a.payload ≤ b.payload else a.kind ≤ b.kind
  else a.code ≤ b.code

/-- Sorts by a text, keeping the order of members with equal texts. -/
def sortByText {α : Type} (text : α → String) (xs : List α) : List α :=
  xs.mergeSort fun a b ↦ text a ≤ text b

structure Canonical where
  attributes : Table Int
  skills : Table Int
  tiers : Table Int
  weapon : Table SkillGain
  magic : Table SkillGain
  crafting : Table SkillGain
  mitigation : Table Int
  resources : Table Int
  movement : Table Int
  weaponRanges : Table Int
  features : Table Int
  immunities : List String
  abilities : List Ability
  traits : List TraitView
  gated : Table (List GatedEffect)
  flags : Table Bool

def Delta.canonical (d : Delta) : Canonical where
  attributes := d.attributes
  skills := d.skills
  tiers := d.tiers
  weapon := d.weapon
  magic := d.magic
  crafting := d.crafting
  mitigation := d.mitigation
  resources := d.resources
  movement := d.movement
  weaponRanges := d.weaponRanges
  features := d.features
  immunities := d.immunities.names
  abilities := sortByText Ability.writtenForm d.abilities
  traits := (d.traits.map Trait.view).mergeSort TraitView.le
  gated := d.gated.map (sortByText GatedEffect.writtenForm)
  flags := d.flags.filter fun _ on ↦ on

/-- Two views agree in every field; tables are compared without their order. -/
def Canonical.same (a b : Canonical) : Bool :=
  a.attributes.same b.attributes && a.skills.same b.skills && a.tiers.same b.tiers
    && a.weapon.same b.weapon && a.magic.same b.magic && a.crafting.same b.crafting
    && a.mitigation.same b.mitigation && a.resources.same b.resources
    && a.movement.same b.movement && a.weaponRanges.same b.weaponRanges
    && a.features.same b.features && a.immunities == b.immunities
    && a.abilities == b.abilities && a.traits == b.traits
    && a.gated.same b.gated && a.flags.same b.flags

end CharacterSheet
