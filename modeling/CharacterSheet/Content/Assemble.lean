import CharacterSheet.Character
import CharacterSheet.Content.Catalog

/-!
# Assembling a character

A character template names content by its ids.  Assembling resolves every name and takes over the
base values; a name that nothing is known under is an error.
-/

namespace CharacterSheet

open ContentError

namespace CharacterTemplate

def resolve {α : Type} (t : CharacterTemplate) (kind : String) (table : Table α) (key : String) :
    Except ContentError α :=
  match table.get? key with
  | some a => .ok a
  | none => .error (unknownReference t.name kind key)

def selectOptions (module : String) (names : List String) (m : Module) :
    Except ContentError Module := do
  let options ← (m.options.all "name").mapError badModule
  match names.find? fun n ↦ !options.any (·.name == n) with
  | some n => .error (unknownOption module n)
  | none =>
    .ok { m with options := m.options.map fun o ↦ { o with selected := names.contains o.name } }

def resolveModules (t : CharacterTemplate) (c : Catalog) : Except ContentError (List Module) :=
  t.modules.entries.mapM fun e ↦ do
    let m ← t.resolve "module" c.modules e.1
    selectOptions e.1 e.2 m

def resolveEquipment (t : CharacterTemplate) (c : Catalog) : Except ContentError Equipment :=
  t.equipment.entries.foldlM (fun worn e ↦ do
    if !slots.contains e.1 then throw (unknownEquipmentSlot t.name e.1)
    let item ← t.resolve "item" c.items e.2
    return worn.set e.1 (some item)) .bare

def setAttributes (t : CharacterTemplate) (s : State) : Except ContentError State :=
  t.attributes.entries.foldlM (fun s e ↦
    if s.attributes.contains e.1 then .ok { s with attributes := s.attributes.set e.1 e.2 }
    else .error (unknownAttribute t.name e.1)) s

def setSkills (t : CharacterTemplate) (s : State) : Except ContentError State :=
  t.skills.entries.foldlM (fun s e ↦
    if (s.skill? e.1).isSome then .ok (s.modifySkill e.1 fun k ↦ { k with value := e.2 })
    else .error (unknownSkill t.name e.1)) s

/-- Records a tier under its field name. -/
def setTier (t : CharacterTemplate) (skill : String) (s : State) (field : String × Int) :
    Except ContentError State :=
  if field.1 = "tier" then
    .ok (s.modifySkill skill fun k ↦ { k with tier := some field.2 })
  else if legacyTierFields.contains field.1 then
    .ok (s.modifySkill skill fun k ↦ { k with legacy := k.legacy.set field.1 field.2 })
  else .error (unknownTierField t.name field.1 skill)

def setTiers (t : CharacterTemplate) (s : State) : Except ContentError State :=
  t.skillTiers.entries.foldlM (fun s e ↦
    if (s.skill? e.1).isSome then e.2.entries.foldlM (t.setTier e.1) s
    else .error (unknownSkill t.name e.1)) s

/-- Sets the maximum of pools; a template may add pools of its own. -/
def setMaxima (t : CharacterTemplate) (s : State) : State :=
  { s with resources := t.resources.entries.foldl (fun pools e ↦
      pools.update e.1 {} fun p ↦ { p with max := e.2 }) s.resources }

def setCurrents (t : CharacterTemplate) (s : State) : Except ContentError State :=
  t.current.entries.foldlM (fun s e ↦
    if s.resources.contains e.1 then
      .ok { s with resources := s.resources.modify e.1 fun p ↦ { p with current := some e.2 } }
    else .error (unknownPool t.name e.1)) s

/-- The base values of the character. -/
def baseState (t : CharacterTemplate) (settings : Settings) : Except ContentError State := do
  let s ← t.setAttributes (.fresh settings)
  let s ← t.setSkills s
  let s ← t.setTiers s
  t.setCurrents (t.setMaxima s)

/-- A fresh working state with the manual modifiers. -/
def workingState (t : CharacterTemplate) (settings : Settings) : State :=
  let s := State.fresh settings
  { s with
    pain := { s.pain with modifier := t.painModifier }
    stress := { s.stress with modifier := t.stressModifier } }

/-- Assembles a character, which has not been built yet.  Settings are asked for once modules and
equipment are resolved. -/
def assemble (t : CharacterTemplate) (settings : Except SettingsError Settings) (c : Catalog) :
    Except ContentError Character := do
  let modules ← t.resolveModules c
  let equipment ← t.resolveEquipment c
  let settings ← settings.mapError noSettings
  let base ← t.baseState settings
  let trainings ← t.trainings.mapM (t.resolve "item" c.items)
  let injuries ← t.injuries.mapM (t.resolve "injury" c.injuries)
  return {
    name := t.name
    base, modules, trainings, equipment, injuries
    conditions := .ofList t.conditions
    state := t.workingState settings }

end CharacterTemplate

end CharacterSheet
