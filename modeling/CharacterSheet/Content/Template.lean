import CharacterSheet.Injury
import CharacterSheet.Module
import CharacterSheet.State.Document

/-!
# Authored content

Items, injuries, modules and characters are authored as documents.  What has passed the check of its
document has every field, of its declared type and with the defaults filled in.
-/

namespace CharacterSheet

namespace Item

/-- An item from what its fields hold once they are checked. -/
def ofChecked (id name description : String) (category : ItemType) (weight : Option WeightClass)
    (code : Option String) (encumbrance : Int) (detections : Table Int)
    (effects immunities : List String) : Item where
  id := id
  name := name
  description := description
  category := some category
  weight := weight
  code := .ofText? code
  encumbrance := .int encumbrance
  detections := .ofTable .int detections
  effects := .ofTexts effects
  immunities := .ofTexts immunities

/-- All fields of the item have their declared types. -/
def Checked (item : Item) : Prop :=
  ∃ id name description category weight code encumbrance detections effects immunities,
    item = .ofChecked id name description category weight code encumbrance detections effects
      immunities

end Item

namespace ModuleOption

/-- An option from what its fields hold once they are checked. -/
def ofChecked (name : String) (data : Option String) (selected : Bool)
    (location : Option String) : ModuleOption :=
  { name, data := .ofText? data, selected, location }

/-- All fields of the option have their declared types. -/
def Checked (o : ModuleOption) : Prop :=
  ∃ name data selected location, o = .ofChecked name data selected location

end ModuleOption

namespace Module

/-- A module from what its fields hold once they are checked. -/
def ofChecked (id name : String) (kind : ModuleKind) (options : List ModuleOption) :
    Module :=
  { id, name, kind, options := .ofOptions options }

/-- All fields of the module have their declared types. -/
def Checked (m : Module) : Prop :=
  ∃ id name kind options, (∀ o ∈ options, ModuleOption.Checked o) ∧
    m = .ofChecked id name kind options

end Module

/-- A character as it is authored: base values, and the names of the content it uses. -/
structure CharacterTemplate where
  name : String
  attributes : Table Int
  skills : Table Int
  /-- Tier fields of a skill, under `tier` or an older field name. -/
  skillTiers : Table (Table Int)
  resources : Table Int
  current : Table Int
  /-- Names of the selected options of each module. -/
  modules : Table (List String)
  trainings : List String
  /-- The item in each slot. -/
  equipment : Table String
  injuries : List String
  conditions : List String
  painModifier : Int
  stressModifier : Int
  deriving DecidableEq, Repr

end CharacterSheet
