import CharacterSheet.Content.Template
import CharacterSheet.Document.Check

/-!
# Checking authored documents

A document is checked field by field; what passes has every field, with the defaults filled in.
-/

namespace CharacterSheet

open Check

namespace Item

def fieldNames : List String :=
  ["id", "name", "description", "type", "weight_class", "data_code", "encumbrance_penalty",
    "detections", "effects", "immunities"]

/-- An item document has no fields but its own. -/
def check : Value → Check Item := closedRecord fieldNames fun fields ↦
  ofChecked <$> required fields "id" text
    <*> required fields "name" text
    <*> defaulted fields "description" "" text
    <*> defaulted fields "type" .misc (member ItemType.all ItemType.name)
    <*> defaulted fields "weight_class" none (optional (member WeightClass.all WeightClass.name))
    <*> defaulted fields "data_code" none (optional text)
    <*> defaulted fields "encumbrance_penalty" 0 integer
    <*> defaulted fields "detections" .empty (tableOf integer)
    <*> defaulted fields "effects" [] (listOf text)
    <*> defaulted fields "immunities" [] (listOf text)

end Item

def Injury.check : Value → Check Injury := record fun fields ↦
  Injury.mk <$> required fields "id" text
    <*> required fields "name" text
    <*> defaulted fields "pain" 0 natural
    <*> defaulted fields "stress" 0 natural

def ModuleOption.check : Value → Check ModuleOption := record fun fields ↦
  ModuleOption.ofChecked <$> required fields "name" text
    <*> defaulted fields "data" none (optional text)
    <*> defaulted fields "selected" false truth
    <*> defaulted fields "location" none (optional text)

def Module.check : Value → Check Module := record fun fields ↦
  Module.ofChecked <$> required fields "id" text
    <*> required fields "name" text
    <*> defaulted fields "kind" .core (member ModuleKind.all ModuleKind.name)
    <*> defaulted fields "options" [] (listOf ModuleOption.check)

def CharacterTemplate.check : Value → Check CharacterTemplate := record fun fields ↦
  CharacterTemplate.mk <$> required fields "name" text
    <*> defaulted fields "attributes" .empty (tableOf integer)
    <*> defaulted fields "skills" .empty (tableOf integer)
    <*> defaulted fields "skill_tiers" .empty (tableOf (tableOf integer))
    <*> defaulted fields "resources" .empty (tableOf integer)
    <*> defaulted fields "current" .empty (tableOf integer)
    <*> defaulted fields "modules" .empty (tableOf (listOf text))
    <*> defaulted fields "trainings" [] (listOf text)
    <*> defaulted fields "equipment" .empty (tableOf text)
    <*> defaulted fields "injuries" [] (listOf text)
    <*> defaulted fields "conditions" [] (listOf text)
    <*> defaulted fields "pain_modifier" 0 integer
    <*> defaulted fields "stress_modifier" 0 integer

end CharacterSheet
