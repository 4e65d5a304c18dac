import CharacterSheet.Content.Template

/-!
# Writing authored documents

A checked document is written with all of its fields, defaults filled in.
-/

namespace CharacterSheet

def Item.document (item : Item) : Value := .ofFields
  [("id", .text item.id), ("name", .text item.name), ("description", .text item.description),
    ("type", .ofText? (item.category.map ItemType.name)),
    ("weight_class", .ofText? (item.weight.map WeightClass.name)), ("data_code", item.code),
    ("encumbrance_penalty", item.encumbrance), ("detections", item.detections),
    ("effects", item.effects), ("immunities", item.immunities)]

def Injury.document (injury : Injury) : Value := .ofFields
  [("id", .text injury.id), ("name", .text injury.name), ("pain", .int injury.pain),
    ("stress", .int injury.stress)]

def ModuleOption.document (o : ModuleOption) : Value := .ofFields
  [("name", .text o.name), ("data", o.data), ("selected", .bool o.selected),
    ("location", .ofText? o.location)]

/-- The options that a module lists, without what is no option. -/
def OptionList.document : OptionList → Value
  | notACollection _ => .null
  | entries es => .list (es.filterMap fun
    | .option o => some o.document
    | .other _ => none)

def Module.document (m : Module) : Value := .ofFields
  [("id", .text m.id), ("name", .text m.name), ("kind", .text m.kind.name),
    ("options", m.options.document)]

def CharacterTemplate.document (t : CharacterTemplate) : Value := .ofFields
  [("name", .text t.name), ("attributes", .ofTable .int t.attributes),
    ("skills", .ofTable .int t.skills), ("skill_tiers", .ofTable (.ofTable .int) t.skillTiers),
    ("resources", .ofTable .int t.resources), ("current", .ofTable .int t.current),
    ("modules", .ofTable .ofTexts t.modules), ("trainings", .ofTexts t.trainings),
    ("equipment", .ofTable .text t.equipment), ("injuries", .ofTexts t.injuries),
    ("conditions", .ofTexts t.conditions), ("pain_modifier", .int t.painModifier),
    ("stress_modifier", .int t.stressModifier)]

end CharacterSheet
