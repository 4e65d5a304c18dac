import CharacterSheet.State

/-!
# States as documents

A state is written as a map of all its fields, in a fixed order.  Names of fields in documents are
those that authors use.
-/

namespace CharacterSheet

namespace Value

def ofFields (fields : List (String × Value)) : Value := map (fields.map fun e ↦ (text e.1, e.2))

def ofTexts (xs : List String) : Value := list (xs.map text)

def ofTable {α : Type} (f : α → Value) (t : Table α) : Value :=
  ofFields (t.entries.map fun e ↦ (e.1, f e.2))

def ofTally (t : Tally) : Value := map (t.entries.map fun e ↦ (e.1, int e.2))

def ofText? : Option String → Value
  | none => null
  | some s => text s

def ofInt? : Option Int → Value
  | none => null
  | some n => int n

end Value

open Value

def SkillEntry.document (e : SkillEntry) : Value := .ofFields
  [("value", .int e.value), ("talent", .int e.talent), ("tier", .ofInt? e.tier),
    ("attribute", .ofText? e.governor), ("legacy", .ofTable .int e.legacy)]

def Pool.document (p : Pool) : Value := .ofFields
  [("max", .int p.max), ("current", .ofInt? p.current), ("recovery", .int p.recovery)]

def Ability.document (a : Ability) : Value := .ofFields
  [("type", .text a.kind.name), ("daily", .bool a.daily), ("magical", .bool a.magical),
    ("energy", .int a.energy), ("name", .ofText? a.name)]

def Trait.document (t : Trait) : Value := .ofFields
  [("type", .text t.kind.name), ("code", .text t.code), ("payload", .ofText? t.payload)]

def GatedEffect.document (e : GatedEffect) : Value := .ofFields
  [("type", .text e.kind.name), ("subtype", .text e.subtype), ("value", .int e.value)]

def GateTotals.document (t : GateTotals) : Value := .ofFields
  [("mitigation", .ofTable .int t.mitigation), ("skills", .ofTable .int t.skills)]

def Conditionals.document (c : Conditionals) : Value := .ofFields
  [("effects", .ofTable (fun es ↦ .list (es.map GatedEffect.document)) c.effects),
    ("when", .ofTable GateTotals.document c.totals), ("flags", .ofTable .bool c.flags)]

def Track.document (t : Track) : Value := .ofFields
  [("source_total", .int t.sourceTotal), ("threshold_bonus", .int t.thresholdBonus),
    ("modifier", .int t.modifier), ("calculated", .int t.calculated),
    ("penalty_dice", .int t.penaltyDice)]

namespace State

/-- The fields of a state that each pass derives from the baseline. -/
def derivedFields (s : State) : List (String × Value) :=
  [("attributes", .ofTable .int s.attributes),
    ("basic", .ofTable SkillEntry.document s.basic),
    ("weapon", .ofTable SkillEntry.document s.weapon),
    ("magic", .ofTable SkillEntry.document s.magic),
    ("crafting", .ofTable SkillEntry.document s.crafting),
    ("mitigation", .ofTable .int s.mitigation),
    ("resources", .ofTable Pool.document s.resources),
    ("spell_slots", .int s.spellSlots),
    ("movement", .ofTable .int s.movement),
    ("movement_bonuses", .ofTable .int s.movementBonuses),
    ("weapon_modifications", .ofTable .int s.weaponRanges),
    ("combat_features", .ofTable .int s.features),
    ("immunities", .list s.immunities),
    ("detections", .ofTally s.detections),
    ("granted_effects", .list s.grantedEffects),
    ("abilities", .list (s.abilities.map Ability.document)),
    ("traits", .list (s.traits.map Trait.document)),
    ("conditionals", s.conditionals.document),
    ("encumbrance_penalty", .int s.encumbrance),
    ("satisfied_gates", .ofTexts s.satisfiedGates),
    ("effective_conditions", .ofTexts s.effectiveConditions)]

def fields (s : State) : List (String × Value) :=
  s.derivedFields ++ [("pain", s.pain.document), ("stress", s.stress.document)]

def document (s : State) : Value := .ofFields s.fields

end State

end CharacterSheet
