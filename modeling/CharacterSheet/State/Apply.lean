import CharacterSheet.Progress
import CharacterSheet.Value.Sorted

/-!
# Laying a delta over a state

Numbers are added to the entries that the state has; a number whose entry is missing is reported as
a dangling reference and added nowhere.  Contributions to resources change maxima, recovery or
spell slots, never current values.  Gated effects are filed under their gate, and the totals of all
gates are refreshed when something was filed.
-/

namespace CharacterSheet

/-- Adds values to the entries of the same names, skipping blank values. -/
def Table.overlay {α β : Type} (table : Table β) (blank : α → Bool) (change : β → α → β)
    (values : Table α) : Table β :=
  table.mapWithKey fun name b ↦ match values.get? name with
    | some a => if blank a then b else change b a
    | none => b

@[simp] theorem Table.keys_overlay {α β : Type} (table : Table β) (blank : α → Bool)
    (change : β → α → β) (values : Table α) :
    (table.overlay blank change values).keys = table.keys :=
  Table.keys_mapWithKey table _

theorem Table.get?_overlay {α β : Type} (table : Table β) (blank : α → Bool)
    (change : β → α → β) (values : Table α) (name : String) :
    (table.overlay blank change values).get? name =
      (table.get? name).map fun b ↦ match values.get? name with
        | some a => if blank a then b else change b a
        | none => b :=
  Table.get?_mapWithKey table _ name

/-- The names of the values that are not blank and have no entry in the table. -/
def Table.dangling {α β : Type} (table : Table β) (blank : α → Bool) (values : Table α) :
    List String :=
  values.entries.filterMap fun e ↦ if blank e.2 || table.contains e.1 then none else some e.1

/-- The diagnostic of a contribution to a missing entry. -/
def danglingReference (source : Option String) (category target : String) : Event :=
  .reported ⟨.danglingReference, "character has no " ++ category ++ " '" ++ target ++ "'",
    some target, source⟩ false

/-- The part of a pool that a resource field adds to. -/
inductive PoolPart where
  | max | recovery
  deriving DecidableEq, Repr

/-- What a resource field adds to. -/
inductive ResourceTarget where
  | pool (name : String) (part : PoolPart)
  | spellSlots
  deriving DecidableEq, Repr

def resourceTargets : List (String × ResourceTarget) :=
  [("health", .pool "health" .max), ("resolve", .pool "resolve" .max),
    ("energy", .pool "energy" .max), ("health_regen", .pool "health" .recovery),
    ("resolve_regen", .pool "resolve" .recovery), ("energy_regen", .pool "energy" .recovery),
    ("max_morale", .pool "morale" .max), ("spell_capacity", .spellSlots),
    ("mana_points", .pool "mana" .max)]

def Pool.addTo (p : Pool) (part : PoolPart) (n : Int) : Pool :=
  match part with
  | .max => { p with max := p.max + n }
  | .recovery => { p with recovery := p.recovery + n }

def SkillEntry.addTier (e : SkillEntry) (steps : Int) : SkillEntry :=
  { e with tier := some (e.tier.getD 0 + steps) }

def SkillEntry.addGain (e : SkillEntry) (g : SkillGain) : SkillEntry :=
  { e with value := e.value + g.skill, talent := e.talent + g.talent }.addTier g.tier

/-- Adds an effect to the totals of its gate, if the totals have an entry for it. -/
def GateTotals.add (t : GateTotals) (e : GatedEffect) : GateTotals :=
  match e.kind with
  | .mitigation => { t with mitigation := t.mitigation.modify e.subtype (· + e.value) }
  | .skill => { t with skills := t.skills.modify e.subtype (· + e.value) }

/-- The totals of some effects. -/
def GateTotals.ofEffects (es : List GatedEffect) : GateTotals := es.foldl add {}

namespace State

def isZero (n : Int) : Bool := n == 0

/-- Computes the totals of every gate from the effects filed under it. -/
def aggregate (s : State) : State :=
  { s with conditionals :=
    { s.conditionals with totals := s.conditionals.effects.map GateTotals.ofEffects } }

/-- Adds one contribution to a resource field. -/
def addResource (source : Option String) (field : String) (n : Int) (s : State) : Progress :=
  if n = 0 then .start s
  else match resourceTargets.lookup field with
    | none => { state := s, failure := some (.unknownResource field) }
    | some .spellSlots => .start { s with spellSlots := s.spellSlots + n }
    | some (.pool name part) =>
      if s.resources.contains name then
        .start { s with resources := s.resources.modify name (·.addTo part n) }
      else { state := s, events := [danglingReference source "resource" name] }

/-- Adds the contributions to resources, one field after the other. -/
def addResources (source : Option String) (values : List (String × Int)) (s : State) : Progress :=
  values.foldl (fun p e ↦ p.andThen (addResource source e.1 e.2)) (.start s)

/-- Combines features: tiers take the maximum, all else adds up. -/
def addFeatures (values : Table Int) (s : State) : State :=
  { s with features := values.entries.foldl (fun t e ↦
      if e.2 = 0 then t else t.update e.1 0 (Delta.combineFeature e.1 · e.2)) s.features }

/-- Lists the old and the new immunities in order. -/
def addImmunities (found : List Value) (s : State) : Progress :=
  if found.isEmpty then .start s
  else match Value.sorted (s.immunities ++ found) with
    | .ok vs => .start { s with immunities := vs }
    | .error (a, b) => { state := s, failure := some (.incomparable a b) }

/-- Files gated effects under their gates. -/
def file (gated : Table (List GatedEffect)) (s : State) : State :=
  let filed := gated.filter fun _ es ↦ !es.isEmpty
  if filed.entries.isEmpty then s
  else
    let effects := s.conditionals.effects.absorb [] (fun _ ↦ List.append) filed
    aggregate { s with conditionals := { s.conditionals with effects } }

/-- Adds the numbers of attributes, skills and mitigations. -/
def addNumbers (d : Delta) (s : State) : State :=
  { s with
    attributes := s.attributes.overlay isZero (· + ·) d.attributes
    basic := (s.basic.overlay isZero (fun e n ↦ { e with value := e.value + n }) d.skills).overlay
      isZero SkillEntry.addTier d.tiers
    weapon := s.weapon.overlay SkillGain.isZero SkillEntry.addGain d.weapon
    magic := s.magic.overlay SkillGain.isZero SkillEntry.addGain d.magic
    crafting := s.crafting.overlay SkillGain.isZero SkillEntry.addGain d.crafting
    mitigation := s.mitigation.overlay isZero (· + ·) d.mitigation }

/-- The contributions to attributes, skills and mitigations that the state has no entries for. -/
def danglingNumbers (source : Option String) (d : Delta) (s : State) : List Event :=
  (s.attributes.dangling isZero d.attributes).map (danglingReference source "attribute")
    ++ (s.basic.dangling isZero d.skills).map (danglingReference source "skill")
    ++ (s.basic.dangling isZero d.tiers).map (danglingReference source "skill")
    ++ (s.weapon.dangling SkillGain.isZero d.weapon).map (danglingReference source "weapon skill")
    ++ (s.magic.dangling SkillGain.isZero d.magic).map (danglingReference source "magic skill")
    ++ (s.crafting.dangling SkillGain.isZero d.crafting).map
      (danglingReference source "crafting skill")
    ++ (s.mitigation.dangling isZero d.mitigation).map (danglingReference source "mitigation")

/-- Adds movement bonuses and weapon ranges. -/
def addRanges (d : Delta) (s : State) : State :=
  { s with
    movementBonuses := s.movementBonuses.overlay isZero (· + ·) d.movement
    weaponRanges := s.weaponRanges.overlay isZero (· + ·) d.weaponRanges }

def danglingRanges (source : Option String) (d : Delta) (s : State) : List Event :=
  (s.movementBonuses.dangling isZero d.movement).map (danglingReference source "movement mode")
    ++ (s.weaponRanges.dangling isZero d.weaponRanges).map
      (danglingReference source "weapon modification")

def addLists (d : Delta) (s : State) : State :=
  { s with
    abilities := s.abilities ++ d.abilities
    traits := d.traits.foldl addTrait s.traits
    conditionals := { s.conditionals with flags := Delta.raiseFlags s.conditionals.flags d.flags } }

/-- Lays a delta and further immunities over a state, in the name of a source. -/
def applyWith (source : Option String) (d : Delta) (immunities : List Value) (s : State) :
    Progress :=
  ({ state := s.addNumbers d, events := s.danglingNumbers source d } : Progress)
    |>.andThen (addResources source d.resources.entries)
    |>.andThen (fun s ↦ { state := s.addRanges d, events := s.danglingRanges source d })
    |>.thenPure (addFeatures d.features)
    |>.andThen (addImmunities (d.immunities.names.map .text ++ immunities))
    |>.thenPure (addLists d)
    |>.thenPure (file d.gated)

/-- Lays a delta over a state, in the name of a source. -/
def apply (source : Option String) (d : Delta) (s : State) : Progress := applyWith source d [] s

end State

end CharacterSheet
