import CharacterSheet.Equipment
import CharacterSheet.Injury
import CharacterSheet.State.Apply
import CharacterSheet.Track

/-!
# Overlays

A pass restores a working state from the baseline and lays nine overlays over it, each on top of the
last.  The numbers of the baseline are never touched; current values of pools, and the modifiers of
pain and stress, outlast the pass.  A source that cannot be processed is reported and contributes
nothing.
-/

namespace CharacterSheet

/-- What a pass reads, apart from the baseline. -/
structure Loadout where
  owner : String
  trainings : List Item := []
  equipment : Equipment := .bare
  injuries : List Injury := []
  conditions : NameSet := .empty

namespace State

/-- Resets a working state to a baseline.  Pools keep their current value, even an unset one; a
pool that only the baseline has starts at the baseline's value, and one that the baseline lacks is
dropped.  Pain and stress stay. -/
def restore (baseline s : State) : State :=
  { baseline with
    resources := baseline.resources.mapWithKey fun name pool ↦
      match s.resources.get? name with
      | some previous => { pool with current := previous.current }
      | none => pool
    pain := s.pain
    stress := s.stress }

end State

/-- The overlays, in order. -/
inductive Stage where
  | normalizeTiers | deriveTalents | applyTraining | applyEquipment | applyGateBonuses
  | applyInjuries | applyConditions | finalizeMovement | clampResources
  deriving DecidableEq, Repr

namespace Stage

def all : List Stage :=
  [normalizeTiers, deriveTalents, applyTraining, applyEquipment, applyGateBonuses, applyInjuries,
    applyConditions, finalizeMovement, clampResources]

def name : Stage → String
  | normalizeTiers => "normalize_tiers"
  | deriveTalents => "derive_talents"
  | applyTraining => "apply_training"
  | applyEquipment => "apply_equipment"
  | applyGateBonuses => "apply_gate_bonuses"
  | applyInjuries => "apply_injuries"
  | applyConditions => "apply_conditions"
  | finalizeMovement => "finalize_movement"
  | clampResources => "clamp_resources"

def ofName? (s : String) : Option Stage := all.find? fun stage ↦ stage.name == s

end Stage

namespace Overlay

/-- Adds the tiers under older field names to the tier, and drops them. -/
def normalizeEntry (e : SkillEntry) : SkillEntry :=
  { e with
    tier := some (legacyTierFields.foldl (fun n field ↦ n + e.legacy.getD field 0) (e.tier.getD 0))
    legacy := .empty }

def normalizeTiers (s : State) : State :=
  { s with
    basic := s.basic.map normalizeEntry
    weapon := s.weapon.map normalizeEntry
    magic := s.magic.map normalizeEntry
    crafting := s.crafting.map normalizeEntry }

/-- The talent of a basic skill is the value of the attribute that governs it. -/
def deriveTalents (s : State) : State :=
  { s with basic := s.basic.map fun e ↦ match e.governor with
    | some name => { e with talent := s.attributes.getD name 0 }
    | none => e }

/-- Lays a training over the state; one that cannot be read contributes nothing. -/
def train (item : Item) (s : State) : Progress :=
  let r := item.training
  ({ state := s, events := r.events "source" item.id } : Progress).andThen
    (State.apply (some item.id) (r.result.toOption.getD .empty))

def applyTraining (trainings : List Item) (s : State) : Progress :=
  trainings.foldl (fun p item ↦ p.andThen (train item)) (Progress.start s)

/-- Adds the encumbrance, the detections and the effects of worn gear. -/
def addExtras (g : Gear) (s : State) : State :=
  { s with
    encumbrance := s.encumbrance + g.penalty
    detections := g.detections.foldl (fun t d ↦ t.add d.1 d.2) s.detections
    grantedEffects := s.grantedEffects ++ g.effects }

/-- Lays a worn item over the state; one that cannot be processed is skipped as a whole. -/
def wear (item : Item) (s : State) : Progress :=
  let r := item.gear
  let p : Progress := { state := s, events := r.events "source" item.id }
  match r.result with
  | .error _ => p
  | .ok g =>
    (p.andThen (State.applyWith (some item.id) g.delta g.immunities)).thenPure (addExtras g)

/-- How many items can be processed. -/
def processed (items : List Item) : Nat := items.countP fun item ↦ item.gear.result.isOk

def applyEquipment (owner : String) (items : List Item) (s : State) : Progress :=
  let worn := items.foldl (fun p item ↦ p.andThen (wear item)) (Progress.start s)
  worn.andThen fun s ↦
    { state := s, events := [.equipmentApplied owner (processed items) s.encumbrance] }

/-- Adds the totals of a gate to the entries that the state has. -/
def addTotals (s : State) (t : GateTotals) : State :=
  { s with
    mitigation := s.mitigation.overlay State.isZero (· + ·) t.mitigation
    basic := s.basic.overlay State.isZero (fun e n ↦ { e with value := e.value + n }) t.skills }

def applyGateBonuses (gates : List Gate) (s : State) : State :=
  let totals := s.conditionals.totals
  { (gates.filterMap fun g ↦ totals.get? g.name).foldl addTotals s with
    satisfiedGates := gates.map Gate.name }

def applyInjuries (injuries : List Injury) (s : State) : Progress :=
  let pain : Nat := injuries.foldl (fun n i ↦ n + i.pain) 0
  let stress : Nat := injuries.foldl (fun n i ↦ n + i.stress) 0
  let (track, failure) := s.pain.update pain (s.resources.get? "health")
  ({ state := { s with pain := track }, failure } : Progress).andThen fun s ↦
    let (track, failure) := s.stress.update stress (s.resources.get? "resolve")
    { state := { s with stress := track }, failure }

/-- A condition takes effect unless the character is immune to it. -/
def applyConditions (conditions : NameSet) (s : State) : State :=
  { s with effectiveConditions :=
    conditions.names.filter fun c ↦ !s.immunities.any (·.sameKey (.text c)) }

/-- Walking may be recorded under an older name; every mode gets a speed. -/
def baseMovement (settings : Settings) (movement : Table Int) : Table Int :=
  let movement := match movement.get? "standard" with
    | some speed => (movement.erase "standard").set "walk" speed
    | none => movement
  Schema.movementModes.foldl (fun t mode ↦ t.setDefault mode 0)
    (movement.setDefault "walk" settings.defaultWalk)

/-- Immobilizing conditions bring walking to a stop; being prone slows it down. -/
def limitWalk (settings : Settings) (conditions : List String) (movement : Table Int) :
    Table Int :=
  if conditions.any (· ∈ settings.immobilizing) then movement.set "walk" 0
  else if "prone" ∈ conditions then movement.set "walk" settings.proneWalk
  else movement

def finalizeMovement (settings : Settings) (s : State) : State :=
  let movement := (baseMovement settings s.movement).absorb 0 Delta.sum s.movementBonuses
  { s with movement := limitWalk settings s.effectiveConditions movement }

/-- An unset current value becomes the maximum, and none stays above it. -/
def clampPool (p : Pool) : Pool :=
  match p.current with
  | none => { p with current := some p.max }
  | some n => { p with current := some (min n p.max) }

theorem clampPool_clampPool (p : Pool) : clampPool (clampPool p) = clampPool p := by
  obtain ⟨m, c, r⟩ := p
  cases c with
  | none => simp [clampPool]
  | some n => simp [clampPool]

/-- Pools whose current value is above their maximum are recorded. -/
def clampEvents (owner : String) (pools : Table Pool) : List Event :=
  pools.entries.filterMap fun e ↦ match e.2.current with
    | some n => if e.2.max < n then some (.resourceClamped owner e.1 n e.2.max) else none
    | none => none

def clampResources (owner : String) (s : State) : Progress :=
  { state := { s with resources := s.resources.map clampPool }
    events := clampEvents owner s.resources }

end Overlay

/-- Runs one overlay. -/
def Stage.run (settings : Settings) (l : Loadout) : Stage → State → Progress
  | normalizeTiers, s => .start (Overlay.normalizeTiers s)
  | deriveTalents, s => .start (Overlay.deriveTalents s)
  | applyTraining, s => Overlay.applyTraining l.trainings s
  | applyEquipment, s => Overlay.applyEquipment l.owner l.equipment.wornItems s
  | applyGateBonuses, s => .start (Overlay.applyGateBonuses l.equipment.satisfiedGates s)
  | applyInjuries, s => Overlay.applyInjuries l.injuries s
  | applyConditions, s => .start (Overlay.applyConditions l.conditions s)
  | finalizeMovement, s => .start (Overlay.finalizeMovement settings s)
  | clampResources, s => Overlay.clampResources l.owner s

namespace Overlay

/-- Runs stages one after the other. -/
def runStages (settings : Settings) (l : Loadout) (stages : List Stage) (s : State) : Progress :=
  stages.foldl (fun p stage ↦ p.andThen (stage.run settings l)) (Progress.start s)

theorem runStages_append (settings : Settings) (l : Loadout) (as bs : List Stage) (s : State) :
    runStages settings l (as ++ bs) s =
      (runStages settings l as s).andThen (runStages settings l bs) := by
  have fold_andThen (ss : List Stage) (p : Progress) :
      ss.foldl (fun p stage ↦ p.andThen (stage.run settings l)) p =
        p.andThen (runStages settings l ss) := by
    induction ss generalizing p with
    | nil =>
      obtain ⟨s, es, f⟩ := p
      cases f <;> simp [runStages, Progress.andThen, Progress.start]
    | cons stage ss ih =>
      have h : runStages settings l (stage :: ss) =
          fun s ↦ (stage.run settings l s).andThen (runStages settings l ss) := by
        funext s
        simp [runStages, ← ih]
      rw [List.foldl_cons, ih, h, Progress.andThen_assoc]
  rw [runStages, List.foldl_append, fold_andThen]
  rfl

/-- A whole pass: restore, then every overlay. -/
def run (settings : Settings) (l : Loadout) (baseline s : State) : Progress :=
  runStages settings l Stage.all (State.restore baseline s)

end Overlay

end CharacterSheet
