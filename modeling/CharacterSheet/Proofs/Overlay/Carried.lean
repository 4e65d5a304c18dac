import CharacterSheet.Overlay
import CharacterSheet.Proofs.Progress

/-!
# What a pass carries over

The current values of pools and the two tracks outlast a pass; all else is taken from the baseline.
The first five overlays neither read nor write what is carried over, so they lay the same state for
every working state, and what is carried over can be put back afterwards.
-/

namespace CharacterSheet

/-- What outlasts a pass. -/
structure Carried where
  current : String → Option Int
  pain : Track
  stress : Track

namespace Pool

def withCurrent (p : Pool) (current : Option Int) : Pool := { p with current }

theorem addTo_withCurrent (p : Pool) (current : Option Int) (part : PoolPart) (n : Int) :
    (p.withCurrent current).addTo part n = (p.addTo part n).withCurrent current := by
  cases part <;> rfl

end Pool

namespace State

/-- Puts what is carried over into a state. -/
def carry (c : Carried) (s : State) : State :=
  { s with
    resources := s.resources.mapWithKey fun name pool ↦ pool.withCurrent (c.current name)
    pain := c.pain
    stress := c.stress }

@[simp] theorem resources_carry (c : Carried) (s : State) :
    (s.carry c).resources =
      s.resources.mapWithKey fun name pool ↦ pool.withCurrent (c.current name) := rfl

/-- The current value that counts for a pool of the baseline: that of the working state, even if it
is unset there, or else that of the baseline. -/
def effectiveCurrent (baseline s : State) (name : String) : Option Int :=
  match s.resources.get? name with
  | some pool => pool.current
  | none => (baseline.resources.get? name).bind Pool.current

/-- What a working state hands on to the next pass. -/
def handedOn (baseline s : State) : Carried where
  current := effectiveCurrent baseline s
  pain := s.pain
  stress := s.stress

theorem restore_eq_carry (baseline s : State) :
    restore baseline s = baseline.carry (handedOn baseline s) := by
  have h : (restore baseline s).resources = (baseline.carry (handedOn baseline s)).resources := by
    simp only [restore, resources_carry]
    refine Table.mapWithKey_congr fun name pool hb ↦ ?_
    simp only [handedOn, effectiveCurrent, Pool.withCurrent, hb]
    cases s.resources.get? name <;> rfl
  simp only [restore, carry] at h ⊢
  rw [h]
  rfl

/-- Only the current values of the pools that a state has are put into it. -/
theorem carry_congr {c c' : Carried} {s : State}
    (hc : ∀ name, s.resources.contains name → c.current name = c'.current name)
    (hp : c.pain = c'.pain) (hs : c.stress = c'.stress) : s.carry c = s.carry c' := by
  have h : (s.carry c).resources = (s.carry c').resources := by
    rw [resources_carry, resources_carry]
    refine Table.mapWithKey_congr fun name pool hname ↦ ?_
    rw [hc name (by simp [Table.contains, hname])]
  simp only [carry] at h ⊢
  rw [h, hp, hs]

/-! ## Applying a delta -/

variable (c : Carried)

open Progress

theorem indifferent_addResource (source : Option String) (field : String) (n : Int) :
    Indifferent (carry c) (addResource source field n) := by
  intro s
  unfold addResource
  split
  · rfl
  · split
    · rfl
    · rfl
    · next name part _ =>
      have hmodify : (s.carry c).resources.modify name (·.addTo part n) =
          (s.resources.modify name (·.addTo part n)).mapWithKey
            fun name pool ↦ pool.withCurrent (c.current name) := by
        rw [resources_carry]
        exact Table.modify_mapWithKey _ _ _ _ fun pool ↦ Pool.addTo_withCurrent pool _ part n
      have hcontains : (s.carry c).resources.contains name = s.resources.contains name := by
        rw [resources_carry, Table.contains_mapWithKey]
      rw [hcontains, hmodify]
      split <;> rfl

theorem indifferent_addImmunities (found : List Value) :
    Indifferent (carry c) (addImmunities found) := by
  intro s
  have h : (s.carry c).immunities = s.immunities := rfl
  unfold addImmunities
  rw [h]
  split
  · rfl
  · split <;> rfl

theorem file_carry (gated : Table (List GatedEffect)) (s : State) :
    file gated (s.carry c) = (file gated s).carry c := by
  unfold file
  dsimp only
  split <;> rfl

theorem indifferent_applyWith (source : Option String) (d : Delta) (immunities : List Value) :
    Indifferent (carry c) (applyWith source d immunities) := by
  have hresources : Indifferent (carry c) (addResources source d.resources.entries) :=
    Indifferent.each (f := fun e ↦ addResource source e.1 e.2)
      (fun e ↦ indifferent_addResource c source e.1 e.2) d.resources.entries
  have hranges : Indifferent (carry c) fun s ↦
      { state := s.addRanges d, events := s.danglingRanges source d } := fun s ↦ rfl
  have hfeatures : Indifferent (carry c) fun s ↦ start (addFeatures d.features s) :=
    .of_pure fun s ↦ rfl
  have hlists : Indifferent (carry c) fun s ↦ start (addLists d s) := .of_pure fun s ↦ rfl
  have hfile : Indifferent (carry c) fun s ↦ start (file d.gated s) :=
    .of_pure (file_carry c d.gated)
  have hnumbers : Indifferent (carry c) fun s ↦
      { state := s.addNumbers d, events := s.danglingNumbers source d } := fun s ↦ rfl
  exact (((((hnumbers.andThen hresources).andThen hranges).andThen hfeatures).andThen
    (indifferent_addImmunities c _)).andThen hlists).andThen hfile

end State

/-! ## The overlays that carry nothing -/

namespace Stage

/-- The overlays up to the gate bonuses. -/
def laying : List Stage :=
  [normalizeTiers, deriveTalents, applyTraining, applyEquipment, applyGateBonuses]

/-- The overlays that read or write what is carried over, and those between them. -/
def settling : List Stage := [applyInjuries, applyConditions, finalizeMovement, clampResources]

theorem all_eq_append : all = laying ++ settling := rfl

end Stage

namespace Overlay

open Progress State

variable (c : Carried)

theorem indifferent_train (item : Item) : Indifferent (carry c) (train item) := by
  have hevents : Indifferent (carry c) fun s ↦
      { state := s, events := item.training.events "source" item.id } := fun s ↦ rfl
  exact hevents.andThen (indifferent_applyWith c _ _ _)

theorem indifferent_wear (item : Item) : Indifferent (carry c) (wear item) := by
  have hevents : Indifferent (carry c) fun s ↦
      { state := s, events := item.gear.events "source" item.id } := fun s ↦ rfl
  intro s
  unfold wear
  dsimp only
  cases item.gear.result with
  | error e => rfl
  | ok g =>
    have hextras : Indifferent (carry c) fun s ↦ start (addExtras g s) := .of_pure fun s ↦ rfl
    exact (hevents.andThen (indifferent_applyWith c _ _ _)).andThen hextras s

theorem addTotals_carry (totals : List GateTotals) (s : State) :
    totals.foldl addTotals (s.carry c) = (totals.foldl addTotals s).carry c := by
  induction totals generalizing s with
  | nil => rfl
  | cons t totals ih =>
    have h : addTotals (s.carry c) t = (addTotals s t).carry c := rfl
    rw [List.foldl_cons, h, ih, List.foldl_cons]

theorem applyGateBonuses_carry (gates : List Gate) (s : State) :
    applyGateBonuses gates (s.carry c) = (applyGateBonuses gates s).carry c := by
  have h := addTotals_carry c (gates.filterMap fun g ↦ s.conditionals.totals.get? g.name) s
  have h' : (s.carry c).conditionals = s.conditionals := rfl
  simp only [applyGateBonuses, h', h]
  rfl

theorem indifferent_stage (settings : Settings) (l : Loadout) {stage : Stage}
    (h : stage ∈ Stage.laying) : Indifferent (carry c) (stage.run settings l) := by
  simp only [Stage.laying, List.mem_cons, List.not_mem_nil, or_false] at h
  rcases h with rfl | rfl | rfl | rfl | rfl
  · exact .of_pure fun s ↦ rfl
  · exact .of_pure fun s ↦ rfl
  · exact .each (indifferent_train c) l.trainings
  · have hdone : Indifferent (carry c) fun s ↦
        { state := s
          events := [.equipmentApplied l.owner (processed l.equipment.wornItems) s.encumbrance] } :=
      fun s ↦ rfl
    exact (Indifferent.each (indifferent_wear c) l.equipment.wornItems).andThen hdone
  · exact .of_pure (applyGateBonuses_carry c _)

theorem indifferent_runStages (settings : Settings) (l : Loadout) {stages : List Stage}
    (h : ∀ stage ∈ stages, stage ∈ Stage.laying) :
    Indifferent (carry c) (runStages settings l stages) := by
  induction stages with
  | nil => exact fun s ↦ rfl
  | cons stage stages ih =>
    intro s
    have hcons : runStages settings l (stage :: stages) =
        fun s ↦ (stage.run settings l s).andThen (runStages settings l stages) :=
      funext (each_cons (Stage.run settings l) stage stages)
    rw [hcons]
    exact (indifferent_stage c settings l (h stage List.mem_cons_self)).andThen
      (ih fun stage' h' ↦ h stage' (List.mem_cons_of_mem stage h')) s

/-- What the overlays up to the gate bonuses make of the baseline. -/
def laid (settings : Settings) (l : Loadout) (baseline : State) : Progress :=
  runStages settings l Stage.laying baseline

end Overlay

end CharacterSheet
