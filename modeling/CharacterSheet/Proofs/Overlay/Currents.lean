import CharacterSheet.Proofs.Build
import CharacterSheet.Proofs.Overlay.Settling

/-!
# Current values of pools

Maxima go up and down with what is laid over a state, but its pools keep their current values,
whether the laying completes or not.  Only clamping sets current values; restoring and building
carry them over from the working state.
-/

namespace CharacterSheet

namespace State

open Progress

/-- The current value of a pool, if there is such a pool; it may be unset. -/
def current? (s : State) (name : String) : Option (Option Int) :=
  (s.resources.get? name).map Pool.current

/-- The same pools, with the same current values. -/
def SameCurrents (s t : State) : Prop := ∀ name, t.current? name = s.current? name

variable {s t u : State}

theorem SameCurrents.refl (s : State) : s.SameCurrents s := fun _ ↦ rfl

theorem SameCurrents.trans (h : s.SameCurrents t) (h' : t.SameCurrents u) : s.SameCurrents u :=
  fun name ↦ (h' name).trans (h name)

theorem sameCurrents_of_mapWithKey {f : String → Pool → Pool}
    (ht : t.resources = s.resources.mapWithKey f)
    (hf : ∀ name p, (f name p).current = p.current) : s.SameCurrents t := by
  intro name
  rw [current?, current?, ht, Table.get?_mapWithKey, Option.map_map]
  exact congrArg (fun g ↦ (s.resources.get? name).map g) (funext (hf name))

theorem sameCurrents_addResource (source : Option String) (field : String) (n : Int) (s : State) :
    s.SameCurrents (addResource source field n s).state := by
  unfold addResource
  split
  · exact .refl s
  · split
    · exact .refl s
    · exact .refl s
    · next name part _ =>
      split
      · exact sameCurrents_of_mapWithKey (modify_addTo s.resources name part n) fun _ _ ↦ rfl
      · exact .refl s

theorem resources_addImmunities (found : List Value) (s : State) :
    (addImmunities found s).state.resources = s.resources := by
  unfold addImmunities
  split
  · rfl
  · split <;> rfl

theorem sameCurrents_applyWith (source : Option String) (d : Delta) (immunities : List Value)
    (s : State) : s.SameCurrents (applyWith source d immunities s).state := by
  have hresources (t : State) :
      t.SameCurrents (addResources source d.resources.entries t).state :=
    keeps_each (P := t.SameCurrents)
      (fun e _ u hu ↦ hu.trans (sameCurrents_addResource source e.1 e.2 u)) (.refl t)
  have himmunities (t : State) :
      t.SameCurrents (addImmunities (d.immunities.names.map .text ++ immunities) t).state := by
    intro name
    rw [current?, resources_addImmunities, current?]
  have hfile (t : State) : t.SameCurrents (file d.gated t) := by
    intro name
    unfold file
    dsimp only
    split <;> rfl
  -- One step after the other; those that are not named leave the pools alone.
  unfold applyWith
  refine keeps_andThen ?_ fun t ht ↦ ht.trans (hfile t)
  refine keeps_andThen ?_ fun t ht ↦ ht
  refine keeps_andThen ?_ fun t ht ↦ ht.trans (himmunities t)
  refine keeps_andThen ?_ fun t ht ↦ ht
  refine keeps_andThen ?_ fun t ht ↦ ht
  exact keeps_andThen (.refl s) fun t ht ↦ ht.trans (hresources t)

/-! ## Carrying over -/

/-- Restoring keeps the current values of the pools that there are in both states. -/
theorem current?_restore {baseline : State} {name : String} {current : Option Int}
    (hb : baseline.resources.contains name = true) (hs : s.current? name = some current) :
    (restore baseline s).current? name = some current := by
  obtain ⟨pool, hpool⟩ := Option.isSome_iff_exists.1 hb
  obtain ⟨previous, hprevious, rfl⟩ := Option.map_eq_some_iff.1 hs
  simp [current?, restore, Table.get?_mapWithKey, hpool, hprevious]

end State

open State Progress

namespace Build

/-- A build starts with the current values that are set, for the pools of the base. -/
theorem current?_start {base working : State} {name : String} {n : Int}
    (hb : base.resources.contains name = true) (hw : working.current? name = some (some n)) :
    (start base working).current? name = some (some n) := by
  obtain ⟨pool, hpool⟩ := Option.isSome_iff_exists.1 hb
  obtain ⟨previous, hprevious, hcurrent⟩ := Option.map_eq_some_iff.1 hw
  simp [current?, start, Table.get?_mapWithKey, hpool, hprevious, hcurrent]

theorem sameCurrents_addModule (m : Module) (s : State) :
    s.SameCurrents (addModule m s).state := by
  cases hreading : m.reading.result with
  | error e =>
    rw [addModule_of_error hreading]
    exact .refl s
  | ok d =>
    rw [addModule_of_ok hreading]
    exact keeps_andThen (.refl s) fun t ht ↦ ht.trans (sameCurrents_applyWith _ _ _ t)

theorem sameCurrents_run (base working : State) (modules : List Module) :
    (start base working).SameCurrents (run base working modules).state := by
  rw [run_eq_each]
  exact keeps_each (P := (start base working).SameCurrents)
    (fun m _ s hs ↦ hs.trans (sameCurrents_addModule m s)) (.refl _)

end Build

namespace Overlay

theorem sameCurrents_train (item : Item) (s : State) : s.SameCurrents (train item s).state :=
  keeps_andThen (.refl s) fun t ht ↦ ht.trans (sameCurrents_applyWith _ _ _ t)

theorem sameCurrents_wear (item : Item) (s : State) : s.SameCurrents (wear item s).state := by
  unfold wear
  dsimp only
  cases item.gear.result with
  | error e => exact .refl s
  | ok g =>
    refine keeps_andThen ?_ fun t ht ↦ ht
    exact keeps_andThen (.refl s) fun t ht ↦ ht.trans (sameCurrents_applyWith _ _ _ t)

theorem sameCurrents_addTotals (totals : List GateTotals) (s : State) :
    s.SameCurrents (totals.foldl addTotals s) := by
  induction totals generalizing s with
  | nil => exact .refl s
  | cons t totals ih => exact ih (addTotals s t)

/-- Every overlay but the last leaves the current values of all pools. -/
theorem sameCurrents_stage (settings : Settings) (l : Loadout) {stage : Stage}
    (hstage : stage ≠ .clampResources) (s : State) :
    s.SameCurrents (stage.run settings l s).state := by
  cases stage with
  | normalizeTiers => exact .refl s
  | deriveTalents => exact .refl s
  | applyTraining =>
    exact keeps_each (P := s.SameCurrents)
      (fun item _ t ht ↦ ht.trans (sameCurrents_train item t)) (.refl s)
  | applyEquipment =>
    refine keeps_andThen ?_ fun t ht ↦ ht
    exact keeps_each (P := s.SameCurrents)
      (fun item _ t ht ↦ ht.trans (sameCurrents_wear item t)) (.refl s)
  | applyGateBonuses => exact sameCurrents_addTotals _ s
  | applyInjuries => exact keeps_andThen (.refl s) fun t ht ↦ ht
  | applyConditions => exact .refl s
  | finalizeMovement => exact .refl s
  | clampResources => exact absurd rfl hstage

theorem sameCurrents_runStages (settings : Settings) (l : Loadout) {stages : List Stage}
    (hstages : .clampResources ∉ stages) (s : State) :
    s.SameCurrents (runStages settings l stages s).state := by
  have hstep (stage : Stage) (hmem : stage ∈ stages) (t : State) (ht : s.SameCurrents t) :
      s.SameCurrents (stage.run settings l t).state := by
    have hstage : stage ≠ .clampResources := by
      rintro rfl
      exact hstages hmem
    exact ht.trans (sameCurrents_stage settings l hstage t)
  exact keeps_each (P := s.SameCurrents) hstep (.refl s)

end Overlay

end CharacterSheet
