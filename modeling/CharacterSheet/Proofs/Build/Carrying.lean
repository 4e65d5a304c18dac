import CharacterSheet.Proofs.Overlay.Consistency
import CharacterSheet.Proofs.Overlay.HandedOn

/-!
# What a build carries over

A build starts from the base with the current values and the modifiers of the working state put in,
and no module reads or writes these.  So builds over different working states report the same and
differ in nothing but what was carried over.  A pass replaces it by what the working state hands on,
so passes over such baselines come to the same, too.
-/

namespace CharacterSheet

namespace State

/-- Two states that differ in nothing but the current values of their pools and the modifiers of
their tracks. -/
def SameButCarried (s t : State) : Prop :=
  t = { s with
    resources := s.resources.mapWithKey fun name pool ↦
      pool.withCurrent ((t.resources.get? name).bind Pool.current)
    pain := { s.pain with modifier := t.pain.modifier }
    stress := { s.stress with modifier := t.stress.modifier } }

variable {s t : State} {c c' : Carried}

theorem carry_carry (c c' : Carried) (s : State) : (s.carry c).carry c' = s.carry c' := by
  simp only [carry, Table.mapWithKey_mapWithKey]
  rfl

theorem SameCurrents.contains_eq (h : s.SameCurrents t) (name : String) :
    t.resources.contains name = s.resources.contains name := by
  have hname := congrArg Option.isSome (h name)
  rwa [current?, current?, Option.isSome_map, Option.isSome_map] at hname

theorem sameButCarried_carry (s : State)
    (hpain : c'.pain = { c.pain with modifier := c'.pain.modifier })
    (hstress : c'.stress = { c.stress with modifier := c'.stress.modifier }) :
    SameButCarried (s.carry c) (s.carry c') := by
  have hpools : (s.carry c').resources = (s.carry c).resources.mapWithKey fun name pool ↦
      pool.withCurrent (((s.carry c').resources.get? name).bind Pool.current) := by
    rw [resources_carry, resources_carry, Table.mapWithKey_mapWithKey]
    refine Table.mapWithKey_congr fun name pool hname ↦ ?_
    rw [Table.get?_mapWithKey, hname]
    rfl
  unfold SameButCarried
  rw [← hpools]
  simp only [carry]
  rw [← hpain, ← hstress]

/-- What a baseline brings for pools of the working state and for the tracks is not read. -/
theorem restore_carry {baseline : State} (c : Carried)
    (h : ∀ name, baseline.resources.contains name → s.resources.contains name) :
    restore (baseline.carry c) s = restore baseline s := by
  rw [restore_eq_carry, restore_eq_carry, carry_carry]
  refine carry_congr (fun name hname ↦ ?_) rfl rfl
  obtain ⟨pool, hpool⟩ := Option.isSome_iff_exists.1 (h name hname)
  simp only [handedOn, effectiveCurrent, hpool]

end State

namespace Build

open Progress State

/-- What a build puts into the base. -/
def broughtOver (base working : State) : Carried where
  current name := ((working.resources.get? name).bind Pool.current).or
    ((base.resources.get? name).bind Pool.current)
  pain := { base.pain with modifier := working.pain.modifier }
  stress := { base.stress with modifier := working.stress.modifier }

theorem start_eq_carry (base working : State) :
    start base working = base.carry (broughtOver base working) := by
  have hpools : (start base working).resources =
      (base.carry (broughtOver base working)).resources := by
    simp only [resources_carry, start]
    refine Table.mapWithKey_congr fun name pool hname ↦ ?_
    simp only [broughtOver, hname, Option.bind_some]
    cases (working.resources.get? name).bind Pool.current <;> rfl
  simp only [start, carry] at hpools ⊢
  rw [hpools]
  rfl

theorem indifferent_addModule (c : Carried) (m : Module) : Indifferent (carry c) (addModule m) := by
  intro s
  cases hreading : m.reading.result with
  | error e =>
    rw [addModule_of_error hreading, addModule_of_error hreading]
    rfl
  | ok d =>
    have hevents : Indifferent (carry c) fun s ↦
        { state := s, events := m.reading.events "module" m.id } := fun s ↦ rfl
    rw [addModule_of_ok hreading, addModule_of_ok hreading]
    exact hevents.andThen (indifferent_applyWith c (some m.id) d []) s

def laid (base : State) (modules : List Module) : Progress :=
  each addModule (Module.inBuildOrder modules) base

/-- A build lays the same over every working state; what is carried over can be put in later. -/
theorem run_eq_laid (base working : State) (modules : List Module) :
    run base working modules =
      (laid base modules).mapState (carry (broughtOver base working)) := by
  rw [run_eq_each, start_eq_carry]
  exact Indifferent.each (indifferent_addModule _) _ base

variable (base working : State) (modules : List Module)

theorem failure_run : (run base working modules).failure = (laid base modules).failure := by
  rw [run_eq_laid, failure_mapState]

theorem diagnostics_run :
    (run base working modules).diagnostics = (laid base modules).diagnostics := by
  rw [run_eq_laid, diagnostics_mapState]

theorem state_run : (run base working modules).state =
    (laid base modules).state.carry (broughtOver base working) := by
  rw [run_eq_laid, state_mapState]

theorem sameButCarried_run (working' : State) :
    SameButCarried (run base working modules).state (run base working' modules).state := by
  rw [state_run, state_run]
  exact sameButCarried_carry _ rfl rfl

theorem contains_run (name : String) :
    (run base working modules).state.resources.contains name = base.resources.contains name := by
  rw [(sameCurrents_run base working modules).contains_eq, start_eq_carry, resources_carry,
    Table.contains_mapWithKey]

theorem restore_run {s : State}
    (h : ∀ name, base.resources.contains name → s.resources.contains name) (working' : State) :
    restore (run base working' modules).state s = restore (run base working modules).state s := by
  have hcarried : (run base working' modules).state =
      (run base working modules).state.carry (broughtOver base working') := by
    rw [state_run, state_run, carry_carry]
  rw [hcarried]
  exact restore_carry _ fun name hname ↦ h name ((contains_run ..).symm.trans hname)

end Build

namespace Overlay

open Progress State

theorem exists_current?_run {settings : Settings} {l : Loadout} {baseline s : State}
    (h : (run settings l baseline s).failure = none) {name : String}
    (hname : baseline.resources.contains name) :
    ∃ n, (run settings l baseline s).state.current? name = some (some n) := by
  obtain ⟨p, hp⟩ := Option.isSome_iff_exists.1 hname
  obtain ⟨q, hq⟩ : ∃ q, l.pool? baseline s name = some q := by
    rw [Loadout.pool?, hp]
    exact ⟨_, rfl⟩
  obtain ⟨n, hn, -⟩ := current_clampPool_le q
  refine ⟨n, ?_⟩
  rw [current?, get?_resources_run h, hq]
  exact congrArg some hn

/-- The first pass after a build comes to what another pass over the old baseline comes to, as long
as the working state has a current value for every pool. -/
theorem agree_run_rebuilt (settings : Settings) (l : Loadout) {base earlier working : State}
    {modules : List Module}
    (h : ∀ name, base.resources.contains name → ∃ n, working.current? name = some (some n)) :
    Agree
      (run settings l (Build.run base working modules).state (Build.run base working modules).state)
      (run settings l (Build.run base earlier modules).state working) := by
  let old := (Build.run base earlier modules).state
  let new := (Build.run base working modules).state
  have hrestored : restore new new = restore old new :=
    Build.restore_run base earlier modules (fun name hname ↦ (Build.contains_run ..).trans hname)
      working
  have hcurrent (name : String) (hname : old.resources.contains name) :
      effectiveCurrent old new name = effectiveCurrent old working name := by
    have hbase : base.resources.contains name := (Build.contains_run ..).symm.trans hname
    obtain ⟨n, hn⟩ := h name hbase
    have hnew : new.current? name = some (some n) :=
      (Build.sameCurrents_run base working modules name).trans (Build.current?_start hbase hn)
    rw [effectiveCurrent_eq, effectiveCurrent_eq, hn, hnew]
  have hpain : new.pain.modifier = working.pain.modifier := by
    show (Build.run base working modules).state.pain.modifier = _
    rw [Build.state_run]
    rfl
  have hstress : new.stress.modifier = working.stress.modifier := by
    show (Build.run base working modules).state.stress.modifier = _
    rw [Build.state_run]
    rfl
  have hfirst : run settings l new new = run settings l old new := by
    rw [run, run, hrestored]
  show Agree (run settings l new new) (run settings l old working)
  rw [hfirst]
  exact agree_run settings l hcurrent hpain hstress

end Overlay

end CharacterSheet
