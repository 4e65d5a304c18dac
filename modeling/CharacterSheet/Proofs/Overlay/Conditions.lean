import CharacterSheet.Proofs.Overlay.Order

/-!
# Conditions, immunities and movement

A completed pass lists the immunities of the baseline and of all sources, lets the active conditions
take effect to which the character is not immune, and adds all bonuses to the movement of the
baseline before those conditions slow it down.  Conditions reach nothing else: passes under other
conditions differ in what takes effect and in the speed of walking, and a condition to which the
character is immune makes no difference at all.
-/

namespace CharacterSheet

namespace Delta

theorem Normal.movement_of_not_mem {d : Delta} (hd : d.Normal) {mode : String}
    (hmode : mode ∉ Schema.movementModes) : d.movement.getD mode 0 = 0 := by
  have hnone : d.movement.get? mode = none := Table.get?_eq_none_iff.2 (hd.movement ▸ hmode)
  rw [Table.getD, hnone]
  rfl

end Delta

namespace Loadout

variable {l : Loadout}

/-- Some source makes immune to a condition: the code of a training or of a worn item names it, or a
worn item does beside its code.  A source that cannot be processed makes immune to nothing. -/
inductive Grants (l : Loadout) (name : String) : Prop
  | training {item : Item} {d : Delta} : item ∈ l.trainings → item.training.result = .ok d →
    name ∈ d.immunities → Grants l name
  | code {item : Item} {g : Gear} : item ∈ l.equipment.wornItems → item.gear.result = .ok g →
    name ∈ g.delta.immunities → Grants l name
  | extra {item : Item} {g : Gear} : item ∈ l.equipment.wornItems → item.gear.result = .ok g →
    .text name ∈ g.immunities → Grants l name

/-- What the sources add to a mode of movement. -/
def movementBonus (l : Loadout) (mode : String) : Int :=
  Delta.total (fun d ↦ d.movement.getD mode 0) l.deltas

theorem normal_deltas : ∀ d ∈ l.deltas, d.Normal := by
  intro d hd
  rcases List.mem_append.1 hd with hd | hd
  · obtain ⟨item, -, rfl⟩ := List.mem_map.1 hd
    exact (Overlay.produced_trainingDelta item).normal
  · obtain ⟨item, -, rfl⟩ := List.mem_map.1 hd
    exact item.delta_wornGear ▸ item.normal_wornGear

theorem movementBonus_of_not_mem {mode : String} (hmode : mode ∉ Schema.movementModes) :
    l.movementBonus mode = 0 :=
  Delta.total_eq_zero fun d hd ↦ (normal_deltas d hd).movement_of_not_mem hmode

theorem mem_trainingImmunities_iff {item : Item} {v : Value} : v ∈ item.trainingImmunities ↔
    ∃ d name, item.training.result = .ok d ∧ name ∈ d.immunities ∧ v = .text name := by
  unfold Item.trainingImmunities Item.trainingDelta
  cases h : item.training.result with
  | error e => simp [Except.toOption, Delta.empty, NameSet.empty]
  | ok d => simp [Except.toOption, NameSet.mem_names, eq_comm]

/-- The sources bring exactly the names that they make immune to. -/
theorem exists_mem_immunities_iff (hworn : ∀ item ∈ l.equipment.wornItems, item.BringsNames)
    {v : Value} : (∃ vs ∈ l.immunities, v ∈ vs) ↔ ∃ name, v = .text name ∧ l.Grants name := by
  constructor
  · rintro ⟨vs, hvs, hv⟩
    rcases List.mem_append.1 hvs with hvs | hvs
    · obtain ⟨item, hitem, rfl⟩ := List.mem_map.1 hvs
      obtain ⟨d, name, hd, hname, rfl⟩ := mem_trainingImmunities_iff.1 hv
      exact ⟨name, rfl, .training hitem hd hname⟩
    · obtain ⟨item, hitem, rfl⟩ := List.mem_map.1 hvs
      unfold Item.gearImmunities at hv
      cases hg : item.gear.result with
      | error e =>
        rw [hg] at hv
        cases hv
      | ok g =>
        rw [hg] at hv
        rcases List.mem_append.1 hv with hv | hv
        · obtain ⟨name, hname, rfl⟩ := List.mem_map.1 hv
          exact ⟨name, rfl, .code hitem hg (NameSet.mem_names.1 hname)⟩
        · obtain ⟨names, hnames⟩ := hworn item hitem g hg
          obtain ⟨name, -, rfl⟩ := List.mem_map.1 (hnames ▸ hv)
          exact ⟨name, rfl, .extra hitem hg hv⟩
  · rintro ⟨name, rfl, hgrants⟩
    cases hgrants with
    | @training item d hitem hd hname =>
      exact ⟨_, List.mem_append_left _ (List.mem_map_of_mem hitem),
        mem_trainingImmunities_iff.2 ⟨d, name, hd, hname, rfl⟩⟩
    | @code item g hitem hg hname =>
      refine ⟨_, List.mem_append_right _ (List.mem_map_of_mem hitem), ?_⟩
      rw [Item.gearImmunities, hg]
      exact List.mem_append_left _ (List.mem_map_of_mem (NameSet.mem_names.2 hname))
    | @extra item g hitem hg hname =>
      refine ⟨_, List.mem_append_right _ (List.mem_map_of_mem hitem), ?_⟩
      rw [Item.gearImmunities, hg]
      exact List.mem_append_right _ hname

end Loadout

namespace Table

variable {α : Type} {t : Table α}

/-- A default that is what an absent value counts as changes no value. -/
theorem getD_setDefault (t : Table α) (name k : String) (a : α) :
    (t.setDefault name a).getD k a = t.getD k a := by
  unfold setDefault
  split
  · rfl
  · next h =>
    rw [getD, get?_set]
    split
    · next hk =>
      have hnone : t.get? k = none := by simpa [contains, hk] using h
      rw [getD, hnone]
      rfl
    · rfl

theorem getD_foldl_setDefault (names : List String) (t : Table α) (k : String) (a : α) :
    (names.foldl (fun t name ↦ t.setDefault name a) t).getD k a = t.getD k a := by
  induction names generalizing t with
  | nil => rfl
  | cons name names ih => rw [List.foldl_cons, ih, getD_setDefault]

theorem get?_setDefault_self (t : Table α) (name : String) (a : α) :
    (t.setDefault name a).get? name = some (t.getD name a) := by
  unfold setDefault
  split
  · next h => exact get?_of_mem_keys (contains_iff.1 h) a
  · next h =>
    have hnone : t.get? name = none := by simpa [contains] using h
    rw [get?_set, if_pos rfl, getD, hnone]
    rfl

theorem set_set (t : Table α) (name : String) (a b : α) :
    (t.set name a).set name b = t.set name b := by
  refine ext_get? ?_ fun k ↦ ?_
  · rw [keys_set, if_pos (mem_keys_set.2 (.inl rfl)), keys_set, keys_set]
  · simp only [get?_set]
    split <;> rfl

end Table

namespace Overlay

open Progress State

/-! ## Movement -/

/-- The speed of walking that a pass starts with: that under the older name, if there is one. -/
def startingWalk (settings : Settings) (movement : Table Int) : Int :=
  match movement.get? "standard" with
  | some speed => speed
  | none => movement.getD "walk" settings.defaultWalk

section Movement

variable {settings : Settings} {movement : Table Int}

theorem getD_walk_baseMovement :
    (baseMovement settings movement).getD "walk" 0 = startingWalk settings movement := by
  unfold baseMovement startingWalk
  rw [Table.getD_foldl_setDefault, Table.getD, Table.get?_setDefault_self]
  cases movement.get? "standard" with
  | none => rfl
  | some speed => simp [Table.getD]

theorem getD_baseMovement {mode : String} (hwalk : mode ≠ "walk") (hstandard : mode ≠ "standard") :
    (baseMovement settings movement).getD mode 0 = movement.getD mode 0 := by
  unfold baseMovement
  rw [Table.getD_foldl_setDefault]
  unfold Table.setDefault
  cases movement.get? "standard" with
  | none =>
    dsimp only
    split
    · rfl
    · simp [Table.getD, hwalk]
  | some speed =>
    have hwalking : ((movement.erase "standard").set "walk" speed).contains "walk" = true := by
      simp [Table.contains]
    dsimp only
    rw [if_pos hwalking]
    simp [Table.getD, hwalk, hstandard]

theorem get?_limitWalk_of_ne {conditions : List String} {mode : String} (hwalk : mode ≠ "walk") :
    (limitWalk settings conditions movement).get? mode = movement.get? mode := by
  unfold limitWalk
  split
  · simp [hwalk]
  · split
    · simp [hwalk]
    · rfl

theorem get?_walk_limitWalk {conditions : List String} (h : movement.contains "walk" = true) :
    (limitWalk settings conditions movement).get? "walk" =
      some (if ∃ c ∈ conditions, c ∈ settings.immobilizing then 0
        else if "prone" ∈ conditions then settings.proneWalk
        else movement.getD "walk" 0) := by
  have himmobilizing : (conditions.any fun c ↦ c ∈ settings.immobilizing) = true ↔
      ∃ c ∈ conditions, c ∈ settings.immobilizing := by simp
  unfold limitWalk
  simp only [himmobilizing]
  split
  · simp
  · split
    · simp
    · exact Table.get?_of_mem_keys (Table.contains_iff.1 h) 0

/-- Conditions reach nothing of the movement but the speed of walking. -/
theorem exists_limitWalk (settings : Settings) (conditions : List String)
    (h : movement.contains "walk" = true) :
    ∃ speed, limitWalk settings conditions movement = movement.set "walk" speed := by
  unfold limitWalk
  split
  · exact ⟨0, rfl⟩
  · split
    · exact ⟨settings.proneWalk, rfl⟩
    · have hself := Table.get?_of_mem_keys (Table.contains_iff.1 h) 0
      exact ⟨_, (Table.set_eq_self hself).symm⟩

end Movement

/-! ## What a completed pass leaves -/

end Overlay

/-- What a pass over a baseline makes of immunities, conditions and movement. -/
structure State.Conditioned (s : State) (settings : Settings) (l : Loadout) (baseline : State) :
    Prop where
  immunities : ∀ v, v ∈ s.immunities ↔
    v ∈ baseline.immunities ∨ ∃ name, v = .text name ∧ l.Grants name
  conditions : ∀ name, name ∈ s.effectiveConditions ↔
    name ∈ l.conditions ∧ ¬ (Value.text name ∈ baseline.immunities ∨ l.Grants name)
  walk : s.movement.get? "walk" =
    some (if ∃ c ∈ s.effectiveConditions, c ∈ settings.immobilizing then 0
      else if "prone" ∈ s.effectiveConditions then settings.proneWalk
      else Overlay.startingWalk settings baseline.movement +
        (baseline.movementBonuses.getD "walk" 0 + l.movementBonus "walk"))
  modes : ∀ mode, mode ≠ "walk" → mode ≠ "standard" → s.movement.getD mode 0 =
    baseline.movement.getD mode 0 +
      (baseline.movementBonuses.getD mode 0 + l.movementBonus mode)
  present : ∀ mode ∈ Schema.movementModes, s.movement.contains mode = true

namespace Overlay

open Progress State

section Run

variable {settings : Settings} {l : Loadout} {baseline s : State}

theorem immunities_finish (settings : Settings) (conditions : NameSet) (s : State) :
    (finish settings conditions s).immunities = s.immunities := rfl

theorem mem_effectiveConditions_finish {conditions : NameSet} {name : String} :
    name ∈ (finish settings conditions s).effectiveConditions ↔
      name ∈ conditions ∧ Value.text name ∉ (finish settings conditions s).immunities :=
  mem_applyConditions (s := s)

theorem mem_immunities_run (hworn : ∀ item ∈ l.equipment.wornItems, item.BringsNames)
    (h : (run settings l baseline s).failure = none) {v : Value} :
    v ∈ (run settings l baseline s).state.immunities ↔
      v ∈ baseline.immunities ∨ ∃ name, v = .text name ∧ l.Grants name := by
  obtain ⟨hlaid, hinjuries, hstate⟩ := state_run h
  have hsame : (run settings l baseline s).state.immunities =
      (laid settings l baseline).state.immunities := by
    rw [hstate, immunities_finish, state_applyInjuries_carry hinjuries]
    rfl
  have hgathers := gathers_laid settings l baseline
  obtain ⟨vs, hvs⟩ := hgathers.failure_eq_none_iff.1 hlaid
  have hnames := fun item hitem ↦ (hworn item hitem).gearImmunities
  rw [hsame, (hgathers.of_ok vs hvs).2,
    mem_gatherAll (fun _ ↦ exists_names_of_mem_immunities hnames) hvs,
    Loadout.exists_mem_immunities_iff hworn]

/-- What takes effect is what is active among that to which the state is not immune. -/
theorem mem_effectiveConditions_run (h : (run settings l baseline s).failure = none)
    {name : String} : name ∈ (run settings l baseline s).state.effectiveConditions ↔
      name ∈ l.conditions ∧
        Value.text name ∉ (run settings l baseline s).state.immunities := by
  rw [(state_run h).2.2]
  exact mem_effectiveConditions_finish

/-- All bonuses are added to the movement of the baseline before conditions slow it down. -/
theorem movement_run (h : (run settings l baseline s).failure = none) :
    (run settings l baseline s).state.movement =
      limitWalk settings (run settings l baseline s).state.effectiveConditions
        (speeds settings baseline.movement
          (baseline.movementBonuses.mapWithKey fun mode n ↦ n + l.movementBonus mode)) := by
  obtain ⟨t, c, hall, hstate⟩ := exists_laysAll_run h
  have hbonuses := hall.numbers Lays.movementBonuses
  rw [hstate, applyGateBonuses_eq]
  show limitWalk _ _ (speeds settings t.movement t.movementBonuses) = _
  rw [hall.movement, hbonuses]
  rfl

/-- Where the baseline has a bonus for every mode, no bonus of a source is lost. -/
theorem getD_movementBonuses
    (hmodes : ∀ mode ∈ Schema.movementModes, baseline.movementBonuses.contains mode = true)
    (mode : String) :
    (baseline.movementBonuses.mapWithKey fun mode n ↦ n + l.movementBonus mode).getD mode 0 =
      baseline.movementBonuses.getD mode 0 + l.movementBonus mode := by
  rw [Table.getD, Table.getD, Table.get?_mapWithKey]
  cases hbonus : baseline.movementBonuses.get? mode with
  | some n => rfl
  | none =>
    have hother : mode ∉ Schema.movementModes := fun hmem ↦ by
      simpa [Table.contains, hbonus] using hmodes mode hmem
    rw [Loadout.movementBonus_of_not_mem hother]
    rfl

theorem conditioned_run (hworn : ∀ item ∈ l.equipment.wornItems, item.BringsNames)
    (hmodes : ∀ mode ∈ Schema.movementModes, baseline.movementBonuses.contains mode = true)
    (h : (run settings l baseline s).failure = none) :
    (run settings l baseline s).state.Conditioned settings l baseline := by
  have hspeed (mode : String) : (speeds settings baseline.movement
      (baseline.movementBonuses.mapWithKey fun mode n ↦ n + l.movementBonus mode)).getD mode 0 =
        (baseMovement settings baseline.movement).getD mode 0 +
          (baseline.movementBonuses.getD mode 0 + l.movementBonus mode) := by
    rw [← getD_movementBonuses hmodes]
    exact Table.getD_absorb_add Int.add_zero ..
  constructor
  · exact fun v ↦ mem_immunities_run hworn h
  · intro name
    rw [mem_effectiveConditions_run h, mem_immunities_run hworn h]
    simp
  · have hwalk : (speeds settings baseline.movement (baseline.movementBonuses.mapWithKey
        fun mode n ↦ n + l.movementBonus mode)).contains "walk" = true :=
      Table.contains_iff.2 (mem_keys_speeds settings _ _ (by decide))
    rw [movement_run h, get?_walk_limitWalk hwalk, hspeed, getD_walk_baseMovement]
  · intro mode hwalk hstandard
    rw [movement_run h, Table.getD, get?_limitWalk_of_ne hwalk, ← Table.getD, hspeed,
      getD_baseMovement hwalk hstandard]
  · intro mode hmode
    rw [(state_run h).2.2]
    exact contains_finalizeMovement settings _ hmode

/-! ## Other conditions -/

variable (conditions : NameSet)

theorem laid_conditions (settings : Settings) (l : Loadout) (baseline : State) :
    laid settings { l with conditions } baseline = laid settings l baseline := by
  rw [laid_eq, laid_eq]

/-- A pass completes under all conditions or under none. -/
theorem failure_run_conditions (settings : Settings) (l : Loadout) (baseline s : State) :
    (run settings { l with conditions } baseline s).failure =
      (run settings l baseline s).failure := by
  rw [run_eq_laid_andThen, run_eq_laid_andThen, laid_conditions]
  cases hlaid : ((laid settings l baseline).mapState (carry (handedOn baseline s))).failure with
  | some e => rw [andThen_of_failure hlaid, andThen_of_failure hlaid]
  | none =>
    rw [failure_andThen_of_completed hlaid, failure_andThen_of_completed hlaid, failure_settling,
      failure_settling]

theorem diagnostics_run_conditions (h : (run settings l baseline s).failure = none) :
    (run settings { l with conditions } baseline s).diagnostics =
      (run settings l baseline s).diagnostics := by
  have hcompleted := (failure_run_conditions conditions settings l baseline s).trans h
  rw [diagnostics_run hcompleted, diagnostics_run h, laid_conditions]

/-- Under other conditions the last overlays leave another list of what takes effect and another
speed of walking. -/
theorem exists_finish_conditions (settings : Settings) (conditions conditions' : NameSet)
    (s : State) : ∃ speed, finish settings conditions' s =
      { finish settings conditions s with
        effectiveConditions := (finish settings conditions' s).effectiveConditions
        movement := (finish settings conditions s).movement.set "walk" speed } := by
  have hwalk : (speeds settings s.movement s.movementBonuses).contains "walk" = true :=
    Table.contains_iff.2 (mem_keys_speeds settings _ _ (by decide))
  have hmovement (names : NameSet) : (finish settings names s).movement =
      limitWalk settings (applyConditions names s).effectiveConditions
        (speeds settings s.movement s.movementBonuses) := rfl
  obtain ⟨speed, hspeed⟩ :=
    exists_limitWalk settings (applyConditions conditions s).effectiveConditions hwalk
  obtain ⟨speed', hspeed'⟩ :=
    exists_limitWalk settings (applyConditions conditions' s).effectiveConditions hwalk
  have hset : (finish settings conditions' s).movement =
      (finish settings conditions s).movement.set "walk" speed' := by
    rw [hmovement, hmovement, hspeed, hspeed', Table.set_set]
  refine ⟨speed', ?_⟩
  rw [← hset]
  rfl

/-- A pass under other conditions leaves another list of what takes effect and another speed of
walking, and nothing else. -/
theorem exists_state_run_conditions (h : (run settings l baseline s).failure = none) :
    ∃ effective speed, (run settings { l with conditions } baseline s).state =
      { (run settings l baseline s).state with
        effectiveConditions := effective
        movement := (run settings l baseline s).state.movement.set "walk" speed } := by
  obtain ⟨-, -, hstate⟩ := state_run h
  obtain ⟨-, -, hother⟩ :=
    state_run ((failure_run_conditions conditions settings l baseline s).trans h)
  rw [laid_conditions] at hother
  obtain ⟨speed, hspeed⟩ := exists_finish_conditions settings l.conditions conditions
    (applyInjuries l.injuries
      ((laid settings l baseline).state.carry (handedOn baseline s))).state
  rw [hother, hstate]
  exact ⟨_, speed, hspeed⟩

/-- A condition to which a state is immune takes no effect. -/
theorem applyConditions_insert {condition : String} (himmune : .text condition ∈ s.immunities) :
    applyConditions (conditions.insert condition) s = applyConditions conditions s := by
  have hsorted (names : NameSet) :
      (applyConditions names s).effectiveConditions.Pairwise (· < ·) :=
    names.sorted.sublist List.filter_sublist
  have hsame : (applyConditions (conditions.insert condition) s).effectiveConditions =
      (applyConditions conditions s).effectiveConditions := by
    refine NameSet.eq_of_sorted (hsorted _) (hsorted _) fun name ↦ ?_
    rw [mem_applyConditions, mem_applyConditions, NameSet.mem_insert]
    constructor
    · rintro ⟨rfl | hname, hnot⟩
      · exact absurd himmune hnot
      · exact ⟨hname, hnot⟩
    · rintro ⟨hname, hnot⟩
      exact ⟨.inr hname, hnot⟩
  show { s with effectiveConditions := _ } = { s with effectiveConditions := _ }
  exact congrArg (fun names ↦ { s with effectiveConditions := names }) hsame

theorem finish_insert (settings : Settings) (conditions : NameSet) {condition : String}
    (himmune : .text condition ∈ s.immunities) :
    finish settings (conditions.insert condition) s = finish settings conditions s := by
  rw [finish, applyConditions_insert conditions himmune, finish]

/-- A pass does not see a condition to which it leaves the state immune. -/
theorem state_run_insert {condition : String} (h : (run settings l baseline s).failure = none)
    (himmune : .text condition ∈ (run settings l baseline s).state.immunities) :
    (run settings { l with conditions := l.conditions.insert condition } baseline s).state =
      (run settings l baseline s).state := by
  obtain ⟨-, -, hstate⟩ := state_run h
  have hcompleted := (failure_run_conditions (l.conditions.insert condition) ..).trans h
  obtain ⟨-, -, hother⟩ := state_run hcompleted
  rw [hstate, immunities_finish] at himmune
  rw [hother, laid_conditions, hstate]
  exact finish_insert settings l.conditions himmune

end Run

end Overlay

end CharacterSheet
