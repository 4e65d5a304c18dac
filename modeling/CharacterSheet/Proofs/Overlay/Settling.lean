import CharacterSheet.Proofs.Overlay.Carried
import CharacterSheet.Proofs.Track

/-!
# How a pass settles

After the gate bonuses a pass derives the two tracks, filters the conditions, finishes the movement
and clamps the pools.  Two statements follow.  Working states that hand on the same current values
and the same modifiers make a pass end in the same way, whatever else is in them.  And the state
that a completed pass leaves is settled: another pass completes and leaves it as it is.
-/

namespace CharacterSheet

namespace Progress

theorem andThen_start (p : Progress) : p.andThen start = p := by
  cases h : p.failure with
  | some e => exact andThen_of_failure h start
  | none =>
    rw [andThen_of_completed h]
    obtain ⟨s, es, e⟩ := p
    cases h
    simp [start]

/-- Two runs report the same problems, and both fail in the same way or both complete and reach the
same state. -/
structure Agree (p q : Progress) : Prop where
  failure : p.failure = q.failure
  diagnostics : p.diagnostics = q.diagnostics
  state : p.failure = none → p.state = q.state

namespace Agree

theorem refl (p : Progress) : Agree p p := ⟨rfl, rfl, fun _ ↦ rfl⟩

theorem andThen {p q : Progress} (h : Agree p q) (f : State → Progress) :
    Agree (p.andThen f) (q.andThen f) := by
  cases hp : p.failure with
  | some e =>
    have hq : q.failure = some e := h.failure ▸ hp
    rw [andThen_of_failure hp, andThen_of_failure hq]
    exact h
  | none =>
    have hq : q.failure = none := h.failure ▸ hp
    have hs : p.state = q.state := h.state hp
    refine ⟨?_, ?_, fun _ ↦ ?_⟩
    · rw [andThen_of_completed hp, andThen_of_completed hq, hs]
    · rw [diagnostics_andThen hp, diagnostics_andThen hq, hs, h.diagnostics]
    · rw [state_andThen hp, state_andThen hq, hs]

end Agree

end Progress

/-- What gates see of an item. -/
def Item.bearing (item : Item) : Option ItemType × Option WeightClass :=
  (item.category, item.weight)

namespace Equipment

variable {e e' : Equipment}

theorem wornItems_congr (h : ∀ slot, e.worn? slot = e'.worn? slot) :
    e.wornItems = e'.wornItems := by
  rw [wornItems, wornItems, funext h]

theorem map_bearing_armor? (e : Equipment) : e.armor?.map Item.bearing =
    ((e.worn? "body").map Item.bearing).filter fun b ↦ b.1 == some .armor := by
  rw [armor?, Option.filter_map]
  rfl

theorem map_bearing_shields (e : Equipment) : e.shields.map Item.bearing =
    (["mainhand", "offhand"].filterMap fun slot ↦ (e.worn? slot).map Item.bearing).filter
      fun b ↦ b.1 == some .shield := by
  rw [shields, ← List.map_filterMap, List.filter_map]
  rfl

/-- Gates by the category and the weight of what is worn. -/
theorem holds_eq (e : Equipment) (gate : Gate) : gate.holds e = match gate with
    | .noArmor => (e.armor?.map Item.bearing).isNone
    | .lightArmor => (e.armor?.map Item.bearing).any fun b ↦ b.2 == some .light
    | .heavyArmor => (e.armor?.map Item.bearing).any fun b ↦ b.2 == some .heavy
    | .anyArmor => (e.armor?.map Item.bearing).isSome
    | .anyShield => !(e.shields.map Item.bearing).isEmpty
    | .lightShield => (e.shields.map Item.bearing).any fun b ↦ b.2 == some .light
    | .heavyShield => (e.shields.map Item.bearing).any fun b ↦ b.2 == some .heavy := by
  have hany (p : Option ItemType × Option WeightClass → Bool) :
      (e.armor?.map Item.bearing).any p = e.armor?.any fun item ↦ p item.bearing := by
    cases e.armor? <;> rfl
  cases gate <;> simp [Gate.holds, Item.bearing, hany, Function.comp_def]

/-- Gates look at nothing but the category and the weight of the items in the slots. -/
theorem satisfiedGates_congr
    (h : ∀ slot, (e.worn? slot).map Item.bearing = (e'.worn? slot).map Item.bearing) :
    e.satisfiedGates = e'.satisfiedGates := by
  have harmor : e.armor?.map Item.bearing = e'.armor?.map Item.bearing := by
    rw [map_bearing_armor?, map_bearing_armor?, h]
  have hshields : e.shields.map Item.bearing = e'.shields.map Item.bearing := by
    rw [map_bearing_shields, map_bearing_shields, funext h]
  have hsame : (fun gate : Gate ↦ gate.holds e) = fun gate ↦ gate.holds e' := by
    funext gate
    rw [holds_eq, holds_eq, harmor, hshields]
  rw [satisfiedGates, satisfiedGates, hsame]

end Equipment

/-- Two loadouts with the same members and the same items in all slots. -/
structure Loadout.Alike (l l' : Loadout) : Prop where
  owner : l.owner = l'.owner
  trainings : l.trainings = l'.trainings
  worn : ∀ slot, l.equipment.worn? slot = l'.equipment.worn? slot
  injuries : l.injuries = l'.injuries
  conditions : l.conditions = l'.conditions

namespace Overlay

open Progress State

/-- Clamps all pools of a state. -/
def clamp (s : State) : State := { s with resources := s.resources.map clampPool }

/-- What the overlays after the injuries make of a state. -/
def finish (settings : Settings) (conditions : NameSet) (s : State) : State :=
  clamp (finalizeMovement settings (applyConditions conditions s))

theorem runStages_settling (settings : Settings) (l : Loadout) (s : State) :
    runStages settings l Stage.settling s = (applyInjuries l.injuries s).andThen fun s ↦
      { state := finish settings l.conditions s, events := clampEvents l.owner s.resources } := by
  have hlast : (fun s ↦ (clampResources l.owner s).andThen start) = clampResources l.owner :=
    funext fun s ↦ andThen_start _
  show each (Stage.run settings l) Stage.settling s = _
  rw [Stage.settling, each_cons]
  refine congrArg _ (funext fun s ↦ ?_)
  rw [each_cons, Stage.run, start_andThen, each_cons, Stage.run, start_andThen, each_cons]
  exact congrFun hlast _

/-- The overlays after the injuries neither fail nor report a problem. -/
theorem diagnostics_clampEvents (owner : String) (pools : Table Pool) :
    Event.diagnostics (clampEvents owner pools) = [] := by
  refine List.filterMap_eq_nil_iff.2 fun event h ↦ ?_
  obtain ⟨entry, -, hentry⟩ := List.mem_filterMap.1 h
  split at hentry
  · split at hentry
    · cases hentry
      rfl
    · cases hentry
  · cases hentry

/-! ## Injuries -/

def painOf (injuries : List Injury) : Nat := injuries.foldl (fun n i ↦ n + i.pain) 0

def stressOf (injuries : List Injury) : Nat := injuries.foldl (fun n i ↦ n + i.stress) 0

/-- The pain track that a state derives, or what stands in the way. -/
def painTrack (injuries : List Injury) (s : State) : Track × Option Failure :=
  s.pain.update (painOf injuries) (s.resources.get? "health")

def stressTrack (injuries : List Injury) (s : State) : Track × Option Failure :=
  s.stress.update (stressOf injuries) (s.resources.get? "resolve")

theorem applyInjuries_eq (injuries : List Injury) (s : State) :
    applyInjuries injuries s =
      ({ state := { s with pain := (painTrack injuries s).1 }
         failure := (painTrack injuries s).2 } : Progress).andThen fun s ↦
        { state := { s with stress := (stressTrack injuries s).1 }
          failure := (stressTrack injuries s).2 } := rfl

theorem failure_applyInjuries (injuries : List Injury) (s : State) :
    (applyInjuries injuries s).failure =
      (painTrack injuries s).2.or (stressTrack injuries s).2 := by
  rw [applyInjuries_eq]
  cases h : (painTrack injuries s).2 with
  | some e => simp [andThen_of_failure]
  | none =>
    rw [andThen_of_completed rfl, Option.none_or]
    rfl

@[simp] theorem diagnostics_applyInjuries (injuries : List Injury) (s : State) :
    (applyInjuries injuries s).diagnostics = [] := by
  rw [applyInjuries_eq]
  cases h : (painTrack injuries s).2 with
  | some e =>
    rw [andThen_of_failure rfl]
    rfl
  | none =>
    rw [andThen_of_completed rfl]
    rfl

/-- Injuries change the two tracks and nothing else. -/
theorem state_applyInjuries {injuries : List Injury} {s : State}
    (h : (applyInjuries injuries s).failure = none) :
    (applyInjuries injuries s).state =
      { s with
        pain := (painTrack injuries s).1
        stress := (stressTrack injuries s).1 } := by
  rw [failure_applyInjuries, Option.or_eq_none_iff] at h
  rw [applyInjuries_eq, state_andThen h.1]
  rfl

/-- The derived tracks are carried over in place of the old ones. -/
theorem state_applyInjuries_carry {injuries : List Injury} {s : State} {c : Carried}
    (h : (applyInjuries injuries (s.carry c)).failure = none) :
    (applyInjuries injuries (s.carry c)).state = s.carry { c with
      pain := (applyInjuries injuries (s.carry c)).state.pain
      stress := (applyInjuries injuries (s.carry c)).state.stress } := by
  rw [state_applyInjuries h]
  rfl

/-- Of the remaining overlays only the injuries can fail. -/
theorem failure_settling (settings : Settings) (l : Loadout) (s : State) :
    (runStages settings l Stage.settling s).failure = (applyInjuries l.injuries s).failure := by
  rw [runStages_settling]
  cases h : (applyInjuries l.injuries s).failure with
  | some e => rw [andThen_of_failure h, h]
  | none => rw [andThen_of_completed h]

@[simp] theorem diagnostics_settling (settings : Settings) (l : Loadout) (s : State) :
    (runStages settings l Stage.settling s).diagnostics = [] := by
  rw [runStages_settling]
  cases h : (applyInjuries l.injuries s).failure with
  | some e => rw [andThen_of_failure h, diagnostics_applyInjuries]
  | none =>
    rw [diagnostics_andThen h, diagnostics_applyInjuries, List.nil_append]
    exact diagnostics_clampEvents ..

theorem state_settling {settings : Settings} {l : Loadout} {s : State}
    (h : (applyInjuries l.injuries s).failure = none) :
    (runStages settings l Stage.settling s).state =
      finish settings l.conditions (applyInjuries l.injuries s).state := by
  rw [runStages_settling, state_andThen h]

/-- Of the old tracks only the modifiers matter. -/
theorem agree_applyInjuries (injuries : List Injury) {c c' : Carried} (s : State)
    (hcurrent : c.current = c'.current) (hpain : c.pain.modifier = c'.pain.modifier)
    (hstress : c.stress.modifier = c'.stress.modifier) :
    Agree (applyInjuries injuries (s.carry c)) (applyInjuries injuries (s.carry c')) := by
  have hr : (s.carry c).resources = (s.carry c').resources := by
    rw [resources_carry, resources_carry, hcurrent]
  have hp : (painTrack injuries (s.carry c)).2 = (painTrack injuries (s.carry c')).2 ∧
      ((painTrack injuries (s.carry c)).2 = none →
        (painTrack injuries (s.carry c)).1 = (painTrack injuries (s.carry c')).1) :=
    Track.update_congr _ hpain (congrArg (fun t : Table Pool ↦ lowPoolBonus (t.get? "health")) hr)
  have hs : (stressTrack injuries (s.carry c)).2 = (stressTrack injuries (s.carry c')).2 ∧
      ((stressTrack injuries (s.carry c)).2 = none →
        (stressTrack injuries (s.carry c)).1 = (stressTrack injuries (s.carry c')).1) :=
    Track.update_congr _ hstress
      (congrArg (fun t : Table Pool ↦ lowPoolBonus (t.get? "resolve")) hr)
  have hfailure : (applyInjuries injuries (s.carry c)).failure =
      (applyInjuries injuries (s.carry c')).failure := by
    rw [failure_applyInjuries, failure_applyInjuries, hp.1, hs.1]
  refine ⟨hfailure, by simp, fun h ↦ ?_⟩
  rw [state_applyInjuries h, state_applyInjuries (hfailure ▸ h)]
  rw [failure_applyInjuries, Option.or_eq_none_iff] at h
  rw [hp.2 h.1, hs.2 h.2]
  simp only [carry] at hr ⊢
  rw [hr]

/-! ## Clamping -/

/-- Clamping pools, or putting their clamped current values into them, is the same. -/
theorem clampPool_eq_withCurrent (p : Pool) :
    clampPool p = p.withCurrent (clampPool p).current := by
  obtain ⟨max, current, recovery⟩ := p
  cases current <;> rfl

theorem map_clampPool_map (pools : Table Pool) :
    (pools.map clampPool).map clampPool = pools.map clampPool := by
  refine Table.ext_get? (by simp [Table.map]) fun k ↦ ?_
  simp only [Table.map, Table.get?_mapWithKey, Option.map_map]
  exact congrArg (fun f ↦ (pools.get? k).map f) (funext clampPool_clampPool)

theorem clamp_clamp (s : State) : clamp (clamp s) = clamp s := by
  simp only [clamp, map_clampPool_map]

theorem finish_clamp (settings : Settings) (conditions : NameSet) (s : State) :
    finish settings conditions (clamp s) = finish settings conditions s := by
  have h : finish settings conditions (clamp s) = clamp (finish settings conditions s) := rfl
  rw [h, finish, clamp_clamp]

theorem lowPoolBonus_clamp (s : State) (name : String) :
    lowPoolBonus ((clamp s).resources.get? name) = lowPoolBonus (s.resources.get? name) := by
  simp only [clamp, Table.map, Table.get?_mapWithKey]
  cases s.resources.get? name with
  | none => rfl
  | some pool => exact lowPoolBonus_clampPool pool

/-- Injuries derive the same tracks again from the tracks that they derived, also once the pools are
clamped. -/
theorem applyInjuries_clamp {injuries : List Injury} {s u : State}
    (h : (applyInjuries injuries s).failure = none) (hu : (applyInjuries injuries s).state = u) :
    (applyInjuries injuries (clamp u)).failure = none ∧
      (applyInjuries injuries (clamp u)).state = clamp u := by
  rw [state_applyInjuries h] at hu
  rw [failure_applyInjuries, Option.or_eq_none_iff] at h
  have hpools : u.resources = s.resources := by rw [← hu]
  have hpain : u.pain = (painTrack injuries s).1 := by rw [← hu]
  have hstress : u.stress = (stressTrack injuries s).1 := by rw [← hu]
  have hp := Track.update_congr (t := u.pain) (u := s.pain) (painOf injuries)
    (p := (clamp u).resources.get? "health") (q := s.resources.get? "health")
    (by rw [hpain]; exact Track.modifier_update ..) (by rw [lowPoolBonus_clamp, hpools])
  have hs := Track.update_congr (t := u.stress) (u := s.stress) (stressOf injuries)
    (p := (clamp u).resources.get? "resolve") (q := s.resources.get? "resolve")
    (by rw [hstress]; exact Track.modifier_update ..) (by rw [lowPoolBonus_clamp, hpools])
  have hp₂ : (painTrack injuries (clamp u)).2 = none := hp.1.trans h.1
  have hs₂ : (stressTrack injuries (clamp u)).2 = none := hs.1.trans h.2
  have hp₁ : (painTrack injuries (clamp u)).1 = u.pain := (hp.2 hp₂).trans hpain.symm
  have hs₁ : (stressTrack injuries (clamp u)).1 = u.stress := (hs.2 hs₂).trans hstress.symm
  have hcompleted : (applyInjuries injuries (clamp u)).failure = none := by
    rw [failure_applyInjuries, hp₂, hs₂]
    rfl
  refine ⟨hcompleted, ?_⟩
  rw [state_applyInjuries hcompleted, hp₁, hs₁]
  rfl

/-! ## Whole passes -/

theorem runStages_all_carry (settings : Settings) (l : Loadout) (baseline : State) (c : Carried) :
    runStages settings l Stage.all (baseline.carry c) =
      ((laid settings l baseline).mapState (carry c)).andThen
        (runStages settings l Stage.settling) := by
  rw [Stage.all_eq_append, runStages_append, indifferent_runStages c settings l fun stage h ↦ h]
  rfl

/-- Two working states that hand on the same current values for the pools of the baseline and the
same modifiers make a pass end in the same way. -/
theorem agree_run (settings : Settings) (l : Loadout) {baseline s t : State}
    (hcurrent : ∀ name, baseline.resources.contains name →
      effectiveCurrent baseline s name = effectiveCurrent baseline t name)
    (hpain : s.pain.modifier = t.pain.modifier) (hstress : s.stress.modifier = t.stress.modifier) :
    Agree (run settings l baseline s) (run settings l baseline t) := by
  let c : Carried := handedOn baseline s
  let c' : Carried := { handedOn baseline t with current := c.current }
  have hs : restore baseline s = baseline.carry c := restore_eq_carry baseline s
  have ht : restore baseline t = baseline.carry c' := by
    rw [restore_eq_carry]
    exact carry_congr (fun name h ↦ (hcurrent name h).symm) rfl rfl
  rw [run, run, hs, ht, runStages_all_carry, runStages_all_carry]
  cases hlaid : (laid settings l baseline).failure with
  | some e =>
    rw [andThen_of_failure (by simpa using hlaid), andThen_of_failure (by simpa using hlaid)]
    exact ⟨rfl, rfl, fun h ↦ by simp [hlaid] at h⟩
  | none =>
    have hagree := (agree_applyInjuries l.injuries (laid settings l baseline).state
      (show c.current = c'.current from rfl) hpain hstress).andThen fun s ↦
        { state := finish settings l.conditions s, events := clampEvents l.owner s.resources }
    rw [← runStages_settling, ← runStages_settling] at hagree
    refine ⟨?_, ?_, ?_⟩
    · rw [andThen_of_completed (by simpa using hlaid), andThen_of_completed (by simpa using hlaid)]
      exact hagree.failure
    · rw [diagnostics_andThen (by simpa using hlaid), diagnostics_andThen (by simpa using hlaid)]
      exact congrArg _ hagree.diagnostics
    · rw [failure_andThen_eq_none_iff, state_andThen (by simpa using hlaid),
        state_andThen (by simpa using hlaid)]
      exact fun h ↦ hagree.state h.2

/-- A pass sees of a loadout only its members and what is worn in each slot. -/
theorem run_congr {l l' : Loadout} (h : l.Alike l') (settings : Settings) (baseline s : State) :
    run settings l baseline s = run settings l' baseline s := by
  have hstage : Stage.run settings l = Stage.run settings l' := by
    funext stage s
    cases stage with
    | applyTraining => exact congrArg (applyTraining · s) h.trainings
    | applyEquipment =>
      simp only [Stage.run, h.owner, Equipment.wornItems_congr h.worn]
    | applyGateBonuses =>
      have hgates := Equipment.satisfiedGates_congr fun slot ↦
        congrArg (Option.map Item.bearing) (h.worn slot)
      simp only [Stage.run, hgates]
    | applyInjuries => exact congrArg (applyInjuries · s) h.injuries
    | applyConditions => simp only [Stage.run, h.conditions]
    | clampResources => simp only [Stage.run, h.owner]
    | _ => rfl
  rw [run, run, runStages, runStages, hstage]

/-- What a settled state hands on, put into the state it was made from, clamps that state. -/
theorem carry_handedOn_finish (settings : Settings) (conditions : NameSet) (baseline s : State)
    (c : Carried) :
    s.carry (handedOn baseline (finish settings conditions (s.carry c))) = clamp (s.carry c) := by
  have hpools : (finish settings conditions (s.carry c)).resources =
      s.resources.mapWithKey fun name pool ↦ clampPool (pool.withCurrent (c.current name)) := by
    show ((s.carry c).resources.map clampPool) = _
    refine Table.ext_get? (by simp [Table.map]) fun k ↦ ?_
    simp [Table.map, Function.comp_def]
  have h : (s.carry (handedOn baseline (finish settings conditions (s.carry c)))).resources =
      (finish settings conditions (s.carry c)).resources := by
    rw [hpools, resources_carry]
    refine Table.mapWithKey_congr fun name pool hname ↦ ?_
    simp only [handedOn, effectiveCurrent, hpools, Table.get?_mapWithKey, hname, Option.map_some]
    rw [clampPool_eq_withCurrent]
    rfl
  have hclamp : (clamp (s.carry c)).resources =
      (finish settings conditions (s.carry c)).resources := rfl
  rw [← hclamp] at h
  simp only [carry, clamp, handedOn] at h ⊢
  rw [h]
  rfl

/-- A pass lays the same state over every working state; what the working state hands on is put
into it before the remaining overlays. -/
theorem run_eq_laid_andThen (settings : Settings) (l : Loadout) (baseline s : State) :
    run settings l baseline s =
      ((laid settings l baseline).mapState (carry (handedOn baseline s))).andThen
        (runStages settings l Stage.settling) := by
  rw [run, restore_eq_carry, runStages_all_carry]

/-- A completed pass lays its sources and derives the tracks, and then finishes the state. -/
theorem state_run {settings : Settings} {l : Loadout} {baseline s : State}
    (h : (run settings l baseline s).failure = none) :
    (laid settings l baseline).failure = none ∧
      (applyInjuries l.injuries
        ((laid settings l baseline).state.carry (handedOn baseline s))).failure = none ∧
      (run settings l baseline s).state = finish settings l.conditions (applyInjuries l.injuries
        ((laid settings l baseline).state.carry (handedOn baseline s))).state := by
  rw [run_eq_laid_andThen] at h ⊢
  obtain ⟨hlaid, hsettling⟩ := failure_andThen_eq_none_iff.1 h
  rw [failure_settling] at hsettling
  refine ⟨hlaid, hsettling, ?_⟩
  rw [state_andThen hlaid]
  exact state_settling hsettling

/-- All problems are reported while the sources are laid. -/
theorem diagnostics_run {settings : Settings} {l : Loadout} {baseline s : State}
    (h : (run settings l baseline s).failure = none) :
    (run settings l baseline s).diagnostics = (laid settings l baseline).diagnostics := by
  have hlaid : ((laid settings l baseline).mapState (carry (handedOn baseline s))).failure = none :=
    (state_run h).1
  rw [run_eq_laid_andThen, diagnostics_andThen hlaid, diagnostics_settling, List.append_nil]
  rfl

/-- What a completed pass hands on, put over the sources again, is what that pass derived, with the
pools clamped. -/
theorem carry_handedOn_run {settings : Settings} {l : Loadout} {baseline s : State}
    (h : (run settings l baseline s).failure = none) :
    (laid settings l baseline).state.carry (handedOn baseline (run settings l baseline s).state) =
      clamp (applyInjuries l.injuries
        ((laid settings l baseline).state.carry (handedOn baseline s))).state := by
  obtain ⟨-, hinjuries, hstate⟩ := state_run h
  rw [hstate, state_applyInjuries_carry hinjuries]
  exact carry_handedOn_finish ..

/-- The state that a completed pass leaves is settled: another pass completes, reports the same
problems and leaves that state. -/
theorem run_settled {settings : Settings} {l : Loadout} {baseline s : State}
    (h : (run settings l baseline s).failure = none) :
    Agree (run settings l baseline (run settings l baseline s).state)
      (run settings l baseline s) := by
  let u : State :=
    (applyInjuries l.injuries ((laid settings l baseline).state.carry (handedOn baseline s))).state
  obtain ⟨hlaid, hinjuries, hstate⟩ := state_run h
  let c' : Carried := handedOn baseline (run settings l baseline s).state
  have hagain : run settings l baseline (run settings l baseline s).state =
      ((laid settings l baseline).mapState (carry c')).andThen
        (runStages settings l Stage.settling) := run_eq_laid_andThen ..
  have hlaid' : ((laid settings l baseline).mapState (carry c')).failure = none := hlaid
  have hreached : ((laid settings l baseline).mapState (carry c')).state = clamp u :=
    carry_handedOn_run h
  obtain ⟨hfailure, hclamp⟩ := applyInjuries_clamp hinjuries (u := u) rfl
  have hcompleted : (run settings l baseline (run settings l baseline s).state).failure = none := by
    rw [hagain, failure_andThen_eq_none_iff, hreached, failure_settling]
    exact ⟨hlaid', hfailure⟩
  refine ⟨hcompleted.trans h.symm, ?_, fun _ ↦ ?_⟩
  · rw [diagnostics_run hcompleted, diagnostics_run h]
  · rw [hagain, state_andThen hlaid', hreached, state_settling hfailure, hclamp, finish_clamp]
    exact hstate.symm

end Overlay

end CharacterSheet
