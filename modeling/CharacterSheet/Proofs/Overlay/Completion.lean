import CharacterSheet.Proofs.Overlay.Isolation

/-!
# What can stop a pass

A pass fails for one of two reasons.  The immunities that its sources bring, one source after the
other, have no common order; or the maximum of a pool, raised by all sources, is so small beside a
negative current value that their quotient is too large.  Sources that bring names only, over pools
that are not absurdly overdrawn, let every pass complete.
-/

namespace CharacterSheet

namespace Progress

variable {ι : Type} {p : Progress} {f : State → Progress}

/-- A run from a state gathers the immunities of some sources, and fails only if they cannot be
gathered. -/
structure Gathers (found : List (List Value)) (s : State) (p : Progress) : Prop where
  of_ok : ∀ vs, State.gatherAll s.immunities found = .ok vs →
    p.failure = none ∧ p.state.immunities = vs
  of_error : ∀ a b, State.gatherAll s.immunities found = .error (a, b) →
    p.failure = some (.incomparable a b)

namespace Gathers

variable {found more : List (List Value)} {s : State}

theorem nil (hp : p.failure = none) (hs : p.state.immunities = s.immunities) :
    Gathers [] s p := by
  constructor
  · rintro vs ⟨⟩
    exact ⟨hp, hs⟩
  · rintro a b ⟨⟩

theorem failure_eq_none_iff (h : Gathers found s p) :
    p.failure = none ↔ ∃ vs, State.gatherAll s.immunities found = .ok vs := by
  cases hfound : State.gatherAll s.immunities found with
  | ok vs => simp [(h.of_ok vs hfound).1]
  | error clash => simp [h.of_error clash.1 clash.2 hfound]

theorem andThen (h : Gathers found s p) (hf : ∀ t, Gathers more t (f t)) :
    Gathers (found ++ more) s (p.andThen f) := by
  constructor
  · intro vs hvs
    rw [State.gatherAll_append] at hvs
    cases hfound : State.gatherAll s.immunities found with
    | error clash =>
      rw [hfound] at hvs
      cases hvs
    | ok us =>
      obtain ⟨hcompleted, hus⟩ := h.of_ok us hfound
      rw [hfound, ← hus] at hvs
      rw [failure_andThen_eq_none_iff, state_andThen hcompleted]
      obtain ⟨hrest, hstate⟩ := (hf p.state).of_ok vs hvs
      exact ⟨⟨hcompleted, hrest⟩, hstate⟩
  · intro a b hclash
    rw [State.gatherAll_append] at hclash
    cases hfound : State.gatherAll s.immunities found with
    | error clash =>
      rw [hfound] at hclash
      cases hclash
      have hfailure := h.of_error a b hfound
      rw [andThen_of_failure hfailure, hfailure]
    | ok us =>
      obtain ⟨hcompleted, hus⟩ := h.of_ok us hfound
      rw [hfound, ← hus] at hclash
      rw [failure_andThen_of_completed hcompleted]
      exact (hf p.state).of_error a b hclash

theorem each {f : ι → State → Progress} {found : ι → List Value}
    (h : ∀ i s, Gathers [found i] s (f i s)) (items : List ι) (s : State) :
    Gathers (items.map found) s (Progress.each f items s) := by
  induction items generalizing s with
  | nil => exact .nil rfl rfl
  | cons i items ih =>
    rw [each_cons]
    exact (h i s).andThen ih

end Gathers

end Progress

theorem exists_of_bind_eq_ok {ε α β : Type} {x : Except ε α} {f : α → Except ε β} {b : β}
    (h : x >>= f = .ok b) : ∃ a, x = .ok a ∧ f a = .ok b := by
  cases x with
  | error e => cases h
  | ok a => exact ⟨a, rfl, h⟩

theorem exists_of_map_eq_ok {ε α β : Type} {x : Except ε α} {f : α → β} {b : β}
    (h : x.map f = .ok b) : ∃ a, x = .ok a ∧ f a = b := by
  cases x with
  | error e => cases h
  | ok a => exact ⟨a, rfl, Except.ok.inj h⟩

theorem eq_ok_getD_of_isOk {ε α : Type} {x : Except ε α} (h : x.isOk = true) (fallback : α) :
    x = .ok (x.toOption.getD fallback) := by
  cases x with
  | error e => cases h
  | ok a => rfl

namespace Item

def trainingImmunities (item : Item) : List Value :=
  item.trainingDelta.immunities.names.map .text

/-- The immunities that a worn item brings, those of its code first. -/
def gearImmunities (item : Item) : List Value :=
  match item.gear.result with
  | .ok g => g.delta.immunities.names.map .text ++ g.immunities
  | .error _ => []

theorem extras_eq_ok_iff {item : Item} {d : Delta} {g : Gear} :
    item.extras d = .ok g ↔ g.delta = d ∧ immunityMembers item.immunities = .ok g.immunities ∧
      Integer.ofValue item.encumbrance = .ok g.penalty ∧
      detectionValues item.detections = .ok g.detections ∧
      effectMembers item.effects = .ok g.effects := by
  constructor
  · intro h
    obtain ⟨immunities, himmunities, h⟩ := exists_of_bind_eq_ok h
    obtain ⟨penalty, hpenalty, h⟩ := exists_of_bind_eq_ok h
    obtain ⟨detections, hdetections, h⟩ := exists_of_bind_eq_ok h
    obtain ⟨effects, heffects, h⟩ := exists_of_bind_eq_ok h
    obtain rfl := Except.ok.inj h
    exact ⟨rfl, himmunities, hpenalty, hdetections, heffects⟩
  · rintro ⟨rfl, himmunities, hpenalty, hdetections, heffects⟩
    unfold extras
    rw [himmunities, hpenalty, hdetections, heffects]
    rfl

theorem normal_gear {item : Item} {g : Gear} (h : item.gear.result = .ok g) : g.delta.Normal := by
  unfold gear DataCode.Reading.andThen at h
  cases hread : (DataCode.readValue item.code).result with
  | error e =>
    rw [hread] at h
    cases h
  | ok d =>
    rw [hread] at h
    rw [(extras_eq_ok_iff.1 h).1]
    exact (DataCode.produced_of_readValue hread).normal

end Item

namespace Loadout

/-- The immunities that the sources bring, source by source. -/
def immunities (l : Loadout) : List (List Value) :=
  l.trainings.map Item.trainingImmunities ++ l.equipment.wornItems.map Item.gearImmunities

end Loadout

namespace State

open Progress

theorem gathers_applyWith {d : Delta} (hd : d.Normal) (source : Option String)
    (found : List Value) (s : State) :
    Gathers [d.immunities.names.map .text ++ found] s (applyWith source d found s) := by
  have hone : gatherAll s.immunities [d.immunities.names.map .text ++ found] =
      gather s.immunities (d.immunities.names.map .text ++ found) := bind_pure _
  have hfailure := failure_applyWith hd source found s
  constructor
  · intro vs hvs
    rw [hone] at hvs
    rw [hvs] at hfailure
    refine ⟨hfailure, ?_⟩
    rw [state_applyWith_of_gather hd hvs, immunities_layOver]
  · intro a b hclash
    rw [hone] at hclash
    rw [hclash] at hfailure
    exact hfailure

end State

namespace Overlay

open Progress State

theorem gathers_train (item : Item) (s : State) :
    Gathers [item.trainingImmunities] s (train item s) := by
  have hnormal := (produced_trainingDelta item).normal
  have hread : Gathers [] s { state := s, events := item.training.events "source" item.id } :=
    .nil rfl rfl
  have hlaid (t : State) := gathers_applyWith hnormal (some item.id) [] t
  rw [List.append_nil] at hlaid
  exact hread.andThen hlaid

theorem gathers_wear (item : Item) (s : State) :
    Gathers [item.gearImmunities] s (wear item s) := by
  have hread : Gathers [] s { state := s, events := item.gear.events "source" item.id } :=
    .nil rfl rfl
  cases h : item.gear.result with
  | ok g =>
    have hfound : item.gearImmunities = g.delta.immunities.names.map .text ++ g.immunities := by
      rw [Item.gearImmunities, h]
    have hextras (t : State) : Gathers [] t (start (addExtras g t)) := .nil rfl rfl
    rw [wear_of_ok h, hfound]
    exact (hread.andThen (gathers_applyWith (Item.normal_gear h) (some item.id) _)).andThen hextras
  | error e =>
    -- A skipped item brings no immunities, and to gather none changes nothing.
    have hfound : item.gearImmunities = [] := by rw [Item.gearImmunities, h]
    rw [wear_of_error h, hfound]
    exact ⟨hread.of_ok, hread.of_error⟩

/-- Before the injuries nothing can fail but the gathering of immunities. -/
theorem gathers_laid (settings : Settings) (l : Loadout) (baseline : State) :
    Gathers l.immunities baseline (laid settings l baseline) := by
  have htraining : Gathers _ (prepared baseline) (applyTraining l.trainings (prepared baseline)) :=
    .each gathers_train l.trainings (prepared baseline)
  have hgates (t : State) :
      Gathers [] t (start (applyGateBonuses l.equipment.satisfiedGates t)) := by
    rw [applyGateBonuses_eq]
    exact .nil rfl rfl
  have hequipment (t : State) : Gathers (l.equipment.wornItems.map Item.gearImmunities) t
      ((applyEquipment l.owner l.equipment.wornItems t).andThen fun s ↦
        start (applyGateBonuses l.equipment.satisfiedGates s)) := by
    have hworn := Gathers.each gathers_wear l.equipment.wornItems t
    have hdone := (hworn.andThen fun s ↦ .nil
      (p := { state := s
              events := [.equipmentApplied l.owner (processed l.equipment.wornItems)
                s.encumbrance] }) rfl rfl).andThen hgates
    rwa [List.append_nil, List.append_nil] at hdone
  have hall := htraining.andThen hequipment
  rw [laid_eq]
  exact ⟨hall.of_ok, hall.of_error⟩

end Overlay

namespace Loadout

open State

/-- A pool as it stands when a pass looks how low it is: raised by all sources, with the current
value that is handed on. -/
def pool? (l : Loadout) (baseline s : State) (name : String) : Option Pool :=
  (baseline.resources.get? name).map fun p ↦
    (p.raise (Delta.total (Delta.contribution (.pool name .max)) l.deltas)
      (Delta.total (Delta.contribution (.pool name .recovery)) l.deltas)).withCurrent
        (effectiveCurrent baseline s name)

end Loadout

namespace Overlay

open Progress State

theorem get?_resources_laid {settings : Settings} {l : Loadout} {baseline : State}
    (h : (laid settings l baseline).failure = none) (s : State) (name : String) :
    ((laid settings l baseline).state.carry (handedOn baseline s)).resources.get? name =
      l.pool? baseline s name := by
  obtain ⟨t, hlays, hstate⟩ := exists_laysAll_laid h
  have hpools : (laid settings l baseline).state.resources = t.resources := by
    rw [hstate, applyGateBonuses_eq]
  rw [resources_carry, Table.get?_mapWithKey, hpools, hlays.resources, Table.get?_mapWithKey,
    Option.map_map]
  rfl

/-- A completed pass leaves the pools of the baseline, raised by all sources and clamped. -/
theorem get?_resources_run {settings : Settings} {l : Loadout} {baseline s : State}
    (h : (run settings l baseline s).failure = none) (name : String) :
    (run settings l baseline s).state.resources.get? name =
      (l.pool? baseline s name).map clampPool := by
  obtain ⟨hlaid, hinjuries, hstate⟩ := Overlay.state_run h
  have hpools : (run settings l baseline s).state.resources =
      ((laid settings l baseline).state.carry (handedOn baseline s)).resources.map clampPool := by
    rw [hstate, state_applyInjuries hinjuries]
    rfl
  rw [hpools, Table.map, Table.get?_mapWithKey, get?_resources_laid hlaid]

/-- A pass completes exactly when the immunities of its sources can be gathered and the two pools
that it looks at have a quotient. -/
theorem failure_run_eq_none_iff (settings : Settings) (l : Loadout) (baseline s : State) :
    (run settings l baseline s).failure = none ↔
      (∃ vs, gatherAll baseline.immunities l.immunities = .ok vs) ∧
        ∀ name ∈ ["health", "resolve"], ∃ bonus,
          lowPoolBonus (l.pool? baseline s name) = .ok bonus := by
  rw [run_eq_laid_andThen, failure_andThen_eq_none_iff, failure_mapState, state_mapState,
    failure_settling, ← (gathers_laid settings l baseline).failure_eq_none_iff]
  refine and_congr_right fun hlaid ↦ ?_
  -- Once the sources are laid, only the two tracks can fail, each at its own pool.
  rw [failure_applyInjuries, Option.or_eq_none_iff, painTrack, stressTrack,
    Track.failure_update_eq_none_iff, Track.failure_update_eq_none_iff,
    get?_resources_laid hlaid, get?_resources_laid hlaid]
  simp

theorem exists_names_of_mem_immunities {l : Loadout}
    (hworn : ∀ item ∈ l.equipment.wornItems,
      ∃ names : List String, item.gearImmunities = names.map .text)
    {vs : List Value} (hvs : vs ∈ l.immunities) : ∃ names : List String, vs = names.map .text := by
  rcases List.mem_append.1 hvs with hvs | hvs
  · obtain ⟨item, -, rfl⟩ := List.mem_map.1 hvs
    exact ⟨item.trainingDelta.immunities.names, rfl⟩
  · obtain ⟨item, hitem, rfl⟩ := List.mem_map.1 hvs
    exact hworn item hitem

/-- Sources that bring names only can be gathered over names. -/
theorem exists_gatherAll_immunities {l : Loadout} {baseline : State}
    (hbaseline : ∃ names : List String, baseline.immunities = names.map .text)
    (hworn : ∀ item ∈ l.equipment.wornItems,
      ∃ names : List String, item.gearImmunities = names.map .text) :
    ∃ names : List String, gatherAll baseline.immunities l.immunities = .ok (names.map .text) :=
  exists_gatherAll_texts hbaseline fun _ ↦ exists_names_of_mem_immunities hworn

/-- Over a baseline whose immunities are names, worn items that bring names only let every pass
complete, unless a pool is overdrawn by a number of more than 1023 bits. -/
theorem failure_run_of_names (settings : Settings) {l : Loadout} {baseline s : State}
    (hbaseline : ∃ names : List String, baseline.immunities = names.map .text)
    (hworn : ∀ item ∈ l.equipment.wornItems,
      ∃ names : List String, item.gearImmunities = names.map .text)
    (hpools : ∀ name n, effectiveCurrent baseline s name = some n → (-n).toNat.log2 < 1023) :
    (run settings l baseline s).failure = none := by
  obtain ⟨names, hgathered⟩ := exists_gatherAll_immunities hbaseline hworn
  refine (failure_run_eq_none_iff settings l baseline s).2 ⟨⟨_, hgathered⟩, fun name _ ↦ ?_⟩
  unfold Loadout.pool?
  cases baseline.resources.get? name with
  | none => exact ⟨0, rfl⟩
  | some p => exact exists_lowPoolBonus_eq_ok fun n hn ↦ hpools name n hn

end Overlay

end CharacterSheet
