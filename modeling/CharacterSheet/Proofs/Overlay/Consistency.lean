import CharacterSheet.Proofs.Overlay.Completion
import CharacterSheet.Proofs.State.Soundness

/-!
# Consistent states

A pass over a sound baseline leaves a consistent state: its lists and totals are sound, its entries
are normalised, its pools are clamped, and what it says about gates, conditions, pain and stress
agrees with the loadout and with the numbers beside it.  The tracks are derived before the pools
are clamped, and still agree with the clamped pools.
-/

namespace CharacterSheet

/-- A track as it is derived from a total and a pool. -/
structure Track.Derived (t : Track) (total : Int) (pool : Option Pool) : Prop where
  sources : t.sourceTotal = total
  bonus : lowPoolBonus pool = .ok t.thresholdBonus
  calculated : t.calculated = max 0 (t.sourceTotal + t.thresholdBonus + t.modifier)
  dice : t.penaltyDice = diceFor t.calculated

theorem Track.derived_update {t : Track} {total : Int} {pool : Option Pool}
    (h : (t.update total pool).2 = none) : (t.update total pool).1.Derived total pool := by
  unfold update at h ⊢
  cases hbonus : lowPoolBonus pool with
  | error e =>
    rw [hbonus] at h
    cases h
  | ok bonus => exact ⟨rfl, hbonus, rfl, rfl⟩

namespace Table

variable {α : Type}

theorem mem_keys_set {t : Table α} {name k : String} {a : α} :
    k ∈ (t.set name a).keys ↔ k = name ∨ k ∈ t.keys := by
  rw [keys_set]
  split
  · next h =>
    constructor
    · exact .inr
    · rintro (rfl | hk)
      · exact h
      · exact hk
  · rw [List.mem_append, List.mem_singleton, or_comm]

theorem mem_keys_setDefault {t : Table α} {name k : String} {a : α} :
    k ∈ (t.setDefault name a).keys ↔ k = name ∨ k ∈ t.keys := by
  unfold setDefault
  split
  · next h =>
    constructor
    · exact .inr
    · rintro (rfl | hk)
      · exact contains_iff.1 h
      · exact hk
  · exact mem_keys_set

theorem mem_keys_foldl_setDefault (names : List String) (a : α) {t : Table α} {k : String}
    (h : k ∈ names ∨ k ∈ t.keys) : k ∈ (names.foldl (fun t name ↦ t.setDefault name a) t).keys := by
  induction names generalizing t with
  | nil => exact h.resolve_left List.not_mem_nil
  | cons name names ih =>
    apply ih
    rcases h with h | h
    · rcases List.mem_cons.1 h with rfl | h
      · exact .inr (mem_keys_setDefault.2 (.inl rfl))
      · exact .inl h
    · exact .inr (mem_keys_setDefault.2 (.inr h))

/-- Every entry has its tier set and no tiers under older field names. -/
def Normalised (t : Table SkillEntry) : Prop :=
  ∀ k e, t.get? k = some e → e.tier.isSome ∧ e.legacy = .empty

theorem normalised_mapWithKey {t : Table SkillEntry} {f : String → SkillEntry → SkillEntry}
    (h : ∀ k e, (f k e).tier.isSome ∧ (f k e).legacy = .empty) : (t.mapWithKey f).Normalised := by
  intro k e he
  rw [get?_mapWithKey] at he
  obtain ⟨e', -, rfl⟩ := Option.map_eq_some_iff.1 he
  exact h k e'

end Table

/-- Whatever the item brings to immunities beside its code are names. -/
def Item.BringsNames (item : Item) : Prop :=
  ∀ g, item.gear.result = .ok g → ∃ names : List String, g.immunities = names.map .text

/-- Whether the detections that gear brings are under names. -/
def Gear.DetectsNames (g : Gear) : Prop := ∀ d ∈ g.detections, ∃ name : String, d.1 = .text name

namespace State

/-- What holds of a state that a pass over a sound baseline leaves, given what the pass read. -/
structure Consistent (l : Loadout) (s : State) : Prop where
  totals : ∀ gate : Gate, ∃ t, s.conditionals.totals.get? gate.name = some t ∧
    ∀ kind : EffectKind, (t.table kind).keys = kind.targets ∧
      ∀ name, (t.table kind).getD name 0 =
        effectSum kind name (s.conditionals.filed gate.name)
  codes : (s.traits.map Trait.code).Nodup
  immunities : ∃ names : List String, s.immunities = names.map .text ∧ names.Pairwise (· < ·)
  tiers : ∀ table ∈ [s.basic, s.weapon, s.magic, s.crafting], table.Normalised
  pools : ∀ name p, s.resources.get? name = some p → ∃ n, p.current = some n ∧ n ≤ p.max
  movement : ∀ mode ∈ Schema.movementModes, s.movement.contains mode = true
  gates : s.satisfiedGates = l.equipment.satisfiedGates.map Gate.name
  conditions : s.effectiveConditions.Pairwise (· < ·) ∧ ∀ name,
    name ∈ s.effectiveConditions ↔ name ∈ l.conditions ∧ Value.text name ∉ s.immunities
  pain : s.pain.Derived (Overlay.painOf l.injuries) (s.resources.get? "health")
  stress : s.stress.Derived (Overlay.stressOf l.injuries) (s.resources.get? "resolve")

end State

namespace Overlay

open Progress State

/-! ## Soundness while sources are laid -/

theorem sound_train {s : State} (hs : s.Sound) (item : Item) : (train item s).state.Sound := by
  rw [state_train]
  exact (sound_applyWith hs (produced_trainingDelta item).normal (some item.id) []).2

theorem sound_wear {s : State} (hs : s.Sound) {item : Item} (hitem : item.BringsNames) :
    (wear item s).state.Sound := by
  cases hgear : item.gear.result with
  | error e =>
    rw [wear_of_error hgear]
    exact hs
  | ok g =>
    obtain ⟨names, hnames⟩ := hitem g hgear
    have happlied := sound_applyWith hs (Item.normal_gear hgear) (some item.id) names
    rw [← hnames] at happlied
    obtain ⟨hcompleted, hsound⟩ := happlied
    rw [state_wear hgear hcompleted]
    exact ⟨hsound.conditionals, hsound.codes, hsound.immunities, hsound.dualWield⟩

theorem sound_laid (settings : Settings) {l : Loadout} {baseline : State} (hb : baseline.Sound)
    (hworn : ∀ item ∈ l.equipment.wornItems, item.BringsNames) :
    (laid settings l baseline).state.Sound := by
  have hprepared : (prepared baseline).Sound :=
    ⟨hb.conditionals, hb.codes, hb.immunities, hb.dualWield⟩
  have htrained : (applyTraining l.trainings (prepared baseline)).state.Sound :=
    keeps_each (P := Sound) (fun item _ s hs ↦ sound_train hs item) hprepared
  have hequipped {s : State} (hs : s.Sound) :
      (applyEquipment l.owner l.equipment.wornItems s).state.Sound :=
    keeps_andThen
      (keeps_each (P := Sound) (fun item hitem s hs ↦ sound_wear hs (hworn item hitem)) hs)
      fun _ h ↦ h
  rw [laid_eq]
  refine keeps_andThen htrained fun s hs ↦ keeps_andThen (hequipped hs) fun s hs ↦ ?_
  rw [applyGateBonuses_eq]
  exact ⟨hs.conditionals, hs.codes, hs.immunities, hs.dualWield⟩

/-! ## What the last overlays settle -/

/-- The speeds before conditions slow the character down. -/
def speeds (settings : Settings) (movement bonuses : Table Int) : Table Int :=
  (baseMovement settings movement).absorb 0 Delta.sum bonuses

theorem mem_keys_speeds (settings : Settings) (movement bonuses : Table Int) {mode : String}
    (h : mode ∈ Schema.movementModes) : mode ∈ (speeds settings movement bonuses).keys := by
  unfold speeds baseMovement
  exact Table.mem_keys_absorb.2 (.inl (Table.mem_keys_foldl_setDefault _ _ (.inl h)))

theorem contains_finalizeMovement (settings : Settings) (s : State) {mode : String}
    (h : mode ∈ Schema.movementModes) :
    (finalizeMovement settings s).movement.contains mode = true := by
  have hadded := mem_keys_speeds settings s.movement s.movementBonuses h
  rw [Table.contains_iff, finalizeMovement, limitWalk]
  split
  · exact Table.mem_keys_set.2 (.inr hadded)
  · split
    · exact Table.mem_keys_set.2 (.inr hadded)
    · exact hadded

theorem any_sameKey_text_iff {vs : List Value} {name : String} :
    vs.any (·.sameKey (.text name)) = true ↔ Value.text name ∈ vs := by
  simp only [List.any_eq_true, Value.sameKey_text_iff, exists_eq_right]

theorem mem_applyConditions {conditions : NameSet} {s : State} {name : String} :
    name ∈ (applyConditions conditions s).effectiveConditions ↔
      name ∈ conditions ∧ Value.text name ∉ s.immunities := by
  rw [applyConditions, List.mem_filter, NameSet.mem_names, Bool.not_eq_true', ← Bool.not_eq_true,
    any_sameKey_text_iff]

theorem current_clampPool_le (p : Pool) :
    ∃ n, (clampPool p).current = some n ∧ n ≤ (clampPool p).max := by
  obtain ⟨max, current, recovery⟩ := p
  cases current with
  | none => exact ⟨max, rfl, Int.le_refl max⟩
  | some n => exact ⟨min n max, rfl, Int.min_le_right n max⟩

/-- The tracks that injuries derive agree with the pools also once those are clamped. -/
theorem derived_clamp {t : Track} {total : Int} {s : State} {name : String}
    (h : (t.update total (s.resources.get? name)).2 = none) :
    (t.update total (s.resources.get? name)).1.Derived total ((clamp s).resources.get? name) := by
  obtain ⟨hsources, hbonus, hcalculated, hdice⟩ := Track.derived_update h
  exact ⟨hsources, (lowPoolBonus_clamp s name).trans hbonus, hcalculated, hdice⟩

/-- The overlays after the gate bonuses make a sound state consistent, as soon as its gates are
those of the equipment and its entries are normalised. -/
theorem consistent_finish (settings : Settings) {l : Loadout} {s : State} (hs : s.Sound)
    (hgates : s.satisfiedGates = l.equipment.satisfiedGates.map Gate.name)
    (htiers : ∀ table ∈ [s.basic, s.weapon, s.magic, s.crafting], table.Normalised)
    (hinjuries : (applyInjuries l.injuries s).failure = none) :
    (finish settings l.conditions (applyInjuries l.injuries s).state).Consistent l := by
  obtain ⟨names, hnames⟩ := hs.immunities
  have hmovement (t : State) (mode : String) (hmode : mode ∈ Schema.movementModes) :
      (finish settings l.conditions t).movement.contains mode = true :=
    contains_finalizeMovement settings _ hmode
  rw [state_applyInjuries hinjuries]
  rw [failure_applyInjuries, Option.or_eq_none_iff] at hinjuries
  exact
    { totals := hs.conditionals.exists_totals
      codes := hs.codes
      immunities := ⟨names.names, hnames, names.sorted⟩
      tiers := htiers
      pools := by
        intro name p hp
        obtain ⟨p', -, rfl⟩ := Option.map_eq_some_iff.1 ((Table.get?_mapWithKey ..).symm.trans hp)
        exact current_clampPool_le p'
      movement := hmovement _
      gates := hgates
      conditions :=
        ⟨l.conditions.sorted.sublist List.filter_sublist, fun _ ↦ mem_applyConditions⟩
      pain := derived_clamp hinjuries.1
      stress := derived_clamp hinjuries.2 }

/-- A completed pass over a sound baseline leaves a consistent state. -/
theorem consistent_run {settings : Settings} {l : Loadout} {baseline s : State}
    (hb : baseline.Sound) (hworn : ∀ item ∈ l.equipment.wornItems, item.BringsNames)
    (h : (run settings l baseline s).failure = none) :
    (run settings l baseline s).state.Consistent l := by
  obtain ⟨hlaid, hinjuries, hstate⟩ := state_run h
  obtain ⟨t, hall, ht⟩ := exists_laysAll_laid hlaid
  have hsound := sound_laid settings hb hworn
  have hclosed := closedForm_applyGateBonuses hall hb.conditionals.summed hb.dualWield
    l.equipment.satisfiedGates
  rw [← ht] at hclosed
  have hgates : (laid settings l baseline).state.satisfiedGates =
      l.equipment.satisfiedGates.map Gate.name := by rw [ht, applyGateBonuses_eq]
  rw [hstate]
  generalize (laid settings l baseline).state = laid at hinjuries hclosed hsound hgates ⊢
  refine consistent_finish settings ?_ hgates (fun table htable ↦ ?_) hinjuries
  · exact ⟨hsound.conditionals, hsound.codes, hsound.immunities, hsound.dualWield⟩
  · simp only [List.mem_cons, List.not_mem_nil, or_false] at htable
    rcases htable with rfl | rfl | rfl | rfl
    · exact hclosed.basic ▸ Table.normalised_mapWithKey fun _ _ ↦ ⟨rfl, rfl⟩
    · exact hclosed.weapon ▸ Table.normalised_mapWithKey fun _ _ ↦ ⟨rfl, rfl⟩
    · exact hclosed.magic ▸ Table.normalised_mapWithKey fun _ _ ↦ ⟨rfl, rfl⟩
    · exact hclosed.crafting ▸ Table.normalised_mapWithKey fun _ _ ↦ ⟨rfl, rfl⟩

end Overlay

end CharacterSheet
