import CharacterSheet.Proofs.State.Action

/-!
# Sound states

A state is sound if its gate totals are those of the effects that are filed, its traits have
distinct codes, its immunities are names in order, and no tier of its features is below zero.  The
state of a character of whom nothing is known is sound, and a delta in the normal form that is laid
over a sound state leaves a sound state.
-/

namespace CharacterSheet

theorem effectSum_append (kind : EffectKind) (name : String) (es fs : List GatedEffect) :
    effectSum kind name (es ++ fs) = effectSum kind name es + effectSum kind name fs := by
  induction es with
  | nil => exact (Int.zero_add _).symm
  | cons e es ih =>
    rw [List.cons_append, effectSum, effectSum, ih]
    omega

/-- Effects on other targets do not count. -/
theorem effectSum_eq_zero {kind : EffectKind} {name : String} {es : List GatedEffect}
    (h : ∀ e ∈ es, e.subtype ∈ e.kind.targets) (hname : name ∉ kind.targets) :
    effectSum kind name es = 0 := by
  induction es with
  | nil => rfl
  | cons e es ih =>
    have hother : ¬ (e.kind = kind ∧ e.subtype = name) := by
      rintro ⟨rfl, rfl⟩
      exact hname (h e List.mem_cons_self)
    rw [effectSum, if_neg hother, ih fun e' he' ↦ h e' (List.mem_cons_of_mem e he'), Int.add_zero]

namespace GateTotals

theorem keys_table_ofEffects (es : List GatedEffect) (kind : EffectKind) :
    ((ofEffects es).table kind).keys = kind.targets := by
  have hfold (t : GateTotals) : ((es.foldl add t).table kind).keys = (t.table kind).keys := by
    induction es generalizing t with
    | nil => rfl
    | cons e es ih => rw [List.foldl_cons, ih, keys_table_add]
  rw [ofEffects, hfold]
  cases kind with
  | skill => exact Table.keys_ofNames _ _ Schema.nodup_skills
  | mitigation => exact Table.keys_ofNames _ _ Schema.nodup_mitigations

end GateTotals

namespace Conditionals

/-- Every gate is listed, effects are filed for targets of the schema only, and the totals are those
of the effects. -/
structure Aggregated (c : Conditionals) : Prop where
  gates : ∀ gate : Gate, gate.name ∈ c.effects.keys
  effects : ∀ gate, ∀ e ∈ c.filed gate, e.subtype ∈ e.kind.targets
  totals : c.totals = c.effects.map GateTotals.ofEffects

theorem aggregated_default : ({} : Conditionals).Aggregated where
  gates := fun gate ↦ by
    have hkeys : ({} : Conditionals).effects.keys = Schema.gates :=
      Table.keys_ofNames _ _ Schema.nodup_gates
    rw [hkeys]
    exact mem_schemaGates gate
  effects := fun gate e he ↦ by
    have hnone : ({} : Conditionals).filed gate = [] :=
      Table.getD_ofNames _ [] Schema.nodup_gates gate
    rw [hnone] at he
    cases he
  totals := by
    refine Table.ext_get? ?_ fun k ↦ ?_
    · simp [Table.map]
    · simp only [Table.map, Table.get?_mapWithKey, Table.get?_ofNames]
      split <;> rfl

namespace Aggregated

variable {c : Conditionals} (h : c.Aggregated)

include h

/-- Each gate has totals, which list the targets of the schema, each with the sum of the effects on
it; there are no other effects. -/
theorem exists_totals (gate : Gate) : ∃ t, c.totals.get? gate.name = some t ∧
    ∀ kind : EffectKind, (t.table kind).keys = kind.targets ∧
      ∀ name, (t.table kind).getD name 0 = effectSum kind name (c.filed gate.name) := by
  have hfiled : c.effects.get? gate.name = some (c.filed gate.name) :=
    Table.get?_of_mem_keys (h.gates gate) []
  refine ⟨GateTotals.ofEffects (c.filed gate.name), ?_, fun kind ↦ ⟨?_, fun name ↦ ?_⟩⟩
  · rw [h.totals, Table.map, Table.get?_mapWithKey, hfiled]
    rfl
  · exact GateTotals.keys_table_ofEffects _ kind
  · rw [GateTotals.getD_table_ofEffects]
    split
    · rfl
    · next hname => exact (effectSum_eq_zero (h.effects gate.name) hname).symm

theorem summed : c.Summed := by
  intro gate kind name
  obtain ⟨t, ht, hsums⟩ := h.exists_totals gate
  rw [total, ht]
  exact (hsums kind).2 name

end Aggregated

end Conditionals

namespace State

structure Sound (s : State) : Prop where
  conditionals : s.conditionals.Aggregated
  codes : (s.traits.map Trait.code).Nodup
  immunities : ∃ names : NameSet, s.immunities = names.names.map .text
  dualWield : 0 ≤ s.features.getD Schema.dualWieldTier 0

theorem sound_fresh (settings : Settings) : (fresh settings).Sound where
  conditionals := Conditionals.aggregated_default
  codes := List.nodup_nil
  immunities := ⟨.empty, rfl⟩
  dualWield := by
    have hzero : (fresh settings).features.getD Schema.dualWieldTier 0 = 0 :=
      Table.getD_ofNames _ 0 Schema.nodup_combatFeatures _
    omega

variable {d : Delta} {s : State}

theorem aggregated_file (hs : s.conditionals.Aggregated) (hd : d.Normal) :
    (file d.gated s).conditionals.Aggregated where
  gates := by
    intro gate
    rw [effects_file]
    exact Table.mem_keys_absorb.2 (.inl (hs.gates gate))
  effects := by
    intro gate e he
    rw [filed_file] at he
    rcases List.mem_append.1 he with he | he
    · exact hs.effects gate e he
    · exact (hd.effects gate e he).2
  totals := by
    rw [totals_file]
    split
    · rfl
    · next hfiles => rw [file_of_not_files (by simpa using hfiles), hs.totals]

theorem dualWield_nonneg_layNumbers (hs : 0 ≤ s.features.getD Schema.dualWieldTier 0)
    (d : Delta) : 0 ≤ (layNumbers d s).features.getD Schema.dualWieldTier 0 := by
  have hfeatures : (layNumbers d s).features = (addFeatures d.features s).features := rfl
  have hmax := dualWield_addFeatures d.features hs
  rw [hfeatures]
  omega

theorem sound_layOver (hs : s.Sound) (hd : d.Normal) (names : NameSet) :
    (layOver d (names.names.map .text) s).Sound where
  conditionals := by
    let t := addLists d { layNumbers d s with immunities := names.names.map .text }
    have ht : t.conditionals.Aggregated :=
      ⟨hs.conditionals.gates, hs.conditionals.effects, hs.conditionals.totals⟩
    exact aggregated_file ht hd
  codes := by
    obtain ⟨c, hc⟩ := file_eq d.gated
      (addLists d { layNumbers d s with immunities := names.names.map .text })
    rw [layOver, hc]
    exact nodup_code_foldl_addTrait d.traits hs.codes
  immunities := ⟨names, immunities_layOver d _ s⟩
  dualWield := by
    obtain ⟨c, hc⟩ := file_eq d.gated
      (addLists d { layNumbers d s with immunities := names.names.map .text })
    rw [layOver, hc]
    exact dualWield_nonneg_layNumbers hs.dualWield d

/-- Names can be gathered, and stay in order. -/
theorem exists_gather_names {vs : List Value} {names : NameSet} (hvs : vs = names.names.map .text)
    (found : List String) : ∃ names' : NameSet,
      gather vs (found.map .text) = .ok (names'.names.map .text) := by
  unfold gather
  split
  · exact ⟨names, congrArg _ hvs⟩
  · exact ⟨_, by rw [hvs, ← List.map_append, Value.sorted_texts]⟩

/-- A delta and further names are laid over a sound state without failing. -/
theorem sound_applyWith (hs : s.Sound) (hd : d.Normal) (source : Option String)
    (found : List String) :
    (applyWith source d (found.map .text) s).failure = none ∧
      (applyWith source d (found.map .text) s).state.Sound := by
  obtain ⟨names, hnames⟩ := hs.immunities
  obtain ⟨names', hgather⟩ := exists_gather_names hnames (d.immunities.names ++ found)
  rw [List.map_append] at hgather
  constructor
  · rw [failure_applyWith hd, hgather]
  · rw [state_applyWith_of_gather hd hgather]
    exact sound_layOver hs hd names'

end State

end CharacterSheet
