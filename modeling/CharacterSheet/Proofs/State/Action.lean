import CharacterSheet.Proofs.Delta.Merge
import CharacterSheet.Proofs.State.Gathering
import CharacterSheet.Proofs.State.Laying

/-!
# Laying deltas is an action

Of a delta that was read from codes only the immunities can fail to be laid over a state.  When the
tiers of the state are set, such a delta is laid by one change of the whole state, and the changes
of two deltas make up the change of their merge.  The gates under which effects are filed can end up
in another order; nothing else differs.
-/

namespace CharacterSheet

namespace Table

variable {α : Type}

theorem Same.refl (t : Table α) : t.Same t := fun _ ↦ rfl

theorem Same.trans {t u v : Table α} (h : t.Same u) (h' : u.Same v) : t.Same v :=
  fun name ↦ (h name).trans (h' name)

theorem Same.map {β : Type} {t u : Table α} (h : t.Same u) (f : α → β) :
    (t.map f).Same (u.map f) := by
  intro name
  rw [Table.map, Table.map, get?_mapWithKey, get?_mapWithKey, h name]

end Table

namespace State

/-- A state without the effects filed under gates and their totals. -/
def withoutGates (s : State) : State :=
  { s with conditionals := { s.conditionals with effects := .empty, totals := .empty } }

/-- Two states agree; the gates may be listed in different orders. -/
structure Same (s t : State) : Prop where
  effects : s.conditionals.effects.Same t.conditionals.effects
  totals : s.conditionals.totals.Same t.conditionals.totals
  rest : s.withoutGates = t.withoutGates

theorem Same.refl (s : State) : s.Same s := ⟨.refl _, .refl _, rfl⟩

theorem Same.trans {s t u : State} (h : s.Same t) (h' : t.Same u) : s.Same u :=
  ⟨h.effects.trans h'.effects, h.totals.trans h'.totals, h.rest.trans h'.rest⟩

end State

/-! ## What is laid of a delta -/

namespace Table

variable {α : Type}

theorem entries_eq_map (t : Table α) (zero : α) :
    t.entries = t.keys.map fun k ↦ (k, t.getD k zero) := by
  rw [keys, List.map_map]
  refine (List.map_id _).symm.trans (List.map_congr_left fun e he ↦ ?_)
  rw [Function.comp, getD_of_get? (get?_of_mem_entries he)]
  rfl

theorem update_update (t : Table α) (name : String) (zero : α) (f g : α → α) :
    (t.update name zero f).update name zero g = t.update name zero fun a ↦ g (f a) := by
  refine ext_get? ?_ fun k ↦ ?_
  · by_cases h : name ∈ t.keys <;> simp [keys_update, h]
  · simp only [get?_update, getD, if_true, Option.getD_some]
    split <;> rfl

end Table

namespace Delta

variable {a b : Delta}

theorem basicGain_absorb (a b : Delta) (name : String) :
    (a.absorb b).basicGain name = (a.basicGain name).add (b.basicGain name) := by
  have hskills : (a.absorb b).skills.getD name 0 = _ :=
    Table.getD_absorb_add Int.add_zero a.skills b.skills name
  have htiers : (a.absorb b).tiers.getD name 0 = _ :=
    Table.getD_absorb_add Int.add_zero a.tiers b.tiers name
  simp [basicGain, SkillGain.add, hskills, htiers]

theorem contribution_absorb (ha : a.Normal) (hb : b.Normal) (target : ResourceTarget) :
    (a.absorb b).contribution target = a.contribution target + b.contribution target := by
  have hsum (names : List String) (f g : String → Int) :
      contributionOf target (names.map fun k ↦ (k, f k + g k)) =
        contributionOf target (names.map fun k ↦ (k, f k)) +
          contributionOf target (names.map fun k ↦ (k, g k)) := by
    induction names with
    | nil => rfl
    | cons name names ih =>
      simp only [List.map_cons, contributionOf, ih]
      split <;> omega
  have hentries : (a.absorb b).resources.entries = Schema.resourceFields.map fun k ↦
      (k, a.resources.getD k 0 + b.resources.getD k 0) := by
    rw [Table.entries_eq_map _ 0, (ha.absorb hb).resources]
    exact List.map_congr_left fun k _ ↦
      congrArg (k, ·) (Table.getD_absorb_add Int.add_zero a.resources b.resources k)
  rw [contribution, contribution, contribution, hentries, hsum, ← ha.resources,
    ← Table.entries_eq_map, ha.resources, ← hb.resources, ← Table.entries_eq_map]

theorem lookup_resourceFields {name : String} (h : name ∈ Schema.resourceFields) :
    (resourceTargets.lookup name).isSome = true := by
  have hall : ∀ name ∈ Schema.resourceFields, (resourceTargets.lookup name).isSome = true := by
    decide
  exact hall name h

theorem files_iff (d : Delta) : d.files = true ↔ ∃ gate, d.gated.getD gate [] ≠ [] := by
  constructor
  · intro h
    obtain ⟨es, hes, hne⟩ := List.any_eq_true.1 h
    obtain ⟨e, he, rfl⟩ := List.mem_map.1 hes
    refine ⟨e.1, ?_⟩
    rw [Table.getD_of_get? (Table.get?_of_mem_entries he)]
    simpa using hne
  · rintro ⟨gate, hne⟩
    refine Decidable.byContradiction fun hfiles ↦ hne ?_
    exact gated_of_not_files (by simpa using hfiles) gate

theorem files_absorb (a b : Delta) : (a.absorb b).files = (a.files || b.files) := by
  rw [Bool.eq_iff_iff, Bool.or_eq_true, files_iff, files_iff, files_iff, ← exists_or]
  refine exists_congr fun gate ↦ ?_
  rw [gated_absorb]
  by_cases ha : a.gated.getD gate [] = [] <;> simp [ha]

end Delta

namespace State

open Progress

variable {d a b : Delta} {s : State} {vs ws : List Value}

/-- The numbers of a delta are added, those of its resources included. -/
def layNumbers (d : Delta) (s : State) : State :=
  addFeatures d.features (addRanges d { addNumbers d s with
    resources := s.resources.mapWithKey fun name p ↦
      p.raise (d.contribution (.pool name .max)) (d.contribution (.pool name .recovery))
    spellSlots := s.spellSlots + d.contribution .spellSlots })

/-- The state that a delta leaves, once its immunities are gathered. -/
def layOver (d : Delta) (immunities : List Value) (s : State) : State :=
  file d.gated (addLists d { layNumbers d s with immunities })

theorem failure_addResource (source : Option String) {field : String}
    (h : (resourceTargets.lookup field).isSome = true) (n : Int) (s : State) :
    (addResource source field n s).failure = none := by
  unfold addResource
  split
  · rfl
  · split
    · next hnone => simp [hnone] at h
    · rfl
    · split <;> rfl

theorem failure_addResources (source : Option String) {values : List (String × Int)}
    (h : ∀ e ∈ values, (resourceTargets.lookup e.1).isSome = true) (s : State) :
    (addResources source values s).failure = none := by
  have heach : addResources source values s =
      each (fun e : String × Int ↦ addResource source e.1 e.2) values s := rfl
  rw [heach]
  clear heach
  induction values generalizing s with
  | nil => rfl
  | cons e values ih =>
    rw [each_cons]
    exact failure_andThen_eq_none_iff.2
      ⟨failure_addResource source (h e List.mem_cons_self) e.2 s,
        ih (fun e' he' ↦ h e' (List.mem_cons_of_mem e he')) _⟩

/-- Only the immunities of a delta can fail to be laid. -/
theorem exists_applyWith_eq (hd : d.Normal) (source : Option String) (found : List Value)
    (s : State) : ∃ events, applyWith source d found s =
      ((({ state := layNumbers d s, events } : Progress).andThen
        (addImmunities (d.immunities.names.map .text ++ found))).thenPure (addLists d)).thenPure
          (file d.gated) := by
  let p : Progress := { state := s.addNumbers d, events := s.danglingNumbers source d }
  let q := p.andThen (addResources source d.resources.entries)
  let r := q.andThen fun s ↦ { state := s.addRanges d, events := s.danglingRanges source d }
  have hnames : ∀ e ∈ d.resources.entries, (resourceTargets.lookup e.1).isSome = true := by
    intro e he
    refine Delta.lookup_resourceFields (hd.resources ▸ ?_)
    exact List.mem_map.2 ⟨e, he, rfl⟩
  have hresources := failure_addResources source hnames (addNumbers d s)
  have hq : q.failure = none := (failure_andThen_of_completed rfl _).trans hresources
  have hr : r.failure = none := failure_andThen_of_completed hq _
  have hstate : (r.thenPure (addFeatures d.features)).state = layNumbers d s := by
    rw [state_thenPure hr, state_andThen hq, state_andThen rfl, state_addResources hresources]
    rfl
  have hfailure := (failure_thenPure r (addFeatures d.features)).trans hr
  refine ⟨(r.thenPure (addFeatures d.features)).events, ?_⟩
  show ((((r.thenPure (addFeatures d.features)).andThen _).thenPure _).thenPure _) = _
  rw [← hstate, ← hfailure]

theorem failure_applyWith (hd : d.Normal) (source : Option String) (found : List Value)
    (s : State) : (applyWith source d found s).failure =
      match gather s.immunities (d.immunities.names.map .text ++ found) with
        | .ok _ => none
        | .error (a, b) => some (.incomparable a b) := by
  obtain ⟨events, heq⟩ := exists_applyWith_eq hd source found s
  have hsame : (layNumbers d s).immunities = s.immunities := rfl
  rw [heq, failure_thenPure, failure_thenPure, failure_andThen_of_completed rfl, addImmunities_eq,
    hsame]
  cases gather s.immunities (d.immunities.names.map .text ++ found) <;> rfl

theorem state_applyWith_of_gather (hd : d.Normal) {source : Option String} {found : List Value}
    {s : State} (h : gather s.immunities (d.immunities.names.map .text ++ found) = .ok vs) :
    (applyWith source d found s).state = layOver d vs s := by
  obtain ⟨events, heq⟩ := exists_applyWith_eq hd source found s
  have hgather : gather (layNumbers d s).immunities (d.immunities.names.map .text ++ found) =
      .ok vs := h
  have hadded := addImmunities_eq (d.immunities.names.map .text ++ found) (layNumbers d s)
  rw [hgather] at hadded
  simp only [heq, Progress.thenPure, andThen_of_completed, hadded, state_start, failure_start]
  rfl

/-! ## Laying two deltas -/

theorem overlay_overlay_isZero (t u v : Table Int) :
    (t.overlay isZero (· + ·) u).overlay isZero (· + ·) v =
      t.overlay isZero (· + ·) (u.absorb 0 Delta.sum v) := by
  simp only [overlay_isZero, Table.mapWithKey_mapWithKey]
  refine Table.mapWithKey_congr fun k n _ ↦ ?_
  have hsum : (u.absorb 0 Delta.sum v).getD k 0 = _ :=
    Table.getD_absorb_add Int.add_zero u v k
  rw [hsum, Int.add_assoc]

theorem overlay_overlay_addGain {t : Table SkillEntry} (ht : t.Tiered) (u v : Table SkillGain) :
    (t.overlay SkillGain.isZero SkillEntry.addGain u).overlay SkillGain.isZero
        SkillEntry.addGain v =
      t.overlay SkillGain.isZero SkillEntry.addGain (u.absorb .zero (fun _ ↦ SkillGain.add) v) := by
  rw [overlay_addGain ht, overlay_addGain ht,
    overlay_addGain (Table.tiered_mapWithKey fun _ _ ↦ rfl), Table.mapWithKey_mapWithKey]
  refine Table.mapWithKey_congr fun k e _ ↦ ?_
  rw [Table.getD_absorb_add SkillGain.add_zero, SkillEntry.addGain_addGain]

theorem overlay_overlay_basic {t : Table SkillEntry} (ht : t.Tiered) (a b : Delta) :
    ((((t.overlay isZero (fun e n ↦ { e with value := e.value + n }) a.skills).overlay isZero
      SkillEntry.addTier a.tiers).overlay isZero (fun e n ↦ { e with value := e.value + n })
        b.skills).overlay isZero SkillEntry.addTier b.tiers) =
      (t.overlay isZero (fun e n ↦ { e with value := e.value + n }) (a.absorb b).skills).overlay
        isZero SkillEntry.addTier (a.absorb b).tiers := by
  rw [overlay_basic ht, overlay_basic ht, overlay_basic (Table.tiered_mapWithKey fun _ _ ↦ rfl),
    Table.mapWithKey_mapWithKey]
  refine Table.mapWithKey_congr fun k e _ ↦ ?_
  rw [Delta.basicGain_absorb, SkillEntry.addGain_addGain]

theorem raise_raise_contribution (ha : a.Normal) (hb : b.Normal) (pools : Table Pool) :
    ((pools.mapWithKey fun name p ↦
      p.raise (a.contribution (.pool name .max)) (a.contribution (.pool name .recovery))).mapWithKey
        fun name p ↦
          p.raise (b.contribution (.pool name .max)) (b.contribution (.pool name .recovery))) =
      pools.mapWithKey fun name p ↦ p.raise ((a.absorb b).contribution (.pool name .max))
        ((a.absorb b).contribution (.pool name .recovery)) := by
  rw [Table.mapWithKey_mapWithKey]
  refine Table.mapWithKey_congr fun k p _ ↦ ?_
  rw [Pool.raise_raise, Delta.contribution_absorb ha hb, Delta.contribution_absorb ha hb]

/-- The tier for two weapons is the only feature; it is raised to the one of the delta. -/
theorem features_addFeatures (hd : d.Normal) (s : State) :
    (addFeatures d.features s).features =
      if d.features.getD Schema.dualWieldTier 0 = 0 then s.features
      else s.features.update Schema.dualWieldTier 0
        (max · (d.features.getD Schema.dualWieldTier 0)) := by
  have hentries : d.features.entries =
      [(Schema.dualWieldTier, d.features.getD Schema.dualWieldTier 0)] := by
    rw [Table.entries_eq_map _ 0, hd.features]
    rfl
  rw [addFeatures, hentries]
  rfl

theorem addFeatures_addFeatures (ha : a.Normal) (hb : b.Normal) (s : State) :
    (addFeatures b.features (addFeatures a.features s)).features =
      (addFeatures (a.absorb b).features s).features := by
  have hm := ha.dualWield_nonneg
  have hn := hb.dualWield_nonneg
  rw [features_addFeatures hb, features_addFeatures ha, features_addFeatures (ha.absorb hb),
    Delta.dualWield_absorb a hb]
  generalize a.features.getD Schema.dualWieldTier 0 = m at hm ⊢
  generalize b.features.getD Schema.dualWieldTier 0 = n at hn ⊢
  -- A tier of zero is left out, and the maximum with zero is the other tier.
  by_cases hm0 : m = 0
  · subst hm0
    rw [Int.max_eq_right hn]
    rfl
  · by_cases hn0 : n = 0
    · subst hn0
      rw [Int.max_eq_left hm]
      simp [hm0]
    · have hmax : max m n ≠ 0 := by omega
      rw [if_neg hm0, if_neg hn0, if_neg hmax, Table.update_update]
      congr
      funext k
      exact Int.max_assoc k m n

theorem withoutGates_file (gated : Table (List GatedEffect)) (s : State) :
    (file gated s).withoutGates = s.withoutGates := by
  unfold file
  dsimp only
  split <;> rfl

theorem effects_file (gated : Table (List GatedEffect)) (s : State) :
    (file gated s).conditionals.effects = s.conditionals.effects.absorb [] (fun _ ↦ List.append)
      (gated.filter fun _ es ↦ !es.isEmpty) := by
  unfold file
  dsimp only
  split
  · next hnone =>
    rw [Table.absorb, List.isEmpty_iff.1 hnone]
    rfl
  · rfl

/-- Under a gate there is more than before if something is filed under it. -/
theorem get?_effects_file (gated : Table (List GatedEffect)) (s : State) (gate : String) :
    (file gated s).conditionals.effects.get? gate =
      if gated.getD gate [] = [] then s.conditionals.effects.get? gate
      else some (s.conditionals.filed gate ++ gated.getD gate []) := by
  rw [effects_file, Table.get?_absorb, Table.get?_filter]
  cases hgate : gated.get? gate with
  | none => simp [Table.getD, hgate]
  | some es =>
    rw [Table.getD_of_get? hgate]
    cases es with
    | nil => rfl
    | cons e es => rfl

theorem totals_file (d : Delta) (s : State) : (file d.gated s).conditionals.totals =
    if d.files then (file d.gated s).conditionals.effects.map GateTotals.ofEffects
    else s.conditionals.totals := by
  have hfiles : (d.gated.filter fun _ es ↦ !es.isEmpty).entries.isEmpty = !d.files := by
    rw [Bool.eq_iff_iff]
    simp [Table.filter, Delta.files, Table.values, List.isEmpty_iff]
  unfold file
  dsimp only
  rw [hfiles]
  cases d.files <;> rfl

theorem file_of_not_files (h : d.files = false) (s : State) : file d.gated s = s := by
  have hnone : (d.gated.filter fun _ es ↦ !es.isEmpty).entries.isEmpty = true := by
    refine List.isEmpty_iff.2 (List.filter_eq_nil_iff.2 fun e he ↦ ?_)
    exact List.any_eq_false.1 h e.2 (List.mem_map.2 ⟨e, he, rfl⟩)
  unfold file
  dsimp only
  rw [if_pos hnone]

theorem effects_file_file {t : State}
    (h : t.conditionals.effects = (file a.gated s).conditionals.effects) :
    (file b.gated t).conditionals.effects.Same
      (file (a.absorb b).gated s).conditionals.effects := by
  intro gate
  have hfiled : t.conditionals.filed gate = s.conditionals.filed gate ++ a.gated.getD gate [] := by
    rw [Conditionals.filed, h]
    exact filed_file a.gated s gate
  rw [get?_effects_file, get?_effects_file, Delta.gated_absorb, hfiled, h, get?_effects_file]
  by_cases hb : b.gated.getD gate [] = []
  · simp [hb]
  · simp [hb, List.append_assoc]

theorem totals_file_file {t : State}
    (h : t.conditionals.effects = (file a.gated s).conditionals.effects)
    (h' : t.conditionals.totals = (file a.gated s).conditionals.totals) :
    (file b.gated t).conditionals.totals.Same (file (a.absorb b).gated s).conditionals.totals := by
  have heffects := effects_file_file (b := b) h
  rw [totals_file, totals_file, Delta.files_absorb]
  cases hb : b.files with
  | true =>
    rw [Bool.or_true]
    exact heffects.map GateTotals.ofEffects
  | false =>
    rw [Bool.or_false, if_neg (by simp), h', totals_file]
    split
    · rw [file_of_not_files hb, h] at heffects
      exact heffects.map GateTotals.ofEffects
    · exact .refl _

theorem immunities_layOver (d : Delta) (vs : List Value) (s : State) :
    (layOver d vs s).immunities = vs := by
  obtain ⟨c, hc⟩ := file_eq d.gated (addLists d { layNumbers d s with immunities := vs })
  rw [layOver, hc]
  rfl

theorem traits_layOver (d : Delta) (vs : List Value) (s : State) :
    (layOver d vs s).traits = d.traits.foldl addTrait s.traits := by
  obtain ⟨c, hc⟩ := file_eq d.gated (addLists d { layNumbers d s with immunities := vs })
  rw [layOver, hc]
  rfl

theorem effects_layOver (d : Delta) (vs : List Value) (s : State) :
    (layOver d vs s).conditionals.effects = (file d.gated s).conditionals.effects := by
  rw [layOver, effects_file, effects_file]
  rfl

theorem totals_layOver (d : Delta) (vs : List Value) (s : State) :
    (layOver d vs s).conditionals.totals = (file d.gated s).conditionals.totals := by
  have heffects := effects_layOver d vs s
  rw [layOver] at heffects ⊢
  rw [totals_file, totals_file, heffects]
  rfl

/-- Laying one delta and then another one is laying their fold. -/
theorem layOver_layOver (hs : s.Tiered) (ha : a.Normal) (hb : b.Normal) :
    (layOver b ws (layOver a vs s)).Same (layOver (a.absorb b) ws s) where
  effects := by
    rw [effects_layOver, effects_layOver (a.absorb b)]
    exact effects_file_file (effects_layOver a vs s)
  totals := by
    rw [totals_layOver, totals_layOver (a.absorb b)]
    exact totals_file_file (effects_layOver a vs s) (totals_layOver a vs s)
  rest := by
    let t := addLists a { layNumbers a s with immunities := vs }
    obtain ⟨c, hc⟩ := file_eq a.gated t
    have hflags : c.flags = t.conditionals.flags := by
      have hsame := congrArg (fun s ↦ s.conditionals.flags) (withoutGates_file a.gated t)
      rw [hc] at hsame
      exact hsame
    have hlaid : layOver a vs s = { t with conditionals := c } := hc
    have hfile (d : Delta) (vs : List Value) (s : State) : (layOver d vs s).withoutGates =
        (addLists d { layNumbers d s with immunities := vs }).withoutGates :=
      withoutGates_file d.gated _
    rw [hfile, hfile, hlaid]
    simp only [withoutGates, addLists, layNumbers, addFeatures, addRanges, addNumbers, hflags, t,
      State.mk.injEq, Conditionals.mk.injEq, true_and, and_true]
    refine ⟨overlay_overlay_isZero _ _ _, overlay_overlay_basic hs.basic a b,
      overlay_overlay_addGain hs.weapon _ _, overlay_overlay_addGain hs.magic _ _,
      overlay_overlay_addGain hs.crafting _ _, overlay_overlay_isZero _ _ _,
      raise_raise_contribution ha hb _, ?_, overlay_overlay_isZero _ _ _,
      overlay_overlay_isZero _ _ _, addFeatures_addFeatures ha hb s, List.append_assoc _ _ _,
      (foldl_addTrait_foldl ha.codes _ _).symm, Delta.raiseFlags_assoc _ ha.raised⟩
    rw [Delta.contribution_absorb ha hb, Int.add_assoc]

end State

end CharacterSheet
