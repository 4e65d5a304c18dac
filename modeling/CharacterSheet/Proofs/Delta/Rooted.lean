import CharacterSheet.Proofs.Delta.Normal

/-!
# Deltas grown out of the empty one

Whatever is folded into the empty delta, however odd, the result starts every table with the names
of the schema, has no tier below zero, holds each trait code once and raises its flags.  This is all
that the laws of a monoid need: such a delta absorbs the empty one, is absorbed by it, and can stand
in the middle of three deltas that are folded together.
-/

namespace CharacterSheet

namespace Schema

theorem tieredFeatures_subset : ∀ name ∈ tieredFeatures, name ∈ combatFeatures := fun _ h ↦ h

end Schema

namespace Delta

variable {a b c d e : Delta}

theorem sum_zero (k : String) (n : Int) : sum k n 0 = n := Int.add_zero n

theorem zero_sum (k : String) (n : Int) : sum k 0 n = n := Int.zero_add n

theorem sum_assoc (k : String) (l m n : Int) : sum k (sum k l m) n = sum k l (sum k m n) :=
  Int.add_assoc l m n

theorem combineFeature_dualWield (m n : Int) :
    combineFeature Schema.dualWieldTier m n = max m n := rfl

theorem combineFeature_assoc (k : String) (l m n : Int) :
    combineFeature k (combineFeature k l m) n = combineFeature k l (combineFeature k m n) := by
  unfold combineFeature
  split <;> omega

theorem combineFeature_zero {k : String} {n : Int} (h : k ∈ Schema.tieredFeatures → 0 ≤ n) :
    combineFeature k n 0 = n := by
  unfold combineFeature
  split
  · exact Int.max_eq_left (h ‹_›)
  · exact Int.add_zero n

theorem zero_combineFeature {k : String} {n : Int} (h : k ∈ Schema.tieredFeatures → 0 ≤ n) :
    combineFeature k 0 n = n := by
  unfold combineFeature
  split
  · exact Int.max_eq_right (h ‹_›)
  · exact Int.zero_add n

/-- A delta that starts with the names of the empty one and has settled what the empty one
settles. -/
structure Rooted (d : Delta) : Prop where
  attributes : Schema.attributes <+: d.attributes.keys
  skills : Schema.skills <+: d.skills.keys
  tiers : Schema.skills <+: d.tiers.keys
  weapon : Schema.weaponSkills <+: d.weapon.keys
  magic : Schema.magicSkills <+: d.magic.keys
  crafting : Schema.craftingSkills <+: d.crafting.keys
  mitigation : Schema.mitigations <+: d.mitigation.keys
  resources : Schema.resourceFields <+: d.resources.keys
  movement : Schema.movementModes <+: d.movement.keys
  weaponRanges : Schema.weaponRanges <+: d.weaponRanges.keys
  features : Schema.combatFeatures <+: d.features.keys
  tiered : ∀ name ∈ Schema.tieredFeatures, 0 ≤ d.features.getD name 0
  codes : (d.traits.map Trait.code).Nodup
  gated : Schema.gates <+: d.gated.keys
  raised : ∀ name on, d.flags.get? name = some on → on = true

theorem Rooted.tiered_of_get? (hd : d.Rooted) {k : String} {n : Int}
    (h : d.features.get? k = some n) : k ∈ Schema.tieredFeatures → 0 ≤ n := by
  intro hk
  have hn := hd.tiered k hk
  rwa [Table.getD_of_get? h] at hn

theorem Rooted.filter_flags (hd : d.Rooted) : (d.flags.filter fun _ on ↦ on) = d.flags :=
  Table.filter_eq_self hd.raised

theorem Normal.dualWield_nonneg (hd : d.Normal) :
    0 ≤ d.features.getD Schema.dualWieldTier 0 := by
  have hn := hd.dualWield
  simp only [Schema.dualWieldTiers, List.mem_cons, List.not_mem_nil, or_false] at hn
  omega

theorem Normal.rooted (hd : d.Normal) : d.Rooted where
  attributes := hd.attributes ▸ List.prefix_rfl
  skills := hd.skills ▸ List.prefix_rfl
  tiers := hd.tiers ▸ List.prefix_rfl
  weapon := hd.weapon ▸ List.prefix_rfl
  magic := hd.magic ▸ List.prefix_rfl
  crafting := hd.crafting ▸ List.prefix_rfl
  mitigation := hd.mitigation ▸ List.prefix_rfl
  resources := hd.resources ▸ List.prefix_rfl
  movement := hd.movement ▸ List.prefix_rfl
  weaponRanges := hd.weaponRanges ▸ List.prefix_rfl
  features := hd.features ▸ List.prefix_rfl
  tiered := by
    intro name hname
    obtain rfl := List.mem_singleton.1 hname
    exact hd.dualWield_nonneg
  codes := hd.codes
  gated := hd.gated ▸ List.prefix_rfl
  raised := hd.raised

theorem rooted_empty : empty.Rooted := normal_empty.rooted

/-! ## Folding into a rooted delta -/

theorem raised_raiseFlags {flags : Table Bool}
    (hflags : ∀ name on, flags.get? name = some on → on = true) (other : Table Bool) {name : String}
    {on : Bool} (h : (raiseFlags flags other).get? name = some on) : on = true := by
  rw [raiseFlags_eq_absorb] at h
  refine raised_absorb hflags (fun k on' h' ↦ ?_) h
  rw [Table.get?_filter] at h'
  exact (Option.filter_eq_some_iff.1 h').2

theorem tiered_absorb {t : Table Int} {k : String} (h : k ∈ Schema.tieredFeatures)
    (ht : 0 ≤ t.getD k 0) (u : Table Int) : 0 ≤ (t.absorb 0 combineFeature u).getD k 0 := by
  rw [Table.getD_absorb]
  cases u.get? k with
  | none => exact ht
  | some n =>
    simp only [combineFeature, if_pos h]
    omega

/-- What is folded into a rooted delta may be any delta at all. -/
theorem Rooted.absorb (hd : d.Rooted) (e : Delta) : (d.absorb e).Rooted where
  attributes := hd.attributes.trans (Table.keys_prefix_absorb _ _)
  skills := hd.skills.trans (Table.keys_prefix_absorb _ _)
  tiers := hd.tiers.trans (Table.keys_prefix_absorb _ _)
  weapon := hd.weapon.trans (Table.keys_prefix_absorb _ _)
  magic := hd.magic.trans (Table.keys_prefix_absorb _ _)
  crafting := hd.crafting.trans (Table.keys_prefix_absorb _ _)
  mitigation := hd.mitigation.trans (Table.keys_prefix_absorb _ _)
  resources := hd.resources.trans (Table.keys_prefix_absorb _ _)
  movement := hd.movement.trans (Table.keys_prefix_absorb _ _)
  weaponRanges := hd.weaponRanges.trans (Table.keys_prefix_absorb _ _)
  features := hd.features.trans (Table.keys_prefix_absorb _ _)
  tiered := fun name hname ↦ tiered_absorb hname (hd.tiered name hname) e.features
  codes := nodup_code_foldl_addTrait e.traits hd.codes
  gated := hd.gated.trans (Table.keys_prefix_absorb _ _)
  raised := fun _ _ h ↦ raised_raiseFlags hd.raised e.flags h

/-! ## The laws of a monoid -/

theorem raiseFlags_assoc (flags : Table Bool)
    (hb : ∀ name on, b.flags.get? name = some on → on = true) :
    raiseFlags (raiseFlags flags b.flags) c.flags =
      raiseFlags flags (raiseFlags b.flags c.flags) := by
  have hall : ((raiseFlags b.flags c.flags).filter fun _ on ↦ on) = raiseFlags b.flags c.flags :=
    Table.filter_eq_self fun _ _ h ↦ raised_raiseFlags hb c.flags h
  rw [raiseFlags_eq_absorb flags (raiseFlags b.flags c.flags), hall]
  simp only [raiseFlags_eq_absorb, Table.filter_eq_self hb]
  exact Table.absorb_assoc flags b.flags _ (fun _ _ _ _ ↦ rfl) fun _ _ _ _ ↦ rfl

theorem absorb_empty (hd : d.Rooted) : d.absorb empty = d := by
  have hnumbers {t : Table Int} {names : List String} (ht : names <+: t.keys) (h : names.Nodup) :
      t.absorb 0 sum (.ofNames names 0 h) = t :=
    Table.absorb_ofNames h ht.subset fun k n _ ↦ sum_zero k n
  have hgains {t : Table SkillGain} {names : List String} (ht : names <+: t.keys)
      (h : names.Nodup) : t.absorb .zero (fun _ ↦ SkillGain.add) (.ofNames names .zero h) = t :=
    Table.absorb_ofNames h ht.subset fun _ g _ ↦ g.add_zero
  have hfeatures : d.features.absorb 0 combineFeature
      (.ofNames Schema.combatFeatures 0 Schema.nodup_combatFeatures) = d.features :=
    Table.absorb_ofNames _ hd.features.subset fun _ _ h ↦
      combineFeature_zero (hd.tiered_of_get? h)
  have hgated : d.gated.absorb [] (fun _ ↦ List.append)
      (.ofNames Schema.gates [] Schema.nodup_gates) = d.gated :=
    Table.absorb_ofNames _ hd.gated.subset fun _ es _ ↦ List.append_nil es
  simp only [absorb, empty, hnumbers hd.attributes Schema.nodup_attributes,
    hnumbers hd.skills Schema.nodup_skills, hnumbers hd.tiers Schema.nodup_skills,
    hgains hd.weapon Schema.nodup_weaponSkills, hgains hd.magic Schema.nodup_magicSkills,
    hgains hd.crafting Schema.nodup_craftingSkills,
    hnumbers hd.mitigation Schema.nodup_mitigations,
    hnumbers hd.resources Schema.nodup_resourceFields,
    hnumbers hd.movement Schema.nodup_movementModes,
    hnumbers hd.weaponRanges Schema.nodup_weaponRanges, hfeatures, hgated, List.append_nil,
    List.foldl_nil]
  rfl

theorem empty_absorb (hd : d.Rooted) : empty.absorb d = d := by
  have hnumbers {t : Table Int} {names : List String} (ht : names <+: t.keys) (h : names.Nodup) :
      (Table.ofNames names 0 h).absorb 0 sum t = t :=
    Table.ofNames_absorb h ht fun k n _ ↦ zero_sum k n
  have hgains {t : Table SkillGain} {names : List String} (ht : names <+: t.keys)
      (h : names.Nodup) :
      (Table.ofNames names .zero h).absorb .zero (fun _ ↦ SkillGain.add) t = t :=
    Table.ofNames_absorb h ht fun _ g _ ↦ g.zero_add
  have hfeatures : (Table.ofNames Schema.combatFeatures 0 Schema.nodup_combatFeatures).absorb 0
      combineFeature d.features = d.features :=
    Table.ofNames_absorb _ hd.features fun _ _ h ↦ zero_combineFeature (hd.tiered_of_get? h)
  have hgated : (Table.ofNames Schema.gates [] Schema.nodup_gates).absorb []
      (fun _ ↦ List.append) d.gated = d.gated :=
    Table.ofNames_absorb _ hd.gated fun _ es _ ↦ List.nil_append es
  have himmunities : NameSet.empty.union d.immunities = d.immunities :=
    NameSet.ext_mem fun a ↦ by simp
  have hflags : raiseFlags .empty d.flags = d.flags := by
    rw [raiseFlags_eq_absorb, hd.filter_flags]
    exact Table.empty_absorb fun _ _ _ ↦ rfl
  simp only [absorb, empty, hnumbers hd.attributes Schema.nodup_attributes,
    hnumbers hd.skills Schema.nodup_skills, hnumbers hd.tiers Schema.nodup_skills,
    hgains hd.weapon Schema.nodup_weaponSkills, hgains hd.magic Schema.nodup_magicSkills,
    hgains hd.crafting Schema.nodup_craftingSkills,
    hnumbers hd.mitigation Schema.nodup_mitigations,
    hnumbers hd.resources Schema.nodup_resourceFields,
    hnumbers hd.movement Schema.nodup_movementModes,
    hnumbers hd.weaponRanges Schema.nodup_weaponRanges, hfeatures, hgated, himmunities, hflags,
    foldl_addTrait_nil hd.codes, List.nil_append]

theorem absorb_assoc (hb : b.Rooted) : (a.absorb b).absorb c = a.absorb (b.absorb c) := by
  have hnumbers (t u v : Table Int) :
      (t.absorb 0 sum u).absorb 0 sum v = t.absorb 0 sum (u.absorb 0 sum v) :=
    Table.absorb_assoc t u v sum_assoc fun k n _ _ ↦ zero_sum k n
  have hgains (t u v : Table SkillGain) :
      (t.absorb .zero (fun _ ↦ SkillGain.add) u).absorb .zero (fun _ ↦ SkillGain.add) v =
        t.absorb .zero (fun _ ↦ SkillGain.add) (u.absorb .zero (fun _ ↦ SkillGain.add) v) :=
    Table.absorb_assoc t u v (fun _ ↦ SkillGain.add_assoc) fun _ g _ _ ↦ g.zero_add
  have hfeatures : (a.features.absorb 0 combineFeature b.features).absorb 0 combineFeature
      c.features = a.features.absorb 0 combineFeature
        (b.features.absorb 0 combineFeature c.features) := by
    refine Table.absorb_assoc _ _ _ combineFeature_assoc fun k n hnone _ ↦ ?_
    -- The tiers are always there, so a feature that is missing adds up.
    have hmissing := Table.get?_eq_none_iff.1 hnone
    refine zero_combineFeature fun htiered ↦ ?_
    exact absurd (hb.features.subset (Schema.tieredFeatures_subset k htiered)) hmissing
  have hgated : (a.gated.absorb [] (fun _ ↦ List.append) b.gated).absorb [] (fun _ ↦ List.append)
      c.gated = a.gated.absorb [] (fun _ ↦ List.append)
        (b.gated.absorb [] (fun _ ↦ List.append) c.gated) :=
    Table.absorb_assoc _ _ _ (fun _ ↦ List.append_assoc) fun _ es _ _ ↦ List.nil_append es
  have himmunities : (a.immunities.union b.immunities).union c.immunities =
      a.immunities.union (b.immunities.union c.immunities) :=
    NameSet.ext_mem fun x ↦ by simp [or_assoc]
  have htraits := foldl_addTrait_foldl hb.codes c.traits a.traits
  simp only [absorb, hnumbers, hgains, hfeatures, hgated, himmunities, htraits,
    raiseFlags_assoc a.flags hb.raised, List.append_assoc]

end Delta

end CharacterSheet
