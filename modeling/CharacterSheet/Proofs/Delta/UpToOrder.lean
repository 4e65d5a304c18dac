import CharacterSheet.Proofs.Delta.Canonical
import CharacterSheet.Proofs.Delta.Writable

/-!
# What canonical views tell apart

Two deltas that come from reading and merging have the same canonical view exactly when they agree
in every field, the lists being compared without their order.  The numbers in the written forms are
compared as texts and an absent payload is shown as an empty one, yet nothing is confused: a written
form has one source, and no code gives an empty payload.  Merging respects this agreement.
-/

namespace CharacterSheet

/-! ## Views of traits and of tables -/

theorem TraitKind.name_injective {a b : TraitKind} (h : a.name = b.name) : a = b := by
  cases a <;> cases b <;> first | rfl | exact absurd h (by decide)

/-- A payload that a code gives is not empty, so it is told from an absent one. -/
theorem Trait.Regular.getD_payload_eq_iff {t u : Trait} (ht : t.Regular) (hu : u.Regular) :
    t.payload.getD "" = u.payload.getD "" ↔ t.payload = u.payload := by
  refine ⟨fun h ↦ ?_, fun h ↦ by rw [h]⟩
  cases hp : t.payload with
  | none =>
    cases hq : u.payload with
    | none => rfl
    | some q =>
      rw [hp, hq] at h
      exact absurd h.symm (hu.payload q hq).1
  | some p =>
    cases hq : u.payload with
    | none =>
      rw [hp, hq] at h
      exact absurd h (ht.payload p hp).1
    | some q =>
      rw [hp, hq] at h
      exact congrArg some h

theorem Trait.Regular.eq_of_view {t u : Trait} (ht : t.Regular) (hu : u.Regular)
    (h : t.view = u.view) : t = u := by
  have hcode : t.code = u.code := congrArg TraitView.code h
  have hkind : t.kind = u.kind := TraitKind.name_injective (congrArg TraitView.kind h)
  have hpayload := (ht.getD_payload_eq_iff hu).1 (congrArg TraitView.payload h)
  obtain ⟨kind, code, payload⟩ := t
  obtain ⟨kind', code', payload'⟩ := u
  obtain rfl : code = code' := hcode
  obtain rfl : kind = kind' := hkind
  obtain rfl : payload = payload' := hpayload
  rfl

/-- Tables of one size, the first of which is contained in the second, have the same entries. -/
theorem Table.same_iff {α : Type} [BEq α] [LawfulBEq α] {t u : Table α} :
    t.same u = true ↔ t.Same u := by
  refine ⟨fun h ↦ ?_, same_of_same⟩
  simp only [same, Bool.and_eq_true, List.all_eq_true, beq_iff_eq] at h
  obtain ⟨hsize, hentries⟩ := h
  have hsubset : t.keys ⊆ u.keys := by
    intro name hname
    obtain ⟨e, he, rfl⟩ := List.mem_map.1 hname
    exact mem_keys_of_get? (hentries e he)
  have hlength : u.keys.length ≤ t.keys.length := by
    simpa [keys, size] using hsize.ge
  have hkeys : t.keys.Perm u.keys := (t.nodup.subperm hsubset).perm_of_length_le hlength
  intro name
  by_cases hname : name ∈ t.keys
  · obtain ⟨e, he, rfl⟩ := List.mem_map.1 hname
    rw [get?_of_mem_entries he, hentries e he]
  · rw [get?_eq_none_iff.2 hname, get?_eq_none_iff.2 (mt hkeys.mem_iff.2 hname)]

/-- Lists that are sorted into the same list have the same members. -/
theorem perm_of_sortByText_eq {α : Type} {text : α → String} {xs ys : List α}
    (h : sortByText text xs = sortByText text ys) : xs.Perm ys := by
  have hsorted (xs : List α) : (sortByText text xs).Perm xs := List.mergeSort_perm xs _
  exact (hsorted xs).symm.trans (h ▸ hsorted ys)

namespace Delta

variable {a b c d : Delta}

/-- Two deltas are equal in every field, lists compared without their order and tables as what they
hold. -/
structure UpToOrder (a b : Delta) : Prop where
  attributes : a.attributes.Same b.attributes
  skills : a.skills.Same b.skills
  tiers : a.tiers.Same b.tiers
  weapon : a.weapon.Same b.weapon
  magic : a.magic.Same b.magic
  crafting : a.crafting.Same b.crafting
  mitigation : a.mitigation.Same b.mitigation
  resources : a.resources.Same b.resources
  movement : a.movement.Same b.movement
  weaponRanges : a.weaponRanges.Same b.weaponRanges
  features : a.features.Same b.features
  immunities : a.immunities = b.immunities
  abilities : a.abilities.Perm b.abilities
  traits : a.traits.Perm b.traits
  gated : ∀ gate, Option.Rel List.Perm (a.gated.get? gate) (b.gated.get? gate)
  flags : a.flags.Same b.flags

/-! ## Views decide -/

theorem traits_perm_of_same (ha : a.Normal) (hb : b.Normal)
    (h : a.canonical.same b.canonical = true) : a.traits.Perm b.traits := by
  have hperm := views_perm_of_same h
  have hmem {a b : Delta} (ha : a.Normal) (hb : b.Normal)
      (h : (a.traits.map Trait.view).Perm (b.traits.map Trait.view)) {t : Trait}
      (ht : t ∈ a.traits) : t ∈ b.traits := by
    obtain ⟨u, hu, hview⟩ := List.mem_map.1 (h.mem_iff.1 (List.mem_map_of_mem ht))
    rwa [← (hb.traits u hu).eq_of_view (ha.traits t ht) hview]
  refine (List.perm_ext_iff_of_nodup ha.codes.of_map hb.codes.of_map).2 fun t ↦ ?_
  exact ⟨hmem ha hb hperm, hmem hb ha hperm.symm⟩

theorem upToOrder_of_same (ha : a.Normal) (hb : b.Normal)
    (h : a.canonical.same b.canonical = true) : a.UpToOrder b := by
  have htraits := traits_perm_of_same ha hb h
  simp only [Canonical.same, canonical, Bool.and_eq_true, beq_iff_eq, Table.same_iff,
    ha.filter_flags, hb.filter_flags] at h
  obtain ⟨⟨⟨⟨⟨⟨⟨⟨⟨⟨⟨⟨⟨⟨⟨hattributes, hskills⟩, htiers⟩, hweapon⟩, hmagic⟩, hcrafting⟩,
    hmitigation⟩, hresources⟩, hmovement⟩, hranges⟩, hfeatures⟩, himmunities⟩, habilities⟩,
    -⟩, hgated⟩, hflags⟩ := h
  exact
    { attributes := hattributes
      skills := hskills
      tiers := htiers
      weapon := hweapon
      magic := hmagic
      crafting := hcrafting
      mitigation := hmitigation
      resources := hresources
      movement := hmovement
      weaponRanges := hranges
      features := hfeatures
      immunities := NameSet.ext_mem fun name ↦ by
        rw [← NameSet.mem_names, ← NameSet.mem_names, himmunities]
      abilities := perm_of_sortByText_eq habilities
      traits := htraits
      gated := fun gate ↦ by
        have hgate := hgated gate
        rw [Table.map, Table.map, Table.get?_mapWithKey, Table.get?_mapWithKey] at hgate
        cases hes : a.gated.get? gate with
        | none =>
          cases hfs : b.gated.get? gate with
          | none => exact .none
          | some fs => simp [hes, hfs] at hgate
        | some es =>
          cases hfs : b.gated.get? gate with
          | none => simp [hes, hfs] at hgate
          | some fs =>
            rw [hes, hfs] at hgate
            exact .some (perm_of_sortByText_eq (Option.some.inj hgate))
      flags := hflags }

/-- Deltas of the normal form have the names of the schema in one order. -/
theorem UpToOrder.alike (h : a.UpToOrder b) (ha : a.Normal) (hb : b.Normal) : a.Alike b where
  attributes := Table.ext_get? (ha.attributes.trans hb.attributes.symm) h.attributes
  skills := Table.ext_get? (ha.skills.trans hb.skills.symm) h.skills
  tiers := Table.ext_get? (ha.tiers.trans hb.tiers.symm) h.tiers
  weapon := Table.ext_get? (ha.weapon.trans hb.weapon.symm) h.weapon
  magic := Table.ext_get? (ha.magic.trans hb.magic.symm) h.magic
  crafting := Table.ext_get? (ha.crafting.trans hb.crafting.symm) h.crafting
  mitigation := Table.ext_get? (ha.mitigation.trans hb.mitigation.symm) h.mitigation
  resources := Table.ext_get? (ha.resources.trans hb.resources.symm) h.resources
  movement := Table.ext_get? (ha.movement.trans hb.movement.symm) h.movement
  weaponRanges := Table.ext_get? (ha.weaponRanges.trans hb.weaponRanges.symm) h.weaponRanges
  features := Table.ext_get? (ha.features.trans hb.features.symm) h.features
  immunities := h.immunities
  abilities := h.abilities
  gated := fun gate ↦ by
    have hgate := h.gated gate
    unfold Table.getD
    generalize a.gated.get? gate = es at hgate
    generalize b.gated.get? gate = fs at hgate
    cases hgate with
    | none => exact .refl _
    | some hperm => exact hperm
  flags := h.flags

theorem Normal.canonical_same_iff (ha : a.Normal) (hb : b.Normal) :
    a.canonical.same b.canonical = true ↔ a.UpToOrder b :=
  ⟨upToOrder_of_same ha hb, fun h ↦ (h.alike ha hb).canonical_same h.traits ha hb⟩

/-! ## Views and merging -/

theorem Alike.absorb (h : a.Alike b) (h' : c.Alike d) : (a.absorb c).Alike (b.absorb d) where
  attributes := by simp only [Delta.absorb, h.attributes, h'.attributes]
  skills := by simp only [Delta.absorb, h.skills, h'.skills]
  tiers := by simp only [Delta.absorb, h.tiers, h'.tiers]
  weapon := by simp only [Delta.absorb, h.weapon, h'.weapon]
  magic := by simp only [Delta.absorb, h.magic, h'.magic]
  crafting := by simp only [Delta.absorb, h.crafting, h'.crafting]
  mitigation := by simp only [Delta.absorb, h.mitigation, h'.mitigation]
  resources := by simp only [Delta.absorb, h.resources, h'.resources]
  movement := by simp only [Delta.absorb, h.movement, h'.movement]
  weaponRanges := by simp only [Delta.absorb, h.weaponRanges, h'.weaponRanges]
  features := by simp only [Delta.absorb, h.features, h'.features]
  immunities := by simp only [Delta.absorb, h.immunities, h'.immunities]
  abilities := h.abilities.append h'.abilities
  gated := fun gate ↦ by
    rw [gated_absorb, gated_absorb]
    exact (h.gated gate).append (h'.gated gate)
  flags := fun name ↦ by
    have hraised (d e : Delta) : (d.absorb e).flags.get? name = _ :=
      get?_raiseFlags d.flags e.flags name
    rw [hraised, hraised, h.flags name, h'.flags name]

/-- What traits are folded into depends on each code alone, and each code comes up once. -/
theorem traits_absorb_perm (ha : a.Normal) (hc : c.Normal) (h : a.traits.Perm b.traits)
    (h' : c.traits.Perm d.traits) : (a.absorb c).traits.Perm (b.absorb d).traits := by
  refine Trait.perm_of_ofCode fun code ↦ ?_
  have hfold (d e : Delta) : Trait.ofCode code (d.absorb e).traits =
      (Trait.ofCode code e.traits).foldl CharacterSheet.addTrait (Trait.ofCode code d.traits) :=
    Trait.ofCode_foldl_addTrait e.traits d.traits code
  rw [hfold, hfold, Trait.ofCode_perm ha.codes h, Trait.ofCode_perm hc.codes h']

/-- Deltas with one view are merged into deltas with one view. -/
theorem canonical_same_merge (ha : a.Normal) (hb : b.Normal) (hc : c.Normal) (hd : d.Normal)
    (h : a.canonical.same b.canonical = true) (h' : c.canonical.same d.canonical = true) :
    (a.merge c).canonical.same (b.merge d).canonical = true := by
  have hab := (ha.canonical_same_iff hb).1 h
  have hcd := (hc.canonical_same_iff hd).1 h'
  have halike : (a.merge c).Alike (b.merge d) := by
    rw [merge_eq_absorb ha, merge_eq_absorb hb]
    exact (hab.alike ha hb).absorb (hcd.alike hc hd)
  have htraits : (a.merge c).traits.Perm (b.merge d).traits := by
    rw [merge_eq_absorb ha, merge_eq_absorb hb]
    exact traits_absorb_perm ha hc hab.traits hcd.traits
  exact halike.canonical_same htraits (ha.merge hc) (hb.merge hd)

theorem Normal.canonical_same_self (ha : a.Normal) : a.canonical.same a.canonical = true := by
  have halike : a.Alike a := by
    refine ⟨rfl, rfl, rfl, rfl, rfl, rfl, rfl, rfl, rfl, rfl, rfl, rfl, .refl _, ?_, ?_⟩
    · exact fun gate ↦ .refl _
    · exact fun name ↦ rfl
  exact halike.canonical_same (.refl _) ha ha

/-- Deltas that come from reading and merging have a canonical view.  Two have the same view exactly
when they are equal but for the order of their lists, and then either of them can be put for the
other in a merge, first or second. -/
theorem canonical_decides_upToOrder :
    (∀ d : Delta, d.Produced → d.Writable) ∧
    (∀ a b : Delta, a.Produced → b.Produced →
      (a.canonical.same b.canonical = true ↔ a.UpToOrder b)) ∧
    ∀ a b c : Delta, a.Produced → b.Produced → c.Produced →
      a.canonical.same b.canonical = true →
        (a.merge c).canonical.same (b.merge c).canonical = true ∧
          (c.merge a).canonical.same (c.merge b).canonical = true := by
  refine ⟨fun d hd ↦ hd.writable, fun a b ha hb ↦ ha.normal.canonical_same_iff hb.normal, ?_⟩
  intro a b c ha hb hc h
  have hself := hc.normal.canonical_same_self
  constructor
  · exact canonical_same_merge ha.normal hb.normal hc.normal hc.normal h hself
  · exact canonical_same_merge hc.normal hc.normal ha.normal hb.normal hself h

/-- Codes with energies whose order as numbers is not their order as texts. -/
def errand : List Delta :=
  [ofText "TC:XINE=10:CA[SSA=1]", ofText "TG=wild:XINE=9:CA[SSB=2]"]

/-- An errand in both orders, before and after a craft; a craft with a payload is told from one
without. -/
theorem canonical_decides_upToOrder_errand :
    (mergeAll errand).Writable ∧ (mergeAll errand).UpToOrder (mergeAll errand.reverse) ∧
      ((mergeAll errand).merge (ofText "TC=smith")).canonical.same
          ((mergeAll errand.reverse).merge (ofText "TC=smith")).canonical = true ∧
      ¬ (ofText "TC").UpToOrder (ofText "TC=smith") := by
  have herrand : ∀ d ∈ errand, d.Produced := by simp [errand, produced_ofText]
  have hmerged : (mergeAll errand).Produced := .mergeAll herrand
  have hreversed : (mergeAll errand.reverse).Produced := by
    apply Produced.mergeAll
    intro d hd
    exact herrand d (List.mem_reverse.1 hd)
  have hsame : (mergeAll errand).canonical.same (mergeAll errand.reverse).canonical = true := by
    apply canonical_mergeAll_same (fun d hd ↦ (herrand d hd).normal)
    · decide +kernel
    · exact (List.reverse_perm errand).symm
  obtain ⟨hwritable, hdecides, hcongruence⟩ := canonical_decides_upToOrder
  have hcraft := produced_ofText
  refine ⟨hwritable _ hmerged, (hdecides _ _ hmerged hreversed).1 hsame, ?_, ?_⟩
  · exact (hcongruence _ _ _ hmerged hreversed (hcraft "TC=smith") hsame).1
  · rw [← hdecides _ _ (hcraft "TC") (hcraft "TC=smith")]
    decide +kernel

end Delta

end CharacterSheet
