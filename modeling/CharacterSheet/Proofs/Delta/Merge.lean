import CharacterSheet.Proofs.Delta.Rooted

/-!
# Merging deltas

Merging is associative, whatever is merged, and what it leads to has the empty delta for its neutral
element; on such deltas a merge is the fold of the second into the first.  The normal form is kept.
A contribution that is added to the second delta can as well be added to the fold of both: this is
what ties reading to merging.
-/

namespace CharacterSheet

open DataCode (Contribution)

namespace Delta

variable {a b c d e : Delta}

/-! ## The normal form -/

theorem dualWield_absorb (d : Delta) (he : e.Normal) :
    (d.absorb e).features.getD Schema.dualWieldTier 0 =
      max (d.features.getD Schema.dualWieldTier 0) (e.features.getD Schema.dualWieldTier 0) := by
  have hmem : Schema.dualWieldTier ∈ e.features.keys := by
    rw [he.features]
    exact List.mem_cons_self
  show (d.features.absorb 0 combineFeature e.features).getD Schema.dualWieldTier 0 = _
  rw [Table.getD_absorb, Table.get?_of_mem_keys hmem 0]
  rfl

theorem regular_foldl_addTrait {ts us : List Trait} (hts : ∀ t ∈ ts, t.Regular)
    (hus : ∀ u ∈ us, u.Regular) : ∀ t ∈ us.foldl CharacterSheet.addTrait ts, t.Regular := by
  induction us generalizing ts with
  | nil => exact hts
  | cons u us ih =>
    apply ih
    · exact regular_addTrait hts (hus u List.mem_cons_self)
    · intro v hv
      exact hus v (List.mem_cons_of_mem u hv)

theorem Normal.absorb (hd : d.Normal) (he : e.Normal) : (d.absorb e).Normal where
  attributes := Table.keys_absorb_of_keys_eq hd.attributes he.attributes _
  skills := Table.keys_absorb_of_keys_eq hd.skills he.skills _
  tiers := Table.keys_absorb_of_keys_eq hd.tiers he.tiers _
  weapon := Table.keys_absorb_of_keys_eq hd.weapon he.weapon _
  magic := Table.keys_absorb_of_keys_eq hd.magic he.magic _
  crafting := Table.keys_absorb_of_keys_eq hd.crafting he.crafting _
  mitigation := Table.keys_absorb_of_keys_eq hd.mitigation he.mitigation _
  resources := Table.keys_absorb_of_keys_eq hd.resources he.resources _
  movement := Table.keys_absorb_of_keys_eq hd.movement he.movement _
  weaponRanges := Table.keys_absorb_of_keys_eq hd.weaponRanges he.weaponRanges _
  features := Table.keys_absorb_of_keys_eq hd.features he.features _
  dualWield := by
    rw [dualWield_absorb d he]
    exact dualWield_max hd.dualWield he.dualWield
  immunities := by
    intro name hname
    rcases NameSet.mem_union.1 hname with h | h
    · exact hd.immunities name h
    · exact he.immunities name h
  abilities := by
    intro ability h
    rcases List.mem_append.1 h with h | h
    · exact hd.abilities ability h
    · exact he.abilities ability h
  codes := nodup_code_foldl_addTrait e.traits hd.codes
  traits := regular_foldl_addTrait hd.traits he.traits
  gated := Table.keys_absorb_of_keys_eq hd.gated he.gated _
  effects := by
    intro gate effect h
    rw [gated_absorb] at h
    rcases List.mem_append.1 h with h | h
    · exact hd.effects gate effect h
    · exact he.effects gate effect h
  raised := by
    intro name on h
    have h : (raiseFlags d.flags e.flags).get? name = some on := h
    rw [raiseFlags_eq_absorb, he.filter_flags] at h
    exact raised_absorb hd.raised he.raised h
  flags := by
    intro name h
    have h : name ∈ (raiseFlags d.flags e.flags).keys := h
    rw [raiseFlags_eq_absorb, he.filter_flags] at h
    rcases Table.mem_keys_absorb.1 h with h | h
    · exact hd.flags name h
    · exact he.flags name h

/-! ## Merging -/

theorem Rooted.merge_eq_absorb (ha : a.Rooted) (b : Delta) : a.merge b = a.absorb b := by
  rw [Delta.merge, empty_absorb ha]

theorem merge_eq_absorb (ha : a.Normal) (b : Delta) : a.merge b = a.absorb b :=
  ha.rooted.merge_eq_absorb b

/-- A merge is rooted, whatever is merged. -/
theorem rooted_merge (a b : Delta) : (a.merge b).Rooted := (rooted_empty.absorb a).absorb b

theorem rooted_foldl_merge (ha : a.Rooted) (ds : List Delta) : (ds.foldl merge a).Rooted := by
  induction ds generalizing a with
  | nil => exact ha
  | cons d ds ih => exact ih (rooted_merge a d)

theorem rooted_mergeAll (ds : List Delta) : (mergeAll ds).Rooted :=
  rooted_foldl_merge rooted_empty ds

theorem Rooted.merge_empty (hd : d.Rooted) : d.merge empty = d := by
  rw [hd.merge_eq_absorb, absorb_empty hd]

theorem Rooted.empty_merge (hd : d.Rooted) : empty.merge d = d := by
  rw [rooted_empty.merge_eq_absorb, empty_absorb hd]

theorem merge_assoc (a b c : Delta) : (a.merge b).merge c = a.merge (b.merge c) := by
  have hrooted := rooted_empty.absorb a
  -- What stands in the middle grows out of the empty delta, also where `b` does not.
  have hmiddle : (empty.absorb a).absorb (empty.absorb b) = (empty.absorb a).absorb b := by
    rw [← absorb_assoc rooted_empty, absorb_empty hrooted]
  calc (a.merge b).merge c
      = (a.merge b).absorb c := (rooted_merge a b).merge_eq_absorb c
    _ = ((empty.absorb a).absorb (empty.absorb b)).absorb c := by rw [hmiddle, merge]
    _ = a.merge (b.merge c) := absorb_assoc (rooted_empty.absorb b)

theorem foldl_merge (a b : Delta) (ds : List Delta) :
    ds.foldl merge (a.merge b) = a.merge (ds.foldl merge b) := by
  induction ds generalizing b with
  | nil => rfl
  | cons d ds ih => rw [List.foldl_cons, List.foldl_cons, merge_assoc, ih]

theorem mergeAll_append (xs ys : List Delta) :
    mergeAll (xs ++ ys) = (mergeAll xs).merge (mergeAll ys) := by
  calc mergeAll (xs ++ ys)
      = ys.foldl merge ((mergeAll xs).merge empty) := by
        rw [(rooted_mergeAll xs).merge_empty, mergeAll, List.foldl_append, mergeAll]
    _ = (mergeAll xs).merge (mergeAll ys) := foldl_merge _ _ ys

/-- A list of deltas is merged from either end. -/
theorem mergeAll_cons (hd : d.Normal) (ds : List Delta) :
    mergeAll (d :: ds) = d.merge (mergeAll ds) := by
  have hone : mergeAll [d] = d := hd.rooted.empty_merge
  rw [← List.singleton_append, mergeAll_append, hone]

theorem Normal.merge (ha : a.Normal) (hb : b.Normal) : (a.merge b).Normal :=
  merge_eq_absorb ha b ▸ ha.absorb hb

theorem Normal.mergeAll {ds : List Delta} (h : ∀ d ∈ ds, d.Normal) : (mergeAll ds).Normal := by
  induction ds with
  | nil => exact normal_empty
  | cons d ds ih =>
    have hd := h d List.mem_cons_self
    rw [mergeAll_cons hd]
    exact hd.merge (ih fun e he ↦ h e (List.mem_cons_of_mem d he))

/-! ## Merging and adding -/

/-- A flag that is on already is raised again in its old place. -/
theorem Normal.raiseFlags_set (he : e.Normal) (flags : Table Bool) {name : String}
    (hc : (Contribution.flag name).Fits) :
    raiseFlags flags (e.flags.set name true) = (raiseFlags flags e.flags).set name true := by
  by_cases hname : name ∈ e.flags.keys
  · have hon : e.flags.get? name = some true := by
      rw [Table.get?_of_mem_keys hname false]
      exact congrArg some (he.raised name _ (Table.get?_of_mem_keys hname false))
    have hraised : (raiseFlags flags e.flags).get? name = some true := by
      rw [raiseFlags_eq_absorb, he.filter_flags, Table.get?_absorb, hon]
    rw [Table.set_eq_self hon, Table.set_eq_self hraised]
  · have hflags := (he.add hc).filter_flags
    simp only [Delta.add] at hflags
    rw [raiseFlags_eq_absorb, raiseFlags_eq_absorb, he.filter_flags, hflags]
    exact Table.absorb_set_of_not_mem flags hname true

/-- A contribution to the second of two deltas is a contribution to both together. -/
theorem absorb_add (d : Delta) (he : e.Normal) {c : Contribution} (hc : c.Fits) :
    d.absorb (e.add c) = (d.absorb e).add c := by
  have hnumbers (t : Table Int) {u : Table Int} {names : List String} (hu : u.keys = names)
      {name : String} (h : name ∈ names) (n : Int) :
      t.absorb 0 sum (u.update name 0 (· + n)) = (t.absorb 0 sum u).update name 0 (· + n) :=
    Table.absorb_update t (hu ▸ h) fun l m ↦ (Int.add_assoc l m n).symm
  have hgains (t : Table SkillGain) {u : Table SkillGain} {names : List String}
      (hu : u.keys = names) {name : String} (h : name ∈ names) (g : SkillGain) :
      t.absorb .zero (fun _ ↦ SkillGain.add) (u.update name .zero (·.add g)) =
        (t.absorb .zero (fun _ ↦ SkillGain.add) u).update name .zero (·.add g) :=
    Table.absorb_update t (hu ▸ h) fun l m ↦ (SkillGain.add_assoc l m g).symm
  match c, hc with
  | .nothing, _ => rfl
  | .attribute name n, hc =>
    simp only [absorb, add, hnumbers d.attributes he.attributes hc]
  | .skill name n, hc => simp only [absorb, add, hnumbers d.skills he.skills hc]
  | .tier name n, hc => simp only [absorb, add, hnumbers d.tiers he.tiers hc]
  | .special .weapon name g, hc => simp only [absorb, add, hgains d.weapon he.weapon hc]
  | .special .magic name g, hc => simp only [absorb, add, hgains d.magic he.magic hc]
  | .special .crafting name g, hc =>
    simp only [absorb, add, hgains d.crafting he.crafting hc]
  | .mitigation name n, hc =>
    simp only [absorb, add, hnumbers d.mitigation he.mitigation hc]
  | .resource name n, hc => simp only [absorb, add, hnumbers d.resources he.resources hc]
  | .weaponRange name n, hc =>
    simp only [absorb, add, hnumbers d.weaponRanges he.weaponRanges hc]
  | .dualWield n, _ =>
    have hmem : Schema.dualWieldTier ∈ e.features.keys := by
      rw [he.features]
      exact List.mem_cons_self
    have hraise : d.features.absorb 0 combineFeature
        (e.features.update Schema.dualWieldTier 0 (max · n)) =
          (d.features.absorb 0 combineFeature e.features).update Schema.dualWieldTier 0
            (max · n) := by
      refine Table.absorb_update d.features hmem fun l m ↦ ?_
      simp only [combineFeature_dualWield]
      omega
    simp only [absorb, add, hraise]
  | .movement name n, hc => simp only [absorb, add, hnumbers d.movement he.movement hc]
  | .immunity name, _ =>
    have hunion : d.immunities.union (e.immunities.insert name) =
        (d.immunities.union e.immunities).insert name := by
      refine NameSet.ext_mem fun x ↦ ?_
      simp only [NameSet.mem_union, NameSet.mem_insert]
      exact or_left_comm
    simp only [absorb, add, hunion]
  | .flag name, hc => simp only [absorb, add, he.raiseFlags_set d.flags hc]
  | .trait t, _ =>
    have htraits := foldl_addTrait_addTrait he.codes t d.traits
    simp only [absorb, add, addTrait, htraits]
  | .ability ability, _ => simp only [absorb, add, List.append_assoc]
  | .gated gate effects, _ =>
    have hmem : gate.name ∈ e.gated.keys := by
      rw [he.gated]
      exact mem_schemaGates gate
    have hfiled : d.gated.absorb [] (fun _ ↦ List.append)
        (e.gated.update gate.name [] (· ++ effects)) =
          (d.gated.absorb [] (fun _ ↦ List.append) e.gated).update gate.name []
            (· ++ effects) :=
      Table.absorb_update d.gated hmem fun l m ↦ (List.append_assoc l m effects).symm
    simp only [absorb, add, hfiled]

end Delta

end CharacterSheet
