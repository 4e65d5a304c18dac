import CharacterSheet.Proofs.Delta.Merge
import CharacterSheet.Proofs.Delta.TraitOrder
import Mathlib.Data.List.Nodup
import Mathlib.Data.List.Pairwise

/-!
# Merging in another order

Deltas of the normal form are folded together one after the other.  In another order they lead to
the same numbers and the same sets; the lists hold the same members, and the traits differ at most
in the payloads that several deltas give to one code.
-/

namespace CharacterSheet

namespace Table

variable {α : Type} {zero : α} {op : String → α → α → α}

/-- Two tables of the same names can be folded into a third one in either order. -/
theorem absorb_right_comm (t : Table α) {u v : Table α} (hkeys : u.keys = v.keys)
    (hop : ∀ k a b c, op k (op k a b) c = op k (op k a c) b) :
    (t.absorb zero op u).absorb zero op v = (t.absorb zero op v).absorb zero op u := by
  have hold (u v : Table α) (h : u.keys = v.keys) :
      ((t.absorb zero op u).absorb zero op v).keys = (t.absorb zero op u).keys :=
    keys_absorb_of_subset fun k hk ↦ mem_keys_absorb.2 (.inr (h ▸ hk))
  refine ext_get? ?_ fun k ↦ ?_
  · rw [hold u v hkeys, hold v u hkeys.symm, keys_absorb, keys_absorb, hkeys]
  · simp only [get?_absorb, getD_absorb]
    cases hu : u.get? k <;> cases hv : v.get? k <;> simp [hop]

end Table

namespace NameSet

theorem union_right_comm (s t u : NameSet) : (s.union t).union u = (s.union u).union t := by
  refine ext_mem fun name ↦ ?_
  simp only [mem_union]
  exact or_right_comm

end NameSet

theorem SkillGain.add_right_comm (a b c : SkillGain) : (a.add b).add c = (a.add c).add b := by
  rw [add_assoc, add_comm b c, ← add_assoc]

namespace Delta

variable {a b : Delta} {ds es : List Delta}

/-- Two deltas contribute the same, but for traits; lists and flags may be in another order. -/
structure Alike (a b : Delta) : Prop where
  attributes : a.attributes = b.attributes
  skills : a.skills = b.skills
  tiers : a.tiers = b.tiers
  weapon : a.weapon = b.weapon
  magic : a.magic = b.magic
  crafting : a.crafting = b.crafting
  mitigation : a.mitigation = b.mitigation
  resources : a.resources = b.resources
  movement : a.movement = b.movement
  weaponRanges : a.weaponRanges = b.weaponRanges
  features : a.features = b.features
  immunities : a.immunities = b.immunities
  abilities : a.abilities.Perm b.abilities
  gated : ∀ gate, (a.gated.getD gate []).Perm (b.gated.getD gate [])
  flags : a.flags.Same b.flags

/-! ## Folds of deltas, field by field -/

theorem foldl_merge_eq_foldl_absorb (ha : a.Rooted) (ds : List Delta) :
    ds.foldl merge a = ds.foldl absorb a := by
  induction ds generalizing a with
  | nil => rfl
  | cons d ds ih =>
    rw [List.foldl_cons, List.foldl_cons, ← ha.merge_eq_absorb]
    exact ih (rooted_merge a d)

theorem mergeAll_eq_foldl_absorb (ds : List Delta) : mergeAll ds = ds.foldl absorb empty :=
  foldl_merge_eq_foldl_absorb rooted_empty ds

/-- A table that each delta is folded into is the same in every order. -/
theorem foldl_absorb_perm {α : Type} {field : Delta → Table α} {zero : α}
    {op : String → α → α → α} {names : List String}
    (hfield : ∀ d e : Delta, field (d.absorb e) = (field d).absorb zero op (field e))
    (hop : ∀ k a b c, op k (op k a b) c = op k (op k a c) b)
    (hnames : ∀ d ∈ ds, (field d).keys = names) (h : ds.Perm es) (d : Delta) :
    field (ds.foldl absorb d) = field (es.foldl absorb d) := by
  have hhom (ds : List Delta) : ds.foldl (fun t e ↦ t.absorb zero op (field e)) (field d) =
      field (ds.foldl absorb d) := List.foldl_hom field fun d e ↦ (hfield d e).symm
  rw [← hhom, ← hhom]
  refine h.foldl_eq' (fun a ha b hb t ↦ ?_) _
  exact t.absorb_right_comm ((hnames a ha).trans (hnames b hb).symm) hop

theorem immunities_foldl_absorb_perm (h : ds.Perm es) (d : Delta) :
    (ds.foldl absorb d).immunities = (es.foldl absorb d).immunities := by
  have hhom (ds : List Delta) : ds.foldl (fun s e ↦ s.union e.immunities) d.immunities =
      (ds.foldl absorb d).immunities := List.foldl_hom immunities fun _ _ ↦ rfl
  rw [← hhom, ← hhom]
  exact h.foldl_eq' (fun a _ b _ s ↦ s.union_right_comm a.immunities b.immunities) _

theorem abilities_foldl_absorb (ds : List Delta) (d : Delta) :
    (ds.foldl absorb d).abilities = d.abilities ++ ds.flatMap abilities := by
  induction ds generalizing d with
  | nil => exact (List.append_nil _).symm
  | cons e ds ih =>
    rw [List.foldl_cons, ih, List.flatMap_cons, ← List.append_assoc]
    rfl

theorem gated_foldl_absorb (ds : List Delta) (d : Delta) (gate : String) :
    (ds.foldl absorb d).gated.getD gate [] =
      d.gated.getD gate [] ++ ds.flatMap fun e ↦ e.gated.getD gate [] := by
  induction ds generalizing d with
  | nil => exact (List.append_nil _).symm
  | cons e ds ih =>
    rw [List.foldl_cons, ih, gated_absorb, List.flatMap_cons, List.append_assoc]

theorem traits_foldl_absorb (ds : List Delta) (d : Delta) :
    (ds.foldl absorb d).traits =
      (ds.flatMap traits).foldl CharacterSheet.addTrait d.traits := by
  rw [List.foldl_flatMap]
  exact (List.foldl_hom traits fun _ _ ↦ rfl).symm

theorem get?_raiseFlags (flags other : Table Bool) (name : String) :
    (raiseFlags flags other).get? name =
      if other.get? name = some true then some true else flags.get? name := by
  rw [raiseFlags_eq_absorb, Table.get?_absorb, Table.get?_filter]
  cases other.get? name with
  | none => rfl
  | some on => cases on <;> rfl

/-- A flag is on after some deltas were folded in if one of them has raised it. -/
theorem get?_flags_foldl_absorb (ds : List Delta) (d : Delta) (name : String) :
    (ds.foldl absorb d).flags.get? name =
      if ds.any (fun e ↦ e.flags.get? name = some true) then some true else d.flags.get? name := by
  induction ds generalizing d with
  | nil => rfl
  | cons e ds ih =>
    have hflags : (d.absorb e).flags.get? name = _ := get?_raiseFlags d.flags e.flags name
    rw [List.foldl_cons, ih, hflags, List.any_cons]
    by_cases he : e.flags.get? name = some true <;> simp [he]

theorem sum_right_comm (k : String) (a b c : Int) : sum k (sum k a b) c = sum k (sum k a c) b :=
  Int.add_right_comm a b c

theorem combineFeature_right_comm (k : String) (a b c : Int) :
    combineFeature k (combineFeature k a b) c = combineFeature k (combineFeature k a c) b := by
  unfold combineFeature
  split
  · omega
  · omega

/-- Merged in another order, deltas of the normal form contribute the same, but for traits. -/
theorem alike_mergeAll (hds : ∀ d ∈ ds, d.Normal) (h : ds.Perm es) :
    (mergeAll ds).Alike (mergeAll es) := by
  have hgain (_ : String) (a b c : SkillGain) : (a.add b).add c = (a.add c).add b :=
    SkillGain.add_right_comm a b c
  rw [mergeAll_eq_foldl_absorb, mergeAll_eq_foldl_absorb]
  exact
    { attributes := foldl_absorb_perm (fun _ _ ↦ rfl) sum_right_comm
        (fun d hd ↦ (hds d hd).attributes) h empty
      skills := foldl_absorb_perm (fun _ _ ↦ rfl) sum_right_comm
        (fun d hd ↦ (hds d hd).skills) h empty
      tiers := foldl_absorb_perm (fun _ _ ↦ rfl) sum_right_comm
        (fun d hd ↦ (hds d hd).tiers) h empty
      weapon := foldl_absorb_perm (fun _ _ ↦ rfl) hgain (fun d hd ↦ (hds d hd).weapon) h empty
      magic := foldl_absorb_perm (fun _ _ ↦ rfl) hgain (fun d hd ↦ (hds d hd).magic) h empty
      crafting := foldl_absorb_perm (fun _ _ ↦ rfl) hgain
        (fun d hd ↦ (hds d hd).crafting) h empty
      mitigation := foldl_absorb_perm (fun _ _ ↦ rfl) sum_right_comm
        (fun d hd ↦ (hds d hd).mitigation) h empty
      resources := foldl_absorb_perm (fun _ _ ↦ rfl) sum_right_comm
        (fun d hd ↦ (hds d hd).resources) h empty
      movement := foldl_absorb_perm (fun _ _ ↦ rfl) sum_right_comm
        (fun d hd ↦ (hds d hd).movement) h empty
      weaponRanges := foldl_absorb_perm (fun _ _ ↦ rfl) sum_right_comm
        (fun d hd ↦ (hds d hd).weaponRanges) h empty
      features := foldl_absorb_perm (fun _ _ ↦ rfl) combineFeature_right_comm
        (fun d hd ↦ (hds d hd).features) h empty
      immunities := immunities_foldl_absorb_perm h empty
      abilities := by
        rw [abilities_foldl_absorb, abilities_foldl_absorb]
        exact (h.flatMap_right abilities).append_left _
      gated := fun gate ↦ by
        rw [gated_foldl_absorb, gated_foldl_absorb]
        exact (h.flatMap_right _).append_left _
      flags := fun name ↦ by
        rw [get?_flags_foldl_absorb, get?_flags_foldl_absorb, h.any_eq] }

/-! ## Traits of merged deltas -/

/-- Two deltas give different payloads to one trait code. -/
def Conflicts (a b : Delta) : Prop := ∃ t ∈ a.traits, ∃ u ∈ b.traits, t.Contradicts u

instance (a b : Delta) : Decidable (a.Conflicts b) :=
  inferInstanceAs (Decidable (∃ t ∈ a.traits, ∃ u ∈ b.traits, t.Contradicts u))

theorem Conflicts.symm (h : a.Conflicts b) : b.Conflicts a := by
  obtain ⟨t, ht, u, hu, hcontradicts⟩ := h
  exact ⟨u, hu, t, ht, hcontradicts.symm⟩

/-- A code comes up once among the traits of a delta, so these do not contradict each other. -/
theorem Normal.not_conflicts_self (ha : a.Normal) : ¬ a.Conflicts a := by
  rintro ⟨t, ht, u, hu, hcode, p, q, hp, hq, hne⟩
  obtain rfl := List.inj_on_of_nodup_map ha.codes ht hu hcode
  exact hne (Option.some.inj (hp.symm.trans hq))

theorem traits_mergeAll (ds : List Delta) :
    (mergeAll ds).traits = (ds.flatMap traits).foldl CharacterSheet.addTrait [] := by
  rw [mergeAll_eq_foldl_absorb, traits_foldl_absorb]
  rfl

theorem regular_of_mem_flatMap (hds : ∀ d ∈ ds, d.Normal) : ∀ t ∈ ds.flatMap traits, t.Regular := by
  intro t ht
  obtain ⟨d, hd, ht⟩ := List.mem_flatMap.1 ht
  exact (hds d hd).traits t ht

/-- Without conflicts the traits are the same in every order. -/
theorem traits_mergeAll_perm (hds : ∀ d ∈ ds, d.Normal)
    (hconflicts : ds.Pairwise fun d e ↦ ¬ d.Conflicts e) (h : ds.Perm es) :
    (mergeAll ds).traits.Perm (mergeAll es).traits := by
  have : Std.Symm fun d e : Delta ↦ ¬ d.Conflicts e := ⟨fun _ _ h h' ↦ h h'.symm⟩
  have hnone := hconflicts.forall_of_forall fun d hd ↦ (hds d hd).not_conflicts_self
  rw [traits_mergeAll, traits_mergeAll]
  refine Trait.perm_of_ofCode fun code ↦ ?_
  refine Trait.ofCode_foldl_addTrait_perm (h.flatMap_right traits) (regular_of_mem_flatMap hds)
    ?_ []
  intro t ht u hu _ hcontradicts
  obtain ⟨d, hd, ht⟩ := List.mem_flatMap.1 ht
  obtain ⟨e, he, hu⟩ := List.mem_flatMap.1 hu
  exact hnone hd he ⟨t, ht, u, hu, hcontradicts⟩

end Delta

end CharacterSheet
