import CharacterSheet.Delta.Canonical
import CharacterSheet.Proofs.DataCode.Joining
import CharacterSheet.Proofs.Delta.Entry
import CharacterSheet.Proofs.Delta.Order
import CharacterSheet.Text.Blank
import Mathlib

/-!
# Merging is commutative up to canonical views

The members of a list in a canonical view are known by their written forms, so the view does not
show in which order they came.  Two deltas have the same view merged in either order exactly when
they do not give different payloads to one trait code, and a list of deltas of which no two do so
has one view in every order.
-/

namespace CharacterSheet

/-! ## Written forms -/

theorem eq_of_comma {a b c d : String} (ha : ',' ∉ a.toList) (hb : ',' ∉ b.toList)
    (h : a ++ (", " ++ c) = b ++ (", " ++ d)) : a = b ∧ c = d := by
  have hlists : a.toList ++ ',' :: ' ' :: c.toList = b.toList ++ ',' :: ' ' :: d.toList := by
    simpa using congrArg String.toList h
  have hpieces := congrArg (Text.splitAt ',') hlists
  rw [Text.splitAt_append, Text.splitAt_append, Text.splitAt_of_not_mem ha,
    Text.splitAt_of_not_mem hb] at hpieces
  obtain rfl := String.toList_injective (List.cons.inj hpieces).1
  simpa using h

theorem comma_not_mem_toString (b : Bool) : ',' ∉ (toString b).toList := by
  cases b <;> decide

theorem toString_bool_injective {a b : Bool} (h : toString a = toString b) : a = b := by
  revert a b
  decide

theorem AbilityKind.comma_not_mem_name (kind : AbilityKind) : ',' ∉ kind.name.toList := by
  cases kind <;> decide

theorem AbilityKind.name_injective {a b : AbilityKind} (h : a.name = b.name) : a = b := by
  cases a <;> cases b <;> first | rfl | exact absurd h (by decide)

theorem EffectKind.comma_not_mem_name (kind : EffectKind) : ',' ∉ kind.name.toList := by
  cases kind <;> decide

theorem EffectKind.name_injective {a b : EffectKind} (h : a.name = b.name) : a = b := by
  cases a <;> cases b <;> first | rfl | exact absurd h (by decide)

/-- The targets of effects are quoted as they are. -/
theorem quoted_target {kind : EffectKind} {name : String} (h : name ∈ kind.targets) :
    Text.quoted name = "'" ++ name ++ "'" ∧ ',' ∉ (Text.quoted name).toList := by
  have hall : ∀ name ∈ kind.targets,
      Text.quoted name = "'" ++ name ++ "'" ∧ ',' ∉ (Text.quoted name).toList := by
    cases kind <;> decide +kernel
  exact hall name h

/-- Abilities without a name are known by their written form. -/
theorem Ability.eq_of_writtenForm {a b : Ability} (ha : a.name = none) (hb : b.name = none)
    (h : a.writtenForm = b.writtenForm) : a = b := by
  obtain ⟨kind, daily, magical, energy, name⟩ := a
  obtain ⟨kind', daily', magical', energy', name'⟩ := b
  obtain rfl : name = none := ha
  obtain rfl : name' = none := hb
  simp only [writtenForm, String.append_assoc] at h
  obtain ⟨hkind, hrest⟩ := eq_of_comma kind.comma_not_mem_name kind'.comma_not_mem_name h
  obtain ⟨hdaily, hrest⟩ :=
    eq_of_comma (comma_not_mem_toString daily) (comma_not_mem_toString daily') hrest
  obtain ⟨hmagical, hrest⟩ :=
    eq_of_comma (comma_not_mem_toString magical) (comma_not_mem_toString magical') hrest
  have henergy := Int.repr_inj.1 ((String.append_left_inj _).1 hrest)
  obtain rfl := AbilityKind.name_injective hkind
  obtain rfl := toString_bool_injective hdaily
  obtain rfl := toString_bool_injective hmagical
  obtain rfl := henergy
  rfl

theorem GatedEffect.eq_of_writtenForm {a b : GatedEffect} (ha : a.Regular) (hb : b.Regular)
    (h : a.writtenForm = b.writtenForm) : a = b := by
  obtain ⟨kind, subtype, value⟩ := a
  obtain ⟨kind', subtype', value'⟩ := b
  obtain ⟨hquoted, hcomma⟩ := quoted_target ha.2
  obtain ⟨hquoted', hcomma'⟩ := quoted_target hb.2
  simp only [writtenForm, String.append_assoc] at h
  obtain ⟨hkind, hrest⟩ := eq_of_comma kind.comma_not_mem_name kind'.comma_not_mem_name h
  obtain ⟨hsubtype, hrest⟩ := eq_of_comma hcomma hcomma' hrest
  have hvalue := Int.repr_inj.1 ((String.append_left_inj _).1 hrest)
  rw [hquoted, hquoted', String.append_left_inj, String.append_right_inj] at hsubtype
  obtain rfl := EffectKind.name_injective hkind
  obtain rfl : subtype = subtype' := hsubtype
  obtain rfl := hvalue
  rfl

/-! ## Sorted lists -/

/-- Lists with the same members are sorted into the same list, if the text tells members apart. -/
theorem sortByText_eq_of_perm {α : Type} {text : α → String} {xs ys : List α} (h : xs.Perm ys)
    (htext : ∀ a ∈ xs, ∀ b ∈ xs, text a = text b → a = b) :
    sortByText text xs = sortByText text ys := by
  have hsorted (xs : List α) :
      (sortByText text xs).Pairwise fun a b ↦ decide (text a ≤ text b) = true := by
    refine List.pairwise_mergeSort (fun a b c hab hbc ↦ ?_) (fun a b ↦ ?_) xs
    · exact decide_eq_true (String.le_trans (of_decide_eq_true hab) (of_decide_eq_true hbc))
    · simpa using String.le_total (text a) (text b)
  have hperm (xs : List α) : (sortByText text xs).Perm xs := List.mergeSort_perm xs _
  have hsame : (sortByText text xs).Perm (sortByText text ys) :=
    (hperm xs).trans (h.trans (hperm ys).symm)
  refine hsame.eq_of_pairwise (fun a b ha hb hab hba ↦ ?_) (hsorted xs) (hsorted ys)
  have hmem : b ∈ xs := h.mem_iff.2 ((hperm ys).mem_iff.1 hb)
  exact htext a ((hperm xs).mem_iff.1 ha) b hmem
    (String.le_antisymm (of_decide_eq_true hab) (of_decide_eq_true hba))

namespace TraitView

/-- Views are ordered by code, then by kind, then by payload. -/
def key (v : TraitView) : String ×ₗ String ×ₗ String := toLex (v.code, toLex (v.kind, v.payload))

theorem eq_of_key {a b : TraitView} (h : a.key = b.key) : a = b := by
  obtain ⟨code, kind, payload⟩ := a
  obtain ⟨code', kind', payload'⟩ := b
  simpa [key] using h

theorem le_iff {a b : TraitView} : a.le b = true ↔ a.key ≤ b.key := by
  rw [key, key, Prod.Lex.toLex_le_toLex, Prod.Lex.toLex_le_toLex, le]
  by_cases hcode : a.code = b.code
  · by_cases hkind : a.kind = b.kind
    · simp [hcode, hkind]
    · simp [hcode, hkind, le_iff_lt_or_eq]
  · simp [hcode, le_iff_lt_or_eq]

theorem mergeSort_eq_of_perm {vs ws : List TraitView} (h : vs.Perm ws) :
    vs.mergeSort le = ws.mergeSort le := by
  have hsorted (vs : List TraitView) : (vs.mergeSort le).Pairwise fun a b ↦ a.le b = true := by
    refine List.pairwise_mergeSort (fun a b c hab hbc ↦ ?_) (fun a b ↦ ?_) vs
    · exact le_iff.2 (le_trans (le_iff.1 hab) (le_iff.1 hbc))
    · rw [Bool.or_eq_true, le_iff, le_iff]
      exact le_total a.key b.key
  have hsame : (vs.mergeSort le).Perm (ws.mergeSort le) :=
    (List.mergeSort_perm vs le).trans (h.trans (List.mergeSort_perm ws le).symm)
  refine hsame.eq_of_pairwise (fun a b _ _ hab hba ↦ ?_) (hsorted vs) (hsorted ws)
  exact eq_of_key (le_antisymm (le_iff.1 hab) (le_iff.1 hba))

end TraitView

/-! ## Views -/

theorem Table.same_of_same {α : Type} [BEq α] [LawfulBEq α] {t u : Table α} (h : t.Same u) :
    t.same u = true := by
  have hkeys (k : String) : k ∈ t.keys ↔ k ∈ u.keys := by
    rw [← not_iff_not, ← get?_eq_none_iff, ← get?_eq_none_iff, h k]
  have hsize : t.keys.length = u.keys.length :=
    ((List.perm_ext_iff_of_nodup t.nodup u.nodup).2 hkeys).length_eq
  simp only [same, Bool.and_eq_true, List.all_eq_true, beq_iff_eq]
  refine ⟨by simpa [keys, size] using hsize, fun e he ↦ ?_⟩
  rw [← h, get?_of_mem_entries he]

namespace Delta

variable {a b : Delta} {ds es : List Delta}

/-- Deltas that are alike, and have the same traits, have the same view. -/
theorem Alike.canonical_same (h : a.Alike b) (htraits : a.traits.Perm b.traits) (ha : a.Normal)
    (hb : b.Normal) : a.canonical.same b.canonical = true := by
  have habilities : sortByText Ability.writtenForm a.abilities =
      sortByText Ability.writtenForm b.abilities :=
    sortByText_eq_of_perm h.abilities fun x hx y hy hxy ↦
      Ability.eq_of_writtenForm (ha.abilities x hx).2 (ha.abilities y hy).2 hxy
  have hviews : (a.traits.map Trait.view).mergeSort TraitView.le =
      (b.traits.map Trait.view).mergeSort TraitView.le :=
    TraitView.mergeSort_eq_of_perm (htraits.map Trait.view)
  have hgated : a.gated.map (sortByText GatedEffect.writtenForm) =
      b.gated.map (sortByText GatedEffect.writtenForm) := by
    have hkeys : a.gated.keys = b.gated.keys := ha.gated.trans hb.gated.symm
    refine Table.ext_get? (by simpa [Table.map] using hkeys) fun gate ↦ ?_
    rw [Table.map, Table.map, Table.get?_mapWithKey, Table.get?_mapWithKey]
    by_cases hgate : gate ∈ a.gated.keys
    · rw [Table.get?_of_mem_keys hgate [], Table.get?_of_mem_keys (hkeys ▸ hgate) []]
      refine congrArg some (sortByText_eq_of_perm (h.gated gate) fun x hx y hy hxy ↦ ?_)
      exact GatedEffect.eq_of_writtenForm (ha.effects gate x hx) (ha.effects gate y hy) hxy
    · rw [Table.get?_eq_none_iff.2 hgate, Table.get?_eq_none_iff.2 (hkeys ▸ hgate)]
  simp only [Canonical.same, canonical, ha.filter_flags, hb.filter_flags, h.attributes, h.skills,
    h.tiers, h.weapon, h.magic, h.crafting, h.mitigation, h.resources, h.movement, h.weaponRanges,
    h.features, h.immunities, habilities, hviews, hgated, Table.same_self,
    Table.same_of_same h.flags, beq_self_eq_true, Bool.and_true]

theorem views_perm_of_same (h : a.canonical.same b.canonical = true) :
    (a.traits.map Trait.view).Perm (b.traits.map Trait.view) := by
  have hviews : (a.traits.map Trait.view).mergeSort TraitView.le =
      (b.traits.map Trait.view).mergeSort TraitView.le := by
    simp only [Canonical.same, Bool.and_eq_true, beq_iff_eq] at h
    exact h.1.1.2
  have hsorted (vs : List TraitView) : (vs.mergeSort TraitView.le).Perm vs :=
    List.mergeSort_perm vs _
  exact (hsorted _).symm.trans (hviews ▸ hsorted _)

theorem mem_views_of_same (h : a.canonical.same b.canonical = true) {t : Trait}
    (ht : t ∈ a.traits) : ∃ u ∈ b.traits, u.view = t.view := by
  have hmem := (views_perm_of_same h).mem_iff.1 (List.mem_map_of_mem ht)
  exact List.mem_map.1 hmem

theorem Normal.ofCode_traits (ha : a.Normal) {t : Trait} (ht : t ∈ a.traits) :
    Trait.ofCode t.code a.traits = [t] :=
  Trait.ofCode_of_mem ha.codes ht

/-- Of two traits with one code the merge keeps one, with the later payload. -/
theorem ofCode_traits_merge (ha : a.Normal) (hb : b.Normal) {t u : Trait} (ht : t ∈ a.traits)
    (hu : u ∈ b.traits) (hcode : t.code = u.code) :
    Trait.ofCode t.code (a.merge b).traits = [{ t with payload := u.payload <|> t.payload }] := by
  have hmerge : (a.merge b).traits = b.traits.foldl CharacterSheet.addTrait a.traits := by
    rw [merge_eq_absorb ha]
    rfl
  rw [hmerge, Trait.ofCode_foldl_addTrait, ha.ofCode_traits ht, hcode, hb.ofCode_traits hu]
  simp [CharacterSheet.addTrait, hcode]

/-- Deltas in conflict do not have the same view in both orders: each order shows the payload of the
delta that comes last. -/
theorem Conflicts.canonical_merge_not_same (ha : a.Normal) (hb : b.Normal) (h : a.Conflicts b) :
    ¬ (a.merge b).canonical.same (b.merge a).canonical = true := by
  intro hsame
  obtain ⟨t, ht, u, hu, hcode, p, q, hp, hq, hne⟩ := h
  have hlast : { t with payload := some q } ∈ (a.merge b).traits := by
    have hcolumn := ofCode_traits_merge ha hb ht hu hcode
    rw [hq] at hcolumn
    exact (Trait.mem_ofCode.1 (hcolumn ▸ List.mem_singleton_self _)).1
  obtain ⟨v, hv, hview⟩ := mem_views_of_same hsame hlast
  have hvcode : v.code = u.code := (congrArg TraitView.code hview).trans hcode
  have hvmem := Trait.mem_ofCode.2 ⟨hv, hvcode⟩
  rw [ofCode_traits_merge hb ha hu ht hcode.symm, hp, List.mem_singleton] at hvmem
  subst hvmem
  exact hne (congrArg TraitView.payload hview)

theorem canonical_mergeAll_same (hds : ∀ d ∈ ds, d.Normal)
    (hconflicts : ds.Pairwise fun d e ↦ ¬ d.Conflicts e) (h : ds.Perm es) :
    (mergeAll ds).canonical.same (mergeAll es).canonical = true := by
  have hes : ∀ d ∈ es, d.Normal := fun d hd ↦ hds d (h.mem_iff.2 hd)
  exact (alike_mergeAll hds h).canonical_same (traits_mergeAll_perm hds hconflicts h)
    (Normal.mergeAll hds) (Normal.mergeAll hes)

/-- Merging is commutative, as far as canonical views show, exactly for deltas that do not give
different payloads to one trait code; and when no two deltas of a list do, every order of the list
is merged into the same view. -/
theorem canonical_merge_comm :
    (∀ a b : Delta, a.Produced → b.Produced →
      ((a.merge b).canonical.same (b.merge a).canonical = true ↔ ¬ a.Conflicts b)) ∧
    ∀ ds es : List Delta, ds.Perm es → (∀ d ∈ ds, d.Produced) →
      (ds.Pairwise fun d e ↦ ¬ d.Conflicts e) →
        (mergeAll ds).canonical.same (mergeAll es).canonical = true := by
  refine ⟨fun a b ha hb ↦ ⟨fun hsame hconflict ↦ ?_, fun hnone ↦ ?_⟩, fun ds es h hds hnone ↦ ?_⟩
  · exact hconflict.canonical_merge_not_same ha.normal hb.normal hsame
  · have hpair (a b : Delta) (ha : a.Normal) : mergeAll [a, b] = a.merge b := by
      have hone : empty.merge a = a := ha.rooted.empty_merge
      simp [mergeAll, hone]
    rw [← hpair a b ha.normal, ← hpair b a hb.normal]
    refine canonical_mergeAll_same ?_ (by simpa using hnone) (.swap b a [])
    simp [ha.normal, hb.normal]
  · exact canonical_mergeAll_same (fun d hd ↦ (hds d hd).normal) hnone h

/-- What a code is read into, if it can be read. -/
def ofText (code : String) : Delta := (DataCode.read code).result.toOption.getD .empty

theorem produced_ofText (code : String) : (ofText code).Produced := by
  unfold ofText
  cases h : (DataCode.read code).result with
  | error e => exact .empty
  | ok d => exact .read h

/-- Two crafts in conflict; a craft, a guild without a payload for it and a mark in two orders. -/
theorem canonical_merge_comm_crafts :
    ¬ ((ofText "TC=smith").merge (ofText "TC=brewer")).canonical.same
        ((ofText "TC=brewer").merge (ofText "TC=smith")).canonical = true ∧
      (mergeAll
          [ofText "TC=smith", ofText "TC:XINE=1:FA", ofText "TG=wild:XIME=2:FB"]).canonical.same
        (mergeAll
          [ofText "TC:XINE=1:FA", ofText "TC=smith", ofText "TG=wild:XIME=2:FB"]).canonical =
          true := by
  constructor
  · rw [canonical_merge_comm.1 _ _ (produced_ofText _) (produced_ofText _)]
    decide +kernel
  · refine canonical_merge_comm.2 _ _ (.swap _ _ _) ?_ (by decide +kernel)
    simp [produced_ofText]

end Delta

end CharacterSheet
