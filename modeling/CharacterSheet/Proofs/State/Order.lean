import CharacterSheet.Proofs.Delta.Order
import CharacterSheet.Proofs.State.Action

/-!
# Laying deltas in another order

What some deltas leave when they are laid over a state does not depend on their order, but for the
order in which lists, flags and detections arrive, and for the payloads of trait codes to which two
of the deltas give different ones.
-/

namespace CharacterSheet

namespace GateTotals

theorem ext_table {t u : GateTotals} (h : ∀ kind, t.table kind = u.table kind) : t = u := by
  obtain ⟨mitigation, skills⟩ := t
  obtain ⟨mitigation', skills'⟩ := u
  obtain rfl : mitigation = mitigation' := h .mitigation
  obtain rfl : skills = skills' := h .skill
  rfl

theorem add_right_comm (t : GateTotals) (e f : GatedEffect) :
    (t.add e).add f = (t.add f).add e := by
  refine ext_table fun kind ↦ Table.ext_get? (by simp only [keys_table_add]) fun name ↦ ?_
  simp only [get?_table_add, Option.map_map]
  refine congrArg (fun g ↦ ((t.table kind).get? name).map g) (funext fun n ↦ ?_)
  exact Int.add_right_comm n _ _

theorem ofEffects_perm {es fs : List GatedEffect} (h : es.Perm fs) :
    ofEffects es = ofEffects fs :=
  List.Perm.foldl_eq' h (fun e _ f _ t ↦ add_right_comm t e f) {}

end GateTotals

namespace State

/-- A state without what is listed in the order of its arrival. -/
def withoutOrder (s : State) : State :=
  { s with
    detections := .empty
    grantedEffects := []
    abilities := []
    traits := []
    conditionals := {} }

/-- Two states agree, but for the order in which detections, effects, abilities, traits and flags
arrived, and for the payloads of contested trait codes. -/
structure SameUpToOrder (contested : String → Prop) (s t : State) : Prop where
  rest : s.withoutOrder = t.withoutOrder
  detections : s.detections.Same t.detections
  grantedEffects : s.grantedEffects.Perm t.grantedEffects
  abilities : s.abilities.Perm t.abilities
  traits : (s.traits.map Trait.bare).Perm (t.traits.map Trait.bare)
  payloads : ∀ code, ¬ contested code →
    (Trait.ofCode code s.traits).Perm (Trait.ofCode code t.traits)
  effects : ∀ gate, Option.Rel List.Perm (s.conditionals.effects.get? gate)
    (t.conditionals.effects.get? gate)
  totals : s.conditionals.totals.Same t.conditionals.totals
  flags : s.conditionals.flags.Same t.conditionals.flags

section Rel

variable {α : Type} {o p q : Option (List α)}

theorem relPerm_refl (o : Option (List α)) : Option.Rel List.Perm o o := by
  cases o with
  | none => exact .none
  | some es => exact .some (.refl es)

theorem relPerm_symm (h : Option.Rel List.Perm o p) : Option.Rel List.Perm p o := by
  cases h with
  | none => exact .none
  | some h => exact .some h.symm

theorem relPerm_trans (h : Option.Rel List.Perm o p) (h' : Option.Rel List.Perm p q) :
    Option.Rel List.Perm o q := by
  cases h with
  | none => exact h'
  | some h =>
    cases h' with
    | some h' => exact .some (h.trans h')

end Rel

namespace SameUpToOrder

variable {contested : String → Prop} {s t u : State}

theorem symm (h : s.SameUpToOrder contested t) : t.SameUpToOrder contested s where
  rest := h.rest.symm
  detections := fun name ↦ (h.detections name).symm
  grantedEffects := h.grantedEffects.symm
  abilities := h.abilities.symm
  traits := h.traits.symm
  payloads := fun code hcode ↦ (h.payloads code hcode).symm
  effects := fun gate ↦ relPerm_symm (h.effects gate)
  totals := fun name ↦ (h.totals name).symm
  flags := fun name ↦ (h.flags name).symm

theorem trans (h : s.SameUpToOrder contested t) (h' : t.SameUpToOrder contested u) :
    s.SameUpToOrder contested u where
  rest := h.rest.trans h'.rest
  detections := h.detections.trans h'.detections
  grantedEffects := h.grantedEffects.trans h'.grantedEffects
  abilities := h.abilities.trans h'.abilities
  traits := h.traits.trans h'.traits
  payloads := fun code hcode ↦ (h.payloads code hcode).trans (h'.payloads code hcode)
  effects := fun gate ↦ relPerm_trans (h.effects gate) (h'.effects gate)
  totals := h.totals.trans h'.totals
  flags := h.flags.trans h'.flags

/-- States that agree but for the order of gates agree up to order. -/
theorem of_same (h : s.Same t) : s.SameUpToOrder contested t := by
  have hrest : s.withoutGates = t.withoutGates := h.rest
  have hfield {α : Type} (f : State → α) (hf : ∀ s, f s = f s.withoutGates) : f s = f t := by
    rw [hf s, hrest, ← hf t]
  exact
    { rest := hfield withoutOrder fun _ ↦ rfl
      detections := hfield State.detections (fun _ ↦ rfl) ▸ .refl _
      grantedEffects := .of_eq (hfield State.grantedEffects fun _ ↦ rfl)
      abilities := .of_eq (hfield State.abilities fun _ ↦ rfl)
      traits := .of_eq (hfield (fun s ↦ s.traits.map Trait.bare) fun _ ↦ rfl)
      payloads := fun code _ ↦ .of_eq (hfield (fun s ↦ Trait.ofCode code s.traits) fun _ ↦ rfl)
      effects := fun gate ↦ h.effects gate ▸ relPerm_refl _
      totals := h.totals
      flags := hfield (fun s ↦ s.conditionals.flags) (fun _ ↦ rfl) ▸ .refl _ }

/-- A change that neither reads nor writes what is in order of arrival keeps the agreement. -/
theorem map {k : State → State} (hrest : ∀ s, (k s).withoutOrder = (k s.withoutOrder).withoutOrder)
    (hkeeps : ∀ s, (k s).detections = s.detections ∧ (k s).grantedEffects = s.grantedEffects ∧
      (k s).abilities = s.abilities ∧ (k s).traits = s.traits ∧ (k s).conditionals = s.conditionals)
    (h : s.SameUpToOrder contested t) : (k s).SameUpToOrder contested (k t) := by
  obtain ⟨hdetections, hgranted, habilities, htraits, hconditionals⟩ := hkeeps s
  obtain ⟨hdetections', hgranted', habilities', htraits', hconditionals'⟩ := hkeeps t
  exact
    { rest := by rw [hrest, h.rest, ← hrest]
      detections := by simpa only [hdetections, hdetections'] using h.detections
      grantedEffects := by simpa only [hgranted, hgranted'] using h.grantedEffects
      abilities := by simpa only [habilities, habilities'] using h.abilities
      traits := by simpa only [htraits, htraits'] using h.traits
      payloads := by simpa only [htraits, htraits'] using h.payloads
      effects := by simpa only [hconditionals, hconditionals'] using h.effects
      totals := by simpa only [hconditionals, hconditionals'] using h.totals
      flags := by simpa only [hconditionals, hconditionals'] using h.flags }

end SameUpToOrder

/-! ## Laying merged deltas -/

variable {ds es : List Delta}

/-- A trait code to which two of some deltas give different payloads. -/
def Contested (ds : List Delta) (code : String) : Prop :=
  ∃ d ∈ ds, ∃ t ∈ d.traits, ∃ e ∈ ds, ∃ u ∈ e.traits, t.code = code ∧ t.Contradicts u

/-- What deltas that are alike do to the numbers of a state. -/
theorem layNumbers_congr {d e : Delta} (h : d.Alike e) (s : State) :
    layNumbers d s = layNumbers e s := by
  have hcontribution (target : ResourceTarget) : d.contribution target = e.contribution target := by
    rw [Delta.contribution, h.resources, Delta.contribution]
  simp only [layNumbers, addFeatures, addRanges, addNumbers, hcontribution, h.attributes, h.skills,
    h.tiers, h.weapon, h.magic, h.crafting, h.mitigation, h.movement, h.weaponRanges, h.features]

theorem effects_file_congr {d e : Delta} (h : d.Alike e) (s : State) (gate : String) :
    Option.Rel List.Perm ((file d.gated s).conditionals.effects.get? gate)
      ((file e.gated s).conditionals.effects.get? gate) := by
  have hperm := h.gated gate
  have hnil : d.gated.getD gate [] = [] ↔ e.gated.getD gate [] = [] := by
    rw [← List.perm_nil, ← List.perm_nil]
    exact ⟨hperm.symm.trans, hperm.trans⟩
  rw [get?_effects_file, get?_effects_file]
  by_cases hempty : d.gated.getD gate [] = []
  · rw [if_pos hempty, if_pos (hnil.1 hempty)]
    exact relPerm_refl _
  · rw [if_neg hempty, if_neg (mt hnil.2 hempty)]
    exact .some (hperm.append_left _)

theorem totals_file_congr {d e : Delta} (h : d.Alike e) (s : State) :
    (file d.gated s).conditionals.totals.Same (file e.gated s).conditionals.totals := by
  have hfiles : d.files = e.files := by
    rw [Bool.eq_iff_iff, Delta.files_iff, Delta.files_iff]
    refine exists_congr fun gate ↦ not_congr ?_
    rw [← List.perm_nil, ← List.perm_nil]
    exact ⟨(h.gated gate).symm.trans, (h.gated gate).trans⟩
  rw [totals_file, totals_file, hfiles]
  split
  · intro gate
    rw [Table.map, Table.map, Table.get?_mapWithKey, Table.get?_mapWithKey]
    have hrel := effects_file_congr h s gate
    generalize (file d.gated s).conditionals.effects.get? gate = filed at hrel
    generalize (file e.gated s).conditionals.effects.get? gate = filed' at hrel
    cases hrel with
    | none => rfl
    | some hperm => exact congrArg some (GateTotals.ofEffects_perm hperm)
  · exact .refl _

/-- Deltas lay the same over a state in every order, up to order. -/
theorem layOver_mergeAll_perm (hds : ∀ d ∈ ds, d.Normal) (h : ds.Perm es) (vs : List Value)
    (s : State) : (layOver (Delta.mergeAll ds) vs s).SameUpToOrder (Contested ds)
      (layOver (Delta.mergeAll es) vs s) := by
  have halike := Delta.alike_mergeAll hds h
  have hregular := Delta.regular_of_mem_flatMap hds
  have hperm := h.flatMap_right Delta.traits
  have hlists (d : Delta) : (layOver d vs s).withoutGates =
      (addLists d { layNumbers d s with immunities := vs }).withoutGates :=
    withoutGates_file d.gated _
  have hfield {α : Type} (f : State → α) (hf : ∀ s, f s = f s.withoutGates) (d : Delta) :
      f (layOver d vs s) = f (addLists d { layNumbers d s with immunities := vs }) := by
    rw [hf, hlists, ← hf]
  have htraits (ds : List Delta) : (layOver (Delta.mergeAll ds) vs s).traits =
      (ds.flatMap Delta.traits).foldl addTrait s.traits := by
    rw [hfield traits fun _ ↦ rfl]
    show (Delta.mergeAll ds).traits.foldl addTrait s.traits = _
    rw [Delta.traits_mergeAll]
    have hnone : (([] : List Trait).map Trait.code).Nodup := List.nodup_nil
    exact foldl_addTrait_foldl hnone _ s.traits
  exact
    { rest := by
        rw [hfield withoutOrder fun _ ↦ rfl, hfield withoutOrder fun _ ↦ rfl,
          layNumbers_congr halike]
        rfl
      detections := by
        rw [hfield detections fun _ ↦ rfl, hfield detections fun _ ↦ rfl]
        exact .refl _
      grantedEffects := by
        rw [hfield grantedEffects fun _ ↦ rfl, hfield grantedEffects fun _ ↦ rfl]
        exact .refl _
      abilities := by
        rw [hfield abilities fun _ ↦ rfl, hfield abilities fun _ ↦ rfl]
        exact halike.abilities.append_left _
      traits := by
        rw [htraits, htraits]
        exact Trait.map_bare_foldl_addTrait_perm hperm hregular s.traits
      payloads := fun code hcode ↦ by
        rw [htraits, htraits]
        refine .of_eq (Trait.ofCode_foldl_addTrait_perm hperm hregular ?_ s.traits)
        intro t ht u hu htcode hcontradicts
        obtain ⟨d, hd, ht⟩ := List.mem_flatMap.1 ht
        obtain ⟨e, he, hu⟩ := List.mem_flatMap.1 hu
        exact hcode ⟨d, hd, t, ht, e, he, u, hu, htcode, hcontradicts⟩
      effects := fun gate ↦ by
        rw [effects_layOver, effects_layOver]
        exact effects_file_congr halike s gate
      totals := by
        rw [totals_layOver, totals_layOver]
        exact totals_file_congr halike s
      flags := fun name ↦ by
        rw [hfield (fun s ↦ s.conditionals.flags) fun _ ↦ rfl,
          hfield (fun s ↦ s.conditionals.flags) fun _ ↦ rfl]
        show (Delta.raiseFlags s.conditionals.flags _).get? name =
          (Delta.raiseFlags s.conditionals.flags _).get? name
        rw [Delta.get?_raiseFlags, Delta.get?_raiseFlags, halike.flags name] }

end State

end CharacterSheet
