import CharacterSheet.Proofs.DataCode.Joining
import CharacterSheet.Proofs.Overlay.ClosedForm
import CharacterSheet.Proofs.State.Action

/-!
# Trainings are laid as their merge

Over a state with its tiers set, two deltas are laid one after the other as their merge is laid at
once.  So the overlay of the trainings, which lays one delta after the other, leaves what the merge
of all their deltas leaves.
-/

namespace CharacterSheet

namespace Progress

/-- Two runs complete together, and then leave states that agree. -/
structure Matches (p q : Progress) : Prop where
  completes : p.failure = none ↔ q.failure = none
  state : p.failure = none → p.state.Same q.state

theorem Matches.trans {p q r : Progress} (h : p.Matches q) (h' : q.Matches r) : p.Matches r where
  completes := h.completes.trans h'.completes
  state := fun hp ↦ (h.state hp).trans (h'.state (h.completes.1 hp))

end Progress

namespace State

open Progress

variable {a b d : Delta} {s : State}

theorem failure_apply_eq_none_iff (hd : d.Normal) (source : Option String) (s : State) :
    (apply source d s).failure = none ↔
      ∃ vs, gather s.immunities (d.immunities.names.map .text) = .ok vs := by
  rw [apply, failure_applyWith hd, List.append_nil]
  cases gather s.immunities (d.immunities.names.map .text) <;> simp

theorem state_apply_of_gather (hd : d.Normal) {source : Option String} {vs : List Value}
    (h : gather s.immunities (d.immunities.names.map .text) = .ok vs) :
    (apply source d s).state = layOver d vs s :=
  state_applyWith_of_gather hd (by rwa [List.append_nil])

theorem failure_apply_apply_eq_none_iff (ha : a.Normal) (hb : b.Normal)
    (first second : Option String) (s : State) :
    ((apply first a s).andThen (apply second b)).failure = none ↔
      ∃ vs ws, gather s.immunities (a.immunities.names.map .text) = .ok vs ∧
        gather vs (b.immunities.names.map .text) = .ok ws := by
  rw [failure_andThen_eq_none_iff, failure_apply_eq_none_iff ha]
  constructor
  · rintro ⟨⟨vs, hvs⟩, h⟩
    rw [state_apply_of_gather ha hvs, failure_apply_eq_none_iff hb, immunities_layOver] at h
    obtain ⟨ws, hws⟩ := h
    exact ⟨vs, ws, hvs, hws⟩
  · rintro ⟨vs, ws, hvs, hws⟩
    refine ⟨⟨vs, hvs⟩, ?_⟩
    rw [state_apply_of_gather ha hvs, failure_apply_eq_none_iff hb, immunities_layOver]
    exact ⟨ws, hws⟩

/-- Laying two deltas one after the other is laying their merge. -/
theorem matches_apply_merge (hs : s.Tiered) (ha : a.Normal) (hb : b.Normal)
    (first second both : Option String) :
    ((apply first a s).andThen (apply second b)).Matches (apply both (a.merge b) s) := by
  have hmerged := ha.merge hb
  rw [Delta.merge_eq_absorb ha] at hmerged ⊢
  have hgather (ws : List Value) :
      gather s.immunities ((a.absorb b).immunities.names.map .text) = .ok ws ↔
        ∃ vs, gather s.immunities (a.immunities.names.map .text) = .ok vs ∧
          gather vs (b.immunities.names.map .text) = .ok ws := gather_union
  constructor
  · rw [failure_apply_apply_eq_none_iff ha hb, failure_apply_eq_none_iff hmerged, exists_comm]
    exact exists_congr fun ws ↦ (hgather ws).symm
  · intro h
    obtain ⟨vs, ws, hvs, hws⟩ := (failure_apply_apply_eq_none_iff ha hb first second s).1 h
    have hfirst : (apply first a s).failure = none := (failure_andThen_eq_none_iff.1 h).1
    have hsecond : gather (layOver a vs s).immunities (b.immunities.names.map .text) = .ok ws := by
      rwa [immunities_layOver]
    rw [state_andThen hfirst, state_apply_of_gather ha hvs, state_apply_of_gather hb hsecond,
      state_apply_of_gather hmerged ((hgather ws).2 ⟨vs, hvs, hws⟩)]
    exact layOver_layOver hs ha hb

theorem layOver_empty (s : State) : layOver .empty s.immunities s = s := by
  have hblank {α β : Type} (t : Table β) {blank : α → Bool} {zero : α} (hzero : blank zero = true)
      (change : β → α → β) {names : List String} (h : names.Nodup) :
      t.overlay blank change (.ofNames names zero h) = t := by
    refine Table.mapWithKey_eq_self fun k b _ ↦ ?_
    rw [Table.get?_ofNames]
    by_cases hk : k ∈ names <;> simp [hk, hzero]
  have hpools : (s.resources.mapWithKey fun name p ↦
      p.raise (Delta.empty.contribution (.pool name .max))
        (Delta.empty.contribution (.pool name .recovery))) = s.resources :=
    Table.mapWithKey_eq_self fun k p _ ↦ by simp
  have hslots : s.spellSlots + Delta.empty.contribution .spellSlots = s.spellSlots := by simp
  have hfiles : Delta.empty.files = false := rfl
  rw [layOver, file_of_not_files hfiles]
  simp only [layNumbers, addLists, addRanges, addNumbers, hpools, hslots]
  simp only [Delta.empty, hblank _ (by rfl : isZero 0 = true),
    hblank _ (by rfl : SkillGain.isZero .zero = true), List.append_nil, List.foldl_nil]
  rfl

theorem failure_apply_empty (source : Option String) (s : State) :
    (apply source .empty s).failure = none :=
  (failure_apply_eq_none_iff Delta.normal_empty source s).2 ⟨s.immunities, rfl⟩

theorem state_apply_empty (source : Option String) (s : State) :
    (apply source .empty s).state = s := by
  have hgather : gather s.immunities (Delta.empty.immunities.names.map .text) =
      .ok s.immunities := rfl
  rw [state_apply_of_gather Delta.normal_empty hgather]
  exact layOver_empty s

theorem failure_apply_of_names (hd : d.Normal) {names : List String}
    (hs : s.immunities = names.map .text) (source : Option String) :
    (apply source d s).failure = none :=
  (failure_apply_eq_none_iff hd source s).2 ⟨_, hs ▸ gather_texts names d.immunities⟩

end State

namespace Overlay

open Progress State

theorem produced_trainingDelta (item : Item) : item.trainingDelta.Produced := by
  unfold Item.trainingDelta
  cases h : item.training.result with
  | error e => exact .empty
  | ok d => exact DataCode.produced_of_readValue h

/-- The overlay of the trainings leaves what the merge of all of them leaves. -/
theorem matches_applyTraining {s : State} (hs : s.Tiered) (trainings : List Item)
    (source : Option String) :
    (applyTraining trainings s).Matches
      (apply source (Delta.mergeAll (trainings.map Item.trainingDelta)) s) := by
  have hnormal (item : Item) : item.trainingDelta.Normal := (produced_trainingDelta item).normal
  have heach : applyTraining trainings s = each train trainings s := rfl
  rw [heach]
  clear heach
  induction trainings generalizing s with
  | nil =>
    refine ⟨iff_of_true rfl (failure_apply_empty source s), fun _ ↦ ?_⟩
    rw [List.map_nil, Delta.mergeAll, List.foldl_nil, state_apply_empty]
    exact .refl s
  | cons item items ih =>
    have hall : ∀ d ∈ items.map Item.trainingDelta, d.Normal := by
      intro d hd
      obtain ⟨item', -, rfl⟩ := List.mem_map.1 hd
      exact hnormal item'
    have hmerge := matches_apply_merge hs (hnormal item) (Delta.Normal.mergeAll hall)
      (some item.id) source source
    rw [each_cons, List.map_cons, Delta.mergeAll_cons (hnormal item)]
    refine Matches.trans ?_ hmerge
    have hfailure := failure_train item s
    have hstate := state_train item s
    cases h : (train item s).failure with
    | some e =>
      -- Neither side goes on after the first training.
      rw [andThen_of_failure h, andThen_of_failure (hfailure.symm.trans h)]
      refine ⟨by rw [hfailure], fun hnone ↦ ?_⟩
      cases h.symm.trans hnone
    | none =>
      have hrest := ih (lays_train hs h).tiered
      rw [hstate] at hrest
      have hfirst := hfailure.symm.trans h
      refine ⟨?_, fun hboth ↦ ?_⟩
      · rw [failure_andThen_of_completed h, failure_andThen_of_completed hfirst, hstate]
        exact hrest.completes
      · rw [state_andThen h, state_andThen hfirst, hstate]
        rw [failure_andThen_of_completed h, hstate] at hboth
        exact hrest.state hboth

/-- Deltas act on states with set tiers: one after the other they do what their merge does, and so
do the deltas of all trainings.  Nothing fails as long as the immunities of the state are names. -/
theorem apply_merge_action {s : State} (hs : s.Tiered) :
    (∀ a b : Delta, a.Produced → b.Produced → ∀ first second both : Option String,
      ((apply first a s).andThen (apply second b)).Matches (apply both (a.merge b) s)) ∧
    (∀ (trainings : List Item) (source : Option String),
      (applyTraining trainings s).Matches
        (apply source (Delta.mergeAll (trainings.map Item.trainingDelta)) s)) ∧
    ∀ names : List String, s.immunities = names.map .text → ∀ d : Delta, d.Produced →
      ∀ source : Option String, (apply source d s).failure = none := by
  refine ⟨fun a b ha hb first second both ↦ ?_, fun trainings source ↦ ?_,
    fun names hnames d hd source ↦ ?_⟩
  · exact matches_apply_merge hs ha.normal hb.normal first second both
  · exact matches_applyTraining hs trainings source
  · exact failure_apply_of_names hd.normal hnames source

/-- A state without attributes and pools, with immunities out of order and a trait. -/
def weathered : State :=
  { State.fresh {} with
    attributes := .empty
    resources := .empty
    immunities := [.text "winded", .text "afraid"]
    traits := [⟨.ancestry, "TA", some "elf"⟩] }

theorem tiered_ofNames {names : List String} (h : names.Nodup) :
    (Table.ofNames names ({} : SkillEntry) h).Tiered := by
  intro k e he
  rw [Table.get?_ofNames] at he
  split at he
  · obtain rfl := Option.some.inj he
    rfl
  · cases he

theorem tiered_weathered : weathered.Tiered where
  basic := by
    intro k e he
    obtain ⟨-, -, rfl⟩ := Option.map_eq_some_iff.1 ((Table.get?_mapWithKey _ _ k).symm.trans he)
    rfl
  weapon := tiered_ofNames Schema.nodup_weaponSkills
  magic := tiered_ofNames Schema.nodup_magicSkills
  crafting := tiered_ofNames Schema.nodup_craftingSkills

/-- Contributions that cancel, a payload that is replaced, and effects under two gates. -/
theorem apply_merge_weathered : weathered.Tiered ∧
    (applyTraining [{ id := "drill", code := .text "SSA=1:A1=2:TA=orc:CF[SSB=1]:IB=1" },
        { id := "oath", code := .text "SSA=-1:A1=-2:TA=dwarf:CB[M1=2]:AZ=2" }] weathered).Matches
      (apply none (Delta.mergeAll
        [Item.trainingDelta
            { id := "drill", code := .text "SSA=1:A1=2:TA=orc:CF[SSB=1]:IB=1" },
          Item.trainingDelta
            { id := "oath", code := .text "SSA=-1:A1=-2:TA=dwarf:CB[M1=2]:AZ=2" }]) weathered) :=
  ⟨tiered_weathered, (apply_merge_action tiered_weathered).2.1 _ none⟩

end Overlay

end CharacterSheet
