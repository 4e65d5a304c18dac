import CharacterSheet.Proofs.Overlay.Consistency
import CharacterSheet.Proofs.Overlay.Reporting
import CharacterSheet.Proofs.State.Order

/-!
# Sources in another order

A source lays its delta over the state and adds its extras, and nothing that it lays reads what
another one added.  So the sources leave what the merge of their deltas and the sum of their extras
leave, and a pass over the same sources in another order leaves the same state, up to order.
-/

namespace CharacterSheet

/-- Gear that brings nothing. -/
def Gear.nothing : Gear where
  delta := .empty
  immunities := []
  penalty := 0
  detections := []
  effects := []

namespace Item

/-- A training brings its delta and no extras. -/
def trainingGear (item : Item) : Gear := { Gear.nothing with delta := item.trainingDelta }

/-- What a worn item brings; one that cannot be processed brings nothing. -/
def wornGear (item : Item) : Gear := item.gear.result.toOption.getD .nothing

theorem delta_wornGear (item : Item) : item.wornGear.delta = item.gearDelta := by
  unfold wornGear gearDelta
  cases item.gear.result <;> rfl

theorem normal_wornGear (item : Item) : item.wornGear.delta.Normal := by
  unfold wornGear
  cases h : item.gear.result with
  | error e => exact Delta.normal_empty
  | ok g => exact normal_gear h

theorem detectsNames_wornGear {item : Item}
    (h : ∀ g, item.gear.result = .ok g → g.DetectsNames) : item.wornGear.DetectsNames := by
  unfold wornGear
  cases hgear : item.gear.result with
  | error e => exact fun d hd ↦ by cases hd
  | ok g => exact h g hgear

theorem BringsNames.gearImmunities {item : Item} (h : item.BringsNames) :
    ∃ names : List String, item.gearImmunities = names.map .text := by
  unfold Item.gearImmunities
  cases hgear : item.gear.result with
  | error e => exact ⟨[], rfl⟩
  | ok g =>
    obtain ⟨names, hnames⟩ := h g hgear
    exact ⟨g.delta.immunities.names ++ names, by simp only [hnames, List.map_append]⟩

end Item

namespace Loadout

/-- What all sources bring, trainings first, then worn items slot by slot. -/
def gear (l : Loadout) : List Gear :=
  l.trainings.map Item.trainingGear ++ l.equipment.wornItems.map Item.wornGear

theorem map_delta_gear (l : Loadout) : l.gear.map Gear.delta = l.deltas := by
  simp only [gear, deltas, List.map_append, List.map_map]
  exact congrArg _ (List.map_congr_left fun item _ ↦ item.delta_wornGear)

theorem detectsNames_of_mem_gear {l : Loadout}
    (hworn : ∀ item ∈ l.equipment.wornItems, ∀ g, item.gear.result = .ok g → g.DetectsNames) :
    ∀ g ∈ l.gear, g.DetectsNames := by
  intro g hg
  rcases List.mem_append.1 hg with hg | hg
  · obtain ⟨item, -, rfl⟩ := List.mem_map.1 hg
    exact fun d hd ↦ by cases hd
  · obtain ⟨item, hitem, rfl⟩ := List.mem_map.1 hg
    exact Item.detectsNames_wornGear (hworn item hitem)

/-- Two loadouts with the same members, but for the order of the sources. -/
structure Reordered (l l' : Loadout) : Prop where
  trainings : l.trainings.Perm l'.trainings
  worn : l.equipment.wornItems.Perm l'.equipment.wornItems
  gates : l.equipment.satisfiedGates = l'.equipment.satisfiedGates
  injuries : l.injuries = l'.injuries
  conditions : l.conditions = l'.conditions

namespace Reordered

variable {l l' : Loadout}

theorem gear (h : l.Reordered l') : l.gear.Perm l'.gear := (h.trainings.map _).append (h.worn.map _)

theorem deltas (h : l.Reordered l') : l.deltas.Perm l'.deltas :=
  (h.trainings.map _).append (h.worn.map _)

theorem immunities (h : l.Reordered l') : l.immunities.Perm l'.immunities :=
  (h.trainings.map _).append (h.worn.map _)

end Reordered

end Loadout

namespace Delta

theorem total_perm {f : Delta → Int} {ds es : List Delta} (h : ds.Perm es) :
    total f ds = total f es := by
  induction h with
  | nil => rfl
  | cons d _ ih => rw [total, total, ih]
  | swap d e ds =>
    simp only [total]
    exact Int.add_left_comm ..
  | trans _ _ ih ih' => exact ih.trans ih'

end Delta

namespace Overlay

open Progress State

/-! ## Extras -/

/-- The detections of a state with further ones. -/
def addDetections (detections : List (Value × Int)) (t : Tally) : Tally :=
  detections.foldl (fun t d ↦ t.add d.1 d.2) t

/-- Adds the extras of some gear. -/
def addAllExtras (gs : List Gear) (s : State) : State :=
  { s with
    encumbrance := gs.foldl (fun n g ↦ n + g.penalty) s.encumbrance
    detections := addDetections (gs.flatMap Gear.detections) s.detections
    grantedEffects := s.grantedEffects ++ gs.flatMap Gear.effects }

theorem addAllExtras_nil (s : State) : addAllExtras [] s = s := by
  simp [addAllExtras, addDetections]

theorem addAllExtras_addExtras (g : Gear) (gs : List Gear) (s : State) :
    addAllExtras gs (addExtras g s) = addAllExtras (g :: gs) s := by
  simp [addAllExtras, addExtras, addDetections]

theorem addExtras_of_nothing (d : Delta) (s : State) :
    addExtras { Gear.nothing with delta := d } s = s := by
  simp [addExtras, Gear.nothing]

theorem layOver_addExtras (d : Delta) (vs : List Value) (g : Gear) (s : State) :
    layOver d vs (addExtras g s) = addExtras g (layOver d vs s) := by
  have hfile (t : State) : file d.gated (addExtras g t) = addExtras g (file d.gated t) := by
    unfold file
    dsimp only
    split <;> rfl
  exact hfile (addLists d { layNumbers d s with immunities := vs })

theorem same_addAllExtras {s t : State} (h : s.Same t) (gs : List Gear) :
    (addAllExtras gs s).Same (addAllExtras gs t) where
  effects := h.effects
  totals := h.totals
  rest := by
    have hview (s : State) :
        (addAllExtras gs s).withoutGates = addAllExtras gs s.withoutGates := rfl
    rw [hview, hview, h.rest]

section Detections

variable {ds es : List (Value × Int)} (hds : ∀ d ∈ ds, ∃ name : String, d.1 = .text name)

include hds

theorem same_addDetections {t u : Tally} (h : t.Same u) :
    (addDetections ds t).Same (addDetections ds u) := by
  induction ds generalizing t u with
  | nil => exact h
  | cons d ds ih =>
    obtain ⟨key, n⟩ := d
    obtain ⟨name, rfl⟩ := hds _ List.mem_cons_self
    exact ih (fun e he ↦ hds e (List.mem_cons_of_mem _ he)) (h.add_text name n)

theorem addDetections_perm (h : ds.Perm es) (t : Tally) :
    (addDetections ds t).Same (addDetections es t) := by
  induction h generalizing t with
  | nil => exact .refl t
  | cons d _ ih => exact ih (fun e he ↦ hds e (List.mem_cons_of_mem d he)) _
  | swap d e ds =>
    obtain ⟨key, m⟩ := e
    obtain ⟨key', n⟩ := d
    obtain ⟨name, rfl⟩ := hds _ List.mem_cons_self
    obtain ⟨name', rfl⟩ := hds _ (List.mem_cons_of_mem _ List.mem_cons_self)
    exact same_addDetections
      (fun e he ↦ hds e (List.mem_cons_of_mem _ (List.mem_cons_of_mem _ he)))
      (t.same_add_text_comm name name' m n)
  | trans h _ ih ih' => exact (ih hds t).trans (ih' (fun d hd ↦ hds d (h.mem_iff.2 hd)) t)

end Detections

/-- Extras add up in every order, but for the order of detections and effects. -/
theorem sameUpToOrder_addAllExtras {contested : String → Prop} {s t : State}
    (h : s.SameUpToOrder contested t) {gs gs' : List Gear}
    (hnames : ∀ g ∈ gs, g.DetectsNames) (hgs : gs.Perm gs') :
    (addAllExtras gs s).SameUpToOrder contested (addAllExtras gs' t) :=
  have hdetections : ∀ d ∈ gs.flatMap Gear.detections, ∃ name : String, d.1 = .text name := by
    intro d hd
    obtain ⟨g, hg, hd⟩ := List.mem_flatMap.1 hd
    exact hnames g hg d hd
  { h with
    rest := by
      have hpenalty : gs.foldl (fun n g ↦ n + g.penalty) t.encumbrance =
          gs'.foldl (fun n g ↦ n + g.penalty) t.encumbrance :=
        hgs.foldl_eq' (fun g _ g' _ n ↦ Int.add_right_comm n _ _) _
      have hview (gs : List Gear) (s : State) : (addAllExtras gs s).withoutOrder =
          { s.withoutOrder with
            encumbrance := gs.foldl (fun n g ↦ n + g.penalty) s.withoutOrder.encumbrance } := rfl
      rw [hview, hview, h.rest]
      exact congrArg (fun n ↦ { t.withoutOrder with encumbrance := n }) hpenalty
    detections := (same_addDetections hdetections h.detections).trans
      (addDetections_perm hdetections (hgs.flatMap_right _) t.detections)
    grantedEffects := h.grantedEffects.append (hgs.flatMap_right _) }

/-! ## What the sources bring -/

theorem tiered_layOver {s : State} (hs : s.Tiered) (d : Delta) (vs : List Value) :
    (layOver d vs s).Tiered := by
  obtain ⟨c, hc⟩ := file_eq d.gated (addLists d { layNumbers d s with immunities := vs })
  have hgains {t : Table SkillEntry} (ht : t.Tiered) (values : Table SkillGain) :
      (t.overlay SkillGain.isZero SkillEntry.addGain values).Tiered := by
    rw [overlay_addGain ht]
    exact Table.tiered_mapWithKey fun _ _ ↦ rfl
  have hbasic : (layNumbers d s).basic.Tiered := by
    show (((s.basic.overlay isZero _ d.skills).overlay isZero _ d.tiers)).Tiered
    rw [overlay_basic hs.basic]
    exact Table.tiered_mapWithKey fun _ _ ↦ rfl
  rw [layOver, hc]
  exact ⟨hbasic, hgains hs.weapon _, hgains hs.magic _, hgains hs.crafting _⟩

/-- Each of some gear in turn lays its delta and adds its extras. -/
inductive BringsAll : List Gear → State → State → Prop
  | nil (s : State) : BringsAll [] s s
  | cons {g : Gear} {gs : List Gear} {s t : State} (vs : List Value) : g.delta.Normal →
      BringsAll gs (addExtras g (layOver g.delta vs s)) t → BringsAll (g :: gs) s t

namespace BringsAll

variable {gs gs' : List Gear} {s t u : State}

theorem append (h : BringsAll gs s t) (h' : BringsAll gs' t u) : BringsAll (gs ++ gs') s u := by
  induction h with
  | nil s => exact h'
  | cons vs hg _ ih => exact .cons vs hg (ih h')

theorem tiered (h : BringsAll gs s t) (hs : s.Tiered) : t.Tiered := by
  induction h with
  | nil s => exact hs
  | @cons g gs s t vs hg hrest ih =>
    have hlaid := tiered_layOver hs g.delta vs
    exact ih ⟨hlaid.basic, hlaid.weapon, hlaid.magic, hlaid.crafting⟩

theorem normal (h : BringsAll gs s t) : ∀ d ∈ gs.map Gear.delta, d.Normal := by
  induction h with
  | nil s => exact fun d hd ↦ by cases hd
  | cons vs hg _ ih =>
    intro d hd
    rcases List.mem_cons.1 hd with rfl | hd
    · exact hg
    · exact ih d hd

/-- What gear brings in turn is the merge of the deltas and the sum of the extras. -/
theorem same (h : BringsAll gs s t) (hs : s.Tiered) :
    t.Same (addAllExtras gs (layOver (Delta.mergeAll (gs.map Gear.delta)) t.immunities s)) := by
  induction h with
  | nil s =>
    rw [addAllExtras_nil, List.map_nil, Delta.mergeAll, List.foldl_nil, layOver_empty]
    exact .refl s
  | @cons g gs s t vs hg hrest ih =>
    have hlaid := tiered_layOver hs g.delta vs
    have hmerged := Delta.Normal.mergeAll hrest.normal
    have hlaying : (layOver (Delta.mergeAll (gs.map Gear.delta)) t.immunities
        (layOver g.delta vs s)).Same
          (layOver (g.delta.absorb (Delta.mergeAll (gs.map Gear.delta))) t.immunities s) :=
      layOver_layOver hs hg hmerged
    refine (ih ⟨hlaid.basic, hlaid.weapon, hlaid.magic, hlaid.crafting⟩).trans ?_
    rw [layOver_addExtras, addAllExtras_addExtras, List.map_cons, Delta.mergeAll_cons hg,
      Delta.merge_eq_absorb hg]
    exact same_addAllExtras hlaying (g :: gs)

/-- Gear brings the same in every order in which it leaves the same immunities, up to order. -/
theorem sameUpToOrder (h : BringsAll gs s t) (h' : BringsAll gs' s u) (hs : s.Tiered)
    (hnames : ∀ g ∈ gs, g.DetectsNames) (hgs : gs.Perm gs')
    (himmunities : t.immunities = u.immunities) :
    t.SameUpToOrder (Contested (gs.map Gear.delta)) u := by
  have hlaid := layOver_mergeAll_perm h.normal (hgs.map Gear.delta) u.immunities s
  have hfirst : t.SameUpToOrder (Contested (gs.map Gear.delta)) _ := .of_same (h.same hs)
  rw [himmunities] at hfirst
  exact (hfirst.trans (sameUpToOrder_addAllExtras hlaid hnames hgs)).trans
    (SameUpToOrder.of_same (h'.same hs)).symm

end BringsAll

/-- Items that each bring some gear bring all of it. -/
theorem bringsAll_each {f : Item → State → Progress} {gear : Item → Gear}
    (hnormal : ∀ item, (gear item).delta.Normal)
    (hf : ∀ item s, (f item s).failure = none →
      ∃ vs, (f item s).state = addExtras (gear item) (layOver (gear item).delta vs s))
    {items : List Item} {s : State} (h : (each f items s).failure = none) :
    BringsAll (items.map gear) s (each f items s).state := by
  induction items generalizing s with
  | nil => exact .nil s
  | cons item items ih =>
    rw [each_cons] at h ⊢
    obtain ⟨hfirst, hrest⟩ := failure_andThen_eq_none_iff.1 h
    obtain ⟨vs, hvs⟩ := hf item s hfirst
    rw [state_andThen hfirst]
    refine .cons vs (hnormal item) ?_
    rw [← hvs]
    exact ih hrest

theorem exists_layOver_train {item : Item} {s : State} (h : (train item s).failure = none) :
    ∃ vs, (train item s).state =
      addExtras item.trainingGear (layOver item.trainingGear.delta vs s) := by
  have hnormal := (produced_trainingDelta item).normal
  rw [failure_train, failure_apply_eq_none_iff hnormal] at h
  obtain ⟨vs, hvs⟩ := h
  refine ⟨vs, ?_⟩
  rw [state_train, state_apply_of_gather hnormal hvs]
  exact (addExtras_of_nothing item.trainingDelta _).symm

theorem exists_layOver_wear {item : Item} {s : State} (h : (wear item s).failure = none) :
    ∃ vs, (wear item s).state = addExtras item.wornGear (layOver item.wornGear.delta vs s) := by
  cases hgear : item.gear.result with
  | error e =>
    have hnothing : item.wornGear = Gear.nothing := by rw [Item.wornGear, hgear]; rfl
    refine ⟨s.immunities, ?_⟩
    rw [wear_of_error hgear, hnothing]
    show s = addExtras Gear.nothing (layOver .empty s.immunities s)
    rw [layOver_empty]
    exact (addExtras_of_nothing .empty s).symm
  | ok g =>
    have hbrings : item.wornGear = g := by rw [Item.wornGear, hgear]; rfl
    have hnormal := Item.normal_gear hgear
    have hcompleted : (applyWith (some item.id) g.delta g.immunities s).failure = none :=
      (failure_wear hgear s).symm.trans h
    have hgather := hcompleted
    rw [failure_applyWith hnormal] at hgather
    cases hvs : gather s.immunities (g.delta.immunities.names.map .text ++ g.immunities) with
    | error clash =>
      rw [hvs] at hgather
      cases hgather
    | ok vs =>
      refine ⟨vs, ?_⟩
      rw [state_wear hgear hcompleted, state_applyWith_of_gather hnormal hvs, hbrings]

/-- What is laid before the bonuses of the gates is what all sources bring. -/
theorem exists_bringsAll_laid {settings : Settings} {l : Loadout} {baseline : State}
    (h : (laid settings l baseline).failure = none) :
    ∃ t, BringsAll l.gear (prepared baseline) t ∧
      (laid settings l baseline).state = applyGateBonuses l.equipment.satisfiedGates t := by
  rw [laid_eq] at h ⊢
  obtain ⟨htrained, h⟩ := failure_andThen_eq_none_iff.1 h
  obtain ⟨hequipped, -⟩ := failure_andThen_eq_none_iff.1 h
  obtain ⟨hworn, -⟩ := failure_andThen_eq_none_iff.1 hequipped
  have htraining := bringsAll_each (f := train) (fun item ↦ (produced_trainingDelta item).normal)
    (fun _ _ ↦ exists_layOver_train) htrained
  have hwearing := bringsAll_each Item.normal_wornGear (fun _ _ ↦ exists_layOver_wear) hworn
  refine ⟨_, htraining.append hwearing, ?_⟩
  rw [state_andThen htrained, state_andThen hequipped, applyEquipment, state_andThen hworn]
  rfl

/-! ## From the gates to the end -/

theorem totalOver_congr {c c' : Conditionals} (h : c.totals.Same c'.totals) (kind : EffectKind)
    (name : String) (gates : List Gate) :
    totalOver c kind name gates = totalOver c' kind name gates := by
  induction gates with
  | nil => rfl
  | cons g gates ih =>
    rw [totalOver, totalOver, ih, Conditionals.total, Conditionals.total, h g.name]

section SameUpToOrder

variable {contested : String → Prop} {s t : State} (h : s.SameUpToOrder contested t)

include h

theorem sameUpToOrder_applyGateBonuses (gates : List Gate) :
    (applyGateBonuses gates s).SameUpToOrder contested (applyGateBonuses gates t) := by
  rw [applyGateBonuses_eq, applyGateBonuses_eq]
  simp only [totalOver_congr h.totals]
  exact h.map (k := fun s ↦ { s with
    mitigation := s.mitigation.mapWithKey fun name n ↦
      n + totalOver t.conditionals .mitigation name gates
    basic := s.basic.mapWithKey fun name e ↦
      { e with value := e.value + totalOver t.conditionals .skill name gates }
    satisfiedGates := gates.map Gate.name }) (fun _ ↦ rfl) fun _ ↦ ⟨rfl, rfl, rfl, rfl, rfl⟩

theorem sameUpToOrder_carry (c : Carried) : (s.carry c).SameUpToOrder contested (t.carry c) :=
  h.map (k := carry c) (fun _ ↦ rfl) fun _ ↦ ⟨rfl, rfl, rfl, rfl, rfl⟩

theorem sameUpToOrder_finish (settings : Settings) (conditions : NameSet) :
    (finish settings conditions s).SameUpToOrder contested (finish settings conditions t) :=
  h.map (k := finish settings conditions) (fun _ ↦ rfl) fun _ ↦ ⟨rfl, rfl, rfl, rfl, rfl⟩

/-- The tracks are derived from the old ones and from the pools. -/
theorem sameUpToOrder_applyInjuries {injuries : List Injury}
    (hs : (applyInjuries injuries s).failure = none)
    (ht : (applyInjuries injuries t).failure = none) :
    (applyInjuries injuries s).state.SameUpToOrder contested (applyInjuries injuries t).state := by
  have hpain : painTrack injuries s = painTrack injuries t := by
    show painTrack injuries s.withoutOrder = painTrack injuries t.withoutOrder
    rw [h.rest]
  have hstress : stressTrack injuries s = stressTrack injuries t := by
    show stressTrack injuries s.withoutOrder = stressTrack injuries t.withoutOrder
    rw [h.rest]
  rw [state_applyInjuries hs, state_applyInjuries ht, hpain, hstress]
  exact h.map (k := fun s ↦ { s with
    pain := (painTrack injuries t).1
    stress := (stressTrack injuries t).1 }) (fun _ ↦ rfl) fun _ ↦ ⟨rfl, rfl, rfl, rfl, rfl⟩

end SameUpToOrder

section Reordered

variable {settings : Settings} {l l' : Loadout} {baseline s : State} (h : l.Reordered l')
  (hworn : ∀ item ∈ l.equipment.wornItems, item.BringsNames)

include h hworn

theorem gatherAll_reordered {vs ws : List Value} (hws : gatherAll vs l.immunities = .ok ws) :
    gatherAll vs l'.immunities = .ok ws := by
  refine gatherAll_perm h.immunities (fun found hfound ↦ ?_) hws
  rcases List.mem_append.1 hfound with hfound | hfound
  · obtain ⟨item, -, rfl⟩ := List.mem_map.1 hfound
    exact ⟨item.trainingDelta.immunities.names, rfl⟩
  · obtain ⟨item, hitem, rfl⟩ := List.mem_map.1 hfound
    exact (hworn item hitem).gearImmunities

/-- Sources in another order let the same passes complete. -/
theorem failure_run_reordered (hcompleted : (run settings l baseline s).failure = none) :
    (run settings l' baseline s).failure = none := by
  rw [failure_run_eq_none_iff] at hcompleted ⊢
  obtain ⟨⟨ws, hws⟩, hpools⟩ := hcompleted
  refine ⟨⟨ws, gatherAll_reordered h hworn hws⟩, ?_⟩
  have hpool (name : String) : l.pool? baseline s name = l'.pool? baseline s name := by
    unfold Loadout.pool?
    simp only [Delta.total_perm h.deltas]
  simpa only [hpool] using hpools

/-- A pass over the same sources in another order leaves the same state, up to order. -/
theorem state_run_reordered
    (hdetections : ∀ item ∈ l.equipment.wornItems, ∀ g, item.gear.result = .ok g → g.DetectsNames)
    (hcompleted : (run settings l baseline s).failure = none) :
    (run settings l baseline s).state.SameUpToOrder (Contested l.deltas)
      (run settings l' baseline s).state := by
  have hcompleted' := failure_run_reordered h hworn hcompleted
  obtain ⟨hlaid, hinjuries, hstate⟩ := state_run hcompleted
  obtain ⟨hlaid', hinjuries', hstate'⟩ := state_run hcompleted'
  obtain ⟨t, ht, hbonuses⟩ := exists_bringsAll_laid hlaid
  obtain ⟨t', ht', hbonuses'⟩ := exists_bringsAll_laid hlaid'
  obtain ⟨ws, hws⟩ := (gathers_laid settings l baseline).failure_eq_none_iff.1 hlaid
  have himmunities : t.immunities = t'.immunities := by
    have hleft := ((gathers_laid settings l baseline).of_ok ws hws).2
    have hright := ((gathers_laid settings l' baseline).of_ok ws
      (gatherAll_reordered h hworn hws)).2
    rw [hbonuses, applyGateBonuses_eq] at hleft
    rw [hbonuses', applyGateBonuses_eq] at hright
    exact hleft.trans hright.symm
  have hsources := ht.sameUpToOrder ht' (tiered_prepared baseline)
    (Loadout.detectsNames_of_mem_gear hdetections) h.gear himmunities
  rw [Loadout.map_delta_gear] at hsources
  have hlaying := sameUpToOrder_applyGateBonuses hsources l.equipment.satisfiedGates
  rw [h.gates, ← hbonuses', ← h.gates, ← hbonuses] at hlaying
  have hcarried := sameUpToOrder_carry hlaying (handedOn baseline s)
  rw [← h.injuries] at hinjuries' hstate'
  rw [hstate, hstate', ← h.conditions]
  exact sameUpToOrder_finish (sameUpToOrder_applyInjuries hcarried hinjuries hinjuries') settings _

end Reordered

end Overlay

end CharacterSheet
