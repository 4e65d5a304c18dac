import CharacterSheet.Proofs.DataCode.Gating
import CharacterSheet.Proofs.Overlay.Completion
import Mathlib.Data.List.Forall2

/-!
# Sources with another code

A pass is compared with a pass over the same character in which some sources have another code.  As
long as the two codes differ in bonuses to basic skills and mitigations only, added at once or filed
under gates, both passes end in the same way, and outside basic skills, mitigations and the filed
effects they leave the same state.  If the codes come to the same under the gates that are
satisfied, then so do the values of basic skills and mitigations, but for what is lost when totals
are refreshed.
-/

namespace CharacterSheet

/-! ## Two runs side by side -/

namespace Progress

variable {ι β : Type} {view : State → β} {p q : Progress} {f g : State → Progress}

/-- Two runs fail in the same way, or both complete with states that look the same in a view. -/
structure AgreeOn (view : State → β) (p q : Progress) : Prop where
  failure : p.failure = q.failure
  state : p.failure = none → view p.state = view q.state

namespace AgreeOn

theorem andThen (h : AgreeOn view p q)
    (hfg : ∀ s t, view s = view t → AgreeOn view (f s) (g t)) :
    AgreeOn view (p.andThen f) (q.andThen g) := by
  cases hp : p.failure with
  | some e =>
    have hq : q.failure = some e := h.failure ▸ hp
    rw [andThen_of_failure hp, andThen_of_failure hq]
    exact h
  | none =>
    have hq : q.failure = none := h.failure ▸ hp
    rw [andThen_of_completed hp, andThen_of_completed hq]
    obtain ⟨hfailure, hstate⟩ := hfg _ _ (h.state hp)
    exact ⟨hfailure, hstate⟩

theorem each {R : ι → ι → Prop} {f g : ι → State → Progress} {is js : List ι}
    (h : ∀ i j, R i j → ∀ s t, view s = view t → AgreeOn view (f i s) (g j t))
    (hitems : List.Forall₂ R is js) {s t : State} (hview : view s = view t) :
    AgreeOn view (Progress.each f is s) (Progress.each g js t) := by
  induction hitems generalizing s t with
  | nil => exact ⟨rfl, fun _ ↦ hview⟩
  | cons hij _ ih =>
    rw [each_cons, each_cons]
    apply (h _ _ hij s t hview).andThen
    intro s' t' hview'
    exact ih hview'

end AgreeOn

end Progress

namespace State

open Progress

/-- A state without its basic skills, mitigations and filed effects. -/
def withoutTargets (s : State) : State :=
  { s with mitigation := .empty, basic := .empty, conditionals := {} }

theorem eq_of_withoutTargets {s t : State} (h : s.withoutTargets = t.withoutTargets) :
    s = { t with
      mitigation := s.mitigation
      basic := s.basic
      conditionals := s.conditionals } := by
  have hfill (s : State) (m : Table Int) (b : Table SkillEntry) (c : Conditionals) :
      { s with mitigation := m, basic := b, conditionals := c } =
        { s.withoutTargets with mitigation := m, basic := b, conditionals := c } := rfl
  rw [hfill t, ← h]
  rfl

theorem withoutTargets_layOver (d : Delta) (vs : List Value) (s : State) :
    (layOver d vs s).withoutTargets =
      (layOver d.withoutTargets vs s.withoutTargets).withoutTargets := by
  obtain ⟨c, hc⟩ := file_eq d.gated (addLists d { layNumbers d s with immunities := vs })
  obtain ⟨c', hc'⟩ := file_eq d.withoutTargets.gated
    (addLists d.withoutTargets
      { layNumbers d.withoutTargets s.withoutTargets with immunities := vs })
  rw [layOver, layOver, hc, hc']
  rfl

theorem agreeOn_applyWith {d d' : Delta} (hd : d.Normal) (hd' : d'.Normal)
    (hrest : d.withoutTargets = d'.withoutTargets) (source : Option String) (found : List Value)
    {s t : State} (hview : s.withoutTargets = t.withoutTargets) :
    AgreeOn withoutTargets (applyWith source d found s) (applyWith source d' found t) := by
  have hfound : gather s.immunities (d.immunities.names.map .text ++ found) =
      gather t.immunities (d'.immunities.names.map .text ++ found) := by
    have himmunities : s.withoutTargets.immunities = t.withoutTargets.immunities := by rw [hview]
    have hnames : d.withoutTargets.immunities = d'.withoutTargets.immunities := by rw [hrest]
    exact congr (congrArg gather himmunities) (congrArg (·.names.map Value.text ++ found) hnames)
  constructor
  · rw [failure_applyWith hd, failure_applyWith hd', hfound]
  · intro h
    rw [failure_applyWith hd] at h
    cases hs : gather s.immunities (d.immunities.names.map .text ++ found) with
    | error clash =>
      rw [hs] at h
      cases h
    | ok vs =>
      rw [state_applyWith_of_gather hd hs, state_applyWith_of_gather hd' (hfound ▸ hs),
        withoutTargets_layOver, hrest, hview, ← withoutTargets_layOver]

end State

/-! ## Items with another code -/

namespace Item

/-- Two items are the same, or the second one has another code; the codes are read into the two
given deltas. -/
inductive Recoded (d d' : Delta) : Item → Item → Prop
  | same (item : Item) : Recoded d d' item item
  | other {item : Item} {code : Value} :
    (DataCode.readValue item.code).result = .ok d → (DataCode.readValue code).result = .ok d' →
      Recoded d d' item { item with code }

variable {d d' : Delta} {i j : Item}

theorem Recoded.id_eq (h : Recoded d d' i j) : i.id = j.id := by
  cases h <;> rfl

theorem trainingDelta_of_read {item : Item}
    (h : (DataCode.readValue item.code).result = .ok d) : item.trainingDelta = d := by
  have htraining : item.training.result = .ok d := h
  rw [trainingDelta, htraining]
  rfl

theorem Recoded.training (h : Recoded d d' i j) :
    i = j ∨ i.trainingDelta = d ∧ j.trainingDelta = d' := by
  cases h with
  | same => exact .inl rfl
  | other hread hread' =>
    exact .inr ⟨trainingDelta_of_read hread, trainingDelta_of_read hread'⟩

theorem extras_eq_map (item : Item) (d d' : Delta) :
    item.extras d' = (item.extras d).map fun g ↦ { g with delta := d' } := by
  unfold extras
  cases immunityMembers item.immunities with
  | error e => rfl
  | ok immunities =>
    cases Integer.ofValue item.encumbrance with
    | error e => rfl
    | ok penalty =>
      cases detectionValues item.detections with
      | error e => rfl
      | ok detections => cases effectMembers item.effects <;> rfl

theorem gear_of_read {item : Item} (h : (DataCode.readValue item.code).result = .ok d) :
    item.gear.result = item.extras d := by
  rw [gear, DataCode.Reading.andThen, h]

/-- Items of which one has another code can both be processed, with the same extras, or neither. -/
theorem Recoded.gear (h : Recoded d d' i j) :
    i = j ∨ (∃ e, i.gear.result = .error e ∧ j.gear.result = .error e) ∨
      ∃ g : Gear, g.delta = d ∧ i.gear.result = .ok g ∧
        j.gear.result = .ok { g with delta := d' } := by
  cases h with
  | same => exact .inl rfl
  | @other code hread hread' =>
    right
    have hother : ({ i with code } : Item).gear.result = i.extras d' := gear_of_read hread'
    rw [gear_of_read hread, hother, extras_eq_map i d d']
    cases hextras : i.extras d with
    | error e => exact .inl ⟨e, rfl, rfl⟩
    | ok g => exact .inr ⟨g, (extras_eq_ok_iff.1 hextras).1, rfl, rfl⟩

variable {gates : List Gate}

theorem Recoded.exchangeable_training (h : Recoded d d' i j) (hd : d.Exchangeable gates d') :
    i.trainingDelta.Exchangeable gates j.trainingDelta := by
  rcases h.training with rfl | ⟨rfl, rfl⟩
  · exact .refl gates _
  · exact hd

theorem Recoded.exchangeable_gear (h : Recoded d d' i j) (hd : d.Exchangeable gates d') :
    i.gearDelta.Exchangeable gates j.gearDelta := by
  rcases h.gear with rfl | ⟨e, hi, hj⟩ | ⟨g, rfl, hi, hj⟩
  · exact .refl gates _
  · rw [gearDelta, gearDelta, hi, hj]
    exact .refl gates _
  · rw [gearDelta, gearDelta, hi, hj]
    exact hd

end Item

namespace Overlay

open Progress State

variable {d d' : Delta} {i j : Item}

theorem agreeOn_train (hrest : d.withoutTargets = d'.withoutTargets) (h : Item.Recoded d d' i j)
    {s t : State} (hview : s.withoutTargets = t.withoutTargets) :
    AgreeOn withoutTargets (train i s) (train j t) := by
  have hdelta : i.trainingDelta.withoutTargets = j.trainingDelta.withoutTargets := by
    rcases h.training with rfl | ⟨rfl, rfl⟩
    · rfl
    · exact hrest
  have hlaid := agreeOn_applyWith (produced_trainingDelta i).normal
    (produced_trainingDelta j).normal hdelta (some i.id) [] hview
  constructor
  · rw [failure_train, failure_train, ← h.id_eq]
    exact hlaid.failure
  · rw [failure_train, state_train, state_train, ← h.id_eq]
    exact hlaid.state

theorem agreeOn_wear (hrest : d.withoutTargets = d'.withoutTargets) (h : Item.Recoded d d' i j)
    {s t : State} (hview : s.withoutTargets = t.withoutTargets) :
    AgreeOn withoutTargets (wear i s) (wear j t) := by
  have hskipped {k k' : Item} {e e' : SourceError} (hk : k.gear.result = .error e)
      (hk' : k'.gear.result = .error e') : AgreeOn withoutTargets (wear k s) (wear k' t) := by
    rw [wear_of_error hk, wear_of_error hk']
    exact ⟨rfl, fun _ ↦ hview⟩
  have hworn {k k' : Item} {g : Gear} {d' : Delta} (hid : k.id = k'.id)
      (hk : k.gear.result = .ok g) (hk' : k'.gear.result = .ok { g with delta := d' })
      (hdelta : g.delta.withoutTargets = d'.withoutTargets) :
      AgreeOn withoutTargets (wear k s) (wear k' t) := by
    have hlaid := agreeOn_applyWith (Item.normal_gear hk) (Item.normal_gear hk') hdelta
      (some k.id) g.immunities hview
    constructor
    · rw [failure_wear hk, failure_wear hk', ← hid]
      exact hlaid.failure
    · intro hcompleted
      rw [failure_wear hk] at hcompleted
      have hcompleted' := hlaid.failure ▸ hcompleted
      rw [state_wear hk hcompleted, state_wear hk' (hid ▸ hcompleted'), ← hid]
      exact congrArg (addExtras g) (hlaid.state hcompleted)
  rcases h.gear with rfl | ⟨e, hi, hj⟩ | ⟨g, rfl, hi, hj⟩
  · cases hgear : i.gear.result with
    | error e => exact hskipped hgear hgear
    | ok g => exact hworn rfl hgear hgear rfl
  · exact hskipped hi hj
  · exact hworn h.id_eq hi hj hrest

end Overlay

/-- Two loadouts that differ in the codes of some sources. -/
structure Loadout.Recoded (d d' : Delta) (l l' : Loadout) : Prop where
  owner : l.owner = l'.owner
  injuries : l.injuries = l'.injuries
  conditions : l.conditions = l'.conditions
  trainings : List.Forall₂ (Item.Recoded d d') l.trainings l'.trainings
  worn : List.Forall₂ (Item.Recoded d d') l.equipment.wornItems l'.equipment.wornItems
  gates : l.equipment.satisfiedGates = l'.equipment.satisfiedGates

namespace Overlay

open Progress State

variable {d d' : Delta} {l l' : Loadout}

/-- A change that does not read what is left out of a view looks the same in it. -/
theorem agreeOn_start {k : State → State}
    (hk : ∀ s, (k s).withoutTargets = (k s.withoutTargets).withoutTargets) {s t : State}
    (hview : s.withoutTargets = t.withoutTargets) :
    AgreeOn withoutTargets (start (k s)) (start (k t)) := by
  refine ⟨rfl, fun _ ↦ ?_⟩
  rw [state_start, state_start, hk, hview, ← hk]

theorem agreeOn_applyInjuries (injuries : List Injury) {s t : State}
    (hview : s.withoutTargets = t.withoutTargets) :
    AgreeOn withoutTargets (applyInjuries injuries s) (applyInjuries injuries t) := by
  have hpain (s : State) : painTrack injuries s = painTrack injuries s.withoutTargets := rfl
  have hstress (s : State) : stressTrack injuries s = stressTrack injuries s.withoutTargets := rfl
  have hfailure : (applyInjuries injuries s).failure = (applyInjuries injuries t).failure := by
    rw [failure_applyInjuries, failure_applyInjuries, hpain s, hstress s, hview]
    rfl
  refine ⟨hfailure, fun h ↦ ?_⟩
  have hstate {s : State} (h : (applyInjuries injuries s).failure = none) :
      (applyInjuries injuries s).state.withoutTargets =
        { s.withoutTargets with
          pain := (painTrack injuries s.withoutTargets).1
          stress := (stressTrack injuries s.withoutTargets).1 } := by
    rw [state_applyInjuries h]
    rfl
  rw [hstate h, hstate (hfailure ▸ h), hview]

theorem agreeOn_stage (hrest : d.withoutTargets = d'.withoutTargets) (h : l.Recoded d d' l')
    (settings : Settings) (stage : Stage) {s t : State}
    (hview : s.withoutTargets = t.withoutTargets) :
    AgreeOn withoutTargets (stage.run settings l s) (stage.run settings l' t) := by
  cases stage with
  | normalizeTiers => exact agreeOn_start (fun _ ↦ rfl) hview
  | deriveTalents => exact agreeOn_start (fun _ ↦ rfl) hview
  | applyTraining =>
    have htrain (i j : Item) (hij : Item.Recoded d d' i j) (s t : State)
        (hst : s.withoutTargets = t.withoutTargets) :
        AgreeOn withoutTargets (train i s) (train j t) := agreeOn_train hrest hij hst
    exact AgreeOn.each htrain h.trainings hview
  | applyEquipment =>
    have hwear (i j : Item) (hij : Item.Recoded d d' i j) (s t : State)
        (hst : s.withoutTargets = t.withoutTargets) :
        AgreeOn withoutTargets (wear i s) (wear j t) := agreeOn_wear hrest hij hst
    have hworn := AgreeOn.each hwear h.worn hview
    unfold Stage.run applyEquipment
    exact hworn.andThen fun s t hst ↦ ⟨rfl, fun _ ↦ hst⟩
  | applyGateBonuses =>
    rw [Stage.run, Stage.run, ← h.gates]
    refine agreeOn_start (fun s ↦ ?_) hview
    rw [applyGateBonuses_eq, applyGateBonuses_eq]
    rfl
  | applyInjuries =>
    rw [Stage.run, Stage.run, ← h.injuries]
    exact agreeOn_applyInjuries l.injuries hview
  | applyConditions =>
    rw [Stage.run, Stage.run, ← h.conditions]
    exact agreeOn_start (fun _ ↦ rfl) hview
  | finalizeMovement => exact agreeOn_start (fun _ ↦ rfl) hview
  | clampResources =>
    have hclamp (s : State) :
        (clamp s).withoutTargets = (clamp s.withoutTargets).withoutTargets := rfl
    refine ⟨rfl, fun _ ↦ ?_⟩
    show (clamp s).withoutTargets = (clamp t).withoutTargets
    rw [hclamp, hview, ← hclamp]

/-- Passes over sources with other codes end in the same way, and leave the same state but for
basic skills, mitigations and filed effects. -/
theorem agreeOn_run (hrest : d.withoutTargets = d'.withoutTargets) (h : l.Recoded d d' l')
    (settings : Settings) (baseline s : State) :
    AgreeOn withoutTargets (run settings l baseline s) (run settings l' baseline s) := by
  have hstage (i j : Stage) (hij : i = j) (s t : State)
      (hst : s.withoutTargets = t.withoutTargets) :
      AgreeOn withoutTargets (i.run settings l s) (j.run settings l' t) :=
    hij ▸ agreeOn_stage hrest h settings i hst
  exact AgreeOn.each hstage (List.forall₂_same.2 fun _ _ ↦ rfl) rfl

end Overlay

/-! ## Sums -/

namespace Delta

theorem total_congr {f : Delta → Int} {ds ds' : List Delta}
    (h : List.Forall₂ (fun d d' ↦ f d = f d') ds ds') : total f ds = total f ds' := by
  induction h with
  | nil => rfl
  | cons hd _ ih => rw [total, total, hd, ih]

theorem total_add (f g : Delta → Int) (ds : List Delta) :
    total (fun d ↦ f d + g d) ds = total f ds + total g ds := by
  induction ds with
  | nil => rfl
  | cons d ds ih =>
    rw [total, ih, total, total]
    omega

theorem effectSum_flatMap (kind : EffectKind) (name : String) (f : Delta → List GatedEffect)
    (ds : List Delta) :
    effectSum kind name (ds.flatMap f) = total (fun d ↦ effectSum kind name (f d)) ds := by
  induction ds with
  | nil => rfl
  | cons d ds ih => rw [List.flatMap_cons, effectSum_append, ih, total]

variable {gates : List Gate} {ds ds' : List Delta}

theorem any_files_of_exchangeable (h : List.Forall₂ (Exchangeable gates) ds ds')
    (hfiles : ds'.any files = true) : ds.any files = true := by
  induction h with
  | nil => exact hfiles
  | cons hd _ ih =>
    rw [List.any_cons, Bool.or_eq_true] at hfiles ⊢
    exact hfiles.imp hd.files ih

end Delta

namespace Overlay

open Progress State Delta

variable {baseline : State} {gates : List Gate} {ds ds' : List Delta}

theorem filedSum_eq (baseline : State) (ds : List Delta) (kind : EffectKind) (name : String)
    (gates : List Gate) :
    filedSum baseline ds kind name gates =
      filedSum baseline [] kind name gates + total (fun d ↦ d.gatedSum kind name gates) ds := by
  induction gates with
  | nil =>
    have hzero : total (fun _ ↦ 0) ds = 0 := total_eq_zero fun _ _ ↦ rfl
    simp [filedSum, gatedSum, hzero]
  | cons g gates ih =>
    simp only [filedSum, gatedSum, total_add, effectSum_append, effectSum_flatMap, total, ih]
    omega

theorem filedSum_of_not_files (h : ds.any files = false) (kind : EffectKind) (name : String)
    (gates : List Gate) :
    filedSum baseline ds kind name gates = filedSum baseline [] kind name gates := by
  induction gates with
  | nil => rfl
  | cons g gates ih =>
    rw [filedSum, filedSum, ih, flatMap_gated_eq_nil h]
    rfl

/-- What a target outside the schema loses when effects are filed by the first deltas and not by the
second ones: the refreshed totals do not list it. -/
def forgone (baseline : State) (ds ds' : List Delta) (gates : List Gate) (kind : EffectKind)
    (name : String) : Int :=
  if name ∉ kind.targets ∧ ds.any files ∧ ¬ ds'.any files then
    filedSum baseline [] kind name gates
  else 0

theorem total_add_gateBonus (h : List.Forall₂ (Exchangeable gates) ds ds') (baseline : State)
    (kind : EffectKind) (name : String) :
    total (fun d ↦ d.direct kind name) ds + gateBonus baseline ds kind name gates =
      total (fun d ↦ d.direct kind name) ds' + gateBonus baseline ds' kind name gates -
        forgone baseline ds ds' gates kind name := by
  by_cases hname : name ∈ kind.targets
  · have hsum := total_congr (h.imp fun d d' hd ↦ hd.sum kind name)
    rw [total_add, total_add] at hsum
    rw [gateBonus, gateBonus, forgone, if_pos (.inl hname), if_pos (.inl hname),
      if_neg fun hlost ↦ hlost.1 hname, filedSum_eq baseline ds, filedSum_eq baseline ds']
    omega
  · have hdirect := total_congr (h.imp fun d d' hd ↦ hd.direct kind name hname)
    rw [hdirect]
    -- Outside the schema gates count until some delta files an effect.
    cases hfiles : ds.any files with
    | false =>
      have hfiles' : ds'.any files = false := by
        rw [Bool.eq_false_iff] at hfiles ⊢
        exact mt (any_files_of_exchangeable h) hfiles
      simp [gateBonus, forgone, hfiles, hfiles', filedSum_of_not_files hfiles,
        filedSum_of_not_files hfiles']
    | true =>
      cases hfiles' : ds'.any files with
      | true => simp [gateBonus, forgone, hname, hfiles, hfiles']
      | false =>
        simp [gateBonus, forgone, hname, hfiles, hfiles', filedSum_of_not_files hfiles']

end Overlay

theorem Loadout.Recoded.exchangeable {d d' : Delta} {l l' : Loadout} {gates : List Gate}
    (h : l.Recoded d d' l') (hd : d.Exchangeable gates d') :
    List.Forall₂ (Delta.Exchangeable gates) l.deltas l'.deltas := by
  apply List.rel_append
  · exact List.rel_map (fun _ _ hij ↦ hij.exchangeable_training hd) h.trainings
  · exact List.rel_map (fun _ _ hij ↦ hij.exchangeable_gear hd) h.worn

def State.lessen (loss : EffectKind → String → Int) (s : State) : State :=
  { s with
    mitigation := s.mitigation.mapWithKey fun name n ↦ n - loss .mitigation name
    basic := s.basic.mapWithKey fun name e ↦ { e with value := e.value - loss .skill name } }

namespace Overlay

open Progress State Delta

theorem basicEntry_eq {gates : List Gate} {ds ds' : List Delta}
    (h : List.Forall₂ (Exchangeable gates) ds ds') (baseline : State) (name : String)
    (e : SkillEntry) :
    basicEntry baseline ds gates name e =
      { basicEntry baseline ds' gates name e with
        value := (basicEntry baseline ds' gates name e).value -
          forgone baseline ds ds' gates .skill name } := by
  have hsum := total_add_gateBonus h baseline .skill name
  have htiers : total (fun d ↦ d.tiers.getD name 0) ds =
      total (fun d ↦ d.tiers.getD name 0) ds' := by
    apply total_congr
    refine h.imp fun d d' hd ↦ ?_
    have htables : d.withoutTargets.tiers = d'.withoutTargets.tiers := by rw [hd.rest]
    exact congrArg (·.getD name 0) htables
  simp only [direct, table] at hsum
  simp only [basicEntry, htiers, SkillEntry.mk.injEq, and_true]
  omega

/-- Sources with exchangeable codes leave the same state, but for the filed effects and for what
targets outside the schema lose. -/
theorem state_run_recoded {d d' : Delta} {l l' : Loadout} {settings : Settings}
    {baseline s : State} (hd : d.Exchangeable l.equipment.satisfiedGates d')
    (h : l.Recoded d d' l') (hsummed : baseline.conditionals.Summed)
    (hcompleted : (run settings l baseline s).failure = none) :
    (run settings l baseline s).state =
      { (run settings l' baseline s).state.lessen
          (forgone baseline l.deltas l'.deltas l.equipment.satisfiedGates) with
        conditionals := (run settings l baseline s).state.conditionals } := by
  have hagree := agreeOn_run hd.rest h settings baseline s
  have hcompleted' : (run settings l' baseline s).failure = none := hagree.failure ▸ hcompleted
  have hexchange := h.exchangeable hd
  have hmitigation : (run settings l baseline s).state.mitigation =
      (run settings l' baseline s).state.mitigation.mapWithKey fun name n ↦
        n - forgone baseline l.deltas l'.deltas l.equipment.satisfiedGates .mitigation name := by
    rw [mitigation_run hsummed hcompleted, mitigation_run hsummed hcompleted', ← h.gates,
      Table.mapWithKey_mapWithKey]
    refine Table.mapWithKey_congr fun name n _ ↦ ?_
    have hsum := total_add_gateBonus hexchange baseline .mitigation name
    simp only [direct, table] at hsum
    omega
  have hbasic : (run settings l baseline s).state.basic =
      (run settings l' baseline s).state.basic.mapWithKey fun name e ↦
        { e with value := e.value -
          forgone baseline l.deltas l'.deltas l.equipment.satisfiedGates .skill name } := by
    rw [basic_run hsummed hcompleted, basic_run hsummed hcompleted', ← h.gates,
      Table.mapWithKey_mapWithKey]
    exact Table.mapWithKey_congr fun name e _ ↦ basicEntry_eq hexchange baseline name e
  have hstate := eq_of_withoutTargets (hagree.state hcompleted)
  rw [hmitigation, hbasic] at hstate
  exact hstate

end Overlay

end CharacterSheet
