import CharacterSheet.Proofs.Overlay.Settling
import CharacterSheet.Proofs.State.Laying

/-!
# The closed form of a pass

A completed pass adds to each entry of the baseline what the sources contribute to it, source by
source, and what the satisfied gates add on top.  A source that cannot be processed counts as the
empty delta.  The talents of basic skills are taken from the attributes of the baseline, before any
source is laid over them.
-/

namespace CharacterSheet

/-- What a training contributes: its delta, or nothing if it cannot be read. -/
def Item.trainingDelta (item : Item) : Delta := item.training.result.toOption.getD .empty

/-- What a worn item contributes: its delta, or nothing if it cannot be processed. -/
def Item.gearDelta (item : Item) : Delta :=
  (item.gear.result.toOption.map Gear.delta).getD .empty

/-- What the sources contribute, trainings first, then worn items slot by slot. -/
def Loadout.deltas (l : Loadout) : List Delta :=
  l.trainings.map Item.trainingDelta ++ l.equipment.wornItems.map Item.gearDelta

namespace Delta

theorem contributionOf_zero {target : ResourceTarget} {es : List (String × Int)}
    (h : ∀ e ∈ es, e.2 = 0) : contributionOf target es = 0 := by
  induction es with
  | nil => rfl
  | cons e es ih =>
    rw [contributionOf, h e List.mem_cons_self, ih fun e' he' ↦ h e' (List.mem_cons_of_mem e he')]
    split <;> rfl

@[simp] theorem contribution_empty (target : ResourceTarget) : empty.contribution target = 0 := by
  refine contributionOf_zero fun e he ↦ ?_
  obtain ⟨name, -, rfl⟩ := List.mem_map.1 he
  rfl

end Delta

namespace State

theorem lays_empty {s : State} (ht : s.Tiered) : Lays .empty s s := by
  have hnumbers (t : Table Int) {names : List String} (h : names.Nodup) :
      t = t.mapWithKey fun name n ↦ n + (Table.ofNames names 0 h).getD name 0 :=
    (Table.mapWithKey_eq_self fun name n _ ↦ by simp).symm
  have hgains {t : Table SkillEntry} (ht : t.Tiered) {names : List String} (h : names.Nodup) :
      t = t.mapWithKey fun name e ↦ e.addGain ((Table.ofNames names .zero h).getD name .zero) :=
    (Table.mapWithKey_eq_self fun name e he ↦ by simp [SkillEntry.addGain_zero (ht name e he)]).symm
  exact
    { attributes := hnumbers s.attributes Schema.nodup_attributes
      basic := (Table.mapWithKey_eq_self fun name e he ↦ by
        have hzero : Delta.empty.basicGain name = .zero := by
          simp [Delta.basicGain, Delta.empty, SkillGain.zero]
        rw [hzero, SkillEntry.addGain_zero (ht.basic name e he)]).symm
      weapon := hgains ht.weapon Schema.nodup_weaponSkills
      magic := hgains ht.magic Schema.nodup_magicSkills
      crafting := hgains ht.crafting Schema.nodup_craftingSkills
      mitigation := hnumbers s.mitigation Schema.nodup_mitigations
      resources := (Table.mapWithKey_eq_self fun name p _ ↦ by simp).symm
      spellSlots := by simp
      movement := rfl
      movementBonuses := hnumbers s.movementBonuses Schema.nodup_movementModes
      weaponRanges := hnumbers s.weaponRanges Schema.nodup_weaponRanges
      dualWield := fun h ↦ by
        have hzero : Delta.empty.features.getD Schema.dualWieldTier 0 = 0 :=
          Table.getD_ofNames _ 0 Schema.nodup_combatFeatures _
        rw [hzero]
        omega
      filed := fun gate ↦ by
        have hnone : Delta.empty.gated.getD gate [] = [] :=
          Table.getD_ofNames _ [] Schema.nodup_gates gate
        rw [hnone, List.append_nil]
      total := fun gate kind name ↦ rfl }

end State

namespace Overlay

open Progress State

/-! ## Sources -/

theorem failure_train (item : Item) (s : State) :
    (train item s).failure = (State.apply (some item.id) item.trainingDelta s).failure :=
  failure_andThen_of_completed rfl _

theorem state_train (item : Item) (s : State) :
    (train item s).state = (State.apply (some item.id) item.trainingDelta s).state :=
  state_andThen rfl _

theorem wear_of_ok {item : Item} {g : Gear} (h : item.gear.result = .ok g) (s : State) :
    wear item s = (({ state := s, events := item.gear.events "source" item.id } : Progress).andThen
      (applyWith (some item.id) g.delta g.immunities)).thenPure (addExtras g) := by
  unfold wear
  dsimp only
  rw [h]

theorem wear_of_error {item : Item} {e : SourceError} (h : item.gear.result = .error e)
    (s : State) : wear item s = { state := s, events := item.gear.events "source" item.id } := by
  unfold wear
  dsimp only
  rw [h]

theorem failure_wear {item : Item} {g : Gear} (h : item.gear.result = .ok g) (s : State) :
    (wear item s).failure =
      (applyWith (some item.id) g.delta g.immunities s).failure := by
  rw [wear_of_ok h, failure_thenPure, failure_andThen_of_completed rfl]

theorem state_wear {item : Item} {g : Gear} (h : item.gear.result = .ok g) {s : State}
    (hcompleted : (applyWith (some item.id) g.delta g.immunities s).failure = none) :
    (wear item s).state =
      addExtras g (applyWith (some item.id) g.delta g.immunities s).state := by
  rw [wear_of_ok h, state_thenPure (by rwa [failure_andThen_of_completed rfl]), state_andThen rfl]

theorem lays_train {item : Item} {s : State} (ht : s.Tiered)
    (h : (train item s).failure = none) :
    Lays item.trainingDelta s (train item s).state := by
  rw [failure_train] at h
  rw [state_train]
  exact lays_applyWith ht h

theorem lays_wear {item : Item} {s : State} (ht : s.Tiered) (h : (wear item s).failure = none) :
    Lays item.gearDelta s (wear item s).state := by
  unfold Item.gearDelta
  cases hgear : item.gear.result with
  | error e =>
    rw [wear_of_error hgear]
    exact lays_empty ht
  | ok g =>
    rw [failure_wear hgear] at h
    have hlays : Lays g.delta s _ := lays_applyWith ht h
    rw [state_wear hgear h]
    exact { hlays with }

/-- Sources that each lay one delta lay all of them. -/
theorem laysAll_each {f : Item → State → Progress} {delta : Item → Delta}
    (hf : ∀ {item s}, s.Tiered → (f item s).failure = none → Lays (delta item) s (f item s).state)
    {items : List Item} {s : State} (ht : s.Tiered) (h : (each f items s).failure = none) :
    LaysAll (items.map delta) s (each f items s).state := by
  induction items generalizing s with
  | nil => exact .nil s
  | cons item items ih =>
    rw [each_cons] at h ⊢
    obtain ⟨hfirst, hrest⟩ := failure_andThen_eq_none_iff.1 h
    have hlays := hf ht hfirst
    rw [state_andThen hfirst]
    exact .cons hlays (ih hlays.tiered hrest)

/-- The baseline with its tiers normalised and its talents derived. -/
def prepared (baseline : State) : State := deriveTalents (normalizeTiers baseline)

theorem tiered_prepared (baseline : State) : (prepared baseline).Tiered where
  basic := by
    rw [prepared, deriveTalents, normalizeTiers]
    intro name e he
    simp only [Table.map, Table.get?_mapWithKey, Option.map_eq_some_iff] at he
    obtain ⟨_, ⟨e', -, rfl⟩, rfl⟩ := he
    split <;> rfl
  weapon := Table.tiered_mapWithKey fun _ _ ↦ rfl
  magic := Table.tiered_mapWithKey fun _ _ ↦ rfl
  crafting := Table.tiered_mapWithKey fun _ _ ↦ rfl

/-- Before the injuries the trainings are laid over the prepared baseline, then the worn items, and
the bonuses of the gates are added. -/
theorem laid_eq (settings : Settings) (l : Loadout) (baseline : State) :
    laid settings l baseline =
      (applyTraining l.trainings (prepared baseline)).andThen fun s ↦
        (applyEquipment l.owner l.equipment.wornItems s).andThen fun s ↦
          start (applyGateBonuses l.equipment.satisfiedGates s) := by
  show each (Stage.run settings l) Stage.laying baseline = _
  rw [Stage.laying, each_cons, Stage.run, start_andThen, each_cons, Stage.run, start_andThen,
    each_cons]
  refine congrArg _ (funext fun s ↦ ?_)
  rw [each_cons]
  refine congrArg _ (funext fun s ↦ ?_)
  rw [each_cons, Stage.run, start_andThen, each_nil]

/-- What is laid before the bonuses of the gates are the deltas of all sources. -/
theorem exists_laysAll_laid {settings : Settings} {l : Loadout} {baseline : State}
    (h : (laid settings l baseline).failure = none) :
    ∃ s, LaysAll l.deltas (prepared baseline) s ∧
      (laid settings l baseline).state = applyGateBonuses l.equipment.satisfiedGates s := by
  rw [laid_eq] at h ⊢
  obtain ⟨htrained, h⟩ := failure_andThen_eq_none_iff.1 h
  obtain ⟨hequipped, -⟩ := failure_andThen_eq_none_iff.1 h
  rw [state_andThen htrained, state_andThen hequipped]
  have ht := tiered_prepared baseline
  have htraining : LaysAll _ _ (applyTraining l.trainings (prepared baseline)).state :=
    laysAll_each (f := train) lays_train ht htrained
  obtain ⟨hworn, -⟩ := failure_andThen_eq_none_iff.1 hequipped
  have hwearing := laysAll_each (f := wear) lays_wear (htraining.tiered ht) hworn
  refine ⟨_, htraining.append hwearing, ?_⟩
  rw [applyEquipment, state_andThen hworn]
  rfl

/-! ## Gates -/

/-- What satisfied gates add to a target. -/
def totalOver (c : Conditionals) (kind : EffectKind) (name : String) : List Gate → Int
  | [] => 0
  | g :: gates => c.total g.name kind name + totalOver c kind name gates

theorem addTotals_eq (s : State) (t : GateTotals) :
    addTotals s t = { s with
      mitigation := s.mitigation.mapWithKey fun name n ↦ n + (t.table .mitigation).getD name 0
      basic := s.basic.mapWithKey fun name e ↦
        { e with value := e.value + (t.table .skill).getD name 0 } } := by
  have hbasic : s.basic.overlay isZero (fun e n ↦ { e with value := e.value + n }) t.skills =
      s.basic.mapWithKey fun name e ↦ { e with value := e.value + t.skills.getD name 0 } :=
    Table.overlay_eq_mapWithKey (fun _ h ↦ eq_of_beq h) (fun _ e _ ↦ by simp) t.skills
  rw [addTotals, overlay_isZero, hbasic]
  rfl

theorem foldl_addTotals (c : Conditionals) (gates : List Gate) (s : State) :
    (gates.filterMap fun g ↦ c.totals.get? g.name).foldl addTotals s = { s with
      mitigation := s.mitigation.mapWithKey fun name n ↦ n + totalOver c .mitigation name gates
      basic := s.basic.mapWithKey fun name e ↦
        { e with value := e.value + totalOver c .skill name gates } } := by
  induction gates generalizing s with
  | nil =>
    have hmitigation : s.mitigation.mapWithKey
        (fun name n ↦ n + totalOver c .mitigation name []) = s.mitigation :=
      Table.mapWithKey_eq_self fun _ n _ ↦ Int.add_zero n
    have hbasic : s.basic.mapWithKey (fun name e ↦
        { e with value := e.value + totalOver c .skill name [] }) = s.basic :=
      Table.mapWithKey_eq_self fun _ e _ ↦ by simp [totalOver]
    rw [hmitigation, hbasic]
    rfl
  | cons g gates ih =>
    cases hg : c.totals.get? g.name with
    | none =>
      have htotal (kind : EffectKind) (name : String) :
          totalOver c kind name (g :: gates) = totalOver c kind name gates := by
        simp [totalOver, Conditionals.total, hg]
      rw [List.filterMap_cons_none (f := fun g : Gate ↦ c.totals.get? g.name) hg, ih]
      simp only [htotal]
    | some t =>
      have htotal (kind : EffectKind) (name : String) : totalOver c kind name (g :: gates) =
          (t.table kind).getD name 0 + totalOver c kind name gates := by
        simp [totalOver, Conditionals.total, hg]
      rw [List.filterMap_cons_some (f := fun g : Gate ↦ c.totals.get? g.name) hg, List.foldl_cons,
        addTotals_eq, ih]
      simp only [htotal, Table.mapWithKey_mapWithKey, Int.add_assoc]

/-- The sum of the effects on a target, over some gates, that the baseline and the sources filed
under them. -/
def filedSum (baseline : State) (ds : List Delta) (kind : EffectKind) (name : String) :
    List Gate → Int
  | [] => 0
  | g :: gates =>
    effectSum kind name (baseline.conditionals.filed g.name ++
      ds.flatMap fun d ↦ d.gated.getD g.name []) + filedSum baseline ds kind name gates

/-- What satisfied gates add to a target: the effects on it.  Totals that are computed anew list the
targets of the schema only. -/
def gateBonus (baseline : State) (ds : List Delta) (kind : EffectKind) (name : String)
    (gates : List Gate) : Int :=
  if name ∈ kind.targets ∨ ds.any Delta.files = false then filedSum baseline ds kind name gates
  else 0

theorem totalOver_eq_gateBonus {ds : List Delta} {baseline s t : State} (h : LaysAll ds s t)
    (hs : s.conditionals = baseline.conditionals) (hsummed : baseline.conditionals.Summed)
    (kind : EffectKind) (name : String) (gates : List Gate) :
    totalOver t.conditionals kind name gates = gateBonus baseline ds kind name gates := by
  have hgate (g : Gate) : t.conditionals.total g.name kind name =
      if name ∈ kind.targets ∨ ds.any Delta.files = false then
        effectSum kind name (baseline.conditionals.filed g.name ++
          ds.flatMap fun d ↦ d.gated.getD g.name [])
      else 0 := by
    rw [h.total, h.filed, hs]
    cases hfiles : ds.any Delta.files with
    | true => simp
    | false =>
      rw [Delta.flatMap_gated_eq_nil hfiles, List.append_nil, ← hsummed g kind name]
      simp
  induction gates with
  | nil => simp [totalOver, gateBonus, filedSum]
  | cons g gates ih =>
    rw [totalOver, ih, hgate, gateBonus, gateBonus, filedSum]
    split <;> rfl

/-! ## The closed form -/

/-- The tier of an entry with the tiers under older field names; an unset one counts as zero. -/
def startingTier (e : SkillEntry) : Int :=
  e.tier.getD 0 + e.legacy.getD "diceTierModifier" 0 + e.legacy.getD "dice_tier_modifier" 0 +
    e.legacy.getD "tierModifier" 0

/-- An entry of the baseline with what deltas give to it. -/
def trainedEntry (part : Delta → Table SkillGain) (ds : List Delta) (name : String)
    (e : SkillEntry) : SkillEntry :=
  { e with
    value := e.value + Delta.total (fun d ↦ ((part d).getD name .zero).skill) ds
    talent := e.talent + Delta.total (fun d ↦ ((part d).getD name .zero).talent) ds
    tier := some (startingTier e + Delta.total (fun d ↦ ((part d).getD name .zero).tier) ds)
    legacy := .empty }

/-- A basic skill of the baseline with what deltas and gates give to it.  Its talent is the value of
its attribute in the baseline. -/
def basicEntry (baseline : State) (ds : List Delta) (gates : List Gate) (name : String)
    (e : SkillEntry) : SkillEntry :=
  { e with
    value := e.value + Delta.total (fun d ↦ d.skills.getD name 0) ds +
      gateBonus baseline ds .skill name gates
    talent := match e.governor with
      | some governor => baseline.attributes.getD governor 0
      | none => e.talent
    tier := some (startingTier e + Delta.total (fun d ↦ d.tiers.getD name 0) ds)
    legacy := .empty }

/-- What a pass makes of the numbers of a baseline, given the deltas of the sources and the gates
that the equipment satisfies. -/
structure ClosedForm (baseline : State) (ds : List Delta) (gates : List Gate) (r : State) :
    Prop where
  attributes : r.attributes = baseline.attributes.mapWithKey fun name n ↦
    n + Delta.total (fun d ↦ d.attributes.getD name 0) ds
  weaponRanges : r.weaponRanges = baseline.weaponRanges.mapWithKey fun name n ↦
    n + Delta.total (fun d ↦ d.weaponRanges.getD name 0) ds
  spellSlots : r.spellSlots =
    baseline.spellSlots + Delta.total (Delta.contribution .spellSlots) ds
  pools : ∀ name p, baseline.resources.get? name = some p →
    ∃ q, r.resources.get? name = some q ∧
      q.max = p.max + Delta.total (Delta.contribution (.pool name .max)) ds ∧
      q.recovery = p.recovery + Delta.total (Delta.contribution (.pool name .recovery)) ds
  weapon : r.weapon = baseline.weapon.mapWithKey (trainedEntry Delta.weapon ds)
  magic : r.magic = baseline.magic.mapWithKey (trainedEntry Delta.magic ds)
  crafting : r.crafting = baseline.crafting.mapWithKey (trainedEntry Delta.crafting ds)
  basic : r.basic = baseline.basic.mapWithKey (basicEntry baseline ds gates)
  mitigation : r.mitigation = baseline.mitigation.mapWithKey fun name n ↦
    n + Delta.total (fun d ↦ d.mitigation.getD name 0) ds +
      gateBonus baseline ds .mitigation name gates
  dualWield : r.features.getD Schema.dualWieldTier 0 =
    ds.foldl (fun n d ↦ max n (d.features.getD Schema.dualWieldTier 0))
      (baseline.features.getD Schema.dualWieldTier 0)

/-- What is laid over a normalised table of entries, seen from the table that was normalised. -/
theorem mapWithKey_trainedEntry {part : Delta → Table SkillGain} {ds : List Delta}
    {t t' : Table SkillEntry}
    (h : t' = (t.map normalizeEntry).mapWithKey fun name e ↦
      e.addGain (Delta.gains (fun d ↦ (part d).getD name .zero) ds)) :
    t' = t.mapWithKey (trainedEntry part ds) := by
  rw [h, Table.map, Table.mapWithKey_mapWithKey]
  rfl

/-- What is laid over the prepared basic skills, and added to their values, from the baseline. -/
theorem mapWithKey_basicEntry {ds : List Delta} {baseline : State} {t : Table SkillEntry}
    (h : t = (prepared baseline).basic.mapWithKey fun name e ↦
      e.addGain (Delta.gains (fun d ↦ d.basicGain name) ds)) (gates : List Gate) :
    (t.mapWithKey fun name e ↦
      { e with value := e.value + gateBonus baseline ds .skill name gates }) =
        baseline.basic.mapWithKey (basicEntry baseline ds gates) := by
  have htalent : Delta.total (fun _ ↦ 0) ds = 0 := Delta.total_eq_zero fun _ _ ↦ rfl
  rw [h, prepared, deriveTalents, normalizeTiers]
  simp only [Table.map, Table.mapWithKey_mapWithKey]
  refine Table.mapWithKey_congr fun name e _ ↦ ?_
  obtain ⟨value, talent, tier, governor, legacy⟩ := e
  simp only [SkillEntry.addGain, SkillEntry.addTier, Delta.gains, Delta.basicGain, basicEntry]
  cases governor with
  | none =>
    simp only [normalizeEntry, htalent, Int.add_zero]
    rfl
  | some governor =>
    simp only [normalizeEntry, htalent, Int.add_zero]
    rfl

theorem applyGateBonuses_eq (gates : List Gate) (s : State) :
    applyGateBonuses gates s = { s with
      mitigation := s.mitigation.mapWithKey fun name n ↦
        n + totalOver s.conditionals .mitigation name gates
      basic := s.basic.mapWithKey fun name e ↦
        { e with value := e.value + totalOver s.conditionals .skill name gates }
      satisfiedGates := gates.map Gate.name } := by
  rw [applyGateBonuses, foldl_addTotals]

section Targets

variable {ds : List Delta} {baseline s : State} (h : LaysAll ds (prepared baseline) s)
  (hsummed : baseline.conditionals.Summed) (gates : List Gate)

include h hsummed

theorem totalOver_prepared (kind : EffectKind) (name : String) :
    totalOver s.conditionals kind name gates = gateBonus baseline ds kind name gates := by
  have hsame : (prepared baseline).conditionals = baseline.conditionals := rfl
  exact totalOver_eq_gateBonus h hsame hsummed kind name gates

theorem mitigation_applyGateBonuses : (applyGateBonuses gates s).mitigation =
    baseline.mitigation.mapWithKey fun name n ↦
      n + Delta.total (fun d ↦ d.mitigation.getD name 0) ds +
        gateBonus baseline ds .mitigation name gates := by
  have hmitigation := h.numbers Lays.mitigation
  rw [applyGateBonuses_eq]
  simp only [totalOver_prepared h hsummed]
  rw [hmitigation, Table.mapWithKey_mapWithKey]
  rfl

theorem basic_applyGateBonuses : (applyGateBonuses gates s).basic =
    baseline.basic.mapWithKey (basicEntry baseline ds gates) := by
  have hbasic := h.gains Lays.basic (tiered_prepared baseline).basic
  rw [applyGateBonuses_eq]
  simp only [totalOver_prepared h hsummed]
  exact mapWithKey_basicEntry hbasic gates

end Targets

/-- Laying the sources and adding the bonuses of the gates is what the closed form says. -/
theorem closedForm_applyGateBonuses {ds : List Delta} {baseline s : State}
    (h : LaysAll ds (prepared baseline) s) (hsummed : baseline.conditionals.Summed)
    (hdual : 0 ≤ baseline.features.getD Schema.dualWieldTier 0) (gates : List Gate) :
    ClosedForm baseline ds gates (applyGateBonuses gates s) := by
  have ht := tiered_prepared baseline
  have hattributes := h.numbers Lays.attributes
  have hranges := h.numbers Lays.weaponRanges
  have hweapon := h.gains Lays.weapon ht.weapon
  have hmagic := h.gains Lays.magic ht.magic
  have hcrafting := h.gains Lays.crafting ht.crafting
  have hbasic := basic_applyGateBonuses h hsummed gates
  have hmitigation := mitigation_applyGateBonuses h hsummed gates
  rw [applyGateBonuses_eq] at hbasic hmitigation ⊢
  exact
    { attributes := hattributes
      weaponRanges := hranges
      spellSlots := h.spellSlots
      pools := fun name p hp ↦ by
        have hpool := congrArg (Table.get? · name) h.resources
        have hp' : (prepared baseline).resources.get? name = some p := hp
        simp only [Table.get?_mapWithKey, hp', Option.map_some] at hpool
        exact ⟨_, hpool, rfl, rfl⟩
      weapon := mapWithKey_trainedEntry hweapon
      magic := mapWithKey_trainedEntry hmagic
      crafting := mapWithKey_trainedEntry hcrafting
      basic := hbasic
      mitigation := hmitigation
      dualWield := h.dualWield hdual }

@[simp] theorem max_clampPool (p : Pool) : (clampPool p).max = p.max := by
  obtain ⟨max, current, recovery⟩ := p
  cases current <;> rfl

@[simp] theorem recovery_clampPool (p : Pool) : (clampPool p).recovery = p.recovery := by
  obtain ⟨max, current, recovery⟩ := p
  cases current <;> rfl

/-- Neither what is carried over nor the overlays after the gate bonuses touch the closed form. -/
theorem ClosedForm.finish {baseline s : State} {ds : List Delta} {gates : List Gate}
    (h : ClosedForm baseline ds gates s) (settings : Settings) (conditions : NameSet)
    (c : Carried) : ClosedForm baseline ds gates (finish settings conditions (s.carry c)) :=
  { h with
    pools := fun name p hp ↦ by
      obtain ⟨q, hq, hmax, hrecovery⟩ := h.pools name p hp
      have hpool : (Overlay.finish settings conditions (s.carry c)).resources.get? name =
          some (clampPool (q.withCurrent (c.current name))) := by
        show ((s.carry c).resources.map clampPool).get? name = _
        rw [resources_carry, Table.map, Table.get?_mapWithKey, Table.get?_mapWithKey, hq]
        rfl
      exact ⟨_, hpool, (max_clampPool _).trans hmax, (recovery_clampPool _).trans hrecovery⟩ }

section Finish

variable (settings : Settings) (conditions : NameSet) (c : Carried) (s : State)

theorem mitigation_finish : (finish settings conditions (s.carry c)).mitigation = s.mitigation :=
  rfl

theorem basic_finish : (finish settings conditions (s.carry c)).basic = s.basic := rfl

end Finish

section Run

variable {settings : Settings} {l : Loadout} {baseline s : State}

/-- A completed pass lays all sources, adds the bonuses of the gates and settles. -/
theorem exists_laysAll_run (h : (run settings l baseline s).failure = none) :
    ∃ t c, LaysAll l.deltas (prepared baseline) t ∧
      (run settings l baseline s).state =
        finish settings l.conditions ((applyGateBonuses l.equipment.satisfiedGates t).carry c) := by
  obtain ⟨hlaid, hinjuries, hstate⟩ := state_run h
  obtain ⟨t, hall, ht⟩ := exists_laysAll_laid hlaid
  rw [hstate, state_applyInjuries_carry hinjuries, ht]
  exact ⟨t, _, hall, rfl⟩

theorem mitigation_run (hsummed : baseline.conditionals.Summed)
    (h : (run settings l baseline s).failure = none) :
    (run settings l baseline s).state.mitigation = baseline.mitigation.mapWithKey fun name n ↦
      n + Delta.total (fun d ↦ d.mitigation.getD name 0) l.deltas +
        gateBonus baseline l.deltas .mitigation name l.equipment.satisfiedGates := by
  obtain ⟨t, c, hall, hstate⟩ := exists_laysAll_run h
  rw [hstate, mitigation_finish]
  exact mitigation_applyGateBonuses hall hsummed l.equipment.satisfiedGates

theorem basic_run (hsummed : baseline.conditionals.Summed)
    (h : (run settings l baseline s).failure = none) :
    (run settings l baseline s).state.basic = baseline.basic.mapWithKey
      (basicEntry baseline l.deltas l.equipment.satisfiedGates) := by
  obtain ⟨t, c, hall, hstate⟩ := exists_laysAll_run h
  rw [hstate, basic_finish]
  exact basic_applyGateBonuses hall hsummed l.equipment.satisfiedGates

/-- A completed pass leaves the closed form. -/
theorem closedForm_run (hsummed : baseline.conditionals.Summed)
    (hdual : 0 ≤ baseline.features.getD Schema.dualWieldTier 0)
    (h : (run settings l baseline s).failure = none) :
    ClosedForm baseline l.deltas l.equipment.satisfiedGates (run settings l baseline s).state := by
  obtain ⟨t, c, hall, hstate⟩ := exists_laysAll_run h
  rw [hstate]
  exact (closedForm_applyGateBonuses hall hsummed hdual _).finish settings l.conditions c

end Run

end Overlay

end CharacterSheet
