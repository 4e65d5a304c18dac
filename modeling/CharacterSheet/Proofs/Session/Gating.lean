import CharacterSheet.Proofs.Overlay.Recoding
import CharacterSheet.Proofs.Session.Pass

/-!
# Bonuses under a satisfied gate

A source with bonuses under a gate is compared with the same source under another code: with the
bonuses in the open if the equipment satisfies the gate, with the empty code if it does not.
-/

namespace CharacterSheet

open DataCode (Bonus gatedCode plainCode)

/-- Where an item stands among the sources: trainings by position, worn items by slot.  One item can
stand in several places. -/
structure Places where
  training : Nat → Bool
  slot : String → Bool

/-- The item with another data code. -/
def Item.recode (code : String) (item : Item) : Item := { item with code := .text code }

namespace Session

open State

/-- The session in which the items in some places have another data code. -/
def recode (places : Places) (code : String) (s : Session) : Session :=
  { s with
    character := { s.character with
      trainings := s.character.trainings.mapIdx fun i item ↦
        if places.training i then item.recode code else item
      equipment := s.character.equipment.mapWithKey fun slot worn ↦
        if places.slot slot then worn.map (Item.recode code) else worn } }

variable (s : Session) (places : Places)

theorem worn?_recode (code slot : String) :
    (s.recode places code).character.equipment.worn? slot =
      (s.character.equipment.worn? slot).map fun item ↦
        if places.slot slot then item.recode code else item := by
  simp only [recode, Equipment.worn?, Table.getD, Table.get?_mapWithKey]
  cases s.character.equipment.get? slot with
  | none => rfl
  | some worn => cases worn <;> by_cases h : places.slot slot <;> simp [h]

theorem satisfiedGates_recode (code : String) :
    (s.recode places code).character.equipment.satisfiedGates =
      s.character.equipment.satisfiedGates := by
  apply Equipment.satisfiedGates_congr
  intro slot
  rw [worn?_recode, Option.map_map]
  refine congrArg (fun f ↦ (s.character.equipment.worn? slot).map f) (funext fun item ↦ ?_)
  by_cases h : places.slot slot <;> simp [h, Item.recode, Item.bearing]

theorem recoded_recode {a b : String} {d d' : Delta} (ha : (DataCode.read a).result = .ok d)
    (hb : (DataCode.read b).result = .ok d') :
    (s.recode places a).character.loadout.Recoded d d' (s.recode places b).character.loadout := by
  have hitem (p : Bool) (item : Item) : Item.Recoded d d'
      (if p then item.recode a else item) (if p then item.recode b else item) := by
    cases p with
    | true => exact @Item.Recoded.other d d' (item.recode a) (.text b) ha hb
    | false => exact .same item
  refine ⟨rfl, rfl, rfl, ?_, ?_, ?_⟩
  · show List.Forall₂ _ (s.character.trainings.mapIdx _) (s.character.trainings.mapIdx _)
    rw [List.mapIdx_eq_zipIdx_map, List.mapIdx_eq_zipIdx_map, List.forall₂_map_left_iff,
      List.forall₂_map_right_iff]
    exact List.forall₂_same.2 fun e _ ↦ hitem (places.training e.2) e.1
  · have hslot (slot slot' : String) (h : slot = slot') : Option.Rel (Item.Recoded d d')
        ((s.recode places a).character.equipment.worn? slot)
        ((s.recode places b).character.equipment.worn? slot') := by
      subst h
      rw [worn?_recode, worn?_recode]
      cases s.character.equipment.worn? slot with
      | none => exact .none
      | some item => exact .some (hitem (places.slot slot) item)
    exact List.rel_filterMap hslot (List.forall₂_same.2 fun _ _ ↦ rfl)
  · exact (satisfiedGates_recode s places a).trans (satisfiedGates_recode s places b).symm

variable {s}

/-- A satisfied gate means that its contents apply as if they stood in the open, and those of an
unsatisfied gate as if they did not stand there.  Outside the filed effects both passes leave the
same state; only targets outside the schema lose what the gates of the baseline gave them, if
otherwise no source files an effect. -/
theorem runPass_gatedCode {baseline : State} (hb : s.character.baseline = some baseline)
    (hsummed : baseline.conditionals.Summed) (places : Places) (gate : Gate) {bs : List Bonus}
    (hne : bs ≠ []) :
    let gates := s.character.equipment.satisfiedGates
    let gated := s.recode places (gatedCode gate bs)
    let direct := s.recode places (if gate ∈ gates then plainCode bs else "")
    (execute [] .runPass gated).1 = (execute [] .runPass direct).1 ∧
      ∀ reply t, execute [] .runPass gated = (.ok reply, t) →
        ∃ u, execute [] .runPass direct = (.ok reply, u) ∧
          t.character.state =
            { u.character.state.lessen (Overlay.forgone baseline gated.character.loadout.deltas
                direct.character.loadout.deltas gates) with
              conditionals := t.character.state.conditionals } := by
  intro gates gated direct
  have hnodup : gates.Nodup := List.Nodup.sublist List.filter_sublist (by decide)
  obtain ⟨d, d', hread, hread', hexchange⟩ := DataCode.exists_exchangeable gate hne hnodup
  have hrecoded := recoded_recode s places hread hread'
  have hgates : gated.character.loadout.equipment.satisfiedGates = gates :=
    satisfiedGates_recode s places (gatedCode gate bs)
  rw [← hgates] at hexchange
  have hagree : Progress.AgreeOn State.withoutTargets (gated.passOver baseline)
      (direct.passOver baseline) :=
    Overlay.agreeOn_run hexchange.rest hrecoded s.settings baseline s.character.state
  have hb₁ : gated.character.baseline = some baseline := hb
  have hb₂ : direct.character.baseline = some baseline := hb
  have houtcome : (execute [] .runPass gated).1 = (execute [] .runPass direct).1 := by
    rw [execute_runPass hb₁, execute_runPass hb₂, outcome, outcome, hagree.failure]
  refine ⟨houtcome, fun reply t ht ↦ ⟨(execute [] .runPass direct).2, ?_, ?_⟩⟩
  · have hreply : (execute [] .runPass direct).1 = .ok reply := by rw [← houtcome, ht]
    exact Prod.ext hreply rfl
  · have hcompleted : (gated.passOver baseline).failure = none := by
      rw [← isOk_execute_runPass hb₁, ht]
      rfl
    have hstate := Overlay.state_run_recoded hexchange hrecoded hsummed hcompleted
    rw [hgates] at hstate
    have ht' : t = (execute [] .runPass gated).2 := by rw [ht]
    rw [ht', execute_runPass hb₁, execute_runPass hb₂]
    exact hstate

/-- A penalty to a mitigation, and a bonus to a basic skill. -/
def mixedBonuses : List Bonus :=
  [⟨.mitigation, '1', "physical", ⟨true, ['2']⟩, rfl, by decide, by decide⟩,
    ⟨.skill, 'A', "fitness", ⟨false, ['1', '0']⟩, rfl, by decide, by decide⟩]

/-- The first training. -/
def firstTraining : Places where
  training i := i == 0
  slot _ := false

theorem runPass_drilled_gatedCode :
    Gate.noArmor ∈ drilled.character.equipment.satisfiedGates ∧
      ∃ baseline reply t u, drilled.character.baseline = some baseline ∧
        execute [] .runPass (drilled.recode firstTraining (gatedCode .noArmor mixedBonuses)) =
          (.ok reply, t) ∧
        execute [] .runPass (drilled.recode firstTraining (plainCode mixedBonuses)) =
          (.ok reply, u) ∧
        t.character.state =
          { u.character.state.lessen (Overlay.forgone baseline
              (drilled.recode firstTraining
                (gatedCode .noArmor mixedBonuses)).character.loadout.deltas
              (drilled.recode firstTraining (plainCode mixedBonuses)).character.loadout.deltas
              drilled.character.equipment.satisfiedGates) with
            conditionals := t.character.state.conditionals } := by
  have hgate : Gate.noArmor ∈ drilled.character.equipment.satisfiedGates := by decide +kernel
  have hok : (execute [] .runPass
      (drilled.recode firstTraining (gatedCode .noArmor mixedBonuses))).1.isOk = true := by
    decide +kernel
  obtain ⟨reply, t, ht⟩ := exists_execute_eq_ok hok
  have hne : mixedBonuses ≠ [] := by decide
  obtain ⟨-, hsame⟩ := runPass_gatedCode (s := drilled) rfl Conditionals.summed_default
    firstTraining .noArmor hne
  obtain ⟨u, hu, hstate⟩ := hsame reply t ht
  rw [if_pos hgate] at hu hstate
  exact ⟨hgate, _, reply, t, u, rfl, ht, hu, hstate⟩

/-- A bonus to a mitigation. -/
def toughness : List Bonus :=
  [⟨.mitigation, '1', "physical", ⟨false, ['1']⟩, rfl, by decide, by decide⟩]

/-- Equal states are too much to promise for targets outside the schema: a gate token files an
effect, and totals that are computed anew leave those targets out. -/
theorem not_forall_gatedCode_eq_plainCode :
    ¬ ∀ (s t u : Session) (baseline : State) (places : Places) (gate : Gate) (bs : List Bonus)
        (reply reply' : Reply),
      s.character.baseline = some baseline → baseline.conditionals.Summed → bs ≠ [] →
      gate ∈ s.character.equipment.satisfiedGates →
      execute [] .runPass (s.recode places (gatedCode gate bs)) = (.ok reply, t) →
      execute [] .runPass (s.recode places (plainCode bs)) = (.ok reply', u) →
      t.character.state =
        { u.character.state with conditionals := t.character.state.conditionals } := by
  intro hgatedAsPlain
  let gated : Session := hallowed.recode firstTraining (gatedCode .noArmor toughness)
  let plain : Session := hallowed.recode firstTraining (plainCode toughness)
  have hgated : (execute [] .runPass gated).1.isOk = true := by decide +kernel
  have hplain : (execute [] .runPass plain).1.isOk = true := by decide +kernel
  obtain ⟨reply, t, ht⟩ := exists_execute_eq_ok hgated
  obtain ⟨reply', u, hu⟩ := exists_execute_eq_ok hplain
  have hstate := hgatedAsPlain hallowed t u _ firstTraining .noArmor toughness reply reply' rfl
    summed_hallowedGates (by decide) (by decide +kernel) ht hu
  have hholy : t.character.state.mitigation.get? "holy" = some 1 := by
    rw [show t = (execute [] .runPass gated).2 by rw [ht]]
    decide +kernel
  have hholy' : u.character.state.mitigation.get? "holy" = some 4 := by
    rw [show u = (execute [] .runPass plain).2 by rw [hu]]
    decide +kernel
  have hsame : t.character.state.mitigation.get? "holy" =
      u.character.state.mitigation.get? "holy" := by rw [hstate]
  rw [hholy, hholy'] at hsame
  cases hsame

end Session

end CharacterSheet
