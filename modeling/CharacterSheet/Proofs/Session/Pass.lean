import CharacterSheet.Proofs.Overlay.ClosedForm
import CharacterSheet.Proofs.Session.Recompute

/-!
# Single passes

Of the old working state a pass reads only the current values of pools and the two modifiers.  What
it makes of the baseline is given in closed form, entry by entry.
-/

namespace CharacterSheet

namespace Session

/-! ## What a pass reads -/

/-- Two sessions between which a pass sees no difference: the same settings and sources, and, for
the pools of the baseline, the same current values. -/
structure SameToPass (baseline : State) (s t : Session) : Prop where
  settings : s.settings = t.settings
  loadout : s.character.loadout.Alike t.character.loadout
  left : s.character.baseline = some baseline
  right : t.character.baseline = some baseline
  current : ∀ name, baseline.resources.contains name →
    State.effectiveCurrent baseline s.character.state name =
      State.effectiveCurrent baseline t.character.state name
  pain : s.character.state.pain.modifier = t.character.state.pain.modifier
  stress : s.character.state.stress.modifier = t.character.state.stress.modifier

/-- Nothing else of the old working state or of the old diagnostics leaks into a pass: it fails on
both characters in the same way, or leaves both with the same state and the same diagnostics. -/
theorem runPass_history_independent {s t : Session} {baseline : State}
    (h : SameToPass baseline s t) :
    (∃ s' t', execute [] .runPass s = (.ok .done, s') ∧ execute [] .runPass t = (.ok .done, t') ∧
        s'.character.state = t'.character.state ∧
        s'.character.diagnostics = t'.character.diagnostics) ∨
      ∃ e s' t', execute [] .runPass s = (.error e, s') ∧
        execute [] .runPass t = (.error e, t') := by
  have hagree : Progress.Agree (s.passOver baseline) (t.passOver baseline) := by
    have hrun := Overlay.agree_run t.settings t.character.loadout h.current h.pain h.stress
    rw [passOver, Overlay.run_congr h.loadout, h.settings]
    exact hrun
  rw [execute_runPass h.left, execute_runPass h.right]
  cases hs : (s.passOver baseline).failure with
  | none =>
    have ht : (t.passOver baseline).failure = none := hagree.failure ▸ hs
    left
    rw [outcome_of_completed hs, outcome_of_completed ht]
    exact ⟨_, _, rfl, rfl, hagree.state hs, hagree.diagnostics⟩
  | some e =>
    have ht : (t.passOver baseline).failure = some e := hagree.failure ▸ hs
    right
    rw [outcome_of_failure hs, outcome_of_failure ht]
    exact ⟨e, _, _, rfl, rfl⟩

/-- The neglected character with numbers left over from another life. -/
def muddled : Session :=
  { neglected with
    character := { neglected.character with
      state := { neglected.character.state with
        attributes := .empty
        encumbrance := 7
        satisfiedGates := ["no_armor"]
        pain := { sourceTotal := 5, calculated := 4, penaltyDice := 3 } }
      diagnostics := [{ kind := .unrecognizedToken, message := "left over" }] } }

theorem runPass_neglected_muddled :
    ∃ s' t', execute [] .runPass neglected = (.ok .done, s') ∧
      execute [] .runPass muddled = (.ok .done, t') ∧
      s'.character.state = t'.character.state ∧
      s'.character.diagnostics = t'.character.diagnostics := by
  have h : SameToPass (.fresh {}) neglected muddled :=
    ⟨rfl, ⟨rfl, rfl, fun _ ↦ rfl, rfl, rfl⟩, rfl, rfl, fun _ _ ↦ rfl, rfl, rfl⟩
  have hok : (execute [] .runPass neglected).1.isOk = true := by decide +kernel
  rcases runPass_history_independent h with hdone | ⟨e, s', t', hs, -⟩
  · exact hdone
  · rw [hs] at hok
    cases hok

/-! ## The closed form -/

/-- A pass that comes back leaves the closed form of its baseline and its sources. -/
theorem runPass_closedForm {s t : Session} {baseline : State} {reply : Reply}
    (hb : s.character.baseline = some baseline) (hsummed : baseline.conditionals.Summed)
    (hdual : 0 ≤ baseline.features.getD Schema.dualWieldTier 0)
    (h : execute [] .runPass s = (.ok reply, t)) :
    Overlay.ClosedForm baseline s.character.loadout.deltas s.character.equipment.satisfiedGates
      t.character.state := by
  rw [execute_runPass hb] at h
  obtain ⟨houtcome, ht⟩ := Prod.mk.inj h
  have hcompleted : (s.passOver baseline).failure = none := by
    cases hfailure : (s.passOver baseline).failure with
    | none => rfl
    | some e =>
      rw [outcome_of_failure hfailure] at houtcome
      cases houtcome
  rw [← ht]
  exact Overlay.closedForm_run hsummed hdual hcompleted

/-- A character with old tier fields, a training that adds to a mitigation both at once and under a
gate, and another one that cannot be read. -/
def drilled : Session where
  settings := {}
  character :=
    { name := "Ada"
      base := .fresh {}
      state := .fresh {}
      baseline := some
        { State.fresh {} with
          weapon := .ofPairs
            [("brawling", { tier := none, legacy := .ofPairs [("tierModifier", 2)] })]
          mitigation := .ofPairs [("physical", 1)] }
      trainings :=
        [{ id := "drill", code := .text "SS1=1:WS1=1:M1=3:CA[M1=2]" },
          { id := "odd", code := .int 3 }] }

theorem runPass_drilled_closedForm : ∃ baseline reply t,
    drilled.character.baseline = some baseline ∧ execute [] .runPass drilled = (.ok reply, t) ∧
      Overlay.ClosedForm baseline drilled.character.loadout.deltas
        drilled.character.equipment.satisfiedGates t.character.state := by
  have hok : (execute [] .runPass drilled).1.isOk = true := by decide +kernel
  obtain ⟨reply, t, h⟩ := exists_execute_eq_ok hok
  exact ⟨_, reply, t, rfl, h,
    runPass_closedForm rfl Conditionals.summed_default (by decide +kernel) h⟩

/-- An effect on a mitigation that is not in the schema, with a total for it. -/
def hallowedGates : Conditionals where
  effects := .ofPairs [("no_armor", [⟨.mitigation, "holy", 3⟩])]
  totals := .ofPairs [("no_armor", { mitigation := .ofPairs [("holy", 3)] })]

theorem summed_hallowedGates : hallowedGates.Summed := by
  intro gate kind name
  cases gate with
  | noArmor =>
    cases kind with
    | skill => exact Table.getD_ofNames _ 0 Schema.nodup_skills name
    | mitigation =>
      by_cases hname : name = "holy"
      · subst hname
        rfl
      · have hname' : ¬ "holy" = name := fun h ↦ hname h.symm
        have htotal : hallowedGates.total Gate.noArmor.name .mitigation name =
            (Table.empty.set "holy" 3).getD name 0 := rfl
        have hfiled : hallowedGates.filed Gate.noArmor.name = [⟨.mitigation, "holy", 3⟩] := rfl
        rw [htotal, hfiled]
        simp [Table.getD, effectSum, hname, hname']
  | _ => cases kind <;> rfl

/-- A character whose baseline has the mitigation; a training files another effect. -/
def hallowed : Session where
  settings := {}
  character :=
    { name := "Ada"
      base := .fresh {}
      state := .fresh {}
      baseline := some
        { State.fresh {} with
          mitigation := .ofPairs [("holy", 1)]
          conditionals := hallowedGates }
      trainings := [{ id := "drill", code := .text "CA[M1=1]" }] }

/-- The sum of all effects is too much to promise for targets outside the schema: totals that are
computed anew leave those out. -/
theorem not_forall_mitigation_eq_filedSum :
    ¬ ∀ (s t : Session) (baseline : State) (reply : Reply) (name : String),
      s.character.baseline = some baseline → baseline.conditionals.Summed →
      0 ≤ baseline.features.getD Schema.dualWieldTier 0 →
      execute [] .runPass s = (.ok reply, t) →
      t.character.state.mitigation.get? name = (baseline.mitigation.get? name).map fun n ↦
        n + Delta.total (fun d ↦ d.mitigation.getD name 0) s.character.loadout.deltas +
          Overlay.filedSum baseline s.character.loadout.deltas .mitigation name
            s.character.equipment.satisfiedGates := by
  intro hallFiled
  have hok : (execute [] .runPass hallowed).1.isOk = true := by decide +kernel
  obtain ⟨reply, t, h⟩ := exists_execute_eq_ok hok
  have hholy := hallFiled hallowed t _ reply "holy" rfl summed_hallowedGates (by decide +kernel) h
  have hstate : t.character.state.mitigation.get? "holy" = some 1 := by
    have hright : t = (execute [] .runPass hallowed).2 := by rw [h]
    rw [hright]
    decide +kernel
  rw [hstate] at hholy
  exact absurd hholy (by decide +kernel)

end Session

end CharacterSheet
