import CharacterSheet.Proofs.Overlay.Conditions
import CharacterSheet.Proofs.Session.Order
import CharacterSheet.Proofs.Session.Rest

/-!
# Passes under conditions

What a pass makes of immunities, conditions and movement, for a character with checked items.  On a
character at rest a change of conditions comes back, and it changes nothing but the list of what
takes effect and the speed of walking; a condition to which the character is immune changes nothing.
-/

namespace CharacterSheet

namespace Session

variable {s t u : Session} {baseline : State} {conditions : NameSet}

/-- Other conditions are active, others take effect and the speed of walking may be another one;
nothing else differs. -/
structure OnlyConditions (conditions : NameSet) (t u : Session) : Prop where
  settings : u.settings = t.settings
  character : ∃ effective speed, u.character = { t.character with
    conditions
    state := { t.character.state with
      effectiveConditions := effective
      movement := t.character.state.movement.set "walk" speed } }

/-- A change of conditions on a character at rest comes back with the state that a pass under the
other conditions leaves. -/
theorem AtRest.exists_change_conditions (h : t.AtRest baseline) (change : Change)
    (happly : change.apply t.character = .ok { t.character with conditions }) :
    ∃ u, execute [] (.change change) t = (.ok (change.reply t.character), u) ∧
      u.settings = t.settings ∧ u.character = { t.character with
        conditions
        state := (Overlay.run t.settings { t.character.loadout with conditions } baseline
          t.character.state).state } := by
  have hloadout : ({ t.character with conditions } : Character).loadout =
      { t.character.loadout with conditions } := rfl
  have hcompleted : (Overlay.run t.settings { t.character.loadout with conditions } baseline
      t.character.state).failure = none :=
    (Overlay.failure_run_conditions conditions ..).trans h.settled.completed
  exact h.exists_change_completed happly hloadout hcompleted
    (Overlay.diagnostics_run_conditions conditions h.settled.completed)

theorem AtRest.onlyConditions (h : t.AtRest baseline) (hsettings : u.settings = t.settings)
    (hcharacter : u.character = { t.character with
      conditions
      state := (Overlay.run t.settings { t.character.loadout with conditions } baseline
        t.character.state).state }) : OnlyConditions conditions t u := by
  obtain ⟨effective, speed, hstate⟩ :=
    Overlay.exists_state_run_conditions conditions h.settled.completed
  have hsettled : (Overlay.run t.settings t.character.loadout baseline t.character.state).state =
      t.character.state := h.settled.state
  rw [hstate, hsettled] at hcharacter
  exact ⟨hsettings, effective, speed, hcharacter⟩

/-- A condition to which the character at rest is immune becomes active and changes nothing. -/
theorem AtRest.character_of_immune (h : t.AtRest baseline) {condition : String}
    (himmune : .text condition ∈ t.character.state.immunities)
    (hcharacter : u.character = { t.character with
      conditions := t.character.conditions.insert condition
      state := (Overlay.run t.settings { t.character.loadout with
        conditions := t.character.conditions.insert condition } baseline
          t.character.state).state }) :
    u.character =
      { t.character with conditions := t.character.conditions.insert condition } := by
  have hsettled : (Overlay.run t.settings t.character.loadout baseline t.character.state).state =
      t.character.state := h.settled.state
  have hstate := Overlay.state_run_insert h.settled.completed (hsettled ▸ himmune)
  rw [hsettled] at hstate
  rw [hcharacter]
  exact congrArg (fun state ↦ { t.character with
    conditions := t.character.conditions.insert condition, state := state }) hstate

/-- A pass that comes back leaves the union of all immunities, the active conditions outside of it,
and the movement that these allow.  After a call that came back, a change of conditions comes back
as well and reaches only what takes effect and the speed of walking; a condition to which the
character is immune reaches nothing. -/
theorem runPass_conditioned (hb : s.character.baseline = some baseline)
    (hworn : ∀ item ∈ s.character.equipment.wornItems, item.Checked)
    (hmodes : ∀ mode ∈ Schema.movementModes, baseline.movementBonuses.contains mode = true) :
    (∀ reply t, execute [] .runPass s = (.ok reply, t) →
      t.character.state.Conditioned s.settings s.character.loadout baseline) ∧
    ∀ (call : Call) (reply : Reply) (t : Session), call.Tame →
      (∀ i ∈ call.schedule, ∀ a ∈ i.actions, a.Reentrant) → s.character.status = .idle →
      execute call.schedule call.command s = (.ok reply, t) → ∀ condition : String,
        (∃ u, execute [] (.change (.addCondition condition)) t = (.ok .done, u) ∧
          OnlyConditions (t.character.conditions.insert condition) t u ∧
          (.text condition ∈ t.character.state.immunities → u.character =
            { t.character with conditions := t.character.conditions.insert condition })) ∧
        ∃ u, execute [] (.change (.removeCondition condition)) t = (.ok .done, u) ∧
          OnlyConditions (t.character.conditions.erase condition) t u := by
  constructor
  · intro reply t h
    have hcompleted : (s.passOver baseline).failure = none := by
      rw [← isOk_execute_runPass hb, h]
      rfl
    rw [execute_runPass hb] at h
    obtain ⟨-, rfl⟩ := Prod.mk.inj h
    exact Overlay.conditioned_run (fun item hitem ↦ (hworn item hitem).bringsNames) hmodes
      hcompleted
  · intro call reply t hcall hreentrant hidle h condition
    obtain ⟨built, hrest⟩ := exists_atRest hcall hreentrant hidle h
    constructor
    · obtain ⟨u, hu, hsettings, hcharacter⟩ :=
        hrest.exists_change_conditions (.addCondition condition) rfl
      exact ⟨u, hu, hrest.onlyConditions hsettings hcharacter,
        fun himmune ↦ hrest.character_of_immune himmune hcharacter⟩
    · obtain ⟨u, hu, hsettings, hcharacter⟩ :=
        hrest.exists_change_conditions (.removeCondition condition) rfl
      exact ⟨u, hu, hrest.onlyConditions hsettings hcharacter⟩

/-- The outfitted character, whose walking is recorded under the older name, prone and blinded; the
lantern helps against being blinded. -/
def waylaid : Session :=
  { outfitted with
    character := { outfitted.character with
      trainings := { id := "march", code := .text "K1=2:K2=1:IB=1" } ::
        outfitted.character.trainings
      conditions := .ofList ["prone", "blinded"]
      baseline := some
        { State.fresh {} with movement := .ofPairs [("standard", 6), ("climb", 1)] } } }

/-- Someone trips the character up while it is recomputed. -/
def ambush : List Interruption :=
  [{ after := .applyConditions, actions := [{ command := .change (.addCondition "stunned") }] }]

theorem runPass_waylaid_conditioned : ∃ baseline reply t reply' t',
    waylaid.character.baseline = some baseline ∧ execute [] .runPass waylaid = (.ok reply, t) ∧
      t.character.state.Conditioned waylaid.settings waylaid.character.loadout baseline ∧
      execute ambush .recompute waylaid = (.ok reply', t') ∧
      (∃ u, execute [] (.change (.addCondition "bleeding")) t' = (.ok .done, u) ∧
        u.character =
          { t'.character with conditions := t'.character.conditions.insert "bleeding" }) ∧
      ∃ u, execute [] (.change (.removeCondition "stunned")) t' = (.ok .done, u) ∧
        OnlyConditions (t'.character.conditions.erase "stunned") t' u := by
  have hchecked : ∀ item ∈ waylaid.character.equipment.wornItems, item.Checked :=
    checked_outfitted
  have hreentrant : ∀ i ∈ ambush, ∀ a ∈ i.actions, a.Reentrant := by
    simp [ambush, Action.Reentrant]
  have htame : ({ schedule := ambush, command := .recompute } : Call).Tame := by
    simp [Call.Tame, ambush, Action.Tame]
  have hok : (execute [] .runPass waylaid).1.isOk = true := by decide +kernel
  have hok' : (execute ambush .recompute waylaid).1.isOk = true := by decide +kernel
  have himmune : .text "bleeding" ∈
      (execute ambush .recompute waylaid).2.character.state.immunities :=
    Overlay.any_sameKey_text_iff.1 (by decide +kernel)
  obtain ⟨reply, t, h⟩ := exists_execute_eq_ok hok
  obtain ⟨reply', t', h'⟩ := exists_execute_eq_ok hok'
  rw [h'] at himmune
  obtain ⟨hpass, hchange⟩ := runPass_conditioned (s := waylaid) rfl hchecked (by decide)
  obtain ⟨u, hu, -, hsame⟩ := (hchange _ reply' t' htame hreentrant rfl h' "bleeding").1
  exact ⟨_, reply, t, reply', t', rfl, h, hpass reply t h, h', ⟨u, hu, hsame himmune⟩,
    (hchange _ reply' t' htame hreentrant rfl h' "stunned").2⟩

end Session

end CharacterSheet
