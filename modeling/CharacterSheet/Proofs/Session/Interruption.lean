import CharacterSheet.Proofs.Session.Action
import CharacterSheet.Proofs.Session.Activity

/-!
# Interruptions

While a recompute is running, a change is made to the inputs and the recompute is queued; another
recompute is refused, and so is a rebuild.  Interruptions whose turn has come carry out their
actions in the order of the schedule, and the turns of the others are counted.
-/

namespace CharacterSheet

namespace Session

/-- What is recorded about a change that has to wait. -/
def waiting (c : Character) (a : Action) : List Event :=
  match a.command with
  | .change change =>
    if change.accepted then [.recomputeQueued c.name change.name change.detail] else []
  | _ => []

/-- The session after an action inside a pass. -/
def acted (s : Session) (a : Action) : Session :=
  { s with
    character := { a.onto s.character with queued := s.character.queued || a.mutates }
    replies := s.replies ++ [(a.label, a.answer s.character)]
    log := s.log ++ waiting s.character a }

/-- While a recompute is running, a change is made and the recompute is queued. -/
theorem carryOut_makeChange {interrupt : Interrupt} {change : Change} {s : Session}
    (hrunning : s.character.status = .recomputing) :
    carryOut (makeChange interrupt change) s = match change.apply s.character with
      | .ok c => (.ok (change.reply s.character), { s with
          character := { c with queued := true }
          log := s.log ++ [.recomputeQueued s.character.name change.name change.detail] })
      | .error e => (.error e, s) := by
  rw [makeChange, carryOut_bind_ok (carryOut_getCharacter s)]
  cases change.apply s.character with
  | error e => rfl
  | ok c =>
    simp only [hrunning, if_true, carryOut_bind, carryOut_modifyCharacter, carryOut_modify]
    cases change <;> rfl

/-- While a recompute is running, another one is refused and leaves the session as it is. -/
theorem carryOut_recompute_of_running {interrupt : Interrupt} {s : Session}
    (hrunning : s.character.status = .recomputing) :
    carryOut (recompute interrupt) s = (.error (.alreadyRunning s.character.name), s) := by
  rw [recompute, carryOut_bind_ok (carryOut_getCharacter s), if_pos hrunning]
  exact carryOut_bind_error (carryOut_throw ..) _

/-- While a recompute is running, a rebuild is refused and leaves the session as it is. -/
theorem carryOut_rebuild_of_running {interrupt : Interrupt} {s : Session}
    (hrunning : s.character.status = .recomputing) :
    carryOut (rebuild interrupt) s = (.error (.rebuildDuringPass s.character.name), s) := by
  rw [rebuild, carryOut_bind_ok (carryOut_getCharacter s), if_pos hrunning]
  exact carryOut_bind_error (carryOut_throw ..) _

theorem carryOut_perform {interrupt : Interrupt} {a : Action} {s : Session}
    (hrunning : s.character.status = .recomputing) (ha : a.Reentrant) :
    carryOut (perform interrupt a.command) s = (a.answer s.character, { s with
      character := { a.onto s.character with queued := s.character.queued || a.mutates }
      log := s.log ++ waiting s.character a }) := by
  obtain ⟨command, caught, label⟩ := a
  cases command with
  | change change =>
    show carryOut (makeChange interrupt change) s = _
    rw [carryOut_makeChange hrunning]
    have haccepted := change.isOk_apply s.character
    simp only [Action.answer, Action.onto, Action.mutates, waiting]
    cases happly : change.apply s.character with
    | error e =>
      have hrefused : change.accepted = false := by
        rw [← haccepted, happly]
        rfl
      simp [hrefused, Except.map, Except.toOption]
    | ok c =>
      have hmade : change.accepted = true := by
        rw [← haccepted, happly]
        rfl
      simp [hmade, Except.map, Except.toOption]
  | recompute =>
    show carryOut (recompute interrupt >>= fun _ ↦ pure Reply.done) s = _
    rw [carryOut_bind_error (carryOut_recompute_of_running hrunning)]
    simp [Action.answer, Action.onto, Action.mutates, waiting]
  | rebuild =>
    show carryOut (rebuild interrupt >>= fun _ ↦ pure Reply.done) s = _
    rw [carryOut_bind_error (carryOut_rebuild_of_running hrunning)]
    simp [Action.answer, Action.onto, Action.mutates, waiting]
  | _ => exact absurd ha id

/-- An action is answered, and the pass goes on if the action made a change or its refusal is
caught. -/
theorem carryOut_act_eq_ok_iff {interrupt : Interrupt} {a : Action} {s t : Session}
    (hrunning : s.character.status = .recomputing) (ha : a.Reentrant) :
    carryOut (act interrupt a) s = (.ok (), t) ↔ a.survives ∧ t = s.acted a := by
  have hobserve : carryOut (observe (perform interrupt a.command)) s = _ :=
    (carryOut_observe _ s).trans (by rw [carryOut_perform hrunning ha])
  rw [act, carryOut_bind_ok hobserve, carryOut_bind_ok (carryOut_modify ..)]
  have hmutates := a.isOk_answer s.character
  unfold Action.survives
  cases hanswer : a.answer s.character with
  | ok reply =>
    rw [hanswer] at hmutates
    have hmutates : a.mutates = true := hmutates.symm
    simp [hmutates, acted, hanswer, eq_comm]
  | error e =>
    rw [hanswer] at hmutates
    have hmutates : a.mutates = false := hmutates.symm
    cases hcaught : a.caught <;> simp [hmutates, acted, hanswer, eq_comm]

/-! ## Interruptions -/

/-- The session after some actions inside a pass. -/
def actedAll (s : Session) (actions : List Action) : Session := actions.foldl acted s

theorem character_acted (s : Session) (a : Action) :
    (s.acted a).character = (a.onto s.character).withRun s.character.state s.character.diagnostics
      (s.character.queued || a.mutates) s.character.status := by
  have hkept := a.onto_withRun s.character s.character.state s.character.diagnostics
    s.character.queued s.character.status
  have hself : s.character.withRun s.character.state s.character.diagnostics s.character.queued
    s.character.status = s.character := rfl
  rw [hself] at hkept
  show { a.onto s.character with queued := s.character.queued || a.mutates } = _
  rw [hkept]
  rfl

/-- Actions inside a pass leave what it has derived so far. -/
theorem character_actedAll (s : Session) (actions : List Action) :
    (s.actedAll actions).character = (s.character.replayed actions).withRun s.character.state
      s.character.diagnostics (s.character.queued || actions.any Action.mutates)
      s.character.status := by
  induction actions generalizing s with
  | nil =>
    rw [List.any_nil, Bool.or_false]
    rfl
  | cons a actions ih =>
    have hrest := ih (s.acted a)
    rw [character_acted, Character.replayed_withRun] at hrest
    rw [List.any_cons, ← Bool.or_assoc]
    exact hrest

theorem actedAll_schedule (s : Session) (schedule : List Interruption) (actions : List Action) :
    actedAll { s with schedule } actions = { actedAll s actions with schedule } := by
  induction actions generalizing s with
  | nil => rfl
  | cons a actions ih => exact ih (s.acted a)

theorem status_actedAll (s : Session) (actions : List Action) :
    (s.actedAll actions).character.status = s.character.status := by
  rw [character_actedAll]
  rfl

theorem actedAll_append (s : Session) (as bs : List Action) :
    s.actedAll (as ++ bs) = (s.actedAll as).actedAll bs := List.foldl_append

theorem carryOut_actions_eq_ok_iff {interrupt : Interrupt} {actions : List Action} {s t : Session}
    (hrunning : s.character.status = .recomputing) (ha : ∀ a ∈ actions, a.Reentrant) :
    carryOut (actions.forM (act interrupt)) s = (.ok (), t) ↔
      (∀ a ∈ actions, a.survives) ∧ t = s.actedAll actions := by
  induction actions generalizing s with
  | nil =>
    have hnil : carryOut (([] : List Action).forM (act interrupt)) s = (.ok (), s) := rfl
    rw [hnil]
    constructor
    · intro h
      cases h
      exact ⟨by simp, rfl⟩
    · rintro ⟨-, rfl⟩
      rfl
  | cons a actions ih =>
    have hfirst := ha a List.mem_cons_self
    have hrest : ∀ a' ∈ actions, a'.Reentrant := fun a' h ↦ ha a' (List.mem_cons_of_mem a h)
    have hrunning' : (s.acted a).character.status = .recomputing :=
      (status_actedAll s [a]).trans hrunning
    rw [List.forM_eq_forM, List.forM_cons, carryOut_bind_eq_ok_iff]
    constructor
    · rintro ⟨⟨⟩, u, hu, h⟩
      obtain ⟨hsurvives, rfl⟩ := (carryOut_act_eq_ok_iff hrunning hfirst).1 hu
      obtain ⟨hall, rfl⟩ := (ih hrunning' hrest).1 h
      exact ⟨List.forall_mem_cons.2 ⟨hsurvives, hall⟩, rfl⟩
    · rintro ⟨hall, rfl⟩
      obtain ⟨hsurvives, hall⟩ := List.forall_mem_cons.1 hall
      exact ⟨(), s.acted a, (carryOut_act_eq_ok_iff hrunning hfirst).2 ⟨hsurvives, rfl⟩,
        (ih hrunning' hrest).2 ⟨hall, rfl⟩⟩

end Session

namespace Interruption

/-- Counts a turn if it comes after a given overlay. -/
def tick (stage : Stage) (h : Interruption) : Interruption :=
  if h.after = stage then { h with calls := h.calls + 1 } else h

/-- The actions of an interruption, if its turn comes the next time after a given overlay. -/
def dueActions (stage : Stage) (h : Interruption) : List Action :=
  if h.after = stage ∧ h.calls + 1 = h.turn then h.actions else []

/-- The actions that are due after an overlay, in the order of the schedule. -/
def due (stage : Stage) (schedule : List Interruption) : List Action :=
  schedule.flatMap (dueActions stage)

theorem mem_actions_of_mem_dueActions {stage : Stage} {h : Interruption} {a : Action}
    (ha : a ∈ h.dueActions stage) : a ∈ h.actions := by
  unfold dueActions at ha
  split at ha
  · exact ha
  · cases ha

theorem exists_of_mem_due {stage : Stage} {schedule : List Interruption} {a : Action}
    (h : a ∈ due stage schedule) : ∃ i ∈ schedule, a ∈ i.actions := by
  obtain ⟨i, hi, ha⟩ := List.mem_flatMap.1 h
  exact ⟨i, hi, mem_actions_of_mem_dueActions ha⟩

end Interruption

namespace Session

open Interruption

/-- The session after the interruptions that follow an overlay. -/
def interrupted (s : Session) (stage : Stage) : Session :=
  { s.actedAll (due stage s.schedule) with schedule := s.schedule.map (tick stage) }

theorem carryOut_takeTurn {s : Session} {before after : List Interruption} {h : Interruption}
    (hs : s.schedule = before ++ h :: after) (stage : Stage) :
    carryOut (takeTurn stage before.length) s =
      (.ok (h.dueActions stage), { s with schedule := before ++ h.tick stage :: after }) := by
  have hget : s.schedule[before.length]? = some h := by simp [hs]
  have hset : s.schedule.set before.length { h with calls := h.calls + 1 } =
      before ++ { h with calls := h.calls + 1 } :: after := by simp [hs]
  rw [takeTurn, carryOut_bind_ok (carryOut_get s)]
  simp only [hget]
  by_cases hafter : h.after = stage
  · rw [if_neg (not_not_intro hafter), carryOut_bind_ok (carryOut_modify ..), carryOut_pure, hset]
    simp [dueActions, tick, hafter]
  · have hsame : { s with schedule := before ++ h :: after } = s := by rw [← hs]
    rw [if_pos hafter, carryOut_pure]
    simp [dueActions, tick, hafter, hsame]

theorem carryOut_turn_eq_ok_iff {interrupt : Interrupt} {stage : Stage} {s t : Session}
    {before after : List Interruption} {h : Interruption}
    (hrunning : s.character.status = .recomputing) (hs : s.schedule = before ++ h :: after)
    (ha : ∀ a ∈ h.actions, a.Reentrant) :
    carryOut (do (← takeTurn stage before.length).forM (act interrupt)) s = (.ok (), t) ↔
      (∀ a ∈ h.dueActions stage, a.survives) ∧
        t = { s.actedAll (h.dueActions stage) with
          schedule := before ++ h.tick stage :: after } := by
  have hactions : ∀ a ∈ h.dueActions stage, a.Reentrant := fun a hmem ↦
    ha a (mem_actions_of_mem_dueActions hmem)
  rw [carryOut_bind_ok (carryOut_takeTurn hs stage), ← actedAll_schedule]
  exact carryOut_actions_eq_ok_iff hrunning hactions

/-- The turns from some place of the schedule on. -/
theorem carryOut_turns_eq_ok_iff (interrupt : Interrupt) (stage : Stage) {s t : Session}
    {before after : List Interruption} (hrunning : s.character.status = .recomputing)
    (hs : s.schedule = before ++ after) (ha : ∀ h ∈ after, ∀ a ∈ h.actions, a.Reentrant) :
    carryOut ((List.range' before.length after.length).forM fun i ↦ do
        (← takeTurn stage i).forM (act interrupt)) s = (.ok (), t) ↔
      (∀ a ∈ due stage after, a.survives) ∧
        t = { s.actedAll (due stage after) with schedule := before ++ after.map (tick stage) } := by
  -- The turns already taken are in front of those to come, and the index is how many they are.
  induction after generalizing before s with
  | nil =>
    have hsame : { s with schedule := before ++ [] } = s := by rw [← hs]
    have hnil : carryOut (([] : List Nat).forM fun i ↦ do
        (← takeTurn stage i).forM (act interrupt)) s = (.ok (), s) := rfl
    rw [List.length_nil, List.range'_zero, hnil]
    constructor
    · intro h
      cases h
      exact ⟨by simp [due], hsame.symm⟩
    · rintro ⟨-, rfl⟩
      exact congrArg (Prod.mk _) hsame.symm
  | cons h after ih =>
    have hfirst := ha h List.mem_cons_self
    have hrest : ∀ h' ∈ after, ∀ a ∈ h'.actions, a.Reentrant := fun h' hmem ↦
      ha h' (List.mem_cons_of_mem h hmem)
    let u : Session :=
      { s.actedAll (h.dueActions stage) with schedule := before ++ h.tick stage :: after }
    have hrunning' : u.character.status = .recomputing :=
      (status_actedAll s (h.dueActions stage)).trans hrunning
    have hu : u.schedule = (before ++ [h.tick stage]) ++ after := by simp [u]
    have hlast : { u.actedAll (due stage after) with
          schedule := before ++ [h.tick stage] ++ after.map (tick stage) } =
        { s.actedAll (due stage (h :: after)) with
          schedule := before ++ (h :: after).map (tick stage) } := by
      have hdue : due stage (h :: after) = h.dueActions stage ++ due stage after :=
        List.flatMap_cons
      rw [hdue, actedAll_append, List.map_cons, List.append_assoc, List.singleton_append]
      simp only [u, actedAll_schedule]
    have hloop := ih hrunning' hu hrest
    rw [List.length_append, List.length_singleton, hlast] at hloop
    rw [List.length_cons, List.range'_succ, List.forM_eq_forM, List.forM_cons,
      carryOut_bind_eq_ok_iff]
    constructor
    · rintro ⟨⟨⟩, v, hv, hturns⟩
      obtain ⟨hsurvives, rfl⟩ := (carryOut_turn_eq_ok_iff hrunning hs hfirst).1 hv
      obtain ⟨hall, rfl⟩ := hloop.1 hturns
      exact ⟨List.forall_mem_append.2 ⟨hsurvives, hall⟩, rfl⟩
    · rintro ⟨hall, rfl⟩
      obtain ⟨hsurvives, hall⟩ := List.forall_mem_append.1 hall
      exact ⟨(), u, (carryOut_turn_eq_ok_iff hrunning hs hfirst).2 ⟨hsurvives, rfl⟩,
        hloop.2 ⟨hall, rfl⟩⟩

/-- Interruptions come back exactly when all actions that are due let the pass go on. -/
theorem carryOut_interruptions_eq_ok_iff {depth : Nat} {stage : Stage} {s t : Session}
    (hrunning : s.character.status = .recomputing) (hdepth : s.schedule.length ≤ depth)
    (ha : ∀ h ∈ s.schedule, ∀ a ∈ h.actions, a.Reentrant) :
    carryOut (interruptions depth stage) s = (.ok (), t) ↔
      (∀ a ∈ due stage s.schedule, a.survives) ∧ t = s.interrupted stage := by
  have hturns := carryOut_turns_eq_ok_iff (t := t) (interruptions (depth - 1)) stage hrunning
    (show s.schedule = [] ++ s.schedule from rfl) ha
  cases depth with
  | zero =>
    have hnone : s.schedule = [] := List.length_eq_zero_iff.1 (Nat.le_zero.1 hdepth)
    rw [hnone] at hturns
    rw [interrupted, hnone]
    exact hturns
  | succ depth =>
    rw [interruptions, carryOut_bind_ok (carryOut_get s), List.range_eq_range']
    exact hturns

end Session

end CharacterSheet
