import CharacterSheet.Proofs.Session.InterruptedPass
import CharacterSheet.Proofs.Session.Recompute

/-!
# Refused calls

A recompute or a rebuild that is asked for inside a pass is refused.  Such calls are answered and
leave nothing else behind: without them a recompute comes to the same character and the same log.
-/

namespace CharacterSheet

namespace Action

/-- Whether an action asks for a recompute or a rebuild. -/
def nested (a : Action) : Bool :=
  match a.command with
  | .recompute | .rebuild => true
  | _ => false

theorem mutates_of_nested {a : Action} (h : a.nested = true) : a.mutates = false := by
  obtain ⟨command, caught, label⟩ := a
  cases command with
  | recompute => rfl
  | rebuild => rfl
  | _ => cases h

end Action

namespace Interruption

/-- An interruption without the calls that are refused. -/
def withoutNested (h : Interruption) : Interruption :=
  { h with actions := h.actions.filter (!·.nested) }

theorem due_map_withoutNested (stage : Stage) (schedule : List Interruption) :
    due stage (schedule.map withoutNested) = (due stage schedule).filter (!·.nested) := by
  have hdue (h : Interruption) :
      h.withoutNested.dueActions stage = (h.dueActions stage).filter (!·.nested) := by
    have hsame :
        (h.withoutNested.after = stage ∧ h.withoutNested.calls + 1 = h.withoutNested.turn) ↔
          (h.after = stage ∧ h.calls + 1 = h.turn) := Iff.rfl
    by_cases hturn : h.after = stage ∧ h.calls + 1 = h.turn
    · rw [dueActions, if_pos (hsame.2 hturn), dueActions, if_pos hturn]
      rfl
    · rw [dueActions, if_neg (mt hsame.1 hturn), dueActions, if_neg hturn]
      rfl
  rw [due, due, List.flatMap_map, List.filter_flatMap]
  exact congrArg (fun f ↦ List.flatMap f schedule) (funext hdue)

theorem map_tick_map_withoutNested (stage : Stage) (schedule : List Interruption) :
    (schedule.map withoutNested).map (tick stage) =
      (schedule.map (tick stage)).map withoutNested := by
  rw [List.map_map, List.map_map]
  refine List.map_congr_left fun h _ ↦ ?_
  show h.withoutNested.tick stage = (h.tick stage).withoutNested
  have hsame : h.withoutNested.after = h.after := rfl
  by_cases hafter : h.after = stage
  · rw [tick, if_pos (hsame.trans hafter), tick, if_pos hafter]
    rfl
  · rw [tick, if_neg (hsame ▸ hafter), tick, if_neg hafter]

end Interruption

namespace Session

open Interruption

/-- The session under the schedule without the calls that are refused. -/
def pruned (s : Session) (replies : List (Nat × Except Failure Reply)) : Session :=
  { s with schedule := s.schedule.map withoutNested, replies }

theorem Interruptible.dequeued {depth : Nat} {s : Session} (hs : s.Interruptible depth) :
    s.dequeued.Interruptible depth := ⟨hs.running, hs.shallow, hs.reentrant⟩

theorem Interruptible.pruned {depth : Nat} {s : Session} (hs : s.Interruptible depth)
    (replies : List (Nat × Except Failure Reply)) : (s.pruned replies).Interruptible depth where
  running := hs.running
  shallow := by
    show (s.schedule.map withoutNested).length ≤ depth
    rw [List.length_map]
    exact hs.shallow
  reentrant := by
    intro i hmem a ha
    obtain ⟨j, hj, rfl⟩ := List.mem_map.1 hmem
    exact hs.reentrant j hj a (List.mem_filter.1 ha).1

/-- A call that is refused leaves its answer and nothing else. -/
theorem acted_of_nested {a : Action} (h : a.nested = true) (s : Session) :
    s.acted a = { s with replies := s.replies ++ [(a.label, a.answer s.character)] } := by
  have hmutates := Action.mutates_of_nested h
  have hwaiting : waiting s.character a = [] := by
    obtain ⟨command, caught, label⟩ := a
    cases command with
    | recompute => rfl
    | rebuild => rfl
    | _ => cases h
  rw [acted, Action.onto_of_not_mutates hmutates, hmutates, hwaiting, Bool.or_false,
    List.append_nil]

theorem exists_actedAll_pruned (s : Session) (replies : List (Nat × Except Failure Reply))
    (actions : List Action) : ∃ replies', (s.pruned replies).actedAll
      (actions.filter (!·.nested)) = (s.actedAll actions).pruned replies' := by
  induction actions generalizing s replies with
  | nil => exact ⟨replies, rfl⟩
  | cons a actions ih =>
    cases hnested : a.nested with
    | true =>
      -- The answer is all that a refused call leaves, and the pruned session has other answers.
      have hsame : (s.acted a).pruned replies = s.pruned replies := by
        rw [acted_of_nested hnested]
        rfl
      obtain ⟨replies', h⟩ := ih (s.acted a) replies
      rw [hsame] at h
      refine ⟨replies', ?_⟩
      rw [List.filter_cons_of_neg (by simp [hnested])]
      exact h
    | false =>
      obtain ⟨replies', h⟩ := ih (s.acted a) (replies ++ [(a.label, a.answer s.character)])
      refine ⟨replies', ?_⟩
      rw [List.filter_cons_of_pos (by simp [hnested])]
      exact h

theorem exists_afterStage_pruned (s : Session) (replies : List (Nat × Except Failure Reply))
    (stage : Stage) : ∃ replies', (s.pruned replies).afterStage stage =
      (s.afterStage stage).pruned replies' := by
  let r := stage.run s.settings s.character.loadout s.character.state
  obtain ⟨replies', h⟩ :=
    exists_actedAll_pruned (s.follow r) replies (due stage s.schedule)
  have hdue : due stage ((s.follow r).pruned replies).schedule =
      (due stage s.schedule).filter (!·.nested) := due_map_withoutNested stage s.schedule
  have htick : ((s.follow r).pruned replies).schedule.map (tick stage) =
      (s.schedule.map (tick stage)).map withoutNested :=
    map_tick_map_withoutNested stage s.schedule
  refine ⟨replies', ?_⟩
  show ((s.follow r).pruned replies).interrupted stage = _
  rw [interrupted, hdue, htick, h]
  rfl

theorem GoesOn.pruned {s : Session} {stage : Stage} (h : s.GoesOn stage)
    (replies : List (Nat × Except Failure Reply)) : (s.pruned replies).GoesOn stage := by
  refine ⟨h.1, fun a ha ↦ ?_⟩
  have ha : a ∈ due stage (s.schedule.map withoutNested) := ha
  rw [due_map_withoutNested] at ha
  exact h.2 a (List.mem_filter.1 ha).1

theorem exists_carryOut_stages_pruned {depth : Nat} {stages : List Stage} {s t : Session}
    (hs : s.Interruptible depth) (replies : List (Nat × Except Failure Reply))
    (h : carryOut (stages.forM fun stage ↦ do
      runStage s.currentPass stage; interruptions depth stage) s = (.ok (), t)) :
    ∃ replies', carryOut (stages.forM fun stage ↦ do
      runStage s.currentPass stage; interruptions depth stage) (s.pruned replies) =
        (.ok (), t.pruned replies') := by
  induction stages generalizing s replies with
  | nil =>
    have ht : t = s := (congrArg Prod.snd h).symm
    subst ht
    exact ⟨replies, rfl⟩
  | cons stage stages ih =>
    obtain ⟨hgoes, h⟩ := (carryOut_stages_cons_eq_ok_iff hs stage stages).1 h
    obtain ⟨replies', hafter⟩ := exists_afterStage_pruned s replies stage
    obtain ⟨replies'', hrest⟩ := ih (hs.afterStage stage) replies' h
    have hcons := carryOut_stages_cons_eq_ok_iff (t := t.pruned replies'') (hs.pruned replies)
      stage stages
    rw [hafter] at hcons
    exact ⟨replies'', hcons.2 ⟨hgoes.pruned replies, hrest⟩⟩

theorem exists_carryOut_runPass_pruned {depth : Nat} {s t : Session} {baseline : State}
    (hs : s.Interruptible depth) (hb : s.character.baseline = some baseline)
    (replies : List (Nat × Except Failure Reply))
    (h : carryOut (runPass (interruptions depth)) s = (.ok (), t)) :
    ∃ replies', carryOut (runPass (interruptions depth)) (s.pruned replies) =
      (.ok (), t.pruned replies') := by
  rw [carryOut_runPass hb] at h
  obtain ⟨replies', hpruned⟩ := exists_carryOut_stages_pruned (hs.restored baseline) replies h
  refine ⟨replies', ?_⟩
  rw [carryOut_runPass (s := s.pruned replies) hb]
  exact hpruned

theorem exists_carryOut_runPasses_pruned {depth fuel count passes : Nat} {s t : Session}
    {baseline : State} (hs : s.Interruptible depth) (hb : s.character.baseline = some baseline)
    (replies : List (Nat × Except Failure Reply))
    (h : carryOut (runPasses (interruptions depth) fuel count) s = (.ok passes, t)) :
    ∃ replies', carryOut (runPasses (interruptions depth) fuel count) (s.pruned replies) =
      (.ok passes, t.pruned replies') := by
  induction fuel generalizing s count replies with
  | zero =>
    have hend : (Except.ok count, s) = (Except.ok passes, t) := h
    cases hend
    exact ⟨replies, rfl⟩
  | succ fuel ih =>
    obtain ⟨u, hu, h⟩ := carryOut_runPasses_succ_eq_ok_iff.1 h
    obtain ⟨replies', hpass⟩ := exists_carryOut_runPass_pruned hs hb replies hu
    have hpassed := passed_of_carryOut hs hb hu
    have hqueued : (u.pruned replies').character.queued = u.character.queued := rfl
    cases hagain : u.character.queued with
    | false =>
      rw [hagain] at h
      obtain ⟨rfl, rfl⟩ := h
      refine ⟨replies', carryOut_runPasses_succ_eq_ok_iff.2 ⟨_, hpass, ?_⟩⟩
      rw [hqueued, hagain]
      exact ⟨rfl, rfl⟩
    | true =>
      rw [hagain] at h
      obtain ⟨replies'', hrest⟩ :=
        ih (hpassed.interruptible hs).dequeued (hpassed.baseline_eq.trans hb) replies' h
      refine ⟨replies'', carryOut_runPasses_succ_eq_ok_iff.2 ⟨_, hpass, ?_⟩⟩
      rw [hqueued, hagain]
      exact hrest

/-- Without the calls that are refused a recompute comes to the same character and the same log. -/
theorem exists_execute_withoutNested {schedule : List Interruption} {s t : Session}
    {baseline : State} {reply : Reply} (hidle : s.character.status = .idle)
    (hb : s.character.baseline = some baseline)
    (hreentrant : ∀ h ∈ schedule, ∀ a ∈ h.actions, a.Reentrant)
    (h : execute schedule .recompute s = (.ok reply, t)) :
    ∃ t', execute (schedule.map withoutNested) .recompute s = (.ok reply, t') ∧
      t'.character = t.character ∧ t'.log = t.log := by
  obtain ⟨rfl, passes, u, hpasses, rfl⟩ := (execute_recompute_eq_ok_iff hidle hb).1 h
  have hbegun : (s.scheduled schedule).begun.Interruptible schedule.length :=
    ⟨rfl, Nat.le_refl _, hreentrant⟩
  obtain ⟨replies, hpruned⟩ := exists_carryOut_runPasses_pruned hbegun hb [] hpasses
  refine ⟨(u.pruned replies).ended passes, ?_, rfl, rfl⟩
  rw [execute_recompute_eq_ok_iff hidle hb, List.length_map]
  exact ⟨rfl, passes, _, hpruned, rfl⟩

end Session

end CharacterSheet
