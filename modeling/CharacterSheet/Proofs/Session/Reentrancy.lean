import CharacterSheet.Proofs.Session.Refusal

/-!
# Recomputes with interruptions

A change that is made inside a pass takes the turn of an interruption away, so a recompute comes to
a pass in which no change is made.  That pass works on all the changes made before it, and what it
leaves is settled.
-/

namespace CharacterSheet

namespace Interruption

/-! ## Turns to come -/

def pending (schedule : List Interruption) : Nat := schedule.countP fun h ↦ h.calls < h.turn

theorem map_later_later (schedule : List Interruption) (m n : Nat) :
    (schedule.map (later m)).map (later n) = schedule.map (later (m + n)) := by
  rw [List.map_map]
  refine List.map_congr_left fun h _ ↦ ?_
  simp [later, Nat.add_assoc]

theorem inPass_map_later (schedule : List Interruption) (m n : Nat) :
    inPass (schedule.map (later m)) n = inPass schedule (m + n) := by
  rw [inPass, map_later_later, inPass]

theorem inPasses_succ (schedule : List Interruption) (passes : Nat) :
    inPasses schedule (passes + 1) =
      inPass schedule 0 ++ inPasses (schedule.map (later 1)) passes := by
  have hlater : inPass (schedule.map (later 1)) = inPass schedule ∘ Nat.succ := by
    funext n
    rw [inPass_map_later, Nat.add_comm]
    rfl
  rw [inPasses, List.range_succ_eq_map, List.flatMap_cons, List.flatMap_map, inPasses, hlater]
  rfl

theorem countP_disturbs_succ (schedule : List Interruption) (passes : Nat) :
    (List.range (passes + 1)).countP (disturbs schedule) =
      (if disturbs schedule 0 then 1 else 0) +
        (List.range passes).countP (disturbs (schedule.map (later 1))) := by
  have hlater : disturbs (schedule.map (later 1)) = disturbs schedule ∘ Nat.succ := by
    funext n
    rw [disturbs, inPass_map_later, Nat.add_comm]
    rfl
  rw [List.range_succ_eq_map, List.countP_cons, List.countP_map, hlater, Nat.add_comm]

theorem pending_later_cons (h : Interruption) (schedule : List Interruption) :
    pending ((h :: schedule).map (later 1)) =
      pending (schedule.map (later 1)) + if h.calls + 1 < h.turn then 1 else 0 := by
  rw [List.map_cons, pending, List.countP_cons, pending]
  by_cases hturn : h.calls + 1 < h.turn <;> simp [later, hturn]

theorem pending_cons (h : Interruption) (schedule : List Interruption) :
    pending (h :: schedule) = pending schedule + if h.calls < h.turn then 1 else 0 := by
  rw [pending, List.countP_cons]
  simp [pending]

theorem pending_later_le (schedule : List Interruption) :
    pending (schedule.map (later 1)) ≤ pending schedule := by
  induction schedule with
  | nil => exact Nat.le_refl _
  | cons h schedule ih =>
    rw [pending_later_cons, pending_cons]
    split <;> split <;> omega

/-- A turn that has come is not to come again. -/
theorem pending_later_lt {schedule : List Interruption} {h : Interruption} (hmem : h ∈ schedule)
    (hturn : h.calls + 1 = h.turn) : pending (schedule.map (later 1)) < pending schedule := by
  induction schedule with
  | nil => cases hmem
  | cons h' schedule ih =>
    have hle := pending_later_le schedule
    rw [pending_later_cons, pending_cons]
    rcases List.mem_cons.1 hmem with rfl | hmem
    · rw [if_neg (by omega), if_pos (by omega)]
      omega
    · have hlt := ih hmem
      split <;> split <;> omega

theorem pending_later_lt_of_disturbs {schedule : List Interruption}
    (hdisturbs : disturbs schedule 0 = true) :
    pending (schedule.map (later 1)) < pending schedule := by
  obtain ⟨a, ha, -⟩ := List.any_eq_true.1 hdisturbs
  rw [Session.inPass_zero] at ha
  obtain ⟨stage, -, ha⟩ := List.mem_flatMap.1 ha
  obtain ⟨h, hmem, ha⟩ := List.mem_flatMap.1 ha
  have hturn : h.calls + 1 = h.turn := by
    unfold dueActions at ha
    split at ha
    · next hdue => exact hdue.2
    · cases ha
  exact pending_later_lt hmem hturn

end Interruption

namespace Session

open Interruption

/-! ## The passes of a recompute -/

/-- What some passes of a recompute come to: a pass is followed by another one if a change was made
in it, and the last one leaves a settled character. -/
structure Completed (baseline : State) (passes : Nat) (s t : Session) : Prop where
  interrupted : Interrupted (inPasses s.schedule passes) s t
  schedule : t.schedule = s.schedule.map (later passes)
  queued : t.character.queued = false
  count : passes = 1 + (List.range passes).countP (disturbs s.schedule)
  settled : Settled baseline t

theorem interrupted_dequeued (s : Session) : Interrupted [] s s.dequeued :=
  ⟨rfl, rfl, Character.sameInputs_withRun .., (List.append_nil _).symm⟩

theorem Passed.sameInputs {baseline : State} {s t : Session} (h : Passed baseline s t)
    (hquiet : disturbs s.schedule 0 = false) : s.character.SameInputs t.character := by
  have hreplayed := h.interrupted.inputs
  rw [Character.replayed_of_not_mutates hquiet] at hreplayed
  exact hreplayed

/-- A pass in which no change is made is the last one, and leaves a settled character. -/
theorem Passed.completed {baseline : State} {s t : Session} (h : Passed baseline s t)
    (hquiet : disturbs s.schedule 0 = false) : Completed baseline 1 s t.dequeued := by
  obtain ⟨hcompleted, hstate, hdiagnostics⟩ := h.undisturbed hquiet
  have hinputs := h.sameInputs hquiet
  refine ⟨?_, h.schedule, rfl, ?_, ?_⟩
  · rw [inPasses_succ]
    exact h.interrupted.trans (interrupted_dequeued t)
  · rw [countP_disturbs_succ, hquiet]
    rfl
  · exact settled_of_completed hcompleted h.interrupted.settings hinputs.loadout_eq hstate
      hdiagnostics

/-- A pass in which a change is made comes before the passes that follow. -/
theorem Completed.after {baseline : State} {passes : Nat} {s t u : Session}
    (h : Completed baseline passes t.dequeued u) (hpassed : Passed baseline s t)
    (hdisturbs : disturbs s.schedule 0 = true) : Completed baseline (passes + 1) s u := by
  have hschedule : t.dequeued.schedule = s.schedule.map (later 1) := hpassed.schedule
  refine ⟨?_, ?_, h.queued, ?_, h.settled⟩
  · rw [inPasses_succ, ← hschedule]
    exact hpassed.interrupted.trans ((interrupted_dequeued t).trans h.interrupted)
  · rw [h.schedule, hschedule, map_later_later, Nat.add_comm]
  · have hcount := h.count
    rw [hschedule] at hcount
    rw [countP_disturbs_succ, hdisturbs, if_pos rfl, ← hcount, Nat.add_comm]

/-- The passes of a recompute come to an end before they are given up. -/
theorem completed_of_carryOut {depth fuel count n : Nat} {s u : Session} {baseline : State}
    (hs : s.Interruptible depth) (hb : s.character.baseline = some baseline)
    (hqueued : s.character.queued = false) (hfuel : pending s.schedule < fuel)
    (h : carryOut (runPasses (interruptions depth) fuel count) s = (.ok n, u)) :
    ∃ passes, n = count + passes ∧ Completed baseline passes s u ∧
      u.character.status = .recomputing := by
  -- The fuel stays above the number of turns to come, so the passes do not run out of it.
  induction fuel generalizing s count with
  | zero => cases hfuel
  | succ fuel ih =>
    obtain ⟨t, ht, h⟩ := carryOut_runPasses_succ_eq_ok_iff.1 h
    have hpassed := passed_of_carryOut hs hb ht
    have hrunning : t.character.status = .recomputing := hpassed.status.trans hs.running
    have hagain := hpassed.queued
    rw [hqueued, Bool.false_or] at hagain
    rw [hagain] at h
    cases hdisturbs : disturbs s.schedule 0 with
    | false =>
      rw [hdisturbs] at h
      obtain ⟨rfl, rfl⟩ := h
      exact ⟨1, rfl, hpassed.completed hdisturbs, hrunning⟩
    | true =>
      rw [hdisturbs] at h
      have hlt : pending t.dequeued.schedule < fuel := by
        have hdrop := pending_later_lt_of_disturbs hdisturbs
        rw [← hpassed.schedule] at hdrop
        exact Nat.lt_of_lt_of_le hdrop (Nat.le_of_lt_succ hfuel)
      obtain ⟨passes, hn, hcompleted, hstatus⟩ :=
        ih (hpassed.interruptible hs).dequeued (hpassed.baseline_eq.trans hb) rfl hlt h
      exact ⟨passes + 1, by omega, hcompleted.after hpassed hdisturbs, hstatus⟩

/-! ## Whole recomputes -/

/-- What a recompute comes to under a schedule of changes and refused calls. -/
structure NothingLost (schedule : List Interruption) (passes : Nat) (s t : Session) : Prop where
  /-- Every action of the passes is carried out on the inputs, in its turn; the recompute is over
  and nothing is queued. -/
  inputs : t.character = (s.character.replayed (inPasses schedule passes)).withRun
    t.character.state t.character.diagnostics false .idle
  turns : t.schedule = schedule.map (later passes)
  /-- There is one pass more than there are passes in which a change was made. -/
  count : passes = 1 + (List.range passes).countP (disturbs schedule)
  recorded : t.log.getLast? =
    some (.recomputed s.character.name passes t.character.diagnostics.length)
  answered : t.replies = s.character.answers (inPasses schedule passes)
  refused : ∀ a r, (a, r) ∈ (inPasses schedule passes).zip t.replies →
    (a.command = .recompute → r = (a.label, .error (.alreadyRunning s.character.name))) ∧
      (a.command = .rebuild → r = (a.label, .error (.rebuildDuringPass s.character.name)))
  /-- The calls that are refused could as well have been left out. -/
  unaffected : ∃ t', execute (schedule.map withoutNested) .recompute s = (.ok .done, t') ∧
    t'.character = t.character ∧ t'.log = t.log
  /-- One more pass leaves the character as it is. -/
  settled : ∃ u, execute [] .runPass t = (.ok .done, u) ∧ u.character = t.character

/-- Changes may be made after any overlay of any pass, and recomputes and rebuilds asked for: when
the recompute comes back, no change is lost.  The calls that are refused change nothing at all. -/
theorem exists_nothingLost {schedule : List Interruption} {s t : Session} {baseline : State}
    {reply : Reply} (hidle : s.character.status = .idle) (hqueued : s.character.queued = false)
    (hb : s.character.baseline = some baseline)
    (hreentrant : ∀ h ∈ schedule, ∀ a ∈ h.actions, a.Reentrant)
    (h : execute schedule .recompute s = (.ok reply, t)) :
    (∃ passes, NothingLost schedule passes s t) ∧
      ∀ (interrupt : Interrupt) (r : Session), r.character.status = .recomputing →
        carryOut (recompute interrupt) r = (.error (.alreadyRunning r.character.name), r) ∧
          carryOut (rebuild interrupt) r = (.error (.rebuildDuringPass r.character.name), r) := by
  have hrefused : ∀ (interrupt : Interrupt) (r : Session), r.character.status = .recomputing →
      carryOut (recompute interrupt) r = (.error (.alreadyRunning r.character.name), r) ∧
        carryOut (rebuild interrupt) r = (.error (.rebuildDuringPass r.character.name), r) :=
    fun _ _ hrunning ↦
      ⟨carryOut_recompute_of_running hrunning, carryOut_rebuild_of_running hrunning⟩
  have hwithout := exists_execute_withoutNested hidle hb hreentrant h
  obtain ⟨rfl, n, u, hpasses, rfl⟩ := (execute_recompute_eq_ok_iff hidle hb).1 h
  have hbegun : (s.scheduled schedule).begun.Interruptible schedule.length :=
    ⟨rfl, Nat.le_refl _, hreentrant⟩
  have hfuel : pending schedule < schedule.length + 2 :=
    Nat.lt_of_le_of_lt List.countP_le_length (by omega)
  obtain ⟨passes, rfl, hcompleted, -⟩ := completed_of_carryOut hbegun hb hqueued hfuel hpasses
  rw [Nat.zero_add] at hwithout ⊢
  have hstart : s.character.SameInputs (s.scheduled schedule).begun.character :=
    Character.sameInputs_withRun ..
  -- The actions were carried out from the session in which the recompute began.
  have hinputs : (s.character.replayed (inPasses schedule passes)).SameInputs u.character :=
    (hstart.replayed _).trans hcompleted.interrupted.inputs
  have hname : u.character.name = s.character.name :=
    hinputs.name_eq.trans (Character.kept_replayed ..).1
  have hbaseline : u.character.baseline = some baseline :=
    (hinputs.baseline_eq.trans (Character.kept_replayed ..).2).trans hb
  have hanswered : u.replies = s.character.answers (inPasses schedule passes) := by
    rw [hcompleted.interrupted.replies, hstart.answers_eq]
    rfl
  refine ⟨⟨passes, ?_, hcompleted.schedule, hcompleted.count, ?_, hanswered, ?_, hwithout, ?_⟩,
    hrefused⟩
  · have hended : (u.ended passes).character = u.character.withRun u.character.state
        u.character.diagnostics false .idle := by
      rw [← hcompleted.queued]
      rfl
    rw [hended]
    exact congrArg (·.withRun u.character.state u.character.diagnostics false .idle) hinputs
  · rw [ended, List.getLast?_append, hname]
    rfl
  · intro a r hmem
    have hmem : (a, r) ∈ (inPasses schedule passes).zip u.replies := hmem
    rw [hanswered] at hmem
    obtain ⟨c, hc, rfl⟩ := Character.exists_of_mem_zip_answers hmem
    rw [← hc]
    constructor <;> intro hcommand <;> simp only [Action.answer, hcommand]
  · have hsettled : Settled baseline (u.ended passes) :=
      ⟨hcompleted.settled.completed, hcompleted.settled.state, hcompleted.settled.diagnostics⟩
    exact exists_execute_runPass_of_settled hbaseline hsettled

/-- Two changes in different passes, one after the overlay that reads what it changes; a recompute
and a rebuild that are refused. -/
def bustle : List Interruption :=
  [{ after := .applyTraining
     actions :=
      [{ command := .change (.removeTraining "odd"), label := 1 },
        { command := .recompute, caught := true, label := 2 }] },
    { after := .clampResources
      turn := 2
      actions :=
        [{ command := .rebuild, caught := true, label := 3 },
          { command := .change (.equip "tail" { id := "ring" }), caught := true, label := 4 },
          { command := .change (.addCondition "stunned"), label := 5 }] }]

/-- The neglected character when nothing is queued. -/
def attended : Session :=
  { neglected with character := { neglected.character with queued := false } }

theorem recompute_bustle_nothingLost : ∃ reply t,
    execute bustle .recompute attended = (.ok reply, t) ∧ NothingLost bustle 3 attended t := by
  have hok : (execute bustle .recompute attended).1.isOk = true := by decide +kernel
  have hreentrant : ∀ h ∈ bustle, ∀ a ∈ h.actions, a.Reentrant := by
    simp [bustle, Action.Reentrant]
  obtain ⟨reply, t, h⟩ := exists_execute_eq_ok hok
  obtain ⟨⟨passes, hlost⟩, -⟩ := exists_nothingLost rfl rfl rfl hreentrant h
  have hcalls : t.schedule.map (·.calls) = [3, 3] := by
    have hright : t = (execute bustle .recompute attended).2 := by rw [h]
    rw [hright]
    decide +kernel
  rw [hlost.turns] at hcalls
  have hpasses : passes = 3 := by simpa [bustle, later] using hcalls
  subst hpasses
  exact ⟨reply, t, h, hlost⟩

end Session

end CharacterSheet
