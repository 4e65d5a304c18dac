import CharacterSheet.Proofs.Character
import CharacterSheet.Proofs.Session.Activity

/-!
# Recomputing

A recompute marks the character, runs passes and takes the mark away again.  Without interruptions
the last pass works on a character whose inputs are as they were, and it leaves a settled state:
another recompute changes nothing.
-/

namespace CharacterSheet

namespace Session

def begun (s : Session) : Session :=
  { s with character := { s.character with status := .recomputing } }

/-- The session in which a recompute ends after some passes. -/
def ended (s : Session) (passes : Nat) : Session :=
  { s with
    character := { s.character with status := .idle }
    log := s.log ++ [.recomputed s.character.name passes s.character.diagnostics.length] }

def dequeued (s : Session) : Session :=
  { s with character := { s.character with queued := false } }

@[simp] theorem carryOut_takeQueued (s : Session) :
    carryOut takeQueued s = (.ok s.character.queued, s.dequeued) := rfl

/-- The session in which a recompute is given up because a pass failed. -/
def abandoned (s : Session) : Session :=
  { s with character := { s.character with status := .idle } }

/-- A recompute ends as its passes do. -/
theorem carryOut_recomputeBuilt (interrupt : Interrupt) (s : Session) :
    carryOut (recomputeBuilt interrupt) s =
      match carryOut (runPasses interrupt (s.schedule.length + 2) 0) s.begun with
      | (.ok passes, u) => (.ok (), u.ended passes)
      | (.error e, u) => (.error e, u.abandoned) := by
  have hbegun : carryOut (modifyCharacter fun c ↦ { c with status := .recomputing }) s =
      (.ok (), s.begun) := rfl
  have hschedule : s.begun.schedule = s.schedule := rfl
  rw [recomputeBuilt, carryOut_bind_ok hbegun, carryOut_bind_ok (carryOut_get _),
    carryOut_bind_ok (carryOut_observe ..), carryOut_bind_ok (carryOut_modifyCharacter ..),
    hschedule]
  rcases carryOut (runPasses interrupt (s.schedule.length + 2) 0) s.begun with ⟨_ | passes, u⟩
  · exact carryOut_bind_error (carryOut_throw ..) _
  · rfl

/-- A recompute comes back exactly when its passes do. -/
theorem carryOut_recomputeBuilt_eq_ok_iff {interrupt : Interrupt} {s t : Session} :
    carryOut (recomputeBuilt interrupt) s = (.ok (), t) ↔
      ∃ passes u, carryOut (runPasses interrupt (s.schedule.length + 2) 0) s.begun =
        (.ok passes, u) ∧ t = u.ended passes := by
  rw [carryOut_recomputeBuilt]
  rcases carryOut (runPasses interrupt (s.schedule.length + 2) 0) s.begun with ⟨_ | passes, u⟩
  · simp
  · constructor
    · intro h
      cases h
      exact ⟨passes, u, rfl, rfl⟩
    · rintro ⟨_, _, h, rfl⟩
      cases h
      rfl

theorem ne_recomputing_of_idle {s : Session} (h : s.character.status = .idle) :
    s.character.status ≠ .recomputing := by
  rw [h]
  decide

theorem carryOut_recompute (interrupt : Interrupt) {s : Session}
    (hidle : s.character.status ≠ .recomputing) :
    carryOut (recompute interrupt) s = match s.character.baseline with
      | none => carryOut (rebuild interrupt) s
      | some _ => carryOut (recomputeBuilt interrupt) s := by
  rw [recompute, carryOut_bind_ok (carryOut_getCharacter s), if_neg hidle]
  cases s.character.baseline <;> rfl

/-- A recompute of an idle character that has been built ends as its passes do. -/
theorem execute_recompute_of_built (schedule : List Interruption) {s : Session} {baseline : State}
    (hidle : s.character.status = .idle) (hb : s.character.baseline = some baseline) :
    execute schedule .recompute s =
      match carryOut (runPasses (interruptions schedule.length) (schedule.length + 2) 0)
        (s.scheduled schedule).begun with
      | (.ok passes, u) => (.ok .done, u.ended passes)
      | (.error e, u) => (.error e, u.abandoned) := by
  let u := s.scheduled schedule
  have hidle' : u.character.status ≠ .recomputing := ne_recomputing_of_idle hidle
  have hb' : u.character.baseline = some baseline := hb
  have hschedule : u.schedule = schedule := rfl
  rw [execute_eq, perform, carryOut_bind, carryOut_recompute _ hidle', hb']
  dsimp only
  rw [carryOut_recomputeBuilt, hschedule]
  rcases carryOut (runPasses (interruptions schedule.length) (schedule.length + 2) 0)
    (s.scheduled schedule).begun with ⟨_ | passes, u⟩
  · rfl
  · rfl

/-- A recompute of an idle character that has been built comes back exactly when its passes do. -/
theorem execute_recompute_eq_ok_iff {schedule : List Interruption} {s t : Session} {reply : Reply}
    {baseline : State} (hidle : s.character.status = .idle)
    (hb : s.character.baseline = some baseline) :
    execute schedule .recompute s = (.ok reply, t) ↔
      reply = .done ∧ ∃ passes u, carryOut
        (runPasses (interruptions schedule.length) (schedule.length + 2) 0)
        (s.scheduled schedule).begun = (.ok passes, u) ∧ t = u.ended passes := by
  rw [execute_recompute_of_built schedule hidle hb]
  rcases carryOut (runPasses (interruptions schedule.length) (schedule.length + 2) 0)
    (s.scheduled schedule).begun with ⟨_ | passes, u⟩
  · simp
  · constructor
    · intro h
      cases h
      exact ⟨rfl, passes, u, rfl, rfl⟩
    · rintro ⟨rfl, _, _, h, rfl⟩
      cases h
      rfl

/-- It raises exactly when its passes do. -/
theorem execute_recompute_eq_error_iff {schedule : List Interruption} {s t : Session} {e : Failure}
    {baseline : State} (hidle : s.character.status = .idle)
    (hb : s.character.baseline = some baseline) :
    execute schedule .recompute s = (.error e, t) ↔
      ∃ u, carryOut (runPasses (interruptions schedule.length) (schedule.length + 2) 0)
        (s.scheduled schedule).begun = (.error e, u) ∧ t = u.abandoned := by
  rw [execute_recompute_of_built schedule hidle hb]
  rcases carryOut (runPasses (interruptions schedule.length) (schedule.length + 2) 0)
    (s.scheduled schedule).begun with ⟨_ | passes, u⟩
  · constructor
    · intro h
      cases h
      exact ⟨u, rfl, rfl⟩
    · rintro ⟨_, h, rfl⟩
      cases h
      rfl
  · simp

/-- A pass comes back, and another one follows it or not. -/
theorem carryOut_runPasses_succ_eq_ok_iff {interrupt : Interrupt} {fuel count passes : Nat}
    {s u : Session} :
    carryOut (runPasses interrupt (fuel + 1) count) s = (.ok passes, u) ↔
      ∃ t, carryOut (runPass interrupt) s = (.ok (), t) ∧
        if t.character.queued then
          carryOut (runPasses interrupt fuel (count + 1)) t.dequeued = (.ok passes, u)
        else passes = count + 1 ∧ u = t.dequeued := by
  have hrest (t : Session) : carryOut (do
        if ← takeQueued then runPasses interrupt fuel (count + 1) else return count + 1) t =
          (.ok passes, u) ↔ if t.character.queued then
            carryOut (runPasses interrupt fuel (count + 1)) t.dequeued = (.ok passes, u)
          else passes = count + 1 ∧ u = t.dequeued := by
    rw [carryOut_bind_ok (carryOut_takeQueued t)]
    cases t.character.queued with
    | true => exact Iff.rfl
    | false =>
      have hend : carryOut (pure (count + 1)) t.dequeued = (.ok passes, u) ↔
          passes = count + 1 ∧ u = t.dequeued := by
        rw [carryOut_pure, Prod.mk.injEq, Except.ok.injEq, eq_comm, eq_comm (b := u)]
      exact hend
  rw [runPasses, carryOut_bind_eq_ok_iff]
  constructor
  · rintro ⟨⟨⟩, t, ht, h⟩
    exact ⟨t, ht, (hrest t).1 h⟩
  · rintro ⟨t, ht, h⟩
    exact ⟨(), t, ht, (hrest t).2 h⟩

/-- Passes that come back leave nothing queued. -/
theorem unqueued_of_runPasses {interrupt : Interrupt} {fuel count passes : Nat} {s u : Session}
    (h : carryOut (runPasses interrupt (fuel + 1) count) s = (.ok passes, u)) :
    u.character.queued = false := by
  induction fuel generalizing count s with
  | zero =>
    obtain ⟨t, -, h⟩ := carryOut_runPasses_succ_eq_ok_iff.1 h
    split at h
    · cases h
      rfl
    · rw [h.2]
      rfl
  | succ fuel ih =>
    obtain ⟨t, -, h⟩ := carryOut_runPasses_succ_eq_ok_iff.1 h
    split at h
    · exact ih h
    · rw [h.2]
      rfl

/-! ## Without interruptions -/

/-- A pass without interruptions comes back exactly when it does not fail. -/
theorem carryOut_runPass_quiet_eq_ok_iff {s t : Session} {baseline : State}
    (hb : s.character.baseline = some baseline) :
    carryOut (runPass quiet) s = (.ok (), t) ↔
      (s.passOver baseline).failure = none ∧ t = s.afterPass (s.passOver baseline) := by
  rw [carryOut_runPass_quiet hb, Prod.mk.injEq, outcome_eq_ok_iff, eq_comm (b := t)]

/-- A recompute during which nothing is carried out, and before which nothing was queued, runs one
pass. -/
theorem exists_carryOut_recomputeBuilt_quiet {s : Session} {baseline : State}
    (hb : s.character.baseline = some baseline) (hqueued : s.character.queued = false) :
    ∃ t, carryOut (recomputeBuilt quiet) s = (outcome (s.passOver baseline), t) ∧
      t.settings = s.settings ∧ t.character = { s.character with
        status := .idle
        queued := false
        state := (s.passOver baseline).state
        diagnostics := (s.passOver baseline).diagnostics } := by
  have hpass : carryOut (runPass quiet) s.begun =
      (outcome (s.passOver baseline), s.begun.afterPass (s.passOver baseline)) :=
    carryOut_runPass_quiet (s := s.begun) hb
  have hnone : (s.begun.afterPass (s.passOver baseline)).character.queued = false := hqueued
  rw [carryOut_recomputeBuilt, runPasses, carryOut_bind, hpass]
  cases hfailure : (s.passOver baseline).failure with
  | some e =>
    rw [outcome_of_failure hfailure, ← hqueued]
    exact ⟨_, rfl, rfl, rfl⟩
  | none =>
    rw [outcome_of_completed hfailure]
    dsimp only
    rw [carryOut_bind_ok (carryOut_takeQueued _), hnone]
    exact ⟨_, rfl, rfl, rfl⟩

/-- What the passes of a recompute leave is what the last of them leaves, and that one works on the
inputs that there were. -/
theorem exists_last_pass {fuel count passes : Nat} {s u : Session} {baseline : State}
    (hb : s.character.baseline = some baseline)
    (h : carryOut (runPasses quiet (fuel + 1) count) s = (.ok passes, u)) :
    ∃ r : Session, r.settings = s.settings ∧ s.character.SameInputs r.character ∧
      (r.passOver baseline).failure = none ∧ u = (r.afterPass (r.passOver baseline)).dequeued := by
  induction fuel generalizing count s with
  | zero =>
    obtain ⟨t, ht, h⟩ := carryOut_runPasses_succ_eq_ok_iff.1 h
    obtain ⟨hcompleted, rfl⟩ := (carryOut_runPass_quiet_eq_ok_iff hb).1 ht
    refine ⟨s, rfl, rfl, hcompleted, ?_⟩
    split at h
    · cases h
      rfl
    · exact h.2
  | succ fuel ih =>
    obtain ⟨t, ht, h⟩ := carryOut_runPasses_succ_eq_ok_iff.1 h
    obtain ⟨hcompleted, rfl⟩ := (carryOut_runPass_quiet_eq_ok_iff hb).1 ht
    split at h
    · obtain ⟨r, hsettings, hinputs, hr⟩ :=
        ih (s := (s.afterPass (s.passOver baseline)).dequeued) hb h
      exact ⟨r, hsettings, hinputs, hr⟩
    · exact ⟨s, rfl, rfl, hcompleted, h.2⟩

/-- A session whose character another pass leaves as it is. -/
structure Settled (baseline : State) (t : Session) : Prop where
  completed : (t.passOver baseline).failure = none
  state : (t.passOver baseline).state = t.character.state
  diagnostics : (t.passOver baseline).diagnostics = t.character.diagnostics

/-- What a pass leaves is settled as long as no input changes. -/
theorem settled_of_completed {r t : Session} {baseline : State}
    (hcompleted : (r.passOver baseline).failure = none) (hsettings : t.settings = r.settings)
    (hloadout : t.character.loadout = r.character.loadout)
    (hstate : t.character.state = (r.passOver baseline).state)
    (hdiagnostics : t.character.diagnostics = (r.passOver baseline).diagnostics) :
    Settled baseline t := by
  have hagree : Progress.Agree (t.passOver baseline) (r.passOver baseline) := by
    rw [passOver, hsettings, hloadout, hstate]
    exact Overlay.run_settled hcompleted
  have hagain : (t.passOver baseline).failure = none := hagree.failure.trans hcompleted
  exact ⟨hagain, (hagree.state hagain).trans hstate.symm,
    hagree.diagnostics.trans hdiagnostics.symm⟩

/-- A recompute of an idle character, during which nothing is carried out and before which nothing
was queued, runs one pass. -/
theorem exists_carryOut_recompute_quiet {s : Session} {baseline : State}
    (hidle : s.character.status = .idle) (hqueued : s.character.queued = false)
    (hb : s.character.baseline = some baseline) :
    ∃ u, carryOut (recompute quiet) s = (outcome (s.passOver baseline), u) ∧
      u.settings = s.settings ∧ u.character = { s.character with
        state := (s.passOver baseline).state
        diagnostics := (s.passOver baseline).diagnostics } := by
  obtain ⟨u, hu, hsettings, hcharacter⟩ := exists_carryOut_recomputeBuilt_quiet hb hqueued
  refine ⟨u, ?_, hsettings, ?_⟩
  · rw [carryOut_recompute _ (ne_recomputing_of_idle hidle), hb]
    exact hu
  · rw [hcharacter, ← hidle, ← hqueued]

theorem exists_execute_recompute_quiet {t : Session} {baseline : State}
    (hidle : t.character.status = .idle) (hqueued : t.character.queued = false)
    (hb : t.character.baseline = some baseline) :
    ∃ u, execute [] .recompute t = ((outcome (t.passOver baseline)).map fun _ ↦ .done, u) ∧
      u.settings = t.settings ∧ u.character = { t.character with
        state := (t.passOver baseline).state
        diagnostics := (t.passOver baseline).diagnostics } := by
  obtain ⟨u, hu, hsettings, hcharacter⟩ :=
    exists_carryOut_recompute_quiet (s := t.scheduled []) hidle hqueued hb
  have hpass : (t.scheduled []).passOver baseline = t.passOver baseline := rfl
  rw [hpass] at hu hcharacter
  refine ⟨u, ?_, hsettings, hcharacter⟩
  rw [execute_eq, List.length_nil, interruptions_zero, perform, carryOut_bind, hu]
  cases outcome (t.passOver baseline) <;> rfl

/-- A recompute of a settled character runs one pass and leaves the character as it is. -/
theorem exists_execute_recompute_of_settled {t : Session} {baseline : State}
    (hidle : t.character.status = .idle) (hqueued : t.character.queued = false)
    (hb : t.character.baseline = some baseline) (hsettled : Settled baseline t) :
    ∃ u, execute [] .recompute t = (.ok .done, u) ∧ u.settings = t.settings ∧
      u.character = t.character := by
  obtain ⟨u, hu, hsettings, hcharacter⟩ := exists_execute_recompute_quiet hidle hqueued hb
  rw [outcome_of_completed hsettled.completed] at hu
  rw [hsettled.state, hsettled.diagnostics] at hcharacter
  exact ⟨u, hu, hsettings, hcharacter⟩

/-- A single pass over a settled character leaves it as it is. -/
theorem exists_execute_runPass_of_settled {t : Session} {baseline : State}
    (hb : t.character.baseline = some baseline) (hsettled : Settled baseline t) :
    ∃ u, execute [] .runPass t = (.ok .done, u) ∧ u.character = t.character := by
  refine ⟨(t.scheduled []).afterPass (t.passOver baseline), ?_, ?_⟩
  · rw [execute_runPass hb, outcome_of_completed hsettled.completed]
    rfl
  · show { t.character with
      state := (t.passOver baseline).state
      diagnostics := (t.passOver baseline).diagnostics } = t.character
    rw [hsettled.state, hsettled.diagnostics]

/-- When a recompute comes back, another one comes back as well and leaves the same character, with
every number of its working state and every diagnostic; neither changes an input. -/
theorem recompute_idempotent {s t : Session} {baseline : State} {reply : Reply}
    (hidle : s.character.status = .idle) (hb : s.character.baseline = some baseline)
    (h : execute [] .recompute s = (.ok reply, t)) :
    t.settings = s.settings ∧
      t.character = { s.character with
        state := t.character.state
        diagnostics := t.character.diagnostics
        queued := false } ∧
      ∃ u, execute [] .recompute t = (.ok reply, u) ∧ u.settings = t.settings ∧
        u.character = t.character := by
  obtain ⟨rfl, passes, u, hpasses, rfl⟩ := (execute_recompute_eq_ok_iff hidle hb).1 h
  obtain ⟨r, hsettings, hinputs, hcompleted, rfl⟩ :=
    exists_last_pass (s := (s.scheduled []).begun) hb hpasses
  have hrb : r.character.baseline = some baseline := by
    rw [hinputs]
    exact hb
  let p : Progress := r.passOver baseline
  let t : Session := (r.afterPass p).dequeued.ended passes
  refine ⟨hsettings, ?_, ?_⟩
  · show { r.character with
      status := .idle
      queued := false
      state := p.state
      diagnostics := p.diagnostics } = _
    rw [hinputs, ← hidle]
    rfl
  · have hsettled : Settled baseline t := settled_of_completed hcompleted rfl rfl rfl rfl
    exact exists_execute_recompute_of_settled rfl rfl hrb hsettled

theorem exists_execute_eq_ok {schedule : List Interruption} {command : Command} {s : Session}
    (h : (execute schedule command s).1.isOk = true) :
    ∃ reply t, execute schedule command s = (.ok reply, t) := by
  rcases hr : execute schedule command s with ⟨e | reply, t⟩
  · rw [hr] at h
    cases h
  · exact ⟨reply, t, rfl⟩

theorem exists_eq_error {α : Type} {r : Except Failure α × Session} (h : r.1.isOk = false) :
    ∃ e t, r = (.error e, t) := by
  obtain ⟨e | a, t⟩ := r
  · exact ⟨e, t, rfl⟩
  · cases h

/-- A character with a source that cannot be read, a code with an unknown part, a pool above its
maximum, one below zero, and others that are left out. -/
def neglected : Session where
  settings := {}
  character :=
    { name := "Ada"
      base := .fresh {}
      state :=
        { State.fresh {} with
          resources := .ofPairs
            [("health", { current := some 9 }), ("resolve", { current := some (-2) })] }
      baseline := some (.fresh {})
      trainings := [{ id := "lore", code := .text "A1=2:ZZ=1" }, { id := "odd", code := .int 3 }]
      injuries := [{ id := "burn", name := "Burn", pain := 2, stress := 1 }]
      queued := true }

theorem recompute_neglected_idempotent : ∃ reply t u,
    execute [] .recompute neglected = (.ok reply, t) ∧
      execute [] .recompute t = (.ok reply, u) ∧ u.character = t.character := by
  have hok : (execute [] .recompute neglected).1.isOk = true := by decide +kernel
  obtain ⟨reply, t, h⟩ := exists_execute_eq_ok hok
  obtain ⟨-, -, u, hu, -, hcharacter⟩ := recompute_idempotent rfl rfl h
  exact ⟨reply, t, u, h, hu, hcharacter⟩

end Session

end CharacterSheet
