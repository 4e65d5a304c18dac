import CharacterSheet.Session
import CharacterSheet.Proofs.Overlay.Settling

/-!
# Carrying out activities

An activity takes a session to an outcome and a session.  Sequences of activities are taken apart
here once and for all, and each activity that a pass consists of is given in closed form: an overlay
changes the working state and adds to the diagnostics and to the log, and a pass without
interruptions does to the session what the pass does to the working state.
-/

namespace CharacterSheet

namespace Session

variable {α β : Type}

/-- What comes of an activity, and the session that it leaves. -/
def carryOut (x : Activity α) (s : Session) : Except Failure α × Session := (x.run).run s

/-- The session under a new schedule. -/
def scheduled (s : Session) (schedule : List Interruption) : Session :=
  { s with schedule, replies := [] }

theorem execute_eq (schedule : List Interruption) (command : Command) (s : Session) :
    execute schedule command s =
      carryOut (perform (interruptions schedule.length) command) (s.scheduled schedule) := rfl

@[simp] theorem carryOut_pure (a : α) (s : Session) :
    carryOut (pure a : Activity α) s = (.ok a, s) := rfl

@[simp] theorem carryOut_throw (e : Failure) (s : Session) :
    carryOut (throw e : Activity α) s = (.error e, s) := rfl

@[simp] theorem carryOut_get (s : Session) : carryOut get s = (.ok s, s) := rfl

@[simp] theorem carryOut_set (s t : Session) : carryOut (set t) s = (.ok ⟨⟩, t) := rfl

@[simp] theorem carryOut_modify (f : Session → Session) (s : Session) :
    carryOut (modify f) s = (.ok ⟨⟩, f s) := rfl

@[simp] theorem carryOut_getCharacter (s : Session) :
    carryOut getCharacter s = (.ok s.character, s) := rfl

@[simp] theorem carryOut_modifyCharacter (f : Character → Character) (s : Session) :
    carryOut (modifyCharacter f) s = (.ok ⟨⟩, { s with character := f s.character }) := rfl

@[simp] theorem carryOut_observe (x : Activity α) (s : Session) :
    carryOut (observe x) s = (.ok (carryOut x s).1, (carryOut x s).2) := rfl

theorem carryOut_bind (x : Activity α) (f : α → Activity β) (s : Session) :
    carryOut (x >>= f) s = match carryOut x s with
      | (.ok a, t) => carryOut (f a) t
      | (.error e, t) => (.error e, t) := by
  show ExceptT.bindCont f (carryOut x s).1 (carryOut x s).2 = _
  rcases carryOut x s with ⟨_ | a, t⟩ <;> rfl

theorem carryOut_bind_ok {x : Activity α} {a : α} {s t : Session} (h : carryOut x s = (.ok a, t))
    (f : α → Activity β) : carryOut (x >>= f) s = carryOut (f a) t := by
  rw [carryOut_bind, h]

theorem carryOut_bind_error {x : Activity α} {e : Failure} {s t : Session}
    (h : carryOut x s = (.error e, t)) (f : α → Activity β) :
    carryOut (x >>= f) s = (.error e, t) := by
  rw [carryOut_bind, h]

/-- A sequence comes back exactly when both of its parts do. -/
theorem carryOut_bind_eq_ok_iff {x : Activity α} {f : α → Activity β} {b : β} {s u : Session} :
    carryOut (x >>= f) s = (.ok b, u) ↔
      ∃ a t, carryOut x s = (.ok a, t) ∧ carryOut (f a) t = (.ok b, u) := by
  rw [carryOut_bind]
  constructor
  · intro h
    rcases hx : carryOut x s with ⟨_ | a, t⟩
    · rw [hx] at h
      cases h
    · rw [hx] at h
      exact ⟨a, t, rfl, h⟩
  · rintro ⟨a, t, hx, hf⟩
    rw [hx]
    exact hf

/-! ## Overlays and passes -/

/-- A failure, or the fact that there was none. -/
def outcome (p : Progress) : Except Failure Unit :=
  match p.failure with
  | some e => .error e
  | none => .ok ()

theorem outcome_of_completed {p : Progress} (h : p.failure = none) : outcome p = .ok () := by
  rw [outcome, h]

theorem outcome_of_failure {p : Progress} {e : Failure} (h : p.failure = some e) :
    outcome p = .error e := by
  rw [outcome, h]

theorem outcome_eq_ok_iff {p : Progress} : outcome p = .ok () ↔ p.failure = none := by
  constructor
  · intro h
    cases hfailure : p.failure with
    | none => rfl
    | some e =>
      rw [outcome_of_failure hfailure] at h
      cases h
  · exact outcome_of_completed

/-- The session after some progress on its working state. -/
def follow (s : Session) (p : Progress) : Session :=
  { s with
    character := { s.character with
      state := p.state
      diagnostics := s.character.diagnostics ++ p.diagnostics }
    log := s.log ++ p.events }

theorem follow_start (s : Session) : s.follow (.start s.character.state) = s := by
  simp [follow, Progress.start, Progress.diagnostics, Event.diagnostics]

theorem follow_andThen {p : Progress} (h : p.failure = none) (f : State → Progress) (s : Session) :
    s.follow (p.andThen f) = (s.follow p).follow (f p.state) := by
  have hd := Progress.diagnostics_andThen h f
  rw [Progress.andThen_of_completed h] at hd ⊢
  simp only [follow, hd, List.append_assoc]

/-- The pass that is opened now and has been restored. -/
def currentPass (s : Session) : Pass := ⟨s.shelf.length, true⟩

@[simp] theorem stateOf_currentPass (s : Session) :
    s.stateOf s.currentPass = s.character.state := by
  simp [stateOf, currentPass]

@[simp] theorem putState_currentPass (s : Session) (state : State) :
    s.putState s.currentPass state = { s with character := { s.character with state } } := by
  simp [putState, currentPass]

theorem carryOut_runStage (s : Session) (stage : Stage) :
    carryOut (runStage s.currentPass stage) s =
      (outcome (stage.run s.settings s.character.loadout s.character.state),
        s.follow (stage.run s.settings s.character.loadout s.character.state)) := by
  have hrestored : s.currentPass.restored = true := rfl
  simp only [runStage, hrestored, Bool.not_true, Bool.false_eq_true, if_false, carryOut_bind,
    carryOut_get, carryOut_set, stateOf_currentPass, putState_currentPass]
  cases h : (stage.run s.settings s.character.loadout s.character.state).failure <;>
    simp [outcome, h, follow, record, collect]

/-- A pass that is not interrupted. -/
def quiet : Interrupt := fun _ ↦ pure ()

theorem interruptions_zero : interruptions 0 = quiet := rfl

/-- Overlays without interruptions do to the session what they do to the working state. -/
theorem carryOut_stages_quiet (stages : List Stage) (s : Session) :
    carryOut (stages.forM fun stage ↦ do runStage s.currentPass stage; quiet stage) s =
      (outcome (Overlay.runStages s.settings s.character.loadout stages s.character.state),
        s.follow (Overlay.runStages s.settings s.character.loadout stages s.character.state)) := by
  induction stages generalizing s with
  | nil => exact Prod.ext rfl (follow_start s).symm
  | cons stage stages ih =>
    have hcons : Overlay.runStages s.settings s.character.loadout (stage :: stages)
        s.character.state = (stage.run s.settings s.character.loadout s.character.state).andThen
          (Overlay.runStages s.settings s.character.loadout stages) :=
      Progress.each_cons (Stage.run s.settings s.character.loadout) stage stages s.character.state
    let r := stage.run s.settings s.character.loadout s.character.state
    have hstep : carryOut (do runStage s.currentPass stage; quiet stage) s =
        (outcome r, s.follow r) := by
      rw [carryOut_bind, carryOut_runStage]
      cases h : r.failure <;> simp [outcome, h, r, quiet]
    rw [List.forM_eq_forM, List.forM_cons, carryOut_bind, hstep, hcons]
    cases h : r.failure with
    | some e => rw [Progress.andThen_of_failure h, outcome_of_failure h]
    | none =>
      have hrest := ih (s.follow r)
      have houtcome :
          outcome (r.andThen (Overlay.runStages s.settings s.character.loadout stages)) =
            outcome (Overlay.runStages s.settings s.character.loadout stages r.state) := by
        rw [Progress.andThen_of_completed h]
        rfl
      rw [follow_andThen h, houtcome, outcome_of_completed h]
      exact hrest

/-- The session in which a pass from a baseline has been opened and restored. -/
def restored (s : Session) (baseline : State) : Session :=
  { s with character := { s.character with
      state := State.restore baseline s.character.state
      diagnostics := [] } }

/-- A pass over some of the overlays. -/
def runPassOver (stages : List Stage) (interrupt : Interrupt) : Activity Unit := do
  let p ← newPass
  modifyCharacter fun c ↦ { c with diagnostics := [] }
  let p ← restore p
  stages.forM fun stage ↦ do
    runStage p stage
    interrupt stage

theorem carryOut_runPassOver {s : Session} {baseline : State}
    (hb : s.character.baseline = some baseline) (stages : List Stage) (interrupt : Interrupt) :
    carryOut (runPassOver stages interrupt) s =
      carryOut (stages.forM fun stage ↦ do runStage s.currentPass stage; interrupt stage)
        (s.restored baseline) := by
  have hrestore : carryOut (restore ⟨s.shelf.length, false⟩)
      { s with character := { s.character with diagnostics := [] } } =
      (.ok s.currentPass, s.restored baseline) := by
    simp only [restore, Bool.false_eq_true, if_false, carryOut_bind, carryOut_getCharacter, hb,
      carryOut_modify, carryOut_pure]
    simp [stateOf, putState, restored, currentPass, hb]
  have hnew : carryOut newPass s = (.ok ⟨s.shelf.length, false⟩, s) := rfl
  rw [runPassOver, carryOut_bind_ok hnew, carryOut_bind_ok (carryOut_modifyCharacter ..),
    carryOut_bind_ok hrestore]

theorem carryOut_runPass {s : Session} {baseline : State}
    (hb : s.character.baseline = some baseline) (interrupt : Interrupt) :
    carryOut (runPass interrupt) s =
      carryOut (Stage.all.forM fun stage ↦ do runStage s.currentPass stage; interrupt stage)
        (s.restored baseline) :=
  carryOut_runPassOver hb Stage.all interrupt

/-- What a pass over the character of a session does to its working state. -/
def passOver (s : Session) (baseline : State) : Progress :=
  Overlay.run s.settings s.character.loadout baseline s.character.state

/-- The session after a pass; all but the working state, the diagnostics and the log is kept. -/
def afterPass (s : Session) (p : Progress) : Session :=
  { s with
    character := { s.character with state := p.state, diagnostics := p.diagnostics }
    log := s.log ++ p.events }

/-- A pass without interruptions does to the session what it does to the working state. -/
theorem carryOut_runPass_quiet {s : Session} {baseline : State}
    (hb : s.character.baseline = some baseline) :
    carryOut (runPass quiet) s =
      (outcome (s.passOver baseline), s.afterPass (s.passOver baseline)) := by
  rw [carryOut_runPass hb]
  have h := carryOut_stages_quiet Stage.all (s.restored baseline)
  have hafter : ∀ p : Progress, (s.restored baseline).follow p = s.afterPass p := fun p ↦ by
    simp [follow, restored, afterPass]
  rw [hafter] at h
  exact h

/-- A pass carried out on its own. -/
theorem execute_runPass {s : Session} {baseline : State}
    (hb : s.character.baseline = some baseline) :
    execute [] .runPass s =
      ((outcome (s.passOver baseline)).map fun _ ↦ .done,
        (s.scheduled []).afterPass (s.passOver baseline)) := by
  have hpass : carryOut (runPass quiet) (s.scheduled []) =
      (outcome (s.passOver baseline), (s.scheduled []).afterPass (s.passOver baseline)) :=
    carryOut_runPass_quiet (s := s.scheduled []) hb
  rw [execute_eq, List.length_nil, interruptions_zero, perform, carryOut_bind, hpass]
  cases outcome (s.passOver baseline) <;> rfl

theorem isOk_execute_runPass {s : Session} {baseline : State}
    (hb : s.character.baseline = some baseline) :
    (execute [] .runPass s).1.isOk = true ↔ (s.passOver baseline).failure = none := by
  rw [execute_runPass hb]
  cases h : (s.passOver baseline).failure with
  | none => simp [outcome_of_completed h, Except.map, Except.isOk, Except.toBool]
  | some e => simp [outcome_of_failure h, Except.map, Except.isOk, Except.toBool]

end Session

end CharacterSheet
