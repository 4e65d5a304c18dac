import CharacterSheet.Proofs.Session.Recompute

/-!
# Watching passes

An interruption that only looks at the character changes nothing but the replies.  A pass that is
watched is seen twice if it completes, when its pools are about to be clamped and when it is over,
and is not seen at all if it fails.
-/

namespace CharacterSheet

namespace Session

/-- A look at the character inside a pass. -/
def glance (label : Nat) : Activity Unit := act quiet { command := .look, label }

/-- Looks at the character when its pools are about to be clamped, and when the pass is over. -/
def watch : Interrupt
  | .finalizeMovement => glance 0
  | .clampResources => glance 1
  | _ => pure ()

/-- The working states of the characters that were seen under a label. -/
def statesUnder (label : Nat) (replies : List (Nat × Except Failure Reply)) : List State :=
  replies.filterMap fun r ↦ match r with
    | (l, .ok (.character c)) => if l = label then some c.state else none
    | _ => none

/-- The states in which watched passes came to clamping. -/
def atClamping (s : Session) : List State := statesUnder 0 s.replies

/-- The states that watched passes left on completion. -/
def completed (s : Session) : List State := statesUnder 1 s.replies

/-- What a pass over the character has done when it comes to clamping. -/
def passToClamping (s : Session) (baseline : State) : Progress :=
  Overlay.runStages s.settings s.character.loadout
    (Stage.laying ++ [.applyInjuries, .applyConditions, .finalizeMovement])
    (State.restore baseline s.character.state)

theorem passOver_eq (s : Session) (baseline : State) :
    s.passOver baseline = (s.passToClamping baseline).andThen
      (Overlay.clampResources s.character.loadout.owner) := by
  have hall : Stage.all = (Stage.laying ++ [.applyInjuries, .applyConditions, .finalizeMovement]) ++
      [.clampResources] := rfl
  have hlast : Overlay.runStages s.settings s.character.loadout [.clampResources] =
      Overlay.clampResources s.character.loadout.owner :=
    funext fun t ↦ Progress.start_andThen t _
  rw [passOver, Overlay.run, hall, Overlay.runStages_append, hlast]
  rfl

theorem failure_passOver_eq (s : Session) (baseline : State) :
    (s.passOver baseline).failure = (s.passToClamping baseline).failure := by
  rw [passOver_eq]
  cases h : (s.passToClamping baseline).failure with
  | some e => rw [Progress.andThen_of_failure h, h]
  | none => exact Progress.failure_andThen_of_completed h _

/-- The session after a look at the character. -/
def glanced (s : Session) (label : Nat) : Session :=
  { s with replies := s.replies ++ [(label, .ok (.character s.character))] }

theorem follow_restored (s : Session) (baseline : State) (p : Progress) :
    (s.restored baseline).follow p = s.afterPass p := by
  simp [follow, restored, afterPass]

/-- A look before some progress and one after it. -/
theorem glanced_follow_glanced (s : Session) (p : Progress) :
    ((s.glanced 0).follow p).glanced 1 = { s.follow p with
      replies := s.replies ++
        [(0, .ok (.character s.character)), (1, .ok (.character (s.follow p).character))] } := by
  have hreplies : ((s.glanced 0).follow p).glanced 1 = { s.follow p with
      replies := s.replies ++ [(0, .ok (.character s.character))] ++
        [(1, .ok (.character (s.follow p).character))] } := rfl
  rw [hreplies, List.append_assoc]
  rfl

/-- The last two overlays of a watched pass, each with a look after it. -/
theorem carryOut_lastStages_watch (s : Session) :
    let p : Progress := .start (Overlay.finalizeMovement s.settings s.character.state)
    let q := Overlay.clampResources s.character.loadout.owner p.state
    carryOut ([.finalizeMovement, .clampResources].forM fun stage ↦ do
        runStage s.currentPass stage; watch stage) s =
      (.ok (), (((s.follow p).glanced 0).follow q).glanced 1) := by
  intro p q
  have hmoved : carryOut (runStage s.currentPass .finalizeMovement) s = (.ok (), s.follow p) :=
    carryOut_runStage s .finalizeMovement
  have hclamped : carryOut (runStage s.currentPass .clampResources) ((s.follow p).glanced 0) =
      (.ok (), ((s.follow p).glanced 0).follow q) :=
    carryOut_runStage ((s.follow p).glanced 0) .clampResources
  have hfirst : carryOut (do runStage s.currentPass .finalizeMovement; watch .finalizeMovement) s =
      (.ok (), (s.follow p).glanced 0) := by
    rw [carryOut_bind_ok hmoved]
    rfl
  have hsecond : carryOut (do runStage s.currentPass .clampResources; watch .clampResources)
      ((s.follow p).glanced 0) = (.ok (), (((s.follow p).glanced 0).follow q).glanced 1) := by
    rw [carryOut_bind_ok hclamped]
    rfl
  rw [List.forM_eq_forM, List.forM_cons, carryOut_bind_ok hfirst, List.forM_cons,
    carryOut_bind_ok hsecond]
  rfl

/-- The session after a watched pass: as after the pass on its own, and seen twice if the pass
completed. -/
def afterWatched (s : Session) (baseline : State) : Session :=
  match (s.passOver baseline).failure with
  | some _ => s.afterPass (s.passOver baseline)
  | none =>
    { s.afterPass (s.passOver baseline) with
      replies := s.replies ++
        [(0, .ok (.character (s.afterPass (s.passToClamping baseline)).character)),
          (1, .ok (.character (s.afterPass (s.passOver baseline)).character))] }

theorem carryOut_runPass_watch {s : Session} {baseline : State}
    (hb : s.character.baseline = some baseline) :
    carryOut (runPass watch) s = (outcome (s.passOver baseline), s.afterWatched baseline) := by
  let front : List Stage := Stage.laying ++ [.applyInjuries, .applyConditions]
  let r := s.restored baseline
  let p := Overlay.runStages s.settings s.character.loadout front r.character.state
  have hfront : carryOut (front.forM fun stage ↦ do runStage s.currentPass stage; watch stage) r =
      (outcome p, r.follow p) := carryOut_stages_quiet front r
  have htoClamping : s.passToClamping baseline = p.andThen fun t ↦
      .start (Overlay.finalizeMovement s.settings t) := by
    have hsplit : Stage.laying ++ [.applyInjuries, .applyConditions, .finalizeMovement] =
        front ++ [.finalizeMovement] := rfl
    have hlast : Overlay.runStages s.settings s.character.loadout [.finalizeMovement] =
        fun t ↦ .start (Overlay.finalizeMovement s.settings t) :=
      funext fun t ↦ Progress.start_andThen t _
    rw [passToClamping, hsplit, Overlay.runStages_append, hlast]
    rfl
  have hall : Stage.all = front ++ [.finalizeMovement, .clampResources] := rfl
  rw [carryOut_runPass hb, hall, List.forM_eq_forM, List.forM_append, ← List.forM_eq_forM,
    afterWatched, failure_passOver_eq, passOver_eq, htoClamping]
  cases hp : p.failure with
  | some e =>
    rw [outcome_of_failure hp] at hfront
    rw [carryOut_bind_error hfront, Progress.andThen_of_failure hp, Progress.andThen_of_failure hp,
      hp, outcome_of_failure hp, follow_restored]
  | none =>
    rw [outcome_of_completed hp] at hfront
    let move (t : State) : Progress := .start (Overlay.finalizeMovement s.settings t)
    have hmoved : (p.andThen move).failure = none := Progress.failure_andThen_of_completed hp _
    have hclamped : ((p.andThen move).andThen (Overlay.clampResources
        s.character.loadout.owner)).failure = none :=
      Progress.failure_andThen_of_completed hmoved _
    rw [carryOut_bind_ok hfront, hmoved, outcome_of_completed hclamped,
      ← follow_restored s baseline, ← follow_restored s baseline, follow_andThen hmoved,
      follow_andThen hp, Progress.state_andThen hp]
    refine (carryOut_lastStages_watch (r.follow p)).trans ?_
    rw [glanced_follow_glanced]
    rfl

end Session

end CharacterSheet
