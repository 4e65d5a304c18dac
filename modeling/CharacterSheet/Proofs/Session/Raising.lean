import CharacterSheet.Proofs.Session.InterruptedPass

/-!
# Interruptions that raise

An interruption can come to an end at any of its actions.  As long as those that it gets to make
changes, ask for a recompute or a rebuild, or raise on their own account, they leave the working
state, the baseline and the shelf alone, however it ends.
-/

namespace CharacterSheet

namespace Action

/-- An action that makes a change, asks for a recompute or a rebuild, or raises. -/
def Tame (a : Action) : Prop :=
  match a.command with
  | .change _ | .recompute | .rebuild | .refuse _ => True
  | _ => False

instance : DecidablePred Tame := fun a ↦
  match h : a.command with
  | .change _ | .recompute | .rebuild | .refuse _ => .isTrue (by simp [Tame, h])
  | .runPass | .addModule _ | .select .. | .amend .. | .buildState | .takeQueued | .openPass
  | .restorePass | .runStage _ | .look | .lookPass => .isFalse (by simp [Tame, h])

theorem Tame.reentrant_or {a : Action} (h : a.Tame) :
    a.Reentrant ∨ ∃ why, a.command = .refuse why := by
  obtain ⟨command, caught, label⟩ := a
  cases command with
  | change change => exact .inl trivial
  | recompute => exact .inl trivial
  | rebuild => exact .inl trivial
  | refuse why => exact .inr ⟨why, rfl⟩
  | _ => exact absurd h id

/-- Actions up to the first one that raises. -/
def heard : List Action → List Action
  | [] => []
  | a :: actions => if a.survives then a :: heard actions else [a]

theorem heard_append_of_survive {as : List Action} (h : ∀ a ∈ as, a.survives) (bs : List Action) :
    heard (as ++ bs) = as ++ heard bs := by
  induction as with
  | nil => rfl
  | cons a as ih =>
    obtain ⟨hfirst, hrest⟩ := List.forall_mem_cons.1 h
    rw [List.cons_append, heard, if_pos hfirst, ih hrest, List.cons_append]

theorem heard_of_survive {as : List Action} (h : ∀ a ∈ as, a.survives) : heard as = as := by
  simpa [heard] using heard_append_of_survive h []

theorem mem_of_mem_heard {actions : List Action} {a : Action} (h : a ∈ heard actions) :
    a ∈ actions := by
  induction actions with
  | nil => exact h
  | cons b actions ih =>
    rw [heard] at h
    split at h
    · rcases List.mem_cons.1 h with rfl | h
      · exact List.mem_cons_self
      · exact List.mem_cons_of_mem b (ih h)
    · exact List.mem_singleton.1 h ▸ List.mem_cons_self

/-- What raises is the last to be heard. -/
theorem heard_append_of_raises {as : List Action} (h : ¬ ∀ a ∈ as, a.survives)
    (bs : List Action) : heard (as ++ bs) = heard as := by
  induction as with
  | nil => exact absurd (fun a ha ↦ absurd ha List.not_mem_nil) h
  | cons a as ih =>
    rw [List.cons_append, heard, heard]
    by_cases hfirst : a.survives = true
    · rw [if_pos hfirst, if_pos hfirst, ih fun hrest ↦ h (List.forall_mem_cons.2 ⟨hfirst, hrest⟩)]
    · rw [if_neg hfirst, if_neg hfirst]

end Action

namespace Session

open Interruption

/-! ## Actions -/

/-- A session in which actions have made changes and left replies, and nothing else. -/
structure Unstirred (actions : List Action) (s t : Session) : Prop where
  shelf : t.shelf = s.shelf
  status : t.character.status = s.character.status
  baseline : t.character.baseline = s.character.baseline
  state : t.character.state = s.character.state
  queued : t.character.queued = (s.character.queued || actions.any Action.mutates)
  turns : t.schedule.length = s.schedule.length

namespace Unstirred

variable {as bs : List Action} {s t u : Session}

theorem refl (s : Session) : Unstirred [] s s := ⟨rfl, rfl, rfl, rfl, (Bool.or_false _).symm, rfl⟩

theorem trans (h : Unstirred as s t) (h' : Unstirred bs t u) : Unstirred (as ++ bs) s u where
  shelf := h'.shelf.trans h.shelf
  status := h'.status.trans h.status
  baseline := h'.baseline.trans h.baseline
  state := h'.state.trans h.state
  queued := by rw [h'.queued, h.queued, List.any_append, Bool.or_assoc]
  turns := h'.turns.trans h.turns

end Unstirred

/-- An action leaves its reply, and raises if it fails and is not caught. -/
theorem carryOut_act (interrupt : Interrupt) (a : Action) (s : Session) :
    carryOut (act interrupt a) s =
      (match (carryOut (perform interrupt a.command) s).1 with
        | .ok _ => .ok ()
        | .error e => if a.caught then .ok () else .error e,
      { (carryOut (perform interrupt a.command) s).2 with
        replies := (carryOut (perform interrupt a.command) s).2.replies ++
          [(a.label, (carryOut (perform interrupt a.command) s).1)] }) := by
  rw [act, carryOut_bind_ok (carryOut_observe ..), carryOut_bind_ok (carryOut_modify ..)]
  cases (carryOut (perform interrupt a.command) s).1 with
  | ok reply => rfl
  | error e => cases a.caught <;> rfl

theorem unstirred_act (interrupt : Interrupt) {a : Action} {s : Session}
    (hrunning : s.character.status = .recomputing) (ha : a.Tame) :
    Unstirred [a] s (carryOut (act interrupt a) s).2 ∧
      (carryOut (act interrupt a) s).2.schedule = s.schedule ∧
      ((carryOut (act interrupt a) s).1 = .ok () ↔ a.survives) := by
  rw [carryOut_act]
  rcases ha.reentrant_or with hreentrant | ⟨why, hwhy⟩
  · rw [carryOut_perform hrunning hreentrant]
    have hacted : Unstirred [a] s (s.acted a) := by
      refine ⟨rfl, status_actedAll s [a], (a.kept_onto s.character).2, ?_, ?_, rfl⟩
      · rw [character_acted]
        rfl
      · rw [character_acted, List.any_cons, List.any_nil, Bool.or_false]
        rfl
    have hmutates := a.isOk_answer s.character
    refine ⟨⟨hacted.shelf, hacted.status, hacted.baseline, hacted.state, hacted.queued, rfl⟩, rfl,
      ?_⟩
    unfold Action.survives
    rw [← hmutates]
    cases a.answer s.character with
    | ok reply => simp [Except.isOk, Except.toBool]
    | error e => cases a.caught <;> simp [Except.isOk, Except.toBool]
  · have hmutates : a.mutates = false := by rw [Action.mutates, hwhy]
    rw [hwhy]
    refine ⟨⟨rfl, rfl, rfl, rfl, ?_, rfl⟩, rfl, ?_⟩
    · rw [List.any_cons, hmutates]
      exact (Bool.or_false _).symm
    · show (if a.caught = true then Except.ok () else Except.error why) = Except.ok () ↔ _
      rw [Action.survives, hmutates]
      cases a.caught <;> simp

theorem unstirred_actions (interrupt : Interrupt) {actions : List Action} {s : Session}
    (hrunning : s.character.status = .recomputing) (ha : ∀ a ∈ Action.heard actions, a.Tame) :
    Unstirred (Action.heard actions) s (carryOut (actions.forM (act interrupt)) s).2 ∧
      (carryOut (actions.forM (act interrupt)) s).2.schedule = s.schedule ∧
      ((carryOut (actions.forM (act interrupt)) s).1 = .ok () ↔ ∀ a ∈ actions, a.survives) := by
  induction actions generalizing s with
  | nil => exact ⟨.refl s, rfl, by simp⟩
  | cons a actions ih =>
    have htame : a.Tame := by
      refine ha a ?_
      rw [Action.heard]
      split <;> exact List.mem_cons_self
    obtain ⟨hacted, hschedule, hsurvives⟩ := unstirred_act interrupt hrunning htame
    rw [List.forM_eq_forM, List.forM_cons, carryOut_bind]
    rcases hfirst : carryOut (act interrupt a) s with ⟨_ | ⟨⟩, t⟩
    · rw [hfirst] at hacted hschedule hsurvives
      have hraises : ¬ a.survives = true := fun h ↦ by cases hsurvives.2 h
      rw [Action.heard, if_neg hraises]
      exact ⟨hacted, hschedule, by simp [hraises]⟩
    · rw [hfirst] at hacted hschedule hsurvives
      have hgoes : a.survives = true := hsurvives.1 rfl
      rw [Action.heard, if_pos hgoes] at ha ⊢
      obtain ⟨hrest, hschedule', hsurvive⟩ := ih (hacted.status.trans hrunning)
        fun b hb ↦ ha b (List.mem_cons_of_mem a hb)
      refine ⟨hacted.trans hrest, hschedule'.trans hschedule, hsurvive.trans ?_⟩
      rw [List.forall_mem_cons, and_iff_right hgoes]

/-! ## Interruptions -/

/-- The turns from some place of the schedule on, whether one of them raises or not. -/
theorem unstirred_turns (interrupt : Interrupt) (stage : Stage) {s : Session}
    {before after : List Interruption} (hrunning : s.character.status = .recomputing)
    (hs : s.schedule = before ++ after)
    (ha : ∀ a ∈ Action.heard (due stage after), a.Tame) :
    Unstirred (Action.heard (due stage after)) s
      (carryOut ((List.range' before.length after.length).forM fun i ↦ do
        (← takeTurn stage i).forM (act interrupt)) s).2 := by
  induction after generalizing before s with
  | nil => exact .refl s
  | cons h after ih =>
    have hdue : due stage (h :: after) = h.dueActions stage ++ due stage after := List.flatMap_cons
    let u : Session := { s with schedule := before ++ h.tick stage :: after }
    have htaken : Unstirred [] s u :=
      ⟨rfl, rfl, rfl, rfl, (Bool.or_false _).symm, by simp [u, hs]⟩
    rw [hdue] at ha ⊢
    rw [List.length_cons, List.range'_succ, List.forM_eq_forM, List.forM_cons, carryOut_bind,
      carryOut_bind_ok (carryOut_takeTurn hs stage)]
    by_cases hsurvive : ∀ a ∈ h.dueActions stage, a.survives
    · rw [Action.heard_append_of_survive hsurvive] at ha ⊢
      have hheard := Action.heard_of_survive hsurvive
      have htame : ∀ a ∈ Action.heard (h.dueActions stage), a.Tame := fun a hmem ↦
        ha a (List.mem_append_left _ (hheard ▸ hmem))
      obtain ⟨hacted, hschedule, hok⟩ :=
        unstirred_actions interrupt (s := u) hrunning htame
      rw [hheard] at hacted
      rcases hfirst : carryOut ((h.dueActions stage).forM (act interrupt)) u with ⟨e | ⟨⟩, t⟩
      · rw [hfirst] at hok
        cases hok.2 hsurvive
      · rw [hfirst] at hacted hschedule
        have ht : t.schedule = (before ++ [h.tick stage]) ++ after := by
          rw [hschedule, List.append_assoc]
          rfl
        have hrest := ih (hacted.status.trans hrunning) ht fun a hmem ↦
          ha a (List.mem_append_right _ hmem)
        rw [List.length_append, List.length_singleton] at hrest
        exact (htaken.trans hacted).trans hrest
    · rw [Action.heard_append_of_raises hsurvive] at ha ⊢
      obtain ⟨hacted, -, hok⟩ := unstirred_actions interrupt (s := u) hrunning ha
      rcases hfirst : carryOut ((h.dueActions stage).forM (act interrupt)) u with ⟨e | ⟨⟩, t⟩
      · rw [hfirst] at hacted
        exact htaken.trans hacted
      · rw [hfirst] at hok
        exact absurd (hok.1 rfl) hsurvive

theorem carryOut_interruptions_nil {s : Session} (hs : s.schedule = []) (depth : Nat)
    (stage : Stage) : carryOut (interruptions depth stage) s = (.ok (), s) := by
  cases depth with
  | zero => rfl
  | succ depth =>
    rw [interruptions, carryOut_bind_ok (carryOut_get s), hs]
    rfl

/-- Interruptions whose actions are tame as far as they are heard leave what a pass has derived. -/
theorem unstirred_interruptions {depth : Nat} (stage : Stage) {s : Session}
    (hrunning : s.schedule = [] ∨ s.character.status = .recomputing)
    (hdepth : s.schedule.length ≤ depth)
    (ha : ∀ a ∈ Action.heard (due stage s.schedule), a.Tame) :
    Unstirred (Action.heard (due stage s.schedule)) s
      (carryOut (interruptions depth stage) s).2 := by
  rcases hrunning with hnone | hrunning
  · rw [carryOut_interruptions_nil hnone, hnone]
    exact .refl s
  · have hturns := unstirred_turns (interruptions (depth - 1)) stage hrunning
      (show s.schedule = [] ++ s.schedule from rfl) ha
    cases depth with
    | zero =>
      rw [List.length_eq_zero_iff.1 (Nat.le_zero.1 hdepth)] at hturns ⊢
      exact hturns
    | succ depth =>
      rw [interruptions, carryOut_bind_ok (carryOut_get s), List.range_eq_range']
      exact hturns

end Session

end CharacterSheet
