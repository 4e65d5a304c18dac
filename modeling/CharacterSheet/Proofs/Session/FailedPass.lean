import CharacterSheet.Proofs.Session.HandedOn
import CharacterSheet.Proofs.Session.Keeping
import CharacterSheet.Proofs.Session.Raising
import CharacterSheet.Proofs.Session.Reentrancy

/-!
# Failed passes leave no trace

A pass that raises leaves its working state half-done.  Until it comes to clamping, what it hands on
is what it was handed, so the next pass that completes does not show that there was another one
before it.  A recompute that raises leaves the character idle, on the baseline on which it began.
-/

namespace CharacterSheet

namespace Session

open Interruption State

/-! ## Passes that come back or raise -/

/-- The actions that are carried out in a pass over some overlays, up to where it raises. -/
def carriedOut (interrupt : Interrupt) : List Stage → Session → List Action
  | [], _ => []
  | stage :: stages, s =>
    match carryOut (runStage s.currentPass stage) s with
    | (.error _, _) => []
    | (.ok _, t) => Action.heard (due stage t.schedule) ++
      match carryOut (interrupt stage) t with
      | (.error _, _) => []
      | (.ok _, u) => carriedOut interrupt stages u

/-- All that is carried out in a pass is on the schedule. -/
theorem Underway.carriedOut {depth : Nat} {layers : State → Option State → Prop}
    {allowed : Action → Prop} {s : Session} {interrupt : Interrupt} (stages : List Stage)
    (hs : Underway depth layers allowed s)
    (hinterrupt : ∀ stage, Keeps (Underway depth layers allowed) (interrupt stage)) :
    ∀ a ∈ carriedOut interrupt stages s, allowed a := by
  induction stages generalizing s with
  | nil => exact fun a ha ↦ absurd ha List.not_mem_nil
  | cons stage stages ih =>
    have hstage := keeps_runStage lasting_underway s.currentPass stage s hs
    rw [Session.carriedOut]
    rcases ht : carryOut (runStage s.currentPass stage) s with ⟨_ | ⟨⟩, t⟩
    · exact fun a ha ↦ absurd ha List.not_mem_nil
    · rw [ht] at hstage
      dsimp only at hstage ⊢
      have hafter := hinterrupt stage t hstage
      intro a ha
      rcases List.mem_append.1 ha with ha | ha
      · obtain ⟨i, hi, ha⟩ := exists_of_mem_due (Action.mem_of_mem_heard ha)
        exact hstage.allowed i hi a ha
      · rcases hu : carryOut (interrupt stage) t with ⟨_ | ⟨⟩, u⟩
        · rw [hu] at ha
          exact absurd ha List.not_mem_nil
        · rw [hu] at ha hafter
          exact ih hafter a ha

/-- What a pass over some overlays leaves, whether it comes back or raises. -/
structure Ran (stages : List Stage) (actions : List Action) (s t : Session) : Prop where
  shelf : t.shelf = s.shelf
  status : t.character.status = s.character.status
  baseline : t.character.baseline = s.character.baseline
  queued : t.character.queued = (s.character.queued || actions.any Action.mutates)
  turns : t.schedule.length = s.schedule.length
  handsOn : .clampResources ∉ stages → ∀ baseline,
    HandsOnAlike baseline s.character.state t.character.state

namespace Ran

variable {stages later : List Stage} {as bs : List Action} {s t u : Session}

theorem refl (s : Session) : Ran [] [] s s :=
  ⟨rfl, rfl, rfl, (Bool.or_false _).symm, rfl, fun _ _ ↦ .refl _⟩

theorem trans (h : Ran stages as s t) (h' : Ran later bs t u) :
    Ran (stages ++ later) (as ++ bs) s u where
  shelf := h'.shelf.trans h.shelf
  status := h'.status.trans h.status
  baseline := h'.baseline.trans h.baseline
  queued := by rw [h'.queued, h.queued, List.any_append, Bool.or_assoc]
  turns := h'.turns.trans h.turns
  handsOn hclamp baseline := by
    rw [List.mem_append, not_or] at hclamp
    exact (h.handsOn hclamp.1 baseline).trans (h'.handsOn hclamp.2 baseline)

theorem mono (h : Ran stages as s t) (hsubset : stages ⊆ later) : Ran later as s t :=
  { h with handsOn := fun hclamp ↦ h.handsOn fun hmem ↦ hclamp (hsubset hmem) }

end Ran

theorem Unstirred.ran {actions : List Action} {s t : Session} (h : Unstirred actions s t) :
    Ran [] actions s t :=
  ⟨h.shelf, h.status, h.baseline, h.queued, h.turns, fun _ _ ↦ h.state ▸ .refl _⟩

theorem ran_follow (s : Session) (stage : Stage) : Ran [stage] [] s
    (s.follow (stage.run s.settings s.character.loadout s.character.state)) where
  shelf := rfl
  status := rfl
  baseline := rfl
  queued := (Bool.or_false _).symm
  turns := rfl
  handsOn hclamp baseline := Overlay.handsOnAlike_stage s.settings s.character.loadout
    (fun h ↦ hclamp (List.mem_singleton.2 h.symm)) baseline s.character.state

theorem ran_stages {depth : Nat} {stages : List Stage} {s : Session}
    (hrunning : s.schedule = [] ∨ s.character.status = .recomputing)
    (hdepth : s.schedule.length ≤ depth)
    (ha : ∀ a ∈ carriedOut (interruptions depth) stages s, a.Tame) :
    Ran stages (carriedOut (interruptions depth) stages s) s (carryOut (stages.forM fun stage ↦ do
      runStage s.currentPass stage; interruptions depth stage) s).2 := by
  induction stages generalizing s with
  | nil => exact .refl s
  | cons stage stages ih =>
    let r := stage.run s.settings s.character.loadout s.character.state
    have hfollow : Ran [stage] [] s (s.follow r) := ran_follow s stage
    have hfirst : [stage] ⊆ stage :: stages := List.cons_subset_cons stage (List.nil_subset _)
    have hstage : carryOut (runStage s.currentPass stage) s = (outcome r, s.follow r) :=
      carryOut_runStage s stage
    rw [carriedOut, hstage] at ha ⊢
    rw [List.forM_eq_forM, List.forM_cons, carryOut_bind]
    cases hfailure : r.failure with
    | some e =>
      rw [outcome_of_failure hfailure] at ha hstage ⊢
      rw [carryOut_bind_error hstage]
      exact hfollow.mono hfirst
    | none =>
      rw [outcome_of_completed hfailure] at ha hstage ⊢
      rw [carryOut_bind_ok hstage]
      dsimp only at ha ⊢
      have hheard := unstirred_interruptions stage (s := s.follow r) hrunning hdepth
        fun a hmem ↦ ha a (List.mem_append_left _ hmem)
      rcases hinterrupted : carryOut (interruptions depth stage) (s.follow r) with ⟨e | ⟨⟩, t⟩
      · rw [hinterrupted] at hheard
        dsimp only at hheard ⊢
        rw [List.append_nil]
        exact (hfollow.trans hheard.ran).mono hfirst
      · rw [hinterrupted] at hheard ha
        dsimp only at hheard ha ⊢
        have hreached := hfollow.trans hheard.ran
        have hpass : s.currentPass = t.currentPass := by
          rw [currentPass, currentPass, hreached.shelf]
        have hrunning' : t.schedule = [] ∨ t.character.status = .recomputing := by
          rw [← List.length_eq_zero_iff, hreached.turns, hreached.status,
            List.length_eq_zero_iff]
          exact hrunning
        rw [hpass, ← List.forM_eq_forM]
        exact hreached.trans (ih hrunning' (hreached.turns ▸ hdepth)
          fun a hmem ↦ ha a (List.mem_append_right _ hmem))

/-- A pass that raises before it clamps, in an overlay or in interruptions that are tame as far as
they are heard. -/
structure CutShort (depth : Nat) (baseline : State) (s t : Session) : Prop where
  built : s.character.baseline = some baseline
  raises : ∃ e, carryOut (runPassOver Stage.beforeClamping (interruptions depth)) s = (.error e, t)
  tame : ∀ a ∈ carriedOut (interruptions depth) Stage.beforeClamping (s.restored baseline), a.Tame
  shallow : s.schedule.length ≤ depth
  running : s.schedule = [] ∨ s.character.status = .recomputing

theorem CutShort.ran {depth : Nat} {baseline : State} {s t : Session}
    (h : CutShort depth baseline s t) : Ran Stage.beforeClamping
      (carriedOut (interruptions depth) Stage.beforeClamping (s.restored baseline))
      (s.restored baseline) t := by
  obtain ⟨e, hraises⟩ := h.raises
  rw [carryOut_runPassOver h.built] at hraises
  have hran := ran_stages (s := s.restored baseline) h.running h.shallow h.tame
  have hpass : (s.restored baseline).currentPass = s.currentPass := rfl
  rw [hpass, hraises] at hran
  exact hran

/-- A pass that is cut short hands on what it was handed. -/
theorem CutShort.handsOnAlike {depth : Nat} {baseline : State} {s t : Session}
    (h : CutShort depth baseline s t) :
    HandsOnAlike baseline s.character.state t.character.state :=
  (handsOnAlike_restore baseline s.character.state).trans
    (h.ran.handsOn Stage.clampResources_notMem_beforeClamping baseline)

/-- A pass that raises before it clamps raises. -/
theorem carryOut_runPass_of_beforeClamping {interrupt : Interrupt} {baseline : State}
    {s t : Session} {e : Failure} (hb : s.character.baseline = some baseline)
    (h : carryOut (runPassOver Stage.beforeClamping interrupt) s = (.error e, t)) :
    carryOut (runPass interrupt) s = (.error e, t) := by
  rw [carryOut_runPassOver hb] at h
  rw [carryOut_runPass hb, Stage.all_eq_beforeClamping, List.forM_eq_forM, List.forM_append]
  exact carryOut_bind_error h _

/-! ## The pass that fails -/

/-- A pass of a recompute begins after passes that came back and during which a change came in. -/
inductive PassBegins (interrupt : Interrupt) : Session → Session → Prop
  | first (s : Session) : PassBegins interrupt s s
  | later {s t u : Session} : carryOut (runPass interrupt) s = (.ok (), t) →
    t.character.queued = true → PassBegins interrupt t.dequeued u → PassBegins interrupt s u

theorem exists_failed_pass {interrupt : Interrupt} {fuel count : Nat} {s u : Session} {e : Failure}
    (h : carryOut (runPasses interrupt fuel count) s = (.error e, u)) :
    ∃ r, PassBegins interrupt s r ∧ carryOut (runPass interrupt) r = (.error e, u) := by
  induction fuel generalizing s count with
  | zero => cases h
  | succ fuel ih =>
    rw [runPasses, carryOut_bind] at h
    rcases hpass : carryOut (runPass interrupt) s with ⟨e' | ⟨⟩, t⟩
    · rw [hpass] at h
      cases h
      exact ⟨s, .first s, hpass⟩
    · rw [hpass] at h
      dsimp only at h
      rw [carryOut_bind_ok (carryOut_takeQueued t)] at h
      cases hqueued : t.character.queued with
      | false =>
        rw [hqueued] at h
        cases h
      | true =>
        rw [hqueued] at h
        obtain ⟨r, hbegins, hr⟩ := ih h
        exact ⟨r, .later hpass hqueued hbegins, hr⟩

/-- Only one pass of a recompute raises. -/
theorem PassBegins.eq_of_error {interrupt : Interrupt} {s r r' u u' : Session} {e e' : Failure}
    (h : PassBegins interrupt s r) (h' : PassBegins interrupt s r')
    (hr : carryOut (runPass interrupt) r = (.error e, u))
    (hr' : carryOut (runPass interrupt) r' = (.error e', u')) : r = r' := by
  induction h with
  | first =>
    cases h' with
    | first => rfl
    | later hpass _ _ => cases hr.symm.trans hpass
  | later hpass _ _ ih =>
    cases h' with
    | first => cases hr'.symm.trans hpass
    | later hpass' _ hrest' =>
      cases hpass.symm.trans hpass'
      exact ih hrest' hr

/-- What was queued before a recompute is queued in its first pass, and in no later one. -/
theorem PassBegins.eq_or_unqueued {interrupt : Interrupt} {s r : Session}
    (h : PassBegins interrupt s r) : r = s ∨ r.character.queued = false := by
  induction h with
  | first => exact .inl rfl
  | later _ _ _ ih =>
    rcases ih with rfl | hqueued
    · exact .inr rfl
    · exact .inr hqueued

theorem Underway.passBegins {depth : Nat} {layers : State → Option State → Prop}
    {allowed : Action → Prop} {s r : Session} {interrupt : Interrupt}
    (hs : Underway depth layers allowed s)
    (hinterrupt : ∀ stage, Keeps (Underway depth layers allowed) (interrupt stage))
    (h : PassBegins interrupt s r) : Underway depth layers allowed r := by
  induction h with
  | first => exact hs
  | later hpass _ _ ih =>
    have hafter := keeps_runPass lasting_underway hinterrupt _ hs
    rw [hpass] at hafter
    exact ih (keeps_takeQueued lasting_underway _ hafter)

/-! ## Failed recomputes -/

/-- Passes are cut short one after another, whatever else becomes of the character in the
meantime. -/
inductive Retried (baseline : State) (state : State) : State → Prop
  | nil : Retried baseline state state
  | again {depth : Nat} {s t : Session} : Retried baseline state s.character.state →
    CutShort depth baseline s t → Retried baseline state t.character.state

theorem Retried.handsOnAlike {baseline s t : State} (h : Retried baseline s t) :
    HandsOnAlike baseline s t := by
  induction h with
  | nil => exact .refl _
  | again _ hshort ih => exact ih.trans hshort.handsOnAlike

/-- When the next pass comes back, it comes to the same with another working state. -/
structure Untraced (state : State) (s : Session) : Prop where
  /-- The pass is run by itself. -/
  alone : ∀ reply t, execute [] .runPass s = (.ok reply, t) →
    ∃ u, execute [] .runPass (s.withState state) = (.ok reply, u) ∧
      u.character.state = t.character.state ∧ u.character.diagnostics = t.character.diagnostics
  /-- The pass is run by a recompute, and changes may be made between its overlays. -/
  inside : ∀ depth t, s.Interruptible depth →
    carryOut (runPass (interruptions depth)) s = (.ok (), t) →
    ∃ u, carryOut (runPass (interruptions depth)) (s.withState state) = (.ok (), u) ∧
      u.character = t.character

theorem untraced_of_handsOnAlike {baseline state : State} {s : Session}
    (hb : s.character.baseline = some baseline)
    (h : HandsOnAlike baseline s.character.state state) : Untraced state s where
  alone _ _ := exists_execute_runPass_withState hb h
  inside _ _ hs := exists_carryOut_runPass_withState hs hb h

/-- A recompute that raises leaves the character idle, on its base and its baseline.  If the pass
that raised did so before it clamped, then the next pass that comes back comes to what it would have
come to from the working state in which that pass began. -/
theorem recompute_failed {schedule : List Interruption} {s t : Session} {e : Failure}
    (hidle : s.character.status = .idle) (hbuilt : s.character.baseline.isSome)
    (h : execute schedule .recompute s = (.error e, t)) :
    t.character.status = .idle ∧
      ((∀ i ∈ schedule, ∀ a ∈ i.actions, a.command.LeavesLayers) →
        t.character.base = s.character.base ∧ t.character.baseline = s.character.baseline) ∧
      ∃ r u baseline, PassBegins (interruptions schedule.length) (s.scheduled schedule).begun r ∧
        r.character.baseline = some baseline ∧
        carryOut (runPass (interruptions schedule.length)) r = (.error e, u) ∧ t = u.abandoned ∧
        (carryOut (runPassOver Stage.beforeClamping (interruptions schedule.length)) r =
            (.error e, u) →
          (∀ a ∈ carriedOut (interruptions schedule.length) Stage.beforeClamping
            (r.restored baseline), a.Tame) →
          ∀ v : Session, v.character.baseline = t.character.baseline →
            Retried baseline t.character.state v.character.state →
            Untraced r.character.state v) := by
  obtain ⟨b, hb⟩ := Option.isSome_iff_exists.1 hbuilt
  obtain ⟨u, hu, rfl⟩ := (execute_recompute_eq_error_iff hidle hb).1 h
  obtain ⟨r, hbegins, hr⟩ := exists_failed_pass hu
  -- Two things are true throughout: the layers are those of the start, and there is a baseline.
  let begun : Session := (s.scheduled schedule).begun
  refine ⟨rfl, fun hleaves ↦ ?_, ?_⟩
  · let layers (base : State) (baseline : Option State) : Prop :=
      base = s.character.base ∧ baseline = s.character.baseline
    let leaving (a : Action) : Prop := a.command.LeavesLayers
    have hstart : Underway schedule.length layers leaving begun :=
      ⟨rfl, Nat.le_refl _, ⟨rfl, rfl⟩, hleaves⟩
    have hinterruptions (stage : Stage) : Keeps (Underway schedule.length layers leaving)
        (interruptions schedule.length stage) :=
      keeps_underway (fun _ ha ↦ ha.respects layers) schedule.length stage
    have hend := keeps_runPasses lasting_underway hinterruptions (schedule.length + 2) 0 _ hstart
    rw [hu] at hend
    exact hend.holds
  · have hstart : Underway schedule.length (fun _ baseline ↦ baseline.isSome) (fun _ ↦ True)
        begun := ⟨rfl, Nat.le_refl _, hbuilt, fun _ _ _ _ ↦ trivial⟩
    have hlast := hstart.passBegins
      (keeps_underway (fun a _ ↦ a.command.respects_built) schedule.length) hbegins
    obtain ⟨baseline, hbaseline⟩ := Option.isSome_iff_exists.1 hlast.holds
    refine ⟨r, u, baseline, hbegins, hbaseline, hr, rfl, fun hraises htame v hv hretried ↦ ?_⟩
    have hshort : CutShort schedule.length baseline r u :=
      ⟨hbaseline, ⟨e, hraises⟩, htame, hlast.shallow, .inr hlast.running⟩
    have hsame : HandsOnAlike baseline r.character.state v.character.state :=
      hshort.handsOnAlike.trans hretried.handsOnAlike
    have hv : v.character.baseline = some baseline :=
      hv.trans (hshort.ran.baseline.trans hbaseline)
    exact untraced_of_handsOnAlike hv hsame.symm

/-- After the items are laid over, a change is made and a recompute asked for, and nobody catches
its refusal. -/
def tumble : List Interruption :=
  [{ after := .applyEquipment
     actions := [{ command := .change (.addCondition "stunned") }, { command := .recompute }] }]

theorem recompute_tumble_failed : ∃ e t reply u,
    execute tumble .recompute attended = (.error e, t) ∧ t.character.status = .idle ∧
      t.character.base = attended.character.base ∧
      t.character.baseline = attended.character.baseline ∧
      Untraced attended.character.state t ∧ execute [] .runPass t = (.ok reply, u) := by
  let begun : Session := (attended.scheduled tumble).begun
  have hraises : (execute tumble .recompute attended).1.isOk = false := by decide +kernel
  obtain ⟨e, t, h⟩ := exists_eq_error hraises
  obtain ⟨hidle, hkept, r, u, baseline, hbegins, hb, hr, rfl, huntraced⟩ :=
    recompute_failed rfl rfl h
  obtain ⟨hbase, hbaseline⟩ := hkept (by simp [tumble, Command.LeavesLayers])
  -- The first pass is the one that raises, and it does so before it clamps.
  have hfront : (carryOut (runPassOver Stage.beforeClamping (interruptions 1)) begun).1.isOk =
      false := by decide +kernel
  obtain ⟨e', u', hu'⟩ := exists_eq_error hfront
  have hfirst := carryOut_runPass_of_beforeClamping (s := begun) rfl hu'
  have hrbegun : r = begun := by
    cases hbegins with
    | first => rfl
    | later hpass _ _ => cases hfirst.symm.trans hpass
  subst hrbegun
  cases hfirst.symm.trans hr
  have htame : ∀ a ∈ carriedOut (interruptions 1) Stage.beforeClamping (begun.restored baseline),
      a.Tame := by
    obtain rfl := Option.some.inj (Eq.trans (b := begun.character.baseline) rfl hb)
    decide +kernel
  have hnext : (execute [] .runPass (execute tumble .recompute attended).2).1.isOk = true := by
    decide +kernel
  rw [h] at hnext
  obtain ⟨reply, w, hw⟩ := exists_execute_eq_ok hnext
  exact ⟨e, _, reply, w, h, hidle, hbase, hbaseline, huntraced hu' htame _ rfl .nil, hw⟩

end Session

end CharacterSheet
