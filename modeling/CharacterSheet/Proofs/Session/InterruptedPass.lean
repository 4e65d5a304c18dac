import CharacterSheet.Proofs.Session.Interruption

/-!
# Passes with interruptions

In a pass each interruption has one turn, so the schedule alone says which actions a pass carries
out.  What a pass does to the inputs is what these actions do one after another.  A pass in which no
change is made does to the working state what a pass without interruptions does.
-/

namespace CharacterSheet

namespace Interruption

/-- An interruption some passes later. -/
def later (passes : Nat) (h : Interruption) : Interruption := { h with calls := h.calls + passes }

/-- The actions that are due after some overlays of one pass. -/
def dueAfter (stages : List Stage) (schedule : List Interruption) : List Action :=
  stages.flatMap (due · schedule)

/-- The actions of the pass that follows on a number of passes. -/
def inPass (schedule : List Interruption) (passes : Nat) : List Action :=
  dueAfter Stage.all (schedule.map (later passes))

/-- The actions of some passes. -/
def inPasses (schedule : List Interruption) (passes : Nat) : List Action :=
  (List.range passes).flatMap (inPass schedule)

/-- Whether a change is made in the pass that follows on a number of passes. -/
def disturbs (schedule : List Interruption) (passes : Nat) : Bool :=
  (inPass schedule passes).any Action.mutates

theorem disturbs_eq_false {schedule : List Interruption}
    (h : ∀ i ∈ schedule, ∀ a ∈ i.actions, a.mutates = false) (passes : Nat) :
    disturbs schedule passes = false := by
  rw [disturbs, List.any_eq_false]
  intro a ha
  obtain ⟨stage, -, ha⟩ := List.mem_flatMap.1 ha
  obtain ⟨i, hi, ha⟩ := exists_of_mem_due ha
  obtain ⟨j, hj, rfl⟩ := List.mem_map.1 hi
  rw [h j hj a ha]
  exact Bool.false_ne_true

theorem dueAfter_cons (stage : Stage) (stages : List Stage) (schedule : List Interruption) :
    dueAfter (stage :: stages) schedule = due stage schedule ++ dueAfter stages schedule :=
  List.flatMap_cons

/-- A turn after one overlay does not bring about that of another one. -/
theorem due_map_tick {stage stage' : Stage} (h : stage ≠ stage') (schedule : List Interruption) :
    due stage' (schedule.map (tick stage)) = due stage' schedule := by
  have hdue (i : Interruption) : (i.tick stage).dueActions stage' = i.dueActions stage' := by
    by_cases hafter : i.after = stage
    · have hother : ¬ i.after = stage' := fun h' ↦ h (hafter.symm.trans h')
      simp [tick, dueActions, hafter, h]
    · rw [tick, if_neg hafter]
  rw [due, due, List.flatMap_map]
  exact congrArg (fun f ↦ List.flatMap f schedule) (funext hdue)

theorem dueAfter_map_tick {stage : Stage} {stages : List Stage} (h : stage ∉ stages)
    (schedule : List Interruption) :
    dueAfter stages (schedule.map (tick stage)) = dueAfter stages schedule := by
  induction stages with
  | nil => rfl
  | cons stage' stages ih =>
    have hother : stage ≠ stage' := List.ne_of_not_mem_cons h
    have hrest : stage ∉ stages := List.not_mem_of_not_mem_cons h
    rw [dueAfter_cons, dueAfter_cons, due_map_tick hother, ih hrest]

/-- Counts the turns after some overlays. -/
def tickAll (stages : List Stage) (h : Interruption) : Interruption :=
  stages.foldl (fun h stage ↦ h.tick stage) h

theorem tickAll_eq (stages : List Stage) (hnodup : stages.Nodup) (h : Interruption) :
    h.tickAll stages = if h.after ∈ stages then h.later 1 else h := by
  induction stages generalizing h with
  | nil => rfl
  | cons stage stages ih =>
    obtain ⟨hfirst, hrest⟩ := List.nodup_cons.1 hnodup
    have htail : h.tickAll (stage :: stages) = (h.tick stage).tickAll stages := rfl
    have hafter : (h.tick stage).after = h.after := by
      unfold tick
      split <;> rfl
    rw [htail, ih hrest, hafter]
    by_cases hstage : h.after = stage
    · rw [hstage, if_neg hfirst, if_pos List.mem_cons_self, tick, if_pos hstage]
      rfl
    · rw [tick, if_neg hstage]
      simp only [List.mem_cons, hstage, false_or]

theorem tickAll_all (h : Interruption) : h.tickAll Stage.all = h.later 1 := by
  have hmem : h.after ∈ Stage.all := by cases h.after <;> decide
  rw [tickAll_eq Stage.all (by decide), if_pos hmem]

end Interruption

namespace Session

open Interruption

/-- What some actions inside passes come to, whatever else the passes did. -/
structure Interrupted (actions : List Action) (s t : Session) : Prop where
  settings : t.settings = s.settings
  shelf : t.shelf = s.shelf
  inputs : (s.character.replayed actions).SameInputs t.character
  replies : t.replies = s.replies ++ s.character.answers actions

theorem Interrupted.trans {as bs : List Action} {s t u : Session} (h : Interrupted as s t)
    (h' : Interrupted bs t u) : Interrupted (as ++ bs) s u where
  settings := h'.settings.trans h.settings
  shelf := h'.shelf.trans h.shelf
  inputs := by
    rw [Character.replayed_append]
    exact (h.inputs.replayed bs).trans h'.inputs
  replies := by
    rw [h'.replies, h.replies, h.inputs.answers_eq, Character.answers_append, List.append_assoc]

theorem interrupted_acted (s : Session) (a : Action) : Interrupted [a] s (s.acted a) where
  settings := rfl
  shelf := rfl
  inputs := by
    rw [character_acted]
    exact Character.sameInputs_withRun ..
  replies := rfl

theorem interrupted_actedAll (s : Session) (actions : List Action) :
    Interrupted actions s (s.actedAll actions) := by
  induction actions generalizing s with
  | nil => exact ⟨rfl, rfl, Character.SameInputs.refl _, (List.append_nil _).symm⟩
  | cons a actions ih => exact (interrupted_acted s a).trans (ih (s.acted a))

/-- A running session whose schedule the nesting of its interruptions is enough for. -/
structure Interruptible (depth : Nat) (s : Session) : Prop where
  running : s.character.status = .recomputing
  shallow : s.schedule.length ≤ depth
  reentrant : ∀ h ∈ s.schedule, ∀ a ∈ h.actions, a.Reentrant

/-- The session after an overlay and the interruptions that follow it. -/
def afterStage (s : Session) (stage : Stage) : Session :=
  (s.follow (stage.run s.settings s.character.loadout s.character.state)).interrupted stage

/-- Whether a pass goes on after an overlay and the interruptions that follow it. -/
def GoesOn (s : Session) (stage : Stage) : Prop :=
  (stage.run s.settings s.character.loadout s.character.state).failure = none ∧
    ∀ a ∈ due stage s.schedule, a.survives

theorem Interruptible.restored {depth : Nat} {s : Session} (hs : s.Interruptible depth)
    (baseline : State) : (s.restored baseline).Interruptible depth :=
  ⟨hs.running, hs.shallow, hs.reentrant⟩

theorem Interruptible.afterStage {depth : Nat} {s : Session} (hs : s.Interruptible depth)
    (stage : Stage) : (s.afterStage stage).Interruptible depth where
  running := (status_actedAll _ _).trans hs.running
  shallow := by
    show (s.schedule.map (tick stage)).length ≤ depth
    rw [List.length_map]
    exact hs.shallow
  reentrant := by
    intro h hmem
    obtain ⟨i, hi, rfl⟩ := List.mem_map.1 hmem
    have hactions : (i.tick stage).actions = i.actions := by
      unfold tick
      split <;> rfl
    rw [hactions]
    exact hs.reentrant i hi

theorem interrupted_afterStage (s : Session) (stage : Stage) :
    Interrupted (due stage s.schedule) s (s.afterStage stage) := by
  let r := stage.run s.settings s.character.loadout s.character.state
  have hacted : Interrupted (due stage s.schedule) (s.follow r)
      ((s.follow r).actedAll (due stage s.schedule)) := interrupted_actedAll ..
  have hfollow : Interrupted [] s (s.follow r) :=
    ⟨rfl, rfl, Character.sameInputs_withRun .., (List.append_nil _).symm⟩
  have hboth := hfollow.trans hacted
  exact ⟨hboth.settings, hboth.shelf, hboth.inputs, hboth.replies⟩

theorem carryOut_stage_eq_ok_iff {depth : Nat} {s t : Session} (hs : s.Interruptible depth)
    (stage : Stage) :
    carryOut (do runStage s.currentPass stage; interruptions depth stage) s = (.ok (), t) ↔
      s.GoesOn stage ∧ t = s.afterStage stage := by
  let r := stage.run s.settings s.character.loadout s.character.state
  have hinterruptions : carryOut (interruptions depth stage) (s.follow r) = (.ok (), t) ↔
      (∀ a ∈ due stage s.schedule, a.survives) ∧ t = s.afterStage stage :=
    carryOut_interruptions_eq_ok_iff hs.running hs.shallow hs.reentrant
  rw [carryOut_bind, carryOut_runStage, GoesOn]
  cases hfailure : (stage.run s.settings s.character.loadout s.character.state).failure with
  | some e =>
    rw [outcome_of_failure hfailure]
    constructor
    · intro h
      cases h
    · rintro ⟨⟨h, -⟩, -⟩
      cases h
  | none =>
    rw [outcome_of_completed hfailure, and_iff_right rfl]
    exact hinterruptions

/-- A pass over some overlays comes back exactly when it goes on after the first one and comes back
over the others. -/
theorem carryOut_stages_cons_eq_ok_iff {depth : Nat} {s t : Session} (hs : s.Interruptible depth)
    (stage : Stage) (stages : List Stage) :
    carryOut ((stage :: stages).forM fun stage ↦ do
        runStage s.currentPass stage; interruptions depth stage) s = (.ok (), t) ↔
      s.GoesOn stage ∧ carryOut (stages.forM fun stage' ↦ do
        runStage (s.afterStage stage).currentPass stage'; interruptions depth stage')
        (s.afterStage stage) = (.ok (), t) := by
  have hpass : (s.afterStage stage).currentPass = s.currentPass := by
    rw [currentPass, (interrupted_afterStage s stage).shelf]
    rfl
  rw [List.forM_eq_forM, List.forM_cons, carryOut_bind_eq_ok_iff, hpass]
  constructor
  · rintro ⟨⟨⟩, u, hu, h⟩
    obtain ⟨hgoes, rfl⟩ := (carryOut_stage_eq_ok_iff hs stage).1 hu
    exact ⟨hgoes, h⟩
  · rintro ⟨hgoes, h⟩
    exact ⟨(), s.afterStage stage, (carryOut_stage_eq_ok_iff hs stage).2 ⟨hgoes, rfl⟩, h⟩

/-- An overlay sets what it derives, and the interruptions that follow it change inputs. -/
theorem character_afterStage (s : Session) (stage : Stage) :
    (s.afterStage stage).character = (s.character.replayed (due stage s.schedule)).withRun
      (stage.run s.settings s.character.loadout s.character.state).state
      (s.character.diagnostics ++
        (stage.run s.settings s.character.loadout s.character.state).diagnostics)
      (s.character.queued || (due stage s.schedule).any Action.mutates) s.character.status := by
  let r := stage.run s.settings s.character.loadout s.character.state
  have hacted := character_actedAll (s.follow r) (due stage s.schedule)
  have hfollow : (s.follow r).character = s.character.withRun r.state
      (s.character.diagnostics ++ r.diagnostics) s.character.queued s.character.status := rfl
  rw [hfollow, Character.replayed_withRun] at hacted
  exact hacted

/-- What a pass over some overlays comes to, whatever the overlays derive. -/
structure PassedOver (stages : List Stage) (s t : Session) : Prop where
  interrupted : Interrupted (dueAfter stages s.schedule) s t
  schedule : t.schedule = s.schedule.map (tickAll stages)
  status : t.character.status = s.character.status
  queued : t.character.queued =
    (s.character.queued || (dueAfter stages s.schedule).any Action.mutates)

theorem passedOver_of_carryOut {depth : Nat} {stages : List Stage} {s t : Session}
    (hnodup : stages.Nodup) (hs : s.Interruptible depth)
    (h : carryOut (stages.forM fun stage ↦ do
      runStage s.currentPass stage; interruptions depth stage) s = (.ok (), t)) :
    PassedOver stages s t := by
  induction stages generalizing s with
  | nil =>
    have ht : t = s := (congrArg Prod.snd h).symm
    subst ht
    exact
      { interrupted := interrupted_actedAll t []
        schedule := (List.map_id t.schedule).symm
        status := rfl
        queued := (Bool.or_false _).symm }
  | cons stage stages ih =>
    obtain ⟨hfirst, hrest⟩ := List.nodup_cons.1 hnodup
    obtain ⟨-, h⟩ := (carryOut_stages_cons_eq_ok_iff hs stage stages).1 h
    have hpassed := ih hrest (hs.afterStage stage) h
    have hdue : dueAfter stages (s.afterStage stage).schedule = dueAfter stages s.schedule :=
      dueAfter_map_tick hfirst s.schedule
    -- Taking the turns of one overlay leaves those of the overlays that follow.
    refine ⟨?_, ?_, ?_, ?_⟩
    · rw [dueAfter_cons, ← hdue]
      exact (interrupted_afterStage s stage).trans hpassed.interrupted
    · have hschedule : (s.afterStage stage).schedule = s.schedule.map (tick stage) := rfl
      rw [hpassed.schedule, hschedule, List.map_map]
      rfl
    · rw [hpassed.status, character_afterStage]
      rfl
    · rw [hpassed.queued, hdue, dueAfter_cons, List.any_append, character_afterStage,
        ← Bool.or_assoc]
      rfl

/-- Overlays between which no change is made derive what they derive without interruptions. -/
theorem undisturbed_of_carryOut {depth : Nat} {stages : List Stage} {s t : Session}
    (hnodup : stages.Nodup) (hs : s.Interruptible depth)
    (hnone : (dueAfter stages s.schedule).any Action.mutates = false)
    (h : carryOut (stages.forM fun stage ↦ do
      runStage s.currentPass stage; interruptions depth stage) s = (.ok (), t)) :
    let p := Overlay.runStages s.settings s.character.loadout stages s.character.state
    p.failure = none ∧ t.character.state = p.state ∧
      t.character.diagnostics = s.character.diagnostics ++ p.diagnostics := by
  induction stages generalizing s with
  | nil =>
    have ht : t = s := (congrArg Prod.snd h).symm
    subst ht
    exact ⟨rfl, rfl, (List.append_nil _).symm⟩
  | cons stage stages ih =>
    obtain ⟨hfirst, hrest⟩ := List.nodup_cons.1 hnodup
    obtain ⟨⟨hcompleted, -⟩, h⟩ := (carryOut_stages_cons_eq_ok_iff hs stage stages).1 h
    have hdue : dueAfter stages (s.afterStage stage).schedule = dueAfter stages s.schedule :=
      dueAfter_map_tick hfirst s.schedule
    rw [dueAfter_cons, List.any_append, Bool.or_eq_false_iff] at hnone
    have hlater := ih hrest (hs.afterStage stage) (hdue ▸ hnone.2) h
    -- Without a change the next overlay works on the same loadout.
    have hcharacter := character_afterStage s stage
    rw [Character.replayed_of_not_mutates hnone.1] at hcharacter
    have hsettings : (s.afterStage stage).settings = s.settings :=
      (interrupted_afterStage s stage).settings
    rw [hcharacter, hsettings] at hlater
    let r := stage.run s.settings s.character.loadout s.character.state
    have hstages : Overlay.runStages s.settings s.character.loadout (stage :: stages)
        s.character.state =
          r.andThen (Overlay.runStages s.settings s.character.loadout stages) :=
      Progress.each_cons (Stage.run s.settings s.character.loadout) stage stages s.character.state
    obtain ⟨hfailure, hstate, hdiagnostics⟩ := hlater
    rw [hstages]
    refine ⟨Progress.failure_andThen_eq_none_iff.2 ⟨hcompleted, hfailure⟩, ?_, ?_⟩
    · rw [Progress.state_andThen hcompleted]
      exact hstate
    · rw [Progress.diagnostics_andThen hcompleted, ← List.append_assoc]
      exact hdiagnostics

/-! ## Whole passes -/

theorem inPass_zero (schedule : List Interruption) :
    inPass schedule 0 = dueAfter Stage.all schedule :=
  congrArg (dueAfter Stage.all) (List.map_id schedule)

/-- What a pass comes to: its actions are carried out, and each interruption has had a turn.  A pass
in which no change is made leaves what it would have left without interruptions. -/
structure Passed (baseline : State) (s t : Session) : Prop where
  interrupted : Interrupted (inPass s.schedule 0) s t
  schedule : t.schedule = s.schedule.map (later 1)
  status : t.character.status = s.character.status
  queued : t.character.queued = (s.character.queued || disturbs s.schedule 0)
  undisturbed : disturbs s.schedule 0 = false → (s.passOver baseline).failure = none ∧
    t.character.state = (s.passOver baseline).state ∧
    t.character.diagnostics = (s.passOver baseline).diagnostics

theorem passed_of_carryOut {depth : Nat} {s t : Session} {baseline : State}
    (hs : s.Interruptible depth) (hb : s.character.baseline = some baseline)
    (h : carryOut (runPass (interruptions depth)) s = (.ok (), t)) : Passed baseline s t := by
  rw [carryOut_runPass hb] at h
  have hpassed := passedOver_of_carryOut (by decide) (hs.restored baseline) h
  have hrestore : Interrupted [] s (s.restored baseline) :=
    ⟨rfl, rfl, Character.sameInputs_withRun .., (List.append_nil _).symm⟩
  have htick : tickAll Stage.all = later 1 := funext tickAll_all
  refine ⟨?_, ?_, hpassed.status, ?_, fun hnone ↦ ?_⟩
  · rw [inPass_zero]
    exact hrestore.trans hpassed.interrupted
  · rw [← htick]
    exact hpassed.schedule
  · rw [disturbs, inPass_zero]
    exact hpassed.queued
  · rw [disturbs, inPass_zero] at hnone
    exact undisturbed_of_carryOut (by decide) (hs.restored baseline) hnone h

theorem Passed.interruptible {depth : Nat} {baseline : State} {s t : Session}
    (h : Passed baseline s t) (hs : s.Interruptible depth) : t.Interruptible depth where
  running := h.status.trans hs.running
  shallow := by
    rw [h.schedule, List.length_map]
    exact hs.shallow
  reentrant := by
    intro i hmem
    rw [h.schedule] at hmem
    obtain ⟨j, hj, rfl⟩ := List.mem_map.1 hmem
    exact hs.reentrant j hj

theorem Passed.baseline_eq {baseline : State} {s t : Session} (h : Passed baseline s t) :
    t.character.baseline = s.character.baseline :=
  h.interrupted.inputs.baseline_eq.trans (Character.kept_replayed ..).2

end Session

end CharacterSheet
