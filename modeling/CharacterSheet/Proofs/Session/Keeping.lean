import CharacterSheet.Proofs.Overlay.Completion
import CharacterSheet.Proofs.Session.Interruption
import CharacterSheet.Proofs.Session.Rebuild

/-!
# What interruptions leave alone

While a recompute is running, nothing that is carried out inside its passes can end it, and nothing
but an edit by hand touches the base, the modules, the baseline and what the build reported.  This
is so for every schedule, and however the recompute ends.
-/

namespace CharacterSheet

/-- A command that keeps what is true of the base and the baseline.  Only edits by hand have
anything to do for it. -/
def Command.Respects (layers : State → Option State → Prop) : Command → Prop
  | .amend .base edit => ∀ b baseline t, layers b baseline → edit b = .ok t → layers t baseline
  | .amend .baseline edit => ∀ b baseline t, layers b (some baseline) → edit baseline = .ok t →
      layers b (some t)
  | _ => True

/-- A command that edits neither the base nor the baseline by hand. -/
def Command.LeavesLayers : Command → Prop
  | .amend .base _ | .amend .baseline _ => False
  | _ => True

theorem Command.LeavesLayers.respects {command : Command} (h : command.LeavesLayers)
    (layers : State → Option State → Prop) : command.Respects layers := by
  cases command with
  | amend layer edit =>
    cases layer with
    | state => trivial
    | _ => exact absurd h id
  | _ => trivial

/-- A command that edits the modules or a layer by hand. -/
def Command.ByHand : Command → Prop
  | .addModule _ | .select .. | .amend .. => True
  | _ => False

/-- No edit takes a baseline away. -/
theorem Command.respects_built (command : Command) :
    command.Respects fun _ baseline ↦ baseline.isSome := by
  cases command with
  | amend layer edit =>
    cases layer with
    | base => exact fun _ _ _ hbuilt _ ↦ hbuilt
    | state => trivial
    | baseline => exact fun _ _ _ _ _ ↦ rfl
  | _ => trivial

namespace Session

/-! ## Keeping -/

section Keeps

variable {α β : Type} {P : Session → Prop}

/-- An activity keeps what is true of the session, however it ends. -/
def Keeps (P : Session → Prop) (x : Activity α) : Prop := ∀ s, P s → P (carryOut x s).2

theorem keeps_pure (a : α) : Keeps P (pure a) := fun _ h ↦ h

theorem keeps_throw (e : Failure) : Keeps P (throw e : Activity α) := fun _ h ↦ h

theorem keeps_get : Keeps P get := fun _ h ↦ h

theorem keeps_modify {f : Session → Session} (h : ∀ s, P s → P (f s)) : Keeps P (modify f) := h

theorem Keeps.bind {x : Activity α} {f : α → Activity β} (hx : Keeps P x)
    (hf : ∀ a, Keeps P (f a)) : Keeps P (x >>= f) := by
  intro s h
  have hfirst := hx s h
  rw [carryOut_bind]
  rcases hs : carryOut x s with ⟨_ | a, t⟩
  · rw [hs] at hfirst
    exact hfirst
  · rw [hs] at hfirst
    exact hf a t hfirst

theorem Keeps.observe {x : Activity α} (hx : Keeps P x) : Keeps P (observe x) := fun s h ↦ by
  rw [carryOut_observe]
  exact hx s h

theorem Keeps.forM {f : α → Activity Unit} {as : List α} (hf : ∀ a ∈ as, Keeps P (f a)) :
    Keeps P (as.forM f) := by
  induction as with
  | nil => exact keeps_pure ()
  | cons a as ih =>
    rw [List.forM_eq_forM, List.forM_cons]
    exact (hf a List.mem_cons_self).bind fun _ ↦
      ih fun b hb ↦ hf b (List.mem_cons_of_mem a hb)

theorem keeps_openedPass : Keeps P openedPass := by
  refine keeps_get.bind fun s ↦ ?_
  cases s.pass with
  | some p => exact keeps_pure p
  | none => exact keeps_get.bind fun _ ↦ keeps_pure _

end Keeps

/-! ## Running recomputes -/

/-- Two sessions that differ in nothing but what passes and the changes inside them touch. -/
structure SameFrame (s t : Session) : Prop where
  status : t.character.status = s.character.status
  base : t.character.base = s.character.base
  modules : t.character.modules = s.character.modules
  baseline : t.character.baseline = s.character.baseline
  buildDiagnostics : t.character.buildDiagnostics = s.character.buildDiagnostics
  /-- Turns may have been counted. -/
  actions : t.schedule.map Interruption.actions = s.schedule.map Interruption.actions

/-- What is true of running recomputes only, and does not depend on what passes touch. -/
structure Lasting (P : Session → Prop) : Prop where
  running : ∀ s, P s → s.character.status = .recomputing
  same : ∀ s t, SameFrame s t → P s → P t

theorem sameFrame_putState (s : Session) (p : Pass) (state : State) :
    SameFrame s (s.putState p state) := by
  unfold putState
  split
  · exact ⟨rfl, rfl, rfl, rfl, rfl, rfl⟩
  · exact ⟨rfl, rfl, rfl, rfl, rfl, rfl⟩

theorem SameFrame.exists_of_mem {s t : Session} (h : SameFrame s t) {i : Interruption}
    (hi : i ∈ t.schedule) : ∃ j ∈ s.schedule, j.actions = i.actions := by
  have hmem : i.actions ∈ t.schedule.map Interruption.actions := List.mem_map_of_mem hi
  rw [h.actions] at hmem
  exact List.mem_map.1 hmem

section Lasting

variable {P : Session → Prop} (hP : Lasting P) {interrupt : Interrupt}

include hP

theorem keeps_takeQueued : Keeps P takeQueued :=
  fun s h ↦ hP.same s s.dequeued ⟨rfl, rfl, rfl, rfl, rfl, rfl⟩ h

theorem keeps_restore (p : Pass) : Keeps P (restore p) := by
  intro s h
  unfold restore
  split
  · exact keeps_throw _ s h
  · rw [carryOut_bind_ok (carryOut_getCharacter s)]
    cases s.character.baseline with
    | none => exact keeps_throw _ s h
    | some baseline => exact hP.same s _ (sameFrame_putState s p _) h

theorem keeps_runStage (p : Pass) (stage : Stage) : Keeps P (runStage p stage) := by
  intro s h
  unfold runStage
  split
  · exact keeps_throw _ s h
  · rw [carryOut_bind_ok (carryOut_get s)]
    dsimp only
    rw [carryOut_bind_ok (carryOut_set ..)]
    have hput := sameFrame_putState s p
      (stage.run s.settings s.character.loadout (s.stateOf p)).state
    have hfollowed : P (((s.putState p
        (stage.run s.settings s.character.loadout (s.stateOf p)).state).record
          (stage.run s.settings s.character.loadout (s.stateOf p)).events).collect
            (stage.run s.settings s.character.loadout (s.stateOf p)).diagnostics) :=
      hP.same s _
        ⟨hput.status, hput.base, hput.modules, hput.baseline, hput.buildDiagnostics, hput.actions⟩ h
    split
    · exact keeps_throw _ _ hfollowed
    · exact keeps_pure _ _ hfollowed

theorem keeps_runPass (hinterrupt : ∀ stage, Keeps P (interrupt stage)) :
    Keeps P (runPass interrupt) := by
  have hcleared : Keeps P (modifyCharacter fun c ↦ { c with diagnostics := [] }) :=
    fun s h ↦ hP.same s _ ⟨rfl, rfl, rfl, rfl, rfl, rfl⟩ h
  have hnew : Keeps P newPass := keeps_get.bind fun _ ↦ keeps_pure _
  exact hnew.bind fun p ↦ hcleared.bind fun _ ↦ (keeps_restore hP p).bind fun p ↦
    .forM fun stage _ ↦ (keeps_runStage hP p stage).bind fun _ ↦ hinterrupt stage

theorem keeps_runPasses (hinterrupt : ∀ stage, Keeps P (interrupt stage)) (fuel count : Nat) :
    Keeps P (runPasses interrupt fuel count) := by
  induction fuel generalizing count with
  | zero => exact keeps_pure count
  | succ fuel ih =>
    refine (keeps_runPass hP hinterrupt).bind fun _ ↦ (keeps_takeQueued hP).bind fun queued ↦ ?_
    cases queued with
    | true => exact ih (count + 1)
    | false => exact keeps_pure (count + 1)

/-! ## Commands inside passes -/

theorem keeps_makeChange (interrupt : Interrupt) (change : Change) :
    Keeps P (makeChange interrupt change) := by
  intro s h
  rw [carryOut_makeChange (hP.running s h)]
  cases happly : change.apply s.character with
  | error e => exact h
  | ok c =>
    refine hP.same s _ ?_ h
    rw [Change.eq_of_apply_eq_ok happly]
    exact ⟨rfl, rfl, rfl, rfl, rfl, rfl⟩

/-- Whatever is carried out inside a pass, only what edits by hand do has to be looked at. -/
theorem keeps_perform (hinterrupt : ∀ stage, Keeps P (interrupt stage)) {command : Command}
    (hhand : command.ByHand → Keeps P (perform interrupt command)) :
    Keeps P (perform interrupt command) := by
  have hpass (p : Pass) : Keeps P (modify fun s ↦ { s with pass := some p }) :=
    keeps_modify fun s h ↦ hP.same s _ ⟨rfl, rfl, rfl, rfl, rfl, rfl⟩ h
  cases command with
  | rebuild =>
    refine Keeps.bind (fun s h ↦ ?_) fun _ ↦ keeps_pure _
    rw [carryOut_rebuild_of_running (hP.running s h)]
    exact h
  | recompute =>
    refine Keeps.bind (fun s h ↦ ?_) fun _ ↦ keeps_pure _
    rw [carryOut_recompute_of_running (hP.running s h)]
    exact h
  | runPass => exact (keeps_runPass hP hinterrupt).bind fun _ ↦ keeps_pure _
  | change change => exact keeps_makeChange hP interrupt change
  | addModule m => exact hhand trivial
  | select module option on => exact hhand trivial
  | amend layer edit => exact hhand trivial
  | buildState =>
    intro s h
    rw [carryOut_buildState]
    exact hP.same s _ ⟨rfl, rfl, rfl, rfl, rfl, rfl⟩ h
  | takeQueued => exact (keeps_takeQueued hP).bind fun _ ↦ keeps_pure _
  | openPass =>
    have hnew : Keeps P newPass := keeps_get.bind fun _ ↦ keeps_pure _
    exact hnew.bind fun p ↦ (hpass p).bind fun _ ↦ keeps_pure _
  | restorePass =>
    exact keeps_openedPass.bind fun p ↦ (keeps_restore hP p).bind fun p ↦
      (hpass p).bind fun _ ↦ keeps_pure _
  | runStage stage =>
    exact keeps_openedPass.bind fun p ↦ (keeps_runStage hP p stage).bind fun _ ↦ keeps_pure _
  | look => exact fun _ h ↦ h
  | lookPass => exact keeps_openedPass.bind fun _ ↦ keeps_pure _
  | refuse why => exact keeps_throw why

theorem keeps_act {a : Action} (hperform : Keeps P (perform interrupt a.command)) :
    Keeps P (act interrupt a) := by
  have hreplied (outcome : Except Failure Reply) : Keeps P
      (modify fun s ↦ { s with replies := s.replies ++ [(a.label, outcome)] }) :=
    keeps_modify fun s h ↦ hP.same s _ ⟨rfl, rfl, rfl, rfl, rfl, rfl⟩ h
  refine hperform.observe.bind fun outcome ↦ (hreplied outcome).bind fun _ ↦ ?_
  cases outcome with
  | ok reply => exact keeps_pure ()
  | error e =>
    dsimp only
    split
    · exact keeps_pure ()
    · exact keeps_throw e

variable {allowed : Action → Prop}
  (hallowed : ∀ s, P s → ∀ h ∈ s.schedule, ∀ a ∈ h.actions, allowed a)

include hallowed

/-- The turn of an interruption brings up actions of the schedule. -/
theorem lasts_takeTurn (stage : Stage) (i : Nat) {s : Session} (h : P s) :
    P (carryOut (takeTurn stage i) s).2 ∧
      ∀ as, (carryOut (takeTurn stage i) s).1 = .ok as → ∀ a ∈ as, allowed a := by
  rw [takeTurn, carryOut_bind_ok (carryOut_get s)]
  cases hi : s.schedule[i]? with
  | none => exact ⟨h, fun as has a ha ↦ by cases has; cases ha⟩
  | some j =>
    have hmem : j ∈ s.schedule := List.mem_of_getElem? hi
    dsimp only
    split
    · exact ⟨h, fun as has a ha ↦ by cases has; cases ha⟩
    · rw [carryOut_bind_ok (carryOut_modify ..), carryOut_pure]
      refine ⟨hP.same s _ ⟨rfl, rfl, rfl, rfl, rfl, ?_⟩ h, fun as has a ha ↦ ?_⟩
      · -- The interruption has the same actions as before its turn was counted.
        refine List.ext_getElem? fun n ↦ ?_
        by_cases hn : i = n
        · subst hn
          obtain ⟨hlt, rfl⟩ := List.getElem?_eq_some_iff.1 hi
          simp [hlt]
        · simp [hn]
      · obtain rfl := Except.ok.inj has
        split at ha
        · exact hallowed s h j hmem a ha
        · cases ha

theorem keeps_interruptions
    (hhand : ∀ (interrupt : Interrupt) (a : Action), allowed a → a.command.ByHand →
      Keeps P (perform interrupt a.command))
    (nesting : Nat) (stage : Stage) : Keeps P (interruptions nesting stage) := by
  induction nesting generalizing stage with
  | zero => exact keeps_pure ()
  | succ nesting ih =>
    refine keeps_get.bind fun _ ↦ .forM fun i _ s h ↦ ?_
    obtain ⟨hturn, hactions⟩ := lasts_takeTurn hP hallowed stage i h
    rw [carryOut_bind]
    rcases hs : carryOut (takeTurn stage i) s with ⟨_ | as, t⟩
    · rw [hs] at hturn
      exact hturn
    · rw [hs] at hturn hactions
      refine Keeps.forM (fun a ha ↦ keeps_act hP ?_) t hturn
      exact keeps_perform hP ih (hhand _ a (hactions as rfl a ha))

end Lasting

/-! ## Layers under a running recompute -/

/-- A recompute is running with some actions on its schedule, and something is true of the base and
the baseline.  The nesting of its interruptions is enough for the schedule. -/
structure Underway (depth : Nat) (layers : State → Option State → Prop) (allowed : Action → Prop)
    (s : Session) : Prop where
  running : s.character.status = .recomputing
  shallow : s.schedule.length ≤ depth
  holds : layers s.character.base s.character.baseline
  allowed : ∀ h ∈ s.schedule, ∀ a ∈ h.actions, allowed a

variable {depth : Nat} {layers : State → Option State → Prop} {allowed : Action → Prop}
  {s t : Session}

theorem lasting_underway : Lasting (Underway depth layers allowed) where
  running _ h := h.running
  same s t hsame h := by
    refine ⟨hsame.status.trans h.running, ?_, ?_, fun i hi a ha ↦ ?_⟩
    · have hlength := congrArg List.length hsame.actions
      rw [List.length_map, List.length_map] at hlength
      exact hlength ▸ h.shallow
    · rw [hsame.base, hsame.baseline]
      exact h.holds
    · obtain ⟨j, hj, hactions⟩ := hsame.exists_of_mem hi
      exact h.allowed j hj a (hactions ▸ ha)

theorem keeps_amend {layer : Layer} {edit : State → Except Failure State}
    (hrespects : (Command.amend layer edit).Respects layers) (interrupt : Interrupt) :
    Keeps (Underway depth layers allowed) (perform interrupt (.amend layer edit)) := by
  intro s h
  have hamended : ∀ c, amend layer edit s.character = .ok c →
      Underway depth layers allowed { s with character := c } := by
    intro c hc
    cases layer with
    | base =>
      obtain ⟨t, ht, rfl⟩ := exists_of_map_eq_ok hc
      exact ⟨h.running, h.shallow, hrespects _ _ t h.holds ht, h.allowed⟩
    | state =>
      obtain ⟨t, -, rfl⟩ := exists_of_map_eq_ok hc
      exact ⟨h.running, h.shallow, h.holds, h.allowed⟩
    | baseline =>
      have hlayers := h.holds
      cases hb : s.character.baseline with
      | none =>
        simp only [amend, hb] at hc
        cases hc
      | some baseline =>
        rw [hb] at hlayers
        simp only [amend, hb] at hc
        obtain ⟨t, ht, rfl⟩ := exists_of_map_eq_ok hc
        exact ⟨h.running, h.shallow, hrespects _ _ t hlayers ht, h.allowed⟩
  rw [carryOut_amend]
  cases hc : amend layer edit s.character with
  | error e => exact h
  | ok c => exact hamended c hc

/-- Whatever is carried out inside a pass, the recompute goes on running, and what is true of the
base and the baseline stays true. -/
theorem keeps_underway (hrespects : ∀ a, allowed a → a.command.Respects layers) (nesting : Nat)
    (stage : Stage) : Keeps (Underway depth layers allowed) (interruptions nesting stage) := by
  refine keeps_interruptions lasting_underway (fun _ h ↦ h.allowed) (fun interrupt a ha hhand ↦ ?_)
    nesting stage
  have hrespects := hrespects a ha
  cases hcommand : a.command with
  | addModule m => exact fun s h ↦ ⟨h.running, h.shallow, h.holds, h.allowed⟩
  | select module option on => exact fun s h ↦ ⟨h.running, h.shallow, h.holds, h.allowed⟩
  | amend layer edit =>
    rw [hcommand] at hrespects
    exact keeps_amend hrespects interrupt
  | _ =>
    rw [hcommand] at hhand
    exact absurd hhand id

end Session

end CharacterSheet
