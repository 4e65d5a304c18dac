import CharacterSheet.Proofs.Build.Carrying
import CharacterSheet.Proofs.Build.Order
import CharacterSheet.Proofs.Session.Rest

/-!
# Rebuilding what is built

As long as the base and the modules are those of the last build, another build comes to the same
baseline but for what it carries over.  No call changes that, whether it comes back or raises.  So a
rebuild after a recompute that came back leaves what the recompute left, and another rebuild changes
nothing any more.
-/

namespace CharacterSheet

namespace Session

open Interruption Progress State

/-- The baseline and the build diagnostics are what a build of the character came to, over the
working state of that time. -/
def AsBuilt (s : Session) : Prop :=
  ∃ working, (Build.run s.character.base working s.character.modules).failure = none ∧
    s.character.baseline =
      some (Build.run s.character.base working s.character.modules).state ∧
    s.character.buildDiagnostics =
      (Build.run s.character.base working s.character.modules).diagnostics

/-- There is no baseline yet, or it is as built. -/
def Sourced (s : Session) : Prop := s.character.baseline = none ∨ s.AsBuilt

variable {s t : Session}

theorem SameFrame.asBuilt (h : SameFrame s t) (hs : s.AsBuilt) : t.AsBuilt := by
  rw [AsBuilt, h.base, h.modules, h.baseline, h.buildDiagnostics]
  exact hs

theorem sameFrame_of_apply {change : Change} {c : Character}
    (h : change.apply s.character = .ok c) : SameFrame s { s with character := c } := by
  rw [Change.eq_of_apply_eq_ok h]
  exact ⟨rfl, rfl, rfl, rfl, rfl, rfl⟩

theorem AsBuilt.failure_build (h : s.AsBuilt) : s.build.failure = none := by
  obtain ⟨working, hcompleted, -⟩ := h
  rw [build, Build.failure_run]
  rwa [Build.failure_run] at hcompleted

theorem AsBuilt.diagnostics_build (h : s.AsBuilt) :
    s.build.diagnostics = s.character.buildDiagnostics := by
  obtain ⟨working, -, -, hdiagnostics⟩ := h
  rw [hdiagnostics, build, Build.diagnostics_run, Build.diagnostics_run]

theorem asBuilt_rebuilt (h : s.build.failure = none) : (s.rebuilt s.build).AsBuilt :=
  ⟨s.character.state, h, rfl, rfl⟩

/-! ## Calls keep what is built -/

/-- A recompute over what is built, with tame actions on its schedule. -/
structure Recomputing (s : Session) : Prop where
  running : s.character.status = .recomputing
  built : s.AsBuilt
  tame : ∀ i ∈ s.schedule, ∀ a ∈ i.actions, a.Tame

theorem lasting_recomputing : Lasting Recomputing where
  running _ h := h.running
  same s t hsame h := by
    refine ⟨hsame.status.trans h.running, hsame.asBuilt h.built, fun i hi a ha ↦ ?_⟩
    obtain ⟨j, hj, hactions⟩ := hsame.exists_of_mem hi
    exact h.tame j hj a (hactions ▸ ha)

theorem not_byHand_of_tame {a : Action} (h : a.Tame) : ¬ a.command.ByHand := by
  rw [Action.Tame] at h
  intro hhand
  cases hcommand : a.command with
  | addModule m => rw [hcommand] at h; exact h
  | select module option on => rw [hcommand] at h; exact h
  | amend layer edit => rw [hcommand] at h; exact h
  | _ => rw [hcommand] at hhand; exact hhand

theorem keeps_recomputing (depth : Nat) (stage : Stage) :
    Keeps Recomputing (interruptions depth stage) :=
  keeps_interruptions lasting_recomputing (fun _ h ↦ h.tame)
    (fun _ _ ha hhand ↦ absurd hhand (not_byHand_of_tame ha)) depth stage

theorem asBuilt_recomputeBuilt {depth : Nat} (hs : s.AsBuilt)
    (htame : ∀ i ∈ s.schedule, ∀ a ∈ i.actions, a.Tame) :
    (carryOut (recomputeBuilt (interruptions depth)) s).2.AsBuilt := by
  have hbegun : Recomputing s.begun := ⟨rfl, hs, htame⟩
  have hpasses := keeps_runPasses lasting_recomputing (keeps_recomputing depth)
    (s.schedule.length + 2) 0 s.begun hbegun
  rw [carryOut_recomputeBuilt]
  rcases hu : carryOut (runPasses (interruptions depth) (s.schedule.length + 2) 0) s.begun
    with ⟨e | passes, u⟩
  · rw [hu] at hpasses
    exact hpasses.built
  · rw [hu] at hpasses
    exact hpasses.built

theorem snd_carryOut_reply {α : Type} (x : Activity Unit) (a : α) (s : Session) :
    (carryOut (do x; return a) s).2 = (carryOut x s).2 := by
  rw [carryOut_bind]
  rcases carryOut x s with ⟨e | ⟨⟩, t⟩ <;> rfl

section Sourced

variable {depth : Nat} (hidle : s.character.status = .idle)
  (htame : ∀ i ∈ s.schedule, ∀ a ∈ i.actions, a.Tame)

include hidle htame

theorem sourced_rebuild (hs : s.Sourced) :
    (carryOut (rebuild (interruptions depth)) s).2.Sourced := by
  rw [carryOut_rebuild _ (ne_recomputing_of_idle hidle)]
  cases hfailure : s.build.failure with
  | some e =>
    rcases hs with hnone | hbuilt
    · exact .inl hnone
    · cases hfailure.symm.trans hbuilt.failure_build
  | none => exact .inr (asBuilt_recomputeBuilt (asBuilt_rebuilt hfailure) htame)

theorem sourced_recompute (hs : s.Sourced) :
    (carryOut (recompute (interruptions depth)) s).2.Sourced := by
  rw [carryOut_recompute _ (ne_recomputing_of_idle hidle)]
  cases hb : s.character.baseline with
  | none => exact sourced_rebuild hidle htame hs
  | some baseline =>
    rcases hs with hnone | hbuilt
    · cases hb.symm.trans hnone
    · exact .inr (asBuilt_recomputeBuilt hbuilt htame)

theorem sourced_makeChange (hs : s.Sourced) (change : Change) :
    (carryOut (makeChange (interruptions depth) change) s).2.Sourced := by
  rw [carryOut_makeChange_of_idle _ (ne_recomputing_of_idle hidle)]
  cases happly : change.apply s.character with
  | error e => exact hs
  | ok c =>
    have hframe : SameFrame s { s with character := c } := sameFrame_of_apply happly
    have hchanged : Sourced { s with character := c } :=
      hs.imp hframe.baseline.trans hframe.asBuilt
    dsimp only
    rw [snd_carryOut_reply]
    exact sourced_recompute (s := { s with character := c }) (hframe.status.trans hidle) htame
      hchanged

end Sourced

theorem sourced_of_execute {call : Call} {outcome : Except Failure Reply} (hcall : call.Tame)
    (hidle : s.character.status = .idle) (hs : s.Sourced)
    (h : execute call.schedule call.command s = (outcome, t)) : t.Sourced := by
  obtain ⟨schedule, command⟩ := call
  obtain ⟨hcommand, htame⟩ := hcall
  have hstart : (s.scheduled schedule).Sourced := hs
  have hidle : (s.scheduled schedule).character.status = .idle := hidle
  have ht : t = (execute schedule command s).2 := by rw [h]
  rw [ht, execute_eq]
  cases command with
  | rebuild =>
    rw [perform, snd_carryOut_reply]
    exact sourced_rebuild hidle htame hstart
  | recompute =>
    rw [perform, snd_carryOut_reply]
    exact sourced_recompute hidle htame hstart
  | change change => exact sourced_makeChange hidle htame hstart change
  | _ => exact absurd hcommand id

/-! ## Calls that come back -/

theorem asBuilt_of_starting {command : Command} {v : Session}
    (hs : s.Sourced ∨ command = .rebuild) (hv : s.starting? command = some v) : v.AsBuilt := by
  have hbuilt {r : Session} (hr : r.built? = some v) : v.AsBuilt := by
    unfold built? at hr
    cases hfailure : r.build.failure with
    | some e =>
      rw [hfailure] at hr
      cases hr
    | none =>
      rw [hfailure] at hr
      exact Option.some.inj hr ▸ asBuilt_rebuilt hfailure
  have hready {r : Session} (hr : r.Sourced) (hrv : r.ready? = some v) : v.AsBuilt := by
    unfold ready? at hrv
    cases hb : r.character.baseline with
    | none =>
      rw [hb] at hrv
      exact hbuilt hrv
    | some baseline =>
      rw [hb] at hrv
      rcases hr with hnone | hr
      · cases hb.symm.trans hnone
      · exact Option.some.inj hrv ▸ hr
  cases command with
  | rebuild => exact hbuilt hv
  | recompute => exact hready (hs.resolve_right (by simp)) hv
  | change change =>
    have hs := hs.resolve_right (by simp)
    unfold starting? at hv
    dsimp only at hv
    cases happly : change.apply s.character with
    | error e =>
      rw [happly] at hv
      cases hv
    | ok c =>
      rw [happly] at hv
      have hframe : SameFrame s { s with character := c } := sameFrame_of_apply happly
      exact hready (hs.imp hframe.baseline.trans hframe.asBuilt) hv
  | _ => cases hv

theorem exists_recomputeBuilt {call : Call} {reply : Reply} (hcall : call.Tame)
    (hidle : s.character.status = .idle) (hs : s.Sourced ∨ call.command = .rebuild)
    (h : execute call.schedule call.command s = (.ok reply, t)) :
    ∃ v, v.AsBuilt ∧ v.schedule = call.schedule ∧
      carryOut (recomputeBuilt (interruptions call.schedule.length)) v = (.ok (), t) := by
  obtain ⟨v, hv, hschedule, -, hrun⟩ := exists_starting_of_execute hcall hidle h
  have hs : (s.scheduled call.schedule).Sourced ∨ call.command = .rebuild := hs
  exact ⟨v, asBuilt_of_starting hs hv, hschedule, hrun⟩

theorem asBuilt_of_execute {call : Call} {reply : Reply} (hcall : call.Tame)
    (hidle : s.character.status = .idle) (hs : s.Sourced ∨ call.command = .rebuild)
    (h : execute call.schedule call.command s = (.ok reply, t)) : t.AsBuilt := by
  obtain ⟨v, hv, hschedule, hrun⟩ := exists_recomputeBuilt hcall hidle hs h
  have hlast : (carryOut (recomputeBuilt (interruptions call.schedule.length)) v).2.AsBuilt :=
    asBuilt_recomputeBuilt hv (hschedule ▸ hcall.2)
  rwa [hrun] at hlast

theorem sourced_of_called {calls : List (Call × Except Failure Reply)}
    (htame : ∀ c ∈ calls, c.1.Tame) (hidle : s.character.status = .idle)
    (hs : s.Sourced ∨ ∃ c ∈ calls, c.1.command = .rebuild ∧ c.2.isOk) (h : Called calls s t) :
    t.character.status = .idle ∧ t.Sourced := by
  induction h with
  | nil s => exact ⟨hidle, hs.resolve_right (by simp)⟩
  | @cons call outcome s t u calls hcall _ ih =>
    obtain ⟨hfirst, hrest⟩ := List.forall_mem_cons.1 htame
    have hleft := left_of_execute hfirst hidle hcall
    refine ih hrest hleft.idle ?_
    rcases hs with hs | ⟨c, hc, hrebuild, hok⟩
    · exact .inl (sourced_of_execute hfirst hidle hs hcall)
    · rcases List.mem_cons.1 hc with rfl | hc
      · obtain ⟨reply, rfl⟩ : ∃ reply, outcome = .ok reply := by
          cases outcome with
          | error e => cases hok
          | ok reply => exact ⟨reply, rfl⟩
        exact .inl (.inr (asBuilt_of_execute hfirst hidle (.inr hrebuild) hcall))
      · exact .inr ⟨c, hc, hrebuild, hok⟩

/-- What a call that comes back leaves. -/
structure Recomputed (t : Session) (baseline : State) : Prop where
  idle : t.character.status = .idle
  unqueued : t.character.queued = false
  built : t.AsBuilt
  baseline_eq : t.character.baseline = some baseline
  settled : Settled baseline t

theorem exists_recomputed {call : Call} {reply : Reply} (hcall : call.Tame)
    (hreentrant : ∀ i ∈ call.schedule, ∀ a ∈ i.actions, a.Reentrant)
    (hidle : s.character.status = .idle) (hs : s.Sourced ∨ call.command = .rebuild)
    (h : execute call.schedule call.command s = (.ok reply, t)) :
    ∃ baseline, t.Recomputed baseline := by
  have hbuilt := asBuilt_of_execute hcall hidle hs h
  obtain ⟨baseline, hrest⟩ := exists_atRest hcall hreentrant hidle h
  exact ⟨baseline, hrest.idle, hrest.unqueued, hbuilt, hrest.baseline_eq, hrest.settled⟩

/-! ## Rebuilding -/

theorem Recomputed.exists_current {baseline : State} (h : t.Recomputed baseline) {name : String}
    (hname : t.character.base.resources.contains name) :
    ∃ n, t.character.state.current? name = some (some n) := by
  obtain ⟨working, -, hb, -⟩ := h.built
  obtain rfl := Option.some.inj (h.baseline_eq.symm.trans hb)
  rw [← h.settled.state]
  exact Overlay.exists_current?_run h.settled.completed ((Build.contains_run ..).trans hname)

/-- A rebuild after a recompute leaves everything but the baseline, which is built anew. -/
theorem Recomputed.exists_rebuild {baseline : State} (h : t.Recomputed baseline) :
    ∃ u, execute [] .rebuild t = (.ok .done, u) ∧ u.settings = t.settings ∧
      u.character = { t.character with baseline := some t.build.state } := by
  let r : Session := t.scheduled []
  let v : Session := r.rebuilt t.build
  obtain ⟨working, -, hb, -⟩ := h.built
  have hbaseline := Option.some.inj (h.baseline_eq.symm.trans hb)
  have hagree : Agree (v.passOver t.build.state) (t.passOver baseline) := by
    rw [hbaseline]
    exact Overlay.agree_run_rebuilt t.settings t.character.loadout fun name ↦ h.exists_current
  have hcompleted := hagree.failure.trans h.settled.completed
  have hstate := (hagree.state hcompleted).trans h.settled.state
  have hdiagnostics := hagree.diagnostics.trans h.settled.diagnostics
  obtain ⟨u, hu, hsettings, hcharacter⟩ :=
    exists_carryOut_recomputeBuilt_quiet (s := v) rfl h.unqueued
  rw [outcome_of_completed hcompleted] at hu
  have hrebuild : carryOut (rebuild quiet) r = (.ok (), u) := by
    have hidle : r.character.status ≠ .recomputing := ne_recomputing_of_idle h.idle
    have hcompleted : r.build.failure = none := h.built.failure_build
    rw [carryOut_rebuild quiet hidle, hcompleted]
    exact hu
  refine ⟨u, ?_, hsettings, ?_⟩
  · rw [execute_eq, List.length_nil, interruptions_zero]
    exact carryOut_bind_ok hrebuild _
  · rw [hcharacter, hstate, hdiagnostics]
    show { t.character with
      buildDiagnostics := t.build.diagnostics
      baseline := some t.build.state
      status := .idle
      queued := false } = _
    rw [h.built.diagnostics_build, ← h.idle, ← h.unqueued]

/-- A rebuild leaves a character that was recomputed, over the new baseline. -/
theorem Recomputed.rebuilt {baseline : State} {u : Session} (h : t.Recomputed baseline)
    (hsettings : u.settings = t.settings)
    (hu : u.character = { t.character with baseline := some t.build.state }) :
    u.Recomputed t.build.state := by
  obtain ⟨working, -, hb, -⟩ := h.built
  obtain rfl := Option.some.inj (h.baseline_eq.symm.trans hb)
  have hcontains (name : String) (hname : t.character.base.resources.contains name) :
      t.character.state.resources.contains name := by
    obtain ⟨n, hn⟩ := h.exists_current hname
    obtain ⟨pool, hpool, -⟩ := Option.map_eq_some_iff.1 hn
    rw [Table.contains, hpool]
    rfl
  have hrestored := Build.restore_run t.character.base working t.character.modules hcontains
    t.character.state
  have hpass : u.passOver t.build.state =
      t.passOver (Build.run t.character.base working t.character.modules).state := by
    rw [passOver, passOver, hsettings, hu, Overlay.run, Overlay.run]
    exact congrArg _ hrestored
  have hsettled : Settled t.build.state u := by
    constructor
    · rw [hpass]
      exact h.settled.completed
    · rw [hpass, hu]
      exact h.settled.state
    · rw [hpass, hu]
      exact h.settled.diagnostics
  refine ⟨?_, ?_, ⟨t.character.state, ?_⟩, ?_, hsettled⟩
  · rw [hu]
    exact h.idle
  · rw [hu]
    exact h.unqueued
  · rw [hu]
    exact ⟨h.built.failure_build, rfl, h.built.diagnostics_build.symm⟩
  · rw [hu]

/-- After calls of which the last came back, over the base and the modules of the last build, a
rebuild and a recompute come back and leave the same working state and the same diagnostics, those
that were there.  The rebuild reports the same about the modules, and its baseline differs from the
old one in nothing but current values and modifiers.  Another rebuild leaves the same character. -/
theorem rebuild_agrees {calls : List (Call × Except Failure Reply)} {call : Call} {reply : Reply}
    {r s t : Session} (hidle : r.character.status = .idle)
    (htame : ∀ c ∈ calls, c.1.Tame) (hcalled : Called calls r s)
    (hbuilt : r.Sourced ∨ (∃ c ∈ calls, c.1.command = .rebuild ∧ c.2.isOk) ∨
      call.command = .rebuild)
    (hcall : call.Tame) (hreentrant : ∀ i ∈ call.schedule, ∀ a ∈ i.actions, a.Reentrant)
    (hlast : execute call.schedule call.command s = (.ok reply, t)) :
    ∃ u v w old new,
      execute [] .rebuild t = (.ok .done, u) ∧ execute [] .recompute t = (.ok .done, v) ∧
        v.character = t.character ∧
        u.character.state = v.character.state ∧
        u.character.diagnostics = v.character.diagnostics ∧
        u.character.buildDiagnostics = t.character.buildDiagnostics ∧
        t.character.baseline = some old ∧ u.character.baseline = some new ∧
        SameButCarried old new ∧ u.character = { t.character with baseline := some new } ∧
        execute [] .rebuild u = (.ok .done, w) ∧ w.character = u.character := by
  have hs : s.Sourced ∨ call.command = .rebuild := by
    rcases hbuilt with hr | hcalls | hcommand
    · exact .inl (sourced_of_called htame hidle (.inl hr) hcalled).2
    · exact .inl (sourced_of_called htame hidle (.inr hcalls) hcalled).2
    · exact .inr hcommand
  obtain ⟨old, ht⟩ :=
    exists_recomputed hcall hreentrant (left_of_called htame hidle hcalled).1 hs hlast
  obtain ⟨u, hu, hsettings, hcharacter⟩ := ht.exists_rebuild
  obtain ⟨v, hv, -, hsame⟩ :=
    exists_execute_recompute_of_settled ht.idle ht.unqueued ht.baseline_eq ht.settled
  obtain ⟨w, hw, -, hagain⟩ := (ht.rebuilt hsettings hcharacter).exists_rebuild
  obtain ⟨working, -, hb, -⟩ := ht.built
  obtain rfl := Option.some.inj (ht.baseline_eq.symm.trans hb)
  have hbuild : u.build = t.build := by rw [build, build, hcharacter]
  refine ⟨u, v, w, _, t.build.state, hu, hv, hsame, ?_, ?_, ?_, hb, ?_,
    Build.sameButCarried_run .., hcharacter, hw, ?_⟩
  · rw [hcharacter, hsame]
  · rw [hcharacter, hsame]
  · rw [hcharacter]
  · rw [hcharacter]
  · rw [hagain, hbuild, hcharacter]

/-- The neglected character with modules, before it is built. -/
def apprentice : Session :=
  { neglected with
    character := { neglected.character with modules := Build.lineage, baseline := none } }

theorem rebuild_agrees_apprentice : ∃ s t u v reply reply',
    execute [] .rebuild apprentice = (.ok reply, s) ∧
      execute bustle (.change (.addCondition "winded")) s = (.ok reply', t) ∧
      execute [] .rebuild t = (.ok .done, u) ∧ execute [] .recompute t = (.ok .done, v) ∧
      u.character.state = v.character.state ∧
      u.character.diagnostics = v.character.diagnostics ∧
      u.character.buildDiagnostics = t.character.buildDiagnostics := by
  have hbuilt : (execute [] .rebuild apprentice).1.isOk = true := by decide +kernel
  have hchanged : (execute bustle (.change (.addCondition "winded"))
      (execute [] .rebuild apprentice).2).1.isOk = true := by decide +kernel
  obtain ⟨reply, s, hs⟩ := exists_execute_eq_ok hbuilt
  rw [hs] at hchanged
  obtain ⟨reply', t, ht⟩ := exists_execute_eq_ok hchanged
  let first : Call := { command := .rebuild }
  let last : Call := { schedule := bustle, command := .change (.addCondition "winded") }
  have hcalled : Called [(first, .ok reply)] apprentice s := .cons hs (.nil s)
  have htame : ∀ c ∈ ([(first, .ok reply)] : List (Call × Except Failure Reply)), c.1.Tame := by
    simp [first, Call.Tame]
  have hlast : last.Tame := by simp [last, Call.Tame, bustle, Action.Tame]
  have hreentrant : ∀ i ∈ last.schedule, ∀ a ∈ i.actions, a.Reentrant := by
    simp [last, bustle, Action.Reentrant]
  obtain ⟨u, v, w, old, new, hu, hv, -, hstate, hdiagnostics, hreported, -⟩ :=
    rebuild_agrees rfl htame hcalled (.inl (.inl rfl)) hlast hreentrant ht
  exact ⟨s, t, u, v, reply, reply', hs, ht, hu, hv, hstate, hdiagnostics, hreported⟩

end Session

end CharacterSheet
