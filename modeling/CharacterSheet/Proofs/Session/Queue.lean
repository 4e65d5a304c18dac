import CharacterSheet.Proofs.Session.FailedPass
import CharacterSheet.Proofs.Session.Rebuild

/-!
# What stays queued

A recompute that comes back leaves nothing queued.  One that raises makes the character idle again,
but a change that was made in the pass that raised stays queued; it costs the next recompute one
more pass.
-/

namespace CharacterSheet

/-- A command from outside, and what is scheduled for its passes. -/
structure Call where
  schedule : List Interruption := []
  command : Command

namespace Call

/-- A call that makes a change, or asks for a recompute or a rebuild; what is scheduled for its
passes makes changes as well, asks for recomputes and rebuilds that are refused, or raises. -/
def Tame (call : Call) : Prop :=
  (match call.command with
    | .change _ | .recompute | .rebuild => True
    | _ => False) ∧ ∀ i ∈ call.schedule, ∀ a ∈ i.actions, a.Tame

end Call

namespace Session

open Interruption

/-! ## From a call to its passes -/

section Starts

variable {α : Type} {interrupt : Interrupt} {s : Session}

/-- An activity comes to a recompute of a character that has been built, or raises before. -/
def Starts (interrupt : Interrupt) (x : Activity α) (s : Session) : Option Session → Prop
  | none => ∃ e t, carryOut x s = (.error e, t) ∧ t.character.status = .idle ∧
    t.character.queued = s.character.queued
  | some v => v.character.status = .idle ∧ v.character.queued = s.character.queued ∧
    v.schedule = s.schedule ∧ v.character.baseline.isSome ∧ ∃ a, carryOut x s =
      ((carryOut (recomputeBuilt interrupt) v).1.map fun _ ↦ a,
        (carryOut (recomputeBuilt interrupt) v).2)

theorem Starts.congr {x y : Activity α} {t : Session} {v? : Option Session}
    (h : Starts interrupt y t v?) (heq : carryOut x s = carryOut y t)
    (hqueued : t.character.queued = s.character.queued) (hschedule : t.schedule = s.schedule) :
    Starts interrupt x s v? := by
  cases v? with
  | none => rwa [Starts, heq, ← hqueued]
  | some v => rwa [Starts, heq, ← hqueued, ← hschedule]

theorem Starts.reply {x : Activity Unit} {v? : Option Session} (h : Starts interrupt x s v?)
    (a : α) : Starts interrupt (do x; return a) s v? := by
  cases v? with
  | none =>
    obtain ⟨e, t, ht, hidle, hqueued⟩ := h
    exact ⟨e, t, carryOut_bind_error ht _, hidle, hqueued⟩
  | some v =>
    obtain ⟨hidle, hqueued, hschedule, hbuilt, ⟨⟩, hx⟩ := h
    refine ⟨hidle, hqueued, hschedule, hbuilt, a, ?_⟩
    rw [carryOut_bind, hx]
    rcases carryOut (recomputeBuilt interrupt) v with ⟨_ | ⟨⟩, t⟩ <;> rfl

/-- The session in which a rebuild goes on with a recompute. -/
def built? (s : Session) : Option Session :=
  match s.build.failure with
  | some _ => none
  | none => some (s.rebuilt s.build)

/-- The session in which a recompute begins with its passes; it may have to build first. -/
def ready? (s : Session) : Option Session :=
  match s.character.baseline with
  | some _ => some s
  | none => s.built?

/-- The session in which a command comes to a recompute. -/
def starting? (s : Session) : Command → Option Session
  | .rebuild => s.built?
  | .recompute => s.ready?
  | .change change =>
    match change.apply s.character with
    | .error _ => none
    | .ok c => { s with character := c }.ready?
  | _ => none

theorem starts_recomputeBuilt (hidle : s.character.status = .idle)
    (hbuilt : s.character.baseline.isSome) :
    Starts interrupt (recomputeBuilt interrupt) s (some s) := by
  refine ⟨hidle, rfl, rfl, hbuilt, (), ?_⟩
  rcases carryOut (recomputeBuilt interrupt) s with ⟨_ | ⟨⟩, t⟩ <;> rfl

theorem starts_rebuild (hidle : s.character.status = .idle) :
    Starts interrupt (rebuild interrupt) s s.built? := by
  have hrebuild := carryOut_rebuild interrupt (ne_recomputing_of_idle hidle)
  unfold built?
  cases hfailure : s.build.failure with
  | some e =>
    rw [hfailure] at hrebuild
    exact ⟨e, _, hrebuild, hidle, rfl⟩
  | none =>
    rw [hfailure] at hrebuild
    have hbuilt : (s.rebuilt s.build).character.baseline.isSome := rfl
    exact (starts_recomputeBuilt (s := s.rebuilt s.build) hidle hbuilt).congr hrebuild rfl rfl

theorem starts_recompute (hidle : s.character.status = .idle) :
    Starts interrupt (recompute interrupt) s s.ready? := by
  have hrecompute := carryOut_recompute interrupt (ne_recomputing_of_idle hidle)
  unfold ready?
  cases hb : s.character.baseline with
  | none =>
    rw [hb] at hrecompute
    exact (starts_rebuild hidle).congr hrecompute rfl rfl
  | some baseline =>
    rw [hb] at hrecompute
    exact (starts_recomputeBuilt hidle (by rw [hb]; rfl)).congr hrecompute rfl rfl

theorem starts_makeChange (hidle : s.character.status = .idle) (change : Change) :
    Starts interrupt (makeChange interrupt change) s (s.starting? (.change change)) := by
  have hchange : carryOut (makeChange interrupt change) s = _ :=
    carryOut_makeChange_of_idle interrupt (ne_recomputing_of_idle hidle)
  unfold starting?
  dsimp only
  cases happly : change.apply s.character with
  | error e =>
    rw [happly] at hchange
    exact ⟨e, s, hchange, hidle, rfl⟩
  | ok c =>
    rw [happly] at hchange
    obtain ⟨hstatus, hqueued⟩ := Change.run_of_apply_eq_ok happly
    have hrecompute : Starts interrupt (recompute interrupt) { s with character := c } _ :=
      starts_recompute (hstatus.trans hidle)
    exact (hrecompute.reply (change.reply s.character)).congr hchange hqueued rfl

end Starts

/-- A call to an idle character comes to a recompute, or raises before. -/
theorem starts_call {call : Call} {s : Session} (hcall : call.Tame)
    (hidle : s.character.status = .idle) :
    Starts (interruptions call.schedule.length)
      (perform (interruptions call.schedule.length) call.command) (s.scheduled call.schedule)
      ((s.scheduled call.schedule).starting? call.command) := by
  obtain ⟨schedule, command⟩ := call
  have hidle : (s.scheduled schedule).character.status = .idle := hidle
  cases command with
  | rebuild => exact (starts_rebuild hidle).reply Reply.done
  | recompute => exact (starts_recompute hidle).reply Reply.done
  | change change => exact starts_makeChange hidle change
  | _ => exact absurd hcall.1 id

/-! ## What one call leaves -/

/-- A running recompute of a character that has been built, with tame actions on its schedule. -/
abbrev Tamely (depth : Nat) : Session → Prop :=
  Underway depth (fun _ baseline ↦ baseline.isSome) Action.Tame

theorem tamely_interruptions (depth : Nat) (stage : Stage) :
    Keeps (Tamely depth) (interruptions depth stage) :=
  keeps_underway (fun a _ ↦ a.command.respects_built) depth stage

/-- A pass that raises leaves what was queued before it and what was queued in it. -/
theorem queued_of_failed_pass {depth : Nat} {r u : Session} {baseline : State} {e : Failure}
    (hr : Tamely depth r) (hb : r.character.baseline = some baseline)
    (h : carryOut (runPass (interruptions depth)) r = (.error e, u)) :
    u.character.queued = (r.character.queued ||
      (carriedOut (interruptions depth) Stage.all (r.restored baseline)).any Action.mutates) := by
  have hrestored : Tamely depth (r.restored baseline) :=
    lasting_underway.same r _ ⟨rfl, rfl, rfl, rfl, rfl, rfl⟩ hr
  have hran := ran_stages (.inr hrestored.running) hrestored.shallow
    (hrestored.carriedOut Stage.all (tamely_interruptions depth))
  have hpass : (r.restored baseline).currentPass = r.currentPass := rfl
  rw [carryOut_runPass hb] at h
  rw [hpass, h] at hran
  exact hran.queued

/-- A pass of a call begins. -/
def BeginsPass (call : Call) (s r : Session) : Prop :=
  ∃ v, (s.scheduled call.schedule).starting? call.command = some v ∧
    PassBegins (interruptions call.schedule.length) v.begun r

/-- A call raises in one of its passes, after a change was made in this pass. -/
def Strands (call : Call) (s : Session) : Prop :=
  ∃ e t r u baseline, execute call.schedule call.command s = (.error e, t) ∧
    BeginsPass call s r ∧
    carryOut (runPass (interruptions call.schedule.length)) r = (.error e, u) ∧
    r.character.baseline = some baseline ∧
    (carriedOut (interruptions call.schedule.length) Stage.all (r.restored baseline)).any
      Action.mutates = true

/-- What a call to an idle character leaves. -/
structure Left (call : Call) (s : Session) (outcome : Except Failure Reply) (t : Session) :
    Prop where
  idle : t.character.status = .idle
  unqueued : outcome.isOk = true → t.character.queued = false
  queued : t.character.queued = true → s.character.queued = true ∨ Strands call s
  stranded : Strands call s → t.character.queued = true

/-- What is queued after a call that raises in a pass was queued before it or in that pass. -/
theorem left_of_failed_pass {call : Call} {s v u : Session} {e : Failure} {fuel : Nat}
    (hcall : execute call.schedule call.command s = (.error e, u.abandoned))
    (hv : (s.scheduled call.schedule).starting? call.command = some v)
    (hqueued : v.character.queued = s.character.queued)
    (hbegun : Tamely call.schedule.length v.begun)
    (hpasses : carryOut (runPasses (interruptions call.schedule.length) fuel 0) v.begun =
      (.error e, u)) : Left call s (.error e) u.abandoned := by
  obtain ⟨r, hbegins, hr⟩ := exists_failed_pass hpasses
  have hlast := hbegun.passBegins (tamely_interruptions _) hbegins
  obtain ⟨baseline, hb⟩ := Option.isSome_iff_exists.1 hlast.holds
  have hu := queued_of_failed_pass hlast hb hr
  refine ⟨rfl, ?_, fun hq ↦ ?_, ?_⟩
  · rintro ⟨⟩
  · have hq : u.character.queued = true := hq
    rw [hu, Bool.or_eq_true] at hq
    rcases hq with hq | hq
    · rcases hbegins.eq_or_unqueued with rfl | hnone
      · exact .inl (hqueued.symm.trans hq)
      · cases hnone.symm.trans hq
    · exact .inr ⟨e, _, r, u, baseline, hcall, ⟨v, hv, hbegins⟩, hr, hb, hq⟩
  · rintro ⟨e', t', r', u', baseline', -, ⟨v', hv', hbegins'⟩, hr', hb', hmutates⟩
    cases hv.symm.trans hv'
    obtain rfl := hbegins.eq_of_error hbegins' hr hr'
    obtain rfl := Option.some.inj (hb.symm.trans hb')
    rw [hmutates, Bool.or_true] at hu
    exact hu

theorem left_of_execute {call : Call} {s t : Session} {outcome : Except Failure Reply}
    (hcall : call.Tame) (hidle : s.character.status = .idle)
    (h : execute call.schedule call.command s = (outcome, t)) : Left call s outcome t := by
  have hstarts := starts_call hcall hidle
  have hexecute := h
  rw [execute_eq] at h
  cases hv : (s.scheduled call.schedule).starting? call.command with
  | none =>
    rw [hv] at hstarts
    obtain ⟨e, t', ht', hidle', hqueued⟩ := hstarts
    cases h.symm.trans ht'
    refine ⟨hidle', ?_, fun hq ↦ .inl (hqueued.symm.trans hq), ?_⟩
    · rintro ⟨⟩
    · rintro ⟨e, t, r, u, b, -, ⟨v, hv', -⟩, -⟩
      cases hv.symm.trans hv'
  | some v =>
    rw [hv] at hstarts
    obtain ⟨-, hqueued, hschedule, hbuilt, reply, hx⟩ := hstarts
    have hschedule : v.begun.schedule = call.schedule := hschedule
    have hbegun : Tamely call.schedule.length v.begun :=
      ⟨rfl, hschedule ▸ Nat.le_refl _, hbuilt, hschedule ▸ hcall.2⟩
    rw [h, carryOut_recomputeBuilt] at hx
    rcases hpasses : carryOut (runPasses (interruptions call.schedule.length)
      (v.schedule.length + 2) 0) v.begun with ⟨e | passes, u⟩
    · rw [hpasses] at hx
      cases hx
      exact left_of_failed_pass hexecute hv hqueued hbegun hpasses
    · rw [hpasses] at hx
      cases hx
      have hnone : u.character.queued = false := unqueued_of_runPasses hpasses
      refine ⟨rfl, fun _ ↦ hnone, fun hq ↦ ?_, ?_⟩
      · cases hnone.symm.trans hq
      · rintro ⟨e, t, r, w, baseline, hraises, -⟩
        cases hexecute.symm.trans hraises

/-! ## What many calls leave -/

/-- Calls one after the other, and what came of them. -/
inductive Called : List (Call × Except Failure Reply) → Session → Session → Prop
  | nil (s : Session) : Called [] s s
  | cons {call : Call} {outcome : Except Failure Reply} {s t u : Session}
    {calls : List (Call × Except Failure Reply)} :
    execute call.schedule call.command s = (outcome, t) → Called calls t u →
      Called ((call, outcome) :: calls) s u

/-- Since some call raised in a pass in which a change was made, no call has come back. -/
def StrandedSince (calls : List (Call × Except Failure Reply)) (s : Session) : Prop :=
  ∃ before call outcome after t, calls = before ++ (call, outcome) :: after ∧
    Called before s t ∧ Strands call t ∧ ∀ c ∈ (call, outcome) :: after, c.2.isOk = false

theorem left_of_called {calls : List (Call × Except Failure Reply)} {s t : Session}
    (htame : ∀ c ∈ calls, c.1.Tame) (hidle : s.character.status = .idle)
    (h : Called calls s t) : t.character.status = .idle ∧
      (t.character.queued = true → (s.character.queued = true ∧ ∀ c ∈ calls, c.2.isOk = false) ∨
        StrandedSince calls s) := by
  induction h with
  | nil s => exact ⟨hidle, fun hq ↦ .inl ⟨hq, by simp⟩⟩
  | @cons call outcome s t u calls hcall hcalls ih =>
    obtain ⟨hfirst, hrest⟩ := List.forall_mem_cons.1 htame
    have hleft := left_of_execute hfirst hidle hcall
    obtain ⟨hlast, hqueued⟩ := ih hrest hleft.idle
    refine ⟨hlast, fun hq ↦ ?_⟩
    rcases hqueued hq with ⟨hq, hraised⟩ | ⟨before, c, o, after, v, rfl, hbefore, hv⟩
    · have houtcome : outcome.isOk = false := by
        rw [← Bool.not_eq_true]
        intro hok
        cases (hleft.unqueued hok).symm.trans hq
      have hall : ∀ c ∈ (call, outcome) :: calls, c.2.isOk = false :=
        List.forall_mem_cons.2 ⟨houtcome, hraised⟩
      rcases hleft.queued hq with hq | hstrands
      · exact .inl ⟨hq, hall⟩
      · exact .inr ⟨[], call, outcome, calls, s, rfl, .nil s, hstrands, hall⟩
    · exact .inr ⟨(call, outcome) :: before, c, o, after, v, rfl, .cons hcall hbefore, hv⟩

/-! ## The next recompute -/

/-- When nothing is queued, a pass in which no change is made is the last one. -/
theorem last_of_undisturbed {depth fuel count passes : Nat} {s u : Session} {baseline : State}
    (hs : s.Interruptible depth) (hb : s.character.baseline = some baseline)
    (hqueued : s.character.queued = false) (hquiet : disturbs s.schedule 0 = false)
    (h : carryOut (runPasses (interruptions depth) (fuel + 1) count) s = (.ok passes, u)) :
    passes = count + 1 ∧ s.character.SameInputs u.character := by
  obtain ⟨t, ht, h⟩ := carryOut_runPasses_succ_eq_ok_iff.1 h
  have hpassed := passed_of_carryOut hs hb ht
  have hnone : t.character.queued = false := by
    rw [hpassed.queued, hqueued, hquiet]
    rfl
  rw [hnone] at h
  obtain ⟨rfl, rfl⟩ := h
  exact ⟨rfl, (hpassed.sameInputs hquiet).trans (Character.sameInputs_withRun ..)⟩

/-- A recompute during which no change is made runs one pass, and one more if a change was queued
before it. -/
theorem passes_of_recompute {schedule : List Interruption} {s t : Session} {baseline : State}
    {reply : Reply} (hidle : s.character.status = .idle)
    (hb : s.character.baseline = some baseline)
    (hquiet : ∀ i ∈ schedule, ∀ a ∈ i.actions, a.Reentrant ∧ a.mutates = false)
    (h : execute schedule .recompute s = (.ok reply, t)) :
    t.character.queued = false ∧ t.log.getLast? = some (.recomputed s.character.name
      (if s.character.queued then 2 else 1) t.character.diagnostics.length) := by
  obtain ⟨-, passes, u, hpasses, rfl⟩ := (execute_recompute_eq_ok_iff hidle hb).1 h
  let begun : Session := (s.scheduled schedule).begun
  have hbegun : begun.Interruptible schedule.length :=
    ⟨rfl, Nat.le_refl _, fun i hi a ha ↦ (hquiet i hi a ha).1⟩
  have hnone := disturbs_eq_false fun i hi a ha ↦ (hquiet i hi a ha).2
  suffices hcount : passes = (if s.character.queued then 2 else 1) ∧
      begun.character.SameInputs u.character by
    have hdone : u.character.queued = false := unqueued_of_runPasses hpasses
    refine ⟨hdone, ?_⟩
    have hname : u.character.name = s.character.name := hcount.2.name_eq
    rw [ended, List.getLast?_append, hname, hcount.1]
    rfl
  cases hqueued : s.character.queued with
  | false => exact last_of_undisturbed (s := begun) hbegun hb hqueued (hnone 0) hpasses
  | true =>
    -- The first pass takes what was queued, and the second one finds nothing.
    obtain ⟨v, hv, hlater⟩ := carryOut_runPasses_succ_eq_ok_iff.1 hpasses
    have hpassed := passed_of_carryOut (s := begun) hbegun hb hv
    have hagain : v.character.queued = true := by
      rw [hpassed.queued, show begun.character.queued = true from hqueued]
      rfl
    rw [hagain] at hlater
    have hnext : disturbs v.dequeued.schedule 0 = false := by
      rw [show v.dequeued.schedule = _ from hpassed.schedule, disturbs, inPass_map_later]
      exact hnone 1
    have hinputs : begun.character.SameInputs v.dequeued.character :=
      (hpassed.sameInputs (hnone 0)).trans (Character.sameInputs_withRun ..)
    obtain ⟨hcount, hlast⟩ := last_of_undisturbed (hpassed.interruptible hbegun).dequeued
      (hpassed.baseline_eq.trans hb) rfl hnext hlater
    exact ⟨hcount, hinputs.trans hlast⟩

/-- After any calls the character is idle.  A change is still queued only if a call raised in a pass
in which one was made, and none has come back since; such a call always leaves it queued.  The next
recompute that comes back takes it, at the cost of one more pass. -/
theorem queue_of_called {calls : List (Call × Except Failure Reply)} {s t : Session}
    (htame : ∀ c ∈ calls, c.1.Tame) (hidle : s.character.status = .idle)
    (hqueued : s.character.queued = false) (h : Called calls s t) :
    t.character.status = .idle ∧
      (t.character.queued = true → StrandedSince calls s) ∧
      (∀ (call : Call) (outcome : Except Failure Reply) (u : Session), call.Tame →
        execute call.schedule call.command t = (outcome, u) →
        (outcome.isOk = true → u.character.queued = false) ∧
          (Strands call t → u.character.queued = true)) ∧
      ∀ (schedule : List Interruption) (reply : Reply) (u : Session),
        t.character.baseline.isSome →
        (∀ i ∈ schedule, ∀ a ∈ i.actions, a.Reentrant ∧ a.mutates = false) →
        execute schedule .recompute t = (.ok reply, u) →
        u.character.queued = false ∧ u.log.getLast? = some (.recomputed t.character.name
          (if t.character.queued then 2 else 1) u.character.diagnostics.length) := by
  obtain ⟨hlast, hstranded⟩ := left_of_called htame hidle h
  refine ⟨hlast, fun hq ↦ ?_, fun call outcome u hcall hu ↦ ?_,
    fun schedule reply u hb hquiet hu ↦ ?_⟩
  · rcases hstranded hq with ⟨hstart, -⟩ | hsince
    · cases hqueued.symm.trans hstart
    · exact hsince
  · have hleft := left_of_execute hcall hlast hu
    exact ⟨hleft.unqueued, hleft.stranded⟩
  · obtain ⟨baseline, hb⟩ := Option.isSome_iff_exists.1 hb
    exact passes_of_recompute hlast hb hquiet hu

/-- A character that has never been built. -/
def newcomer : Session where
  settings := {}
  character := { name := "Ada", base := .fresh {}, state := .fresh {} }

/-- It is built, and then a change is made in a pass that raises. -/
theorem exists_called_newcomer : ∃ calls t, (∀ c ∈ calls, c.1.Tame) ∧ Called calls newcomer t ∧
    t = (execute tumble .recompute (execute [] .rebuild newcomer).2).2 := by
  have hbuilt : (execute [] .rebuild newcomer).1.isOk = true := by decide +kernel
  obtain ⟨reply, s, hs⟩ := exists_execute_eq_ok hbuilt
  rcases ht : execute tumble .recompute s with ⟨outcome, t⟩
  refine ⟨[({ command := .rebuild }, .ok reply), ({ schedule := tumble, command := .recompute },
    outcome)], t, ?_, .cons hs (.cons ht (.nil t)), by rw [hs, ht]⟩
  simp [Call.Tame, tumble, Action.Tame]

theorem queue_of_called_newcomer : ∃ calls t reply u, Called calls newcomer t ∧
    t.character.status = .idle ∧ StrandedSince calls newcomer ∧
    execute [] .recompute t = (.ok reply, u) ∧ u.character.queued = false ∧
    u.log.getLast? = some (.recomputed "Ada" 2 u.character.diagnostics.length) := by
  obtain ⟨calls, t, htame, hcalled, ht⟩ := exists_called_newcomer
  obtain ⟨hidle, hstranded, -, hnext⟩ := queue_of_called htame rfl rfl hcalled
  have hqueued : t.character.queued = true := by
    rw [ht]
    decide +kernel
  have hbuilt : t.character.baseline.isSome = true := by
    rw [ht]
    decide +kernel
  have hname : t.character.name = "Ada" := by
    rw [ht]
    decide +kernel
  have hok : (execute [] .recompute t).1.isOk = true := by
    rw [ht]
    decide +kernel
  obtain ⟨reply, u, hu⟩ := exists_execute_eq_ok hok
  obtain ⟨hnone, hlog⟩ := hnext [] reply u hbuilt (by simp) hu
  rw [hname, hqueued] at hlog
  exact ⟨calls, t, reply, u, hcalled, hidle, hstranded hqueued, hu, hnone, hlog⟩

/-- It is too much to promise that nothing is queued for an idle character. -/
theorem not_forall_unqueued_of_idle :
    ¬ ∀ (calls : List (Call × Except Failure Reply)) (s t : Session),
      (∀ c ∈ calls, c.1.Tame) → s.character.status = .idle → s.character.queued = false →
      s.character.baseline = none → Called calls s t → t.character.status = .idle →
      t.character.queued = false := by
  intro hidleUnqueued
  obtain ⟨calls, t, htame, hcalled, ht⟩ := exists_called_newcomer
  have hidle : t.character.status = .idle := by
    rw [ht]
    decide +kernel
  have hqueued : t.character.queued = true := by
    rw [ht]
    decide +kernel
  rw [hidleUnqueued calls newcomer t htame rfl rfl rfl hcalled hidle] at hqueued
  cases hqueued

end Session

end CharacterSheet
