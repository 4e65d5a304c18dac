import CharacterSheet.Proofs.Build.Isolation
import CharacterSheet.Proofs.Overdraft
import CharacterSheet.Proofs.Overlay.Order
import CharacterSheet.Proofs.Session.Queue
import CharacterSheet.Proofs.Session.Reachable

/-!
# What can stop a call

A call to a character that was assembled from checked content always begins its passes: every build
completes.  A pass stops only at an overdrawn pool, and then the call raises, but it leaves a
character that later calls can go on with.  Currents that are authored within bounds stay so unless
a maximum falls below them.
-/

namespace CharacterSheet

/-- A call that rebuilds, recomputes, or makes a change with checked content to a slot that there
is.  Nothing is scheduled for its passes. -/
structure Call.Plain (call : Call) : Prop where
  unscheduled : call.schedule = []
  ordinary : call.command.Ordinary
  seated : ∀ change slot, call.command = .change change → change.slot? = some slot → slot ∈ slots

theorem Call.Plain.tame {call : Call} (h : call.Plain) : call.Tame := by
  refine ⟨?_, fun i hi ↦ ?_⟩
  · have hordinary := h.ordinary
    cases hcommand : call.command with
    | rebuild => trivial
    | recompute => trivial
    | change change => trivial
    | _ =>
      rw [hcommand] at hordinary
      exact hordinary
  · rw [h.unscheduled] at hi
    cases hi

theorem Change.exists_apply {change : Change} (c : Character)
    (h : ∀ slot, change.slot? = some slot → slot ∈ slots) : ∃ c', change.apply c = .ok c' := by
  have hnone : change.slot?.filter (!slots.contains ·) = none := by
    rw [Option.filter_eq_none_iff]
    intro slot hslot
    simpa using h slot hslot
  unfold apply
  rw [hnone]
  exact ⟨_, rfl⟩

namespace Session

open State

structure Dependable (s : Session) : Prop where
  sound : s.character.Sound
  unqueued : s.character.queued = false

/-- A pool is solvent wherever a call may take its current value from. -/
structure Solvent (name : String) (s : Session) : Prop where
  base : s.character.base.Solvent name
  baseline : ∀ b, s.character.baseline = some b → b.Solvent name
  state : s.character.state.Solvent name

/-- A pool as the pass of a call meets it: raised by all sources, before it is clamped. -/
def met? (s : Session) (call : Call) (name : String) : Option Pool := do
  let v ← (s.scheduled call.schedule).starting? call.command
  let baseline ← v.character.baseline
  v.character.loadout.pool? baseline v.character.state name

/-- A pass of a call stops at a pool. -/
def Overdrawn (s : Session) (call : Call) : Prop :=
  ∃ name ∈ ["health", "resolve"], ∃ p, s.met? call name = some p ∧ p.Overdrawn

variable {r s t v : Session} {call : Call} {name : String}

/-! ## Before the pass -/

theorem Dependable.failure_build (h : s.Dependable) : s.build.failure = none := by
  obtain ⟨names, hnames⟩ := h.sound.base.immunities
  exact Build.failure_run_of_names ⟨names.names, hnames⟩ ..

theorem Dependable.rebuilt (h : s.Dependable) : (s.rebuilt s.build).Dependable := by
  have hbuilt : s.build.state.Sound := Build.sound_run h.sound.base ..
  refine ⟨⟨h.sound.base, fun b hb ↦ ?_, h.sound.worn, h.sound.idle⟩, h.unqueued⟩
  obtain rfl := Option.some.inj hb
  exact hbuilt

theorem Solvent.rebuilt (h : s.Solvent name) : (s.rebuilt s.build).Solvent name := by
  have hbuilt : s.build.state.Solvent name := Build.solvent_run h.base h.state _
  refine ⟨h.base, fun b hb ↦ ?_, hbuilt⟩
  obtain rfl := Option.some.inj hb
  exact hbuilt

/-- A recompute begins with a build or on the baseline that there is. -/
structure Begins (r v : Session) : Prop where
  built : v.character.baseline.isSome
  eq_or : v = r.rebuilt r.build ∨ v = r

theorem Begins.dependable (h : Begins r v) (hr : r.Dependable) : v.Dependable := by
  rcases h.eq_or with rfl | rfl
  · exact hr.rebuilt
  · exact hr

theorem Begins.solvent (h : Begins r v) (hr : r.Solvent name) : v.Solvent name := by
  rcases h.eq_or with rfl | rfl
  · exact hr.rebuilt
  · exact hr

theorem Dependable.exists_built (h : r.Dependable) : ∃ v, r.built? = some v ∧ Begins r v := by
  refine ⟨r.rebuilt r.build, ?_, rfl, .inl rfl⟩
  rw [built?, h.failure_build]

theorem Dependable.exists_ready (h : r.Dependable) : ∃ v, r.ready? = some v ∧ Begins r v := by
  unfold ready?
  cases hb : r.character.baseline with
  | none => exact h.exists_built
  | some baseline =>
    refine ⟨r, rfl, ?_, .inr rfl⟩
    rw [hb]
    rfl

/-- A plain call makes its change, which leaves the numbers alone, and begins its passes. -/
theorem exists_starting (hs : s.Dependable) (hcall : call.Plain) :
    ∃ r v, (s.scheduled call.schedule).starting? call.command = some v ∧ Begins r v ∧
      r.Dependable ∧ ∀ name, s.Solvent name → r.Solvent name := by
  have hscheduled : (s.scheduled call.schedule).Dependable := ⟨hs.sound, hs.unqueued⟩
  have hsolvent (name : String) (h : s.Solvent name) : (s.scheduled call.schedule).Solvent name :=
    ⟨h.base, h.baseline, h.state⟩
  have hordinary := hcall.ordinary
  cases hcommand : call.command with
  | rebuild =>
    obtain ⟨v, hv, hbegins⟩ := hscheduled.exists_built
    exact ⟨_, v, hv, hbegins, hscheduled, hsolvent⟩
  | recompute =>
    obtain ⟨v, hv, hbegins⟩ := hscheduled.exists_ready
    exact ⟨_, v, hv, hbegins, hscheduled, hsolvent⟩
  | change change =>
    rw [hcommand] at hordinary
    obtain ⟨c, hc⟩ := Change.exists_apply s.character fun slot ↦ hcall.seated change slot hcommand
    let r : Session := { s.scheduled call.schedule with character := c }
    obtain ⟨-, hqueued⟩ := Change.run_of_apply_eq_ok hc
    have hr : r.Dependable :=
      ⟨Change.sound_apply hs.sound hordinary hc, hqueued.trans hs.unqueued⟩
    obtain ⟨v, hv, hbegins⟩ := hr.exists_ready
    refine ⟨r, v, ?_, hbegins, hr, fun name h ↦ ?_⟩
    · have hc : change.apply (s.scheduled call.schedule).character = .ok c := hc
      simp only [starting?, hc]
      exact hv
    · obtain ⟨hbase, hbaseline, hstate⟩ := Change.layers_of_apply_eq_ok hc
      exact ⟨hbase ▸ h.base, fun b hb ↦ h.baseline b (hbaseline.symm.trans hb), hstate ▸ h.state⟩
  | _ =>
    rw [hcommand] at hordinary
    exact absurd hordinary id

/-! ## The pass -/

theorem map_outcome_eq_error_iff {α : Type} {p : Progress} {a : α} {e : Failure} :
    (outcome p).map (fun _ ↦ a) = .error e ↔ p.failure = some e := by
  unfold outcome
  cases p.failure <;> simp [Except.map]

/-- A call runs one pass over a baseline, and replies or raises as that pass ends. -/
structure RunsPass (call : Call) (s v t : Session) (baseline : State) (reply : Reply) : Prop where
  result : execute call.schedule call.command s =
    ((outcome (v.passOver baseline)).map fun _ ↦ reply, t)
  before : v.Dependable
  solvent : ∀ name, s.Solvent name → v.Solvent name
  baseline_eq : v.character.baseline = some baseline
  met : ∀ name, s.met? call name = v.character.loadout.pool? baseline v.character.state name
  after : t.character = { v.character with
    status := .idle
    queued := false
    state := (v.passOver baseline).state
    diagnostics := (v.passOver baseline).diagnostics }

theorem exists_runsPass (hs : s.Dependable) (hcall : call.Plain) :
    ∃ v t baseline reply, RunsPass call s v t baseline reply := by
  obtain ⟨r, v, hv, hbegins, hr, hsolvent⟩ := exists_starting hs hcall
  obtain ⟨baseline, hb⟩ := Option.isSome_iff_exists.1 hbegins.built
  have hbefore := hbegins.dependable hr
  have hstarts := starts_call hcall.tame hs.sound.idle
  rw [hv, hcall.unscheduled, List.length_nil, interruptions_zero] at hstarts
  obtain ⟨-, -, -, -, reply, hrun⟩ := hstarts
  -- Nothing is scheduled and nothing was queued, so the recompute runs a single pass.
  obtain ⟨t, ht, -, hafter⟩ := exists_carryOut_recomputeBuilt_quiet hb hbefore.unqueued
  refine ⟨v, t, baseline, reply, ?_, hbefore, fun name h ↦ hbegins.solvent (hsolvent name h), hb,
    fun name ↦ ?_, hafter⟩
  · rw [hcall.unscheduled, execute_eq, List.length_nil, interruptions_zero, hrun, ht]
  · simp only [met?, hv, hb, Option.bind_eq_bind, Option.bind_some]

namespace RunsPass

variable {baseline : State} {reply : Reply} (h : RunsPass call s v t baseline reply)

include h

theorem dependable : t.Dependable := by
  have hsound := h.before.sound
  constructor
  · constructor
    · rw [h.after]
      exact hsound.base
    · rw [h.after]
      exact hsound.baseline
    · rw [h.after]
      exact hsound.worn
    · rw [h.after]
  · rw [h.after]

theorem exists_gatherAll :
    ∃ vs, gatherAll baseline.immunities v.character.loadout.immunities = .ok vs := by
  obtain ⟨names, hnames⟩ := (h.before.sound.baseline baseline h.baseline_eq).immunities
  have hworn := bringsNames_of_worn h.before.sound
  obtain ⟨gathered, hgathered⟩ :=
    Overlay.exists_gatherAll_immunities ⟨names.names, hnames⟩ fun item hitem ↦
      (hworn item hitem).gearImmunities
  exact ⟨_, hgathered⟩

theorem failure_eq_some_iff {e : Failure} : (v.passOver baseline).failure = some e ↔
    e = .quotientTooLarge ∧ s.Overdrawn call := by
  rw [passOver, Overlay.failure_run_eq_some_iff v.settings h.exists_gatherAll, Overdrawn]
  simp only [h.met]

theorem not_overdrawn (hsolvent : ∀ name ∈ ["health", "resolve"], s.Solvent name) :
    ¬ s.Overdrawn call := by
  rintro ⟨name, hname, p, hp, hoverdrawn⟩
  have hv := h.solvent name (hsolvent name hname)
  rw [h.met] at hp
  refine Pool.not_overdrawn (fun n hn ↦ ?_) hoverdrawn
  exact lt_current_of_solvent (hv.baseline baseline h.baseline_eq) hv.state hp hn

/-- A call that comes back leaves solvent pools solvent, unless it meets a maximum that is not. -/
theorem solvent_after (hcompleted : (v.passOver baseline).failure = none) {name : String}
    (hname : s.Solvent name)
    (hmax : ∀ p, s.met? call name = some p → -(Binary64.overflow : Int) < p.max) :
    t.Solvent name := by
  have hv := h.solvent name hname
  have hstate : (v.passOver baseline).state.Solvent name := by
    refine Overlay.solvent_run hcompleted (hv.baseline baseline h.baseline_eq) hv.state ?_
    intro p hp
    exact hmax p ((h.met name).trans hp)
  constructor
  · rw [h.after]
    exact hv.base
  · rw [h.after]
    exact hv.baseline
  · rw [h.after]
    exact hstate

end RunsPass

/-- A plain call leaves a character that further calls can go on with, however it ends.  It raises
exactly when its pass meets an overdrawn pool. -/
theorem dependable_of_execute {outcome : Except Failure Reply} (hs : s.Dependable)
    (hcall : call.Plain) (h : execute call.schedule call.command s = (outcome, t)) :
    t.Dependable ∧
      ∀ e, outcome = .error e ↔ e = .quotientTooLarge ∧ s.Overdrawn call := by
  obtain ⟨v, t', baseline, reply, hpass⟩ := exists_runsPass hs hcall
  obtain ⟨rfl, rfl⟩ := Prod.mk.inj (h.symm.trans hpass.result)
  refine ⟨hpass.dependable, fun e ↦ ?_⟩
  rw [map_outcome_eq_error_iff, hpass.failure_eq_some_iff]

/-- A plain call over solvent pools comes back, and they stay solvent as long as their maxima
are. -/
theorem solvent_of_execute {outcome : Except Failure Reply} (hs : s.Dependable)
    (hcall : call.Plain) (hsolvent : ∀ name ∈ ["health", "resolve"], s.Solvent name)
    (h : execute call.schedule call.command s = (outcome, t)) :
    outcome.isOk = true ∧ ∀ name ∈ ["health", "resolve"],
      (∀ p, s.met? call name = some p → -(Binary64.overflow : Int) < p.max) → t.Solvent name := by
  obtain ⟨v, t', baseline, reply, hpass⟩ := exists_runsPass hs hcall
  obtain ⟨rfl, rfl⟩ := Prod.mk.inj (h.symm.trans hpass.result)
  have hcompleted : (v.passOver baseline).failure = none := by
    cases hfailure : (v.passOver baseline).failure with
    | none => rfl
    | some e =>
      have hover := (hpass.failure_eq_some_iff.1 hfailure).2
      exact absurd hover (hpass.not_overdrawn hsolvent)
  refine ⟨?_, fun name hname hmax ↦ hpass.solvent_after hcompleted (hsolvent name hname) hmax⟩
  rw [outcome_of_completed hcompleted]
  rfl

/-! ## Many calls -/

/-- A call has its turn among others, in the session that those before it left. -/
inductive Turn (call : Call) (outcome : Except Failure Reply) (r : Session) :
    List (Call × Except Failure Reply) → Session → Prop
  | first (calls : List (Call × Except Failure Reply)) :
    Turn call outcome r ((call, outcome) :: calls) r
  | later {c : Call} {o : Except Failure Reply} {calls : List (Call × Except Failure Reply)}
    {s t : Session} : execute c.schedule c.command s = (o, t) → Turn call outcome r calls t →
      Turn call outcome r ((c, o) :: calls) s

variable {calls : List (Call × Except Failure Reply)} {u : Session}

theorem dependable_of_called (hs : s.Dependable) (hcalls : ∀ c ∈ calls, c.1.Plain)
    (h : Called calls s u) : u.Dependable ∧ ∀ call outcome r, Turn call outcome r calls s →
      ∀ e, outcome = .error e ↔ e = .quotientTooLarge ∧ r.Overdrawn call := by
  induction h with
  | nil s =>
    refine ⟨hs, ?_⟩
    intro call outcome r hturn
    cases hturn
  | cons hfirst _ ih =>
    obtain ⟨hplain, hrest⟩ := List.forall_mem_cons.1 hcalls
    obtain ⟨hnext, hraises⟩ := dependable_of_execute hs hplain hfirst
    obtain ⟨hlast, hlater⟩ := ih hnext hrest
    refine ⟨hlast, ?_⟩
    intro call outcome r hturn
    cases hturn with
    | first => exact hraises
    | later ht hturn =>
      cases hfirst.symm.trans ht
      exact hlater call outcome r hturn

theorem isOk_of_called (hs : s.Dependable) (hcalls : ∀ c ∈ calls, c.1.Plain)
    (hsolvent : ∀ name ∈ ["health", "resolve"], s.Solvent name)
    (hmax : ∀ call outcome r, Turn call outcome r calls s → ∀ name ∈ ["health", "resolve"],
      ∀ p, r.met? call name = some p → -(Binary64.overflow : Int) < p.max)
    (h : Called calls s u) : ∀ c ∈ calls, c.2.isOk = true := by
  induction h with
  | nil s => simp
  | cons hfirst _ ih =>
    obtain ⟨hplain, hrest⟩ := List.forall_mem_cons.1 hcalls
    obtain ⟨hok, hnext⟩ := solvent_of_execute hs hplain hsolvent hfirst
    have hafter := (dependable_of_execute hs hplain hfirst).1
    refine List.forall_mem_cons.2 ⟨hok, ih hafter hrest (fun name hname ↦ ?_) ?_⟩
    · exact hnext name hname (hmax _ _ _ (.first _) name hname)
    · intro call outcome r hturn
      exact hmax call outcome r (.later hfirst hturn)

theorem dependable_assembled {t : CharacterTemplate} {settings : Except SettingsError Settings}
    {catalog : Catalog} (hcatalog : catalog.Checked)
    (h : t.assemble settings catalog = .ok s.character) : s.Dependable ∧
      ∀ name, (∀ n, t.current.get? name = some n → -(Binary64.overflow : Int) < n) →
        s.Solvent name := by
  have hsound := CharacterTemplate.sound_assemble hcatalog h
  unfold CharacterTemplate.assemble at h
  obtain ⟨modules, -, h⟩ := exists_of_bind_eq_ok h
  obtain ⟨equipment, -, h⟩ := exists_of_bind_eq_ok h
  obtain ⟨settings', -, h⟩ := exists_of_bind_eq_ok h
  obtain ⟨base, hbase, h⟩ := exists_of_bind_eq_ok h
  obtain ⟨trainings, -, h⟩ := exists_of_bind_eq_ok h
  obtain ⟨injuries, -, h⟩ := exists_of_bind_eq_ok h
  have hcharacter := (Except.ok.inj h).symm
  refine ⟨⟨hsound, by rw [hcharacter]⟩, fun name hcurrent ↦ ?_⟩
  constructor
  · rw [hcharacter]
    exact CharacterTemplate.solvent_baseState hbase hcurrent
  · rw [hcharacter]
    intro b hb
    cases hb
  · rw [hcharacter]
    have hfresh : (t.workingState settings').resources = (State.fresh settings').resources := rfl
    exact solvent_of_fresh hfresh

/-- A character is assembled from checked content, and then rebuilt, recomputed and changed.  A call
raises exactly when its pass meets an overdrawn pool, and then it leaves a sound character, too.
When the authored currents and all maxima are within bounds, every call comes back. -/
theorem returns_unless_overdrawn {t : CharacterTemplate}
    {settings : Except SettingsError Settings} {catalog : Catalog} (hcatalog : catalog.Checked)
    (hassembled : t.assemble settings catalog = .ok s.character)
    (hcalls : ∀ c ∈ calls, c.1.Plain) (hcalled : Called calls s u) :
    u.character.Sound ∧
      (∀ call outcome r, Turn call outcome r calls s →
        ∀ e, outcome = .error e ↔ e = .quotientTooLarge ∧ r.Overdrawn call) ∧
      ((∀ name ∈ ["health", "resolve"], ∀ n, t.current.get? name = some n →
          -(Binary64.overflow : Int) < n) →
        (∀ call outcome r, Turn call outcome r calls s → ∀ name ∈ ["health", "resolve"],
          ∀ p, r.met? call name = some p → -(Binary64.overflow : Int) < p.max) →
        ∀ c ∈ calls, c.2.isOk = true) := by
  obtain ⟨hs, hsolvent⟩ := dependable_assembled hcatalog hassembled
  obtain ⟨hu, hraises⟩ := dependable_of_called hs hcalls hcalled
  refine ⟨hu.sound, hraises, fun hcurrent hmax ↦ ?_⟩
  apply isOk_of_called hs hcalls _ hmax hcalled
  intro name hname
  exact hsolvent name (hcurrent name hname)

theorem encamped_returns : ∃ reply reply' t u, execute [] .rebuild encamped = (.ok reply, t) ∧
    execute [] (.change (.equip "body" vest)) t = (.ok reply', u) ∧ u.character.Sound := by
  let build : Call := { command := .rebuild }
  let dress : Call := { command := .change (.equip "body" vest) }
  have hbuild : build.Plain := ⟨rfl, trivial, fun _ _ h ↦ by cases h⟩
  have hdress : dress.Plain := by
    refine ⟨rfl, checked_vest, ?_⟩
    rintro change slot ⟨⟩ ⟨⟩
    decide
  rcases ht : execute [] .rebuild encamped with ⟨o, t⟩
  rcases hu : execute [] (.change (.equip "body" vest)) t with ⟨o', u⟩
  have hcalled : Called [(build, o), (dress, o')] encamped u := .cons ht (.cons hu (.nil u))
  obtain ⟨hsound, -, hreturns⟩ := returns_unless_overdrawn checked_camp assemble_ada
    (by simp [hbuild, hdress]) hcalled
  have hcurrent : ∀ name ∈ ["health", "resolve"], ∀ n ∈ ada.current.get? name, 0 ≤ n := by
    decide +kernel
  have hfirst : ∀ name ∈ ["health", "resolve"], ∀ p ∈ encamped.met? build name, 0 ≤ p.max := by
    decide +kernel
  have hsecond : ∀ name ∈ ["health", "resolve"],
      ∀ p ∈ (execute [] .rebuild encamped).2.met? dress name, 0 ≤ p.max := by decide +kernel
  have hbound : -(Binary64.overflow : Int) < 0 := by
    have hlarge := Binary64.one_lt_overflow
    omega
  rw [ht] at hsecond
  have hok := hreturns (fun name hname n hn ↦ Int.lt_of_lt_of_le hbound (hcurrent name hname n hn))
    fun call outcome r hturn name hname p hp ↦ by
      refine Int.lt_of_lt_of_le hbound ?_
      cases hturn with
      | first => exact hfirst name hname p hp
      | later ht' hturn =>
        cases ht.symm.trans ht'
        cases hturn with
        | first => exact hsecond name hname p hp
        | later _ hturn => cases hturn
  have hbuilt : o.isOk = true := hok (build, o) (by simp)
  have hdressed : o'.isOk = true := hok (dress, o') (by simp)
  cases o with
  | error e => cases hbuilt
  | ok reply =>
    cases o' with
    | error e => cases hdressed
    | ok reply' => exact ⟨reply, reply', t, u, rfl, hu, hsound⟩

/-- A character with a single point of health, and far more wounds than a double can count. -/
def debtor : CharacterTemplate where
  name := "Ada"
  attributes := .empty
  skills := .empty
  skillTiers := .empty
  resources := .ofPairs [("health", 1)]
  current := .ofPairs [("health", -(Binary64.wholePower 10 400))]
  modules := .empty
  trainings := []
  equipment := .empty
  injuries := []
  conditions := []
  painModifier := 0
  stressModifier := 0

def indebted : Session where
  settings := {}
  character := (debtor.assemble (.ok {}) {}).toOption.getD neglected.character

/-- It is too much to promise that calls over checked content come back: the first build may meet a
pool that is overdrawn from the start. -/
theorem not_forall_isOk_of_called :
    ¬ ∀ (t : CharacterTemplate) (settings : Except SettingsError Settings) (catalog : Catalog)
      (calls : List (Call × Except Failure Reply)) (s u : Session), catalog.Checked →
      t.assemble settings catalog = .ok s.character → (∀ c ∈ calls, c.1.Plain) →
      Called calls s u → ∀ c ∈ calls, c.2.isOk = true := by
  intro hallReturn
  have hassembled : debtor.assemble (.ok {}) {} = .ok indebted.character :=
    eq_ok_getD_of_isOk (by decide +kernel) neglected.character
  have hraises : (execute [] .rebuild indebted).1.isOk = false := by decide +kernel
  obtain ⟨e, u, hu⟩ := exists_eq_error hraises
  let build : Call := { command := .rebuild }
  have hbuild : build.Plain := ⟨rfl, trivial, fun _ _ h ↦ by cases h⟩
  have hcalled : Called [(build, .error e)] indebted u := .cons hu (.nil u)
  have hok := hallReturn debtor (.ok {}) {} [(build, .error e)] indebted u Catalog.checked_empty
    hassembled (by simp [hbuild]) hcalled (build, .error e) (by simp)
  cases hok

end Session

end CharacterSheet
