import CharacterSheet.Proofs.Build
import CharacterSheet.Proofs.Overlay.Completion

/-!
# Broken modules

The options of a module are read one after the other and merged as they are read, so a module can
break after some of its options were read.  A broken module is reported once and contributes
nothing: a build ends as if it were not in the list, and the other modules are reported on as they
are without it.  No module can make a build fail.
-/

namespace CharacterSheet

namespace Module

def readable (m : Module) : Bool := m.reading.result.isOk

/-- What is reported of a module that cannot be processed: one source failure, in its name. -/
def failures (m : Module) : List Diagnostic :=
  match m.reading.result with
  | .ok _ => []
  | .error e => [⟨.sourceFailure, "could not process module: " ++ e.message, none, some m.id⟩]

/-- All that is reported of a module before it is applied. -/
def reports (m : Module) : List Diagnostic := m.reading.diagnostics (some m.id) ++ m.failures

def immunities (m : Module) : List Value :=
  match m.reading.result with
  | .ok d => d.immunities.names.map .text
  | .error _ => []

theorem failures_of_readable {m : Module} (h : m.readable) : m.failures = [] := by
  unfold failures
  cases hreading : m.reading.result with
  | ok d => rfl
  | error e =>
    rw [readable, hreading] at h
    cases h

theorem source_failures {m : Module} (h : m.readable = false) :
    m.failures.map Diagnostic.source = [some m.id] := by
  unfold failures
  cases hreading : m.reading.result with
  | error e => rfl
  | ok d =>
    rw [readable, hreading] at h
    cases h

theorem flatMap_failures (ms : List Module) :
    ms.flatMap failures = (ms.filter (!·.readable)).flatMap failures := by
  induction ms with
  | nil => rfl
  | cons m ms ih =>
    cases hm : m.readable with
    | true => simp [hm, failures_of_readable hm, ih]
    | false => simp [hm, ih]

theorem source_flatMap_failures (ms : List Module) :
    (ms.flatMap failures).map Diagnostic.source = (ms.filter (!·.readable)).map (some ·.id) := by
  induction ms with
  | nil => rfl
  | cons m ms ih =>
    rw [List.flatMap_cons, List.map_append, ih]
    cases hm : m.readable with
    | true => simp [hm, failures_of_readable hm]
    | false => simp [hm, source_failures hm]

theorem diagnostics_events (m : Module) :
    Event.diagnostics (m.reading.events "module" m.id) = m.reports := by
  have hcomplaints (ds : List Diagnostic) :
      Event.diagnostics (ds.map (.reported · false)) = ds := by
    simp [Event.diagnostics, List.filterMap_map, Function.comp_def, Event.diagnostic?]
  rw [DataCode.Reading.events, Event.diagnostics, List.filterMap_append]
  refine congr (congrArg _ (hcomplaints _)) ?_
  rw [failures]
  cases m.reading.result <;> rfl

end Module

namespace Build

open Progress State

variable {m : Module} {ms : List Module} {s : State}

/-! ## Broken modules are passed over -/

theorem addModule_of_unreadable (h : m.readable = false) (s : State) :
    addModule m s = { state := s, events := m.reading.events "module" m.id } := by
  cases hreading : m.reading.result with
  | error e => exact addModule_of_error hreading s
  | ok d =>
    rw [Module.readable, hreading] at h
    cases h

/-- Modules end as if the broken ones were not among them. -/
theorem endsAlike_filter (ms : List Module) (s : State) :
    (each addModule ms s).EndsAlike (each addModule (ms.filter Module.readable) s) := by
  induction ms generalizing s with
  | nil => exact .refl _
  | cons m ms ih =>
    cases hm : m.readable with
    | true =>
      rw [List.filter_cons_of_pos hm, each_cons, each_cons]
      exact (EndsAlike.refl _).andThen ih
    | false =>
      rw [List.filter_cons_of_neg (by simp [hm]), each_cons, addModule_of_unreadable hm]
      exact ⟨(ih s).failure, (ih s).state⟩

theorem inBuildOrder_filter (p : Module → Bool) (ms : List Module) :
    Module.inBuildOrder (ms.filter p) = (Module.inBuildOrder ms).filter p := by
  simp only [Module.inBuildOrder, List.filter_append, List.filter_filter, Bool.and_comm]

theorem endsAlike_run_filter (base working : State) (ms : List Module) :
    (run base working ms).EndsAlike (run base working (ms.filter Module.readable)) := by
  rw [run_eq_each, run_eq_each, inBuildOrder_filter]
  exact endsAlike_filter _ _

/-! ## No module stops a build -/

theorem gathers_addModule (m : Module) (s : State) :
    Gathers [m.immunities] s (addModule m s) := by
  have hread : Gathers [] s { state := s, events := m.reading.events "module" m.id } :=
    .nil rfl rfl
  cases h : m.reading.result with
  | ok d =>
    have hfound : m.immunities = d.immunities.names.map .text ++ [] := by
      rw [Module.immunities, h, List.append_nil]
    rw [addModule_of_ok h, hfound]
    exact hread.andThen (gathers_applyWith (Module.normal_of_reading h) (some m.id) [])
  | error e =>
    have hfound : m.immunities = [] := by rw [Module.immunities, h]
    rw [addModule_of_error h, hfound]
    exact ⟨hread.of_ok, hread.of_error⟩

/-- The codes of modules bring names only, so over names every build completes. -/
theorem failure_run_of_names {base : State}
    (hbase : ∃ names : List String, base.immunities = names.map .text) (working : State)
    (ms : List Module) : (run base working ms).failure = none := by
  have hfound : ∀ vs ∈ (Module.inBuildOrder ms).map Module.immunities,
      ∃ names : List String, vs = names.map .text := by
    intro vs hvs
    obtain ⟨m, -, rfl⟩ := List.mem_map.1 hvs
    unfold Module.immunities
    split
    · exact ⟨_, rfl⟩
    · exact ⟨[], rfl⟩
  obtain ⟨names, hnames⟩ := exists_gatherAll_texts hbase hfound
  have hgathers := Gathers.each gathers_addModule (Module.inBuildOrder ms) (start base working)
  exact hgathers.failure_eq_none_iff.2 ⟨_, hnames⟩

/-! ## What is reported -/

theorem faults_addModule (m : Module) (s : State) : (addModule m s).faults = m.failures := by
  have hread : Event.faults (m.reading.events "module" m.id) = m.failures := by
    rw [DataCode.Reading.events, Event.faults_append, DataCode.Reading.diagnostics,
      Event.faults_complaints, List.nil_append, Module.failures]
    cases m.reading.result <;> rfl
  cases h : m.reading.result with
  | ok d =>
    have hlaid (s : State) : (State.apply (some m.id) d s).faults = [] := faults_applyWith ..
    rw [addModule_of_ok h, faults_andThen_of_eq_nil _ hlaid]
    exact hread
  | error e =>
    rw [addModule_of_error h]
    exact hread

/-- Next to what is reported without the broken modules there is only what is reported of these. -/
theorem diagnostics_filter (h : (each addModule ms s).failure = none) :
    (each addModule ms s).diagnostics.Perm
      ((each addModule (ms.filter Module.readable) s).diagnostics ++
        (ms.filter (!·.readable)).flatMap Module.reports) := by
  induction ms generalizing s with
  | nil => exact .refl _
  | cons m ms ih =>
    rw [each_cons, failure_andThen_eq_none_iff] at h
    cases hm : m.readable with
    | true =>
      rw [List.filter_cons_of_pos hm, List.filter_cons_of_neg (by simp [hm]), each_cons, each_cons,
        diagnostics_andThen h.1, diagnostics_andThen h.1, List.append_assoc]
      exact (ih h.2).append_left _
    | false =>
      have hadd := addModule_of_unreadable hm s
      have hreports : (addModule m s).diagnostics = m.reports := by
        rw [hadd]
        exact m.diagnostics_events
      have hrest := ih h.2
      rw [show (addModule m s).state = s by rw [hadd]] at hrest
      rw [List.filter_cons_of_neg (by simp [hm]), List.filter_cons_of_pos (by simp [hm]), each_cons,
        diagnostics_andThen h.1, hreports, List.flatMap_cons,
        show (addModule m s).state = s by rw [hadd]]
      exact (hrest.append_left _).trans (List.perm_append_comm_assoc ..)

/-- Whatever the modules hold, a build completes.  It comes to the state that the readable modules
alone build, and each other module is reported with one source failure in its name; otherwise the
diagnostics differ by the complaints about the broken modules only. -/
theorem run_passes_over_broken {base : State}
    (hbase : ∃ names : List String, base.immunities = names.map .text) (working : State)
    (ms : List Module) :
    let built := run base working ms
    let spared := run base working (ms.filter Module.readable)
    let broken := (Module.inBuildOrder ms).filter (!·.readable)
    built.failure = none ∧ spared.failure = none ∧ built.state = spared.state ∧
      built.faults = broken.flatMap Module.failures ∧
      built.faults.map Diagnostic.source = broken.map (some ·.id) ∧ spared.faults = [] ∧
      built.diagnostics.Perm (spared.diagnostics ++ broken.flatMap Module.reports) := by
  intro built spared broken
  have hbuilt : built.failure = none := failure_run_of_names hbase working ms
  have hspared : spared.failure = none := failure_run_of_names hbase working _
  have hends := endsAlike_run_filter base working ms
  have hfaults : built.faults = (Module.inBuildOrder ms).flatMap Module.failures :=
    faults_each faults_addModule hbuilt
  have hnone : spared.faults = [] := by
    refine (faults_each faults_addModule hspared).trans (List.flatMap_eq_nil_iff.2 fun m hm ↦ ?_)
    rw [Module.mem_inBuildOrder] at hm
    exact Module.failures_of_readable (List.mem_filter.1 hm).2
  refine ⟨hbuilt, hspared, hends.state, ?_, ?_, hnone, ?_⟩
  · rw [hfaults, Module.flatMap_failures]
  · rw [hfaults, Module.source_flatMap_failures]
  · rw [show spared = each addModule _ _ from run_eq_each .., inBuildOrder_filter]
    exact diagnostics_filter hbuilt

/-- Modules of which one alone can be processed. -/
def scribbled : List Module :=
  [{  id := "late"
      options := .ofOptions [
        { name := "first", data := .text "A1=2", selected := true },
        { name := "second", data := .int 3, selected := true }] },
    { id := "fine"
      kind := .trait
      options := .ofOptions [
        { name := "only", data := .text "A2=1", selected := true },
        { name := "left", data := .list [] }] },
    { id := "bare"
      kind := .ancestry
      options := .notACollection .int },
    { id := "odd"
      options := .entries [.other .text] }]

theorem run_scribbled :
    (run (.fresh {}) (.fresh {}) scribbled).failure = none ∧
      (run (.fresh {}) (.fresh {}) scribbled).state =
        (run (.fresh {}) (.fresh {}) (scribbled.filter Module.readable)).state ∧
      (run (.fresh {}) (.fresh {}) scribbled).faults.map Diagnostic.source =
        [some "bare", some "late", some "odd"] := by
  have hnames : ∃ names : List String, (State.fresh {}).immunities = names.map .text := ⟨[], rfl⟩
  obtain ⟨hbuilt, -, hstate, -, hsources, -, -⟩ :=
    run_passes_over_broken hnames (.fresh {}) scribbled
  have hbroken : ((Module.inBuildOrder scribbled).filter (!·.readable)).map (some ·.id) =
      [some "bare", some "late", some "odd"] := by decide +kernel
  exact ⟨hbuilt, hstate, hsources.trans hbroken⟩

end Build

end CharacterSheet
