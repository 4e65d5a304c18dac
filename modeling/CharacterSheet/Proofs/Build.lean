import CharacterSheet.Build
import CharacterSheet.Proofs.DataCode.Joining
import CharacterSheet.Proofs.State.Soundness

/-!
# Laws of building

What the selected options of a module contribute together is in the normal form, so modules are laid
over the base values as sources are laid over a baseline.  A build on sound base values leaves a
sound state.
-/

namespace CharacterSheet

namespace Module

theorem normal_of_readOptions {d d' : Delta} (hd : d.Normal) {os : List ModuleOption}
    (h : (readOptions d os).result = .ok d') : d'.Normal := by
  induction os generalizing d with
  | nil => exact Except.ok.inj h ▸ hd
  | cons o os ih =>
    obtain ⟨e, he, hrest⟩ := DataCode.Reading.andThen_result_eq_ok_iff.1 h
    exact ih (hd.merge (DataCode.produced_of_readValue he).normal) hrest

theorem normal_of_reading {m : Module} {d : Delta} (h : m.reading.result = .ok d) :
    d.Normal := by
  unfold reading at h
  cases hselected : m.selectedOptions with
  | error e =>
    rw [hselected] at h
    cases h
  | ok os =>
    rw [hselected] at h
    exact normal_of_readOptions Delta.normal_empty h

end Module

namespace Build

open Progress State

theorem addModule_of_ok {m : Module} {d : Delta} (h : m.reading.result = .ok d) (s : State) :
    addModule m s = ({ state := s, events := m.reading.events "module" m.id } : Progress).andThen
      (State.apply (some m.id) d) := by
  unfold addModule
  dsimp only
  rw [h]

theorem addModule_of_error {m : Module} {e : SourceError} (h : m.reading.result = .error e)
    (s : State) :
    addModule m s = { state := s, events := m.reading.events "module" m.id } := by
  unfold addModule
  dsimp only
  rw [h]

theorem run_eq_each (base working : State) (modules : List Module) :
    run base working modules = each addModule (Module.inBuildOrder modules) (start base working) :=
  rfl

theorem sound_addModule (m : Module) {s : State} (hs : s.Sound) : (addModule m s).state.Sound := by
  cases hreading : m.reading.result with
  | error e =>
    rw [addModule_of_error hreading]
    exact hs
  | ok d =>
    rw [addModule_of_ok hreading, state_andThen rfl]
    exact (sound_applyWith hs (Module.normal_of_reading hreading) (some m.id) []).2

theorem sound_run {base : State} (hb : base.Sound) (working : State) (modules : List Module) :
    (run base working modules).state.Sound := by
  rw [run_eq_each]
  refine keeps_each (P := Sound) (fun m _ s hs ↦ sound_addModule m hs) ?_
  exact ⟨hb.conditionals, hb.codes, hb.immunities, hb.dualWield⟩

end Build

end CharacterSheet
