import CharacterSheet.Proofs.Overlay.HandedOn
import CharacterSheet.Proofs.Session.InterruptedPass
import CharacterSheet.Proofs.Session.Pass

/-!
# Passes over states that hand on alike

Where two working states hand on the same to a pass, the pass comes to the same character, also if
changes are made between its overlays.
-/

namespace CharacterSheet

namespace Session

open State Interruption

/-- The session with another working state. -/
def withState (s : Session) (state : State) : Session :=
  { s with character := { s.character with state } }

/-! ## On its own -/

theorem exists_execute_runPass_withState {s t : Session} {baseline state : State} {reply : Reply}
    (hb : s.character.baseline = some baseline)
    (hstate : HandsOnAlike baseline s.character.state state)
    (h : execute [] .runPass s = (.ok reply, t)) :
    ∃ u, execute [] .runPass (s.withState state) = (.ok reply, u) ∧
      u.character.state = t.character.state ∧
      u.character.diagnostics = t.character.diagnostics := by
  have hsame : SameToPass baseline s (s.withState state) :=
    ⟨rfl, ⟨rfl, rfl, fun _ ↦ rfl, rfl, rfl⟩, hb, hb, hstate.current, hstate.pain, hstate.stress⟩
  obtain ⟨s', u, hs, hu, hstates, hdiagnostics⟩ | ⟨e, s', u, hs, -⟩ :=
    runPass_history_independent hsame
  · rw [h] at hs
    cases hs
    exact ⟨u, hu, hstates.symm, hdiagnostics.symm⟩
  · rw [h] at hs
    cases hs

/-! ## With interruptions -/

/-- Two sessions that differ in nothing but the log and what injuries derive of the two tracks. -/
structure SameButTracks (s t : Session) : Prop where
  settings : t.settings = s.settings
  shelf : t.shelf = s.shelf
  schedule : t.schedule = s.schedule
  character : t.character = { s.character with state := t.character.state }
  state : s.character.state.SameButTracks t.character.state

namespace SameButTracks

variable {s t : Session}

theorem loadout (h : s.SameButTracks t) : t.character.loadout = s.character.loadout := by
  rw [h.character]
  rfl

theorem interruptible {depth : Nat} (h : s.SameButTracks t) (hs : s.Interruptible depth) :
    t.Interruptible depth := by
  refine ⟨?_, h.schedule ▸ hs.shallow, h.schedule ▸ hs.reentrant⟩
  rw [h.character]
  exact hs.running

/-- Such sessions go on alike, and once injuries have been applied they have the same state. -/
theorem afterStage (h : s.SameButTracks t) {stage : Stage} (hgoes : s.GoesOn stage) :
    t.GoesOn stage ∧ (s.afterStage stage).SameButTracks (t.afterStage stage) ∧
      (stage = .applyInjuries ∨ t.character.state = s.character.state →
        (t.afterStage stage).character.state = (s.afterStage stage).character.state) := by
  obtain ⟨hcompleted, hdiagnostics, hstate, hequal⟩ :=
    Overlay.sameButTracks_stage s.settings s.character.loadout stage h.state hgoes.1
  have hs := character_afterStage s stage
  have ht := character_afterStage t stage
  have hreplayed (actions : List Action) : t.character.replayed actions =
      (s.character.replayed actions).withRun t.character.state s.character.diagnostics
        s.character.queued s.character.status := by
    rw [h.character]
    exact Character.replayed_withRun s.character t.character.state s.character.diagnostics
      s.character.queued s.character.status actions
  have hqueued : t.character.queued = s.character.queued := by rw [h.character]
  have hstatus : t.character.status = s.character.status := by rw [h.character]
  have hcollected : t.character.diagnostics = s.character.diagnostics := by rw [h.character]
  rw [h.settings, h.loadout, h.schedule, hreplayed, hqueued, hstatus, hcollected,
    hdiagnostics] at ht
  refine ⟨⟨?_, h.schedule ▸ hgoes.2⟩, ⟨?_, ?_, ?_, ?_, ?_⟩, ?_⟩
  · rw [h.settings, h.loadout]
    exact hcompleted
  · rw [(interrupted_afterStage t stage).settings, (interrupted_afterStage s stage).settings,
      h.settings]
  · rw [(interrupted_afterStage t stage).shelf, (interrupted_afterStage s stage).shelf, h.shelf]
  · exact congrArg (List.map (tick stage)) h.schedule
  · rw [ht, hs]
    rfl
  · rw [ht, hs]
    exact hstate
  · rw [ht, hs]
    rintro (hinjuries | hsame)
    · exact hequal hinjuries
    · rw [hsame]
      rfl

theorem exists_carryOut_stages {depth : Nat} {stages : List Stage} {u : Session}
    (h : s.SameButTracks t) (hs : s.Interruptible depth)
    (hu : carryOut (stages.forM fun stage ↦ do
      runStage s.currentPass stage; interruptions depth stage) s = (.ok (), u)) :
    ∃ w, carryOut (stages.forM fun stage ↦ do
        runStage t.currentPass stage; interruptions depth stage) t = (.ok (), w) ∧
      u.SameButTracks w ∧ (.applyInjuries ∈ stages ∨ t.character.state = s.character.state →
        w.character.state = u.character.state) := by
  induction stages generalizing s t with
  | nil =>
    have hus : u = s := (congrArg Prod.snd hu).symm
    subst hus
    exact ⟨t, rfl, h, by simp⟩
  | cons stage stages ih =>
    obtain ⟨hgoes, hu⟩ := (carryOut_stages_cons_eq_ok_iff hs stage stages).1 hu
    obtain ⟨hgoes', hafter, hequal⟩ := h.afterStage hgoes
    obtain ⟨w, hw, hsame, hlater⟩ := ih hafter (hs.afterStage stage) hu
    refine ⟨w, (carryOut_stages_cons_eq_ok_iff (h.interruptible hs) stage stages).2 ⟨hgoes', hw⟩,
      hsame, ?_⟩
    rintro (hmem | hstate)
    · rcases List.mem_cons.1 hmem with hfirst | hrest
      · exact hlater (.inr (hequal (.inl hfirst.symm)))
      · exact hlater (.inl hrest)
    · exact hlater (.inr (hequal (.inr hstate)))

end SameButTracks

/-- A pass that comes back leaves the same character for every working state that hands on the
same. -/
theorem exists_carryOut_runPass_withState {depth : Nat} {s t : Session} {baseline state : State}
    (hs : s.Interruptible depth) (hb : s.character.baseline = some baseline)
    (hstate : HandsOnAlike baseline s.character.state state)
    (h : carryOut (runPass (interruptions depth)) s = (.ok (), t)) :
    ∃ u, carryOut (runPass (interruptions depth)) (s.withState state) = (.ok (), u) ∧
      u.character = t.character := by
  have hsame : (s.restored baseline).SameButTracks ((s.withState state).restored baseline) :=
    ⟨rfl, rfl, rfl, rfl, hstate.sameButTracks_restore⟩
  rw [carryOut_runPass hb] at h
  obtain ⟨u, hu, hafter, hequal⟩ := hsame.exists_carryOut_stages (hs.restored baseline) h
  refine ⟨u, ?_, ?_⟩
  · rw [carryOut_runPass (s := s.withState state) hb]
    exact hu
  · rw [hafter.character, hequal (.inl (by decide))]

end Session

end CharacterSheet
