import CharacterSheet.Proofs.Overlay.Completion
import CharacterSheet.Proofs.Overlay.HandedOn
import CharacterSheet.Proofs.Threshold

/-!
# Injuries and low pools

Under other injuries a pass over a settled state completes and leaves that state with other tracks.
The tracks follow from the injuries, the modifiers and the pools alone, so it does not matter which
injuries there were before.  More injuries and lower pools never improve a track.
-/

namespace CharacterSheet

theorem Track.update_update (t : Track) (total total' : Int) (pool : Option Pool) :
    (t.update total pool).1.update total' pool = t.update total' pool := by
  unfold update
  cases lowPoolBonus pool <;> rfl

namespace State

variable {s : State} {injuries : List Injury}

/-- Neither track improves. -/
structure Worsens (s t : State) : Prop where
  pain : s.pain.Worsens t.pain
  stress : s.stress.Worsens t.stress

/-- A state whose tracks are derived from other injuries. -/
def withInjuries (injuries : List Injury) (s : State) : State :=
  { s with
    pain := (Overlay.painTrack injuries s).1
    stress := (Overlay.stressTrack injuries s).1 }

/-- Earlier injuries leave no trace. -/
theorem withInjuries_withInjuries (injuries injuries' : List Injury) (s : State) :
    (s.withInjuries injuries).withInjuries injuries' = s.withInjuries injuries' := by
  have hpain : (Overlay.painTrack injuries' (s.withInjuries injuries)).1 =
      (Overlay.painTrack injuries' s).1 := congrArg Prod.fst (Track.update_update ..)
  have hstress : (Overlay.stressTrack injuries' (s.withInjuries injuries)).1 =
      (Overlay.stressTrack injuries' s).1 := congrArg Prod.fst (Track.update_update ..)
  unfold withInjuries at hpain hstress ⊢
  rw [hpain, hstress]

/-- Sets the current value of a pool by hand. -/
def setCurrent (name : String) (n : Int) (s : State) : State :=
  { s with resources := s.resources.modify name (·.withCurrent (some n)) }

theorem current?_setCurrent {name : String} {current : Option Int}
    (h : s.current? name = some current) (n : Int) (k : String) :
    (s.setCurrent name n).current? k = if k = name then some (some n) else s.current? k := by
  obtain ⟨p, hp, -⟩ := Option.map_eq_some_iff.1 h
  unfold setCurrent current?
  rw [Table.get?_modify]
  split
  · next hname => simp [hname, hp, Pool.withCurrent]
  · rfl

end State

namespace Overlay

open Progress State

theorem painOf_append (injuries : List Injury) (injury : Injury) :
    painOf (injuries ++ [injury]) = painOf injuries + injury.pain := by
  simp [painOf, List.foldl_append]

theorem stressOf_append (injuries : List Injury) (injury : Injury) :
    stressOf (injuries ++ [injury]) = stressOf injuries + injury.stress := by
  simp [stressOf, List.foldl_append]

variable {settings : Settings} {l : Loadout} {baseline s : State} {injuries : List Injury}

/-! ## Settled states -/

theorem resources_finish (settings : Settings) (conditions : NameSet) (s : State) :
    (finish settings conditions s).resources = (clamp s).resources := rfl

/-- Over a settled state the sources lay its own pools and tracks, and the last overlays leave it as
it is. -/
theorem finish_laid_of_settled (h : (run settings l baseline s).failure = none)
    (hs : (run settings l baseline s).state = s) :
    ((laid settings l baseline).state.carry (handedOn baseline s)).resources = s.resources ∧
      finish settings l.conditions ((laid settings l baseline).state.carry (handedOn baseline s)) =
        s := by
  have hcarry := carry_handedOn_run h
  obtain ⟨-, -, hstate⟩ := state_run h
  rw [hs] at hcarry hstate
  rw [hcarry, finish_clamp, ← resources_finish settings l.conditions, ← hstate]
  exact ⟨rfl, rfl⟩

theorem laid_injuries (settings : Settings) (l : Loadout) (baseline : State)
    (injuries : List Injury) :
    laid settings { l with injuries } baseline = laid settings l baseline := by
  rw [laid_eq, laid_eq]

theorem failure_run_injuries (h : (run settings l baseline s).failure = none)
    (injuries : List Injury) : (run settings { l with injuries } baseline s).failure = none :=
  (failure_run_eq_none_iff settings { l with injuries } baseline s).2
    ((failure_run_eq_none_iff settings l baseline s).1 h)

theorem diagnostics_run_injuries (h : (run settings l baseline s).failure = none)
    (injuries : List Injury) : (run settings { l with injuries } baseline s).diagnostics =
      (run settings l baseline s).diagnostics := by
  rw [diagnostics_run (failure_run_injuries h injuries), diagnostics_run h, laid_injuries]

/-- Under other injuries a pass over a settled state derives the tracks anew and leaves all else as
it is. -/
theorem state_run_injuries (h : (run settings l baseline s).failure = none)
    (hs : (run settings l baseline s).state = s) (injuries : List Injury) :
    (run settings { l with injuries } baseline s).state = s.withInjuries injuries := by
  let laidState : State := (laid settings l baseline).state.carry (handedOn baseline s)
  obtain ⟨hresources, hfinish⟩ := finish_laid_of_settled h hs
  obtain ⟨-, hinjuries, hstate⟩ := state_run (failure_run_injuries h injuries)
  rw [laid_injuries] at hinjuries hstate
  have hpain : painTrack injuries laidState = painTrack injuries s :=
    congrArg (fun pools : Table Pool ↦ s.pain.update (painOf injuries) (pools.get? "health"))
      hresources
  have hstress : stressTrack injuries laidState = stressTrack injuries s :=
    congrArg (fun pools : Table Pool ↦ s.stress.update (stressOf injuries) (pools.get? "resolve"))
      hresources
  rw [hstate, state_applyInjuries hinjuries]
  show { finish settings l.conditions laidState with
    pain := (painTrack injuries laidState).1
    stress := (stressTrack injuries laidState).1 } = _
  rw [hfinish, hpain, hstress]
  rfl

theorem withInjuries_of_settled (h : (run settings l baseline s).failure = none)
    (hs : (run settings l baseline s).state = s) : s.withInjuries l.injuries = s :=
  (state_run_injuries h hs l.injuries).symm.trans hs

/-! ## Worse tracks -/

theorem exists_lowPoolBonus_of_settled (h : (run settings l baseline s).failure = none)
    (hs : (run settings l baseline s).state = s) :
    ∀ name ∈ ["health", "resolve"], ∃ bonus, lowPoolBonus (s.resources.get? name) = .ok bonus := by
  intro name hname
  obtain ⟨bonus, hbonus⟩ := ((failure_run_eq_none_iff settings l baseline s).1 h).2 name hname
  have hpools := get?_resources_laid (state_run h).1 s name
  rw [(finish_laid_of_settled h hs).1] at hpools
  exact ⟨bonus, hpools ▸ hbonus⟩

theorem worsens_withInjuries (h : (run settings l baseline s).failure = none)
    (hs : (run settings l baseline s).state = s) (hpain : painOf l.injuries ≤ painOf injuries)
    (hstress : stressOf l.injuries ≤ stressOf injuries) : s.Worsens (s.withInjuries injuries) := by
  obtain ⟨low, hlow⟩ := exists_lowPoolBonus_of_settled h hs "health" (by simp)
  obtain ⟨low', hlow'⟩ := exists_lowPoolBonus_of_settled h hs "resolve" (by simp)
  have hworsens : (s.withInjuries l.injuries).Worsens (s.withInjuries injuries) :=
    ⟨Track.worsens_update rfl (Int.ofNat_le.2 hpain) hlow hlow (Int.le_refl low),
      Track.worsens_update rfl (Int.ofNat_le.2 hstress) hlow' hlow' (Int.le_refl low')⟩
  rwa [withInjuries_of_settled h hs] at hworsens

/-- A pool that has been lowered by hand gives no lower bonus, and the other pools give theirs. -/
theorem lowPoolBonus_pool?_le {name k : String} {m n bonus bonus' : Int}
    (hcurrent : s.current? name = some (some m)) (hle : n ≤ m)
    (h : lowPoolBonus (l.pool? baseline s k) = .ok bonus)
    (h' : lowPoolBonus (l.pool? baseline (s.setCurrent name n) k) = .ok bonus') :
    bonus ≤ bonus' := by
  have hhigh := effectiveCurrent_eq baseline s k
  have hlow := effectiveCurrent_eq baseline (s.setCurrent name n) k
  rw [current?_setCurrent hcurrent] at hlow
  unfold Loadout.pool? at h h'
  by_cases hk : k = name
  · rw [hk, hcurrent, ← hk] at hhigh
    rw [if_pos hk] at hlow
    rw [hhigh] at h
    rw [hlow] at h'
    cases hp : baseline.resources.get? k with
    | none =>
      rw [hp] at h h'
      exact Int.le_of_eq (Except.ok.inj (h.symm.trans h'))
    | some p =>
      rw [hp] at h h'
      exact lowPoolBonus_le (by rfl) (by rfl) (by rfl) hle h h'
  · rw [if_neg hk, ← hhigh] at hlow
    rw [hlow] at h'
    exact Int.le_of_eq (Except.ok.inj (h.symm.trans h'))

/-- A completed pass derives each track from its modifier, the injuries and one pool. -/
theorem tracks_run (h : (run settings l baseline s).failure = none) :
    (run settings l baseline s).state.pain =
        (s.pain.update (painOf l.injuries) (l.pool? baseline s "health")).1 ∧
      (run settings l baseline s).state.stress =
        (s.stress.update (stressOf l.injuries) (l.pool? baseline s "resolve")).1 := by
  obtain ⟨hlaid, hinjuries, hstate⟩ := state_run h
  rw [hstate, state_applyInjuries hinjuries, ← get?_resources_laid hlaid,
    ← get?_resources_laid hlaid]
  exact ⟨rfl, rfl⟩

/-- A pass that completes after a pool was lowered by hand improves no track. -/
theorem worsens_run_setCurrent (h : (run settings l baseline s).failure = none)
    (hs : (run settings l baseline s).state = s) {name : String} {m n : Int}
    (hcurrent : s.current? name = some (some m)) (hle : n ≤ m)
    (h' : (run settings l baseline (s.setCurrent name n)).failure = none) :
    s.Worsens (run settings l baseline (s.setCurrent name n)).state := by
  have hbonus := ((failure_run_eq_none_iff settings l baseline s).1 h).2
  have hbonus' := ((failure_run_eq_none_iff settings l baseline (s.setCurrent name n)).1 h').2
  obtain ⟨high, hhigh⟩ := hbonus "health" (by simp)
  obtain ⟨low, hlow⟩ := hbonus' "health" (by simp)
  obtain ⟨high', hhigh'⟩ := hbonus "resolve" (by simp)
  obtain ⟨low', hlow'⟩ := hbonus' "resolve" (by simp)
  have hpain := lowPoolBonus_pool?_le hcurrent hle hhigh hlow
  have hstress := lowPoolBonus_pool?_le hcurrent hle hhigh' hlow'
  have htracks := tracks_run h
  rw [hs] at htracks
  constructor
  · rw [htracks.1, (tracks_run h').1]
    exact Track.worsens_update (by simp [State.setCurrent]) (Int.le_refl _) hhigh hlow hpain
  · rw [htracks.2, (tracks_run h').2]
    exact Track.worsens_update rfl (Int.le_refl _) hhigh' hlow' hstress

end Overlay

end CharacterSheet
