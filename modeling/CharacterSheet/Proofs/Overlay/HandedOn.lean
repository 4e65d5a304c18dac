import CharacterSheet.Proofs.Overlay.Currents

/-!
# What a pass hands on before it clamps

The current values of the pools of the baseline and the modifiers of the two tracks are all that the
next pass reads of a working state.  Restoring keeps them, and so does every overlay but the last,
also one that fails half way.
-/

namespace CharacterSheet

namespace State

/-- Two working states that are the same to a pass over a baseline. -/
structure HandsOnAlike (baseline s t : State) : Prop where
  current : ∀ name, baseline.resources.contains name →
    effectiveCurrent baseline s name = effectiveCurrent baseline t name
  pain : s.pain.modifier = t.pain.modifier
  stress : s.stress.modifier = t.stress.modifier

namespace HandsOnAlike

variable {baseline s t u : State}

theorem refl (s : State) : HandsOnAlike baseline s s := ⟨fun _ _ ↦ rfl, rfl, rfl⟩

theorem symm (h : HandsOnAlike baseline s t) : HandsOnAlike baseline t s :=
  ⟨fun name hname ↦ (h.current name hname).symm, h.pain.symm, h.stress.symm⟩

theorem trans (h : HandsOnAlike baseline s t) (h' : HandsOnAlike baseline t u) :
    HandsOnAlike baseline s u :=
  ⟨fun name hname ↦ (h.current name hname).trans (h'.current name hname), h.pain.trans h'.pain,
    h.stress.trans h'.stress⟩

end HandsOnAlike

theorem effectiveCurrent_eq (baseline s : State) (name : String) :
    effectiveCurrent baseline s name =
      (s.current? name).getD ((baseline.resources.get? name).bind Pool.current) := by
  unfold effectiveCurrent current?
  cases s.resources.get? name <;> rfl

theorem SameCurrents.handsOnAlike {s t : State} (h : s.SameCurrents t) (baseline : State)
    (hpain : s.pain.modifier = t.pain.modifier) (hstress : s.stress.modifier = t.stress.modifier) :
    HandsOnAlike baseline s t := by
  refine ⟨fun name _ ↦ ?_, hpain, hstress⟩
  rw [effectiveCurrent_eq, effectiveCurrent_eq, h name]

theorem handsOnAlike_restore (baseline s : State) :
    HandsOnAlike baseline s (restore baseline s) := by
  refine ⟨fun name hname ↦ ?_, rfl, rfl⟩
  obtain ⟨pool, hpool⟩ := Option.isSome_iff_exists.1 hname
  simp only [effectiveCurrent, restore, Table.get?_mapWithKey, hpool, Option.map_some]
  cases s.resources.get? name <;> rfl

/-- Two working states that differ in nothing but what injuries derive of the two tracks. -/
structure SameButTracks (s t : State) : Prop where
  rest : t = { s with pain := t.pain, stress := t.stress }
  pain : s.pain.modifier = t.pain.modifier
  stress : s.stress.modifier = t.stress.modifier

theorem SameButTracks.refl (s : State) : SameButTracks s s := ⟨rfl, rfl, rfl⟩

/-- States that are the same to a pass are restored to the same state, but for the tracks. -/
theorem HandsOnAlike.sameButTracks_restore {baseline s t : State} (h : HandsOnAlike baseline s t) :
    SameButTracks (restore baseline s) (restore baseline t) := by
  refine ⟨?_, h.pain, h.stress⟩
  have hcarried : restore baseline t =
      baseline.carry { handedOn baseline s with pain := t.pain, stress := t.stress } := by
    rw [restore_eq_carry]
    exact carry_congr (fun name hname ↦ (h.current name hname).symm) rfl rfl
  rw [hcarried, restore_eq_carry]
  rfl

end State

namespace Stage

/-- The overlays before the pools are clamped. -/
def beforeClamping : List Stage := laying ++ [applyInjuries, applyConditions, finalizeMovement]

theorem all_eq_beforeClamping : all = beforeClamping ++ [clampResources] := rfl

theorem clampResources_notMem_beforeClamping : clampResources ∉ beforeClamping := by decide

end Stage

namespace Overlay

open Progress State

/-- What is carried over of a state. -/
def carriedOf (s : State) : Carried where
  current name := (s.resources.get? name).bind Pool.current
  pain := s.pain
  stress := s.stress

/-- Where the current values are those that a state has, only the tracks are put into it. -/
theorem carry_eq_of_current {c : Carried} {s : State}
    (h : ∀ name current, s.current? name = some current → c.current name = current) :
    s.carry c = { s with pain := c.pain, stress := c.stress } := by
  have hpools : (s.carry c).resources = s.resources := by
    rw [resources_carry]
    refine Table.mapWithKey_eq_self fun name p hp ↦ ?_
    rw [h name p.current (by rw [current?, hp, Option.map_some])]
    rfl
  simp only [carry] at hpools ⊢
  rw [hpools]

theorem current_carriedOf {s : State} {name : String} {current : Option Int}
    (h : s.current? name = some current) : (carriedOf s).current name = current := by
  obtain ⟨p, hp, rfl⟩ := Option.map_eq_some_iff.1 h
  simp only [carriedOf, hp, Option.bind_some]

theorem carry_carriedOf (s : State) : s.carry (carriedOf s) = s :=
  carry_eq_of_current fun _ _ ↦ current_carriedOf

/-- The overlays up to the gate bonuses leave both tracks, whether they complete or not. -/
theorem tracks_laying (settings : Settings) (l : Loadout) {stage : Stage}
    (hstage : stage ∈ Stage.laying) (s : State) :
    (stage.run settings l s).state.pain = s.pain ∧
      (stage.run settings l s).state.stress = s.stress := by
  have h := indifferent_stage (carriedOf s) settings l hstage s
  rw [carry_carriedOf] at h
  exact ⟨congrArg (fun p ↦ p.state.pain) h, congrArg (fun p ↦ p.state.stress) h⟩

/-- States that differ in the tracks come out of an overlay in the same way, and once injuries have
been applied they differ no more. -/
theorem sameButTracks_stage (settings : Settings) (l : Loadout) (stage : Stage) {s t : State}
    (h : SameButTracks s t) (hcompleted : (stage.run settings l s).failure = none) :
    (stage.run settings l t).failure = none ∧
      (stage.run settings l t).diagnostics = (stage.run settings l s).diagnostics ∧
      SameButTracks (stage.run settings l s).state (stage.run settings l t).state ∧
      (stage = .applyInjuries →
        (stage.run settings l t).state = (stage.run settings l s).state) := by
  obtain ⟨hrest, hpain, hstress⟩ := h
  let c : Carried := { carriedOf s with pain := t.pain, stress := t.stress }
  have hc (name : String) (current : Option Int) (h : s.current? name = some current) :
      c.current name = current := current_carriedOf h
  have ht : s.carry c = t := (carry_eq_of_current hc).trans hrest.symm
  by_cases hlaying : stage ∈ Stage.laying
  · have hrun := indifferent_stage c settings l hlaying s
    rw [ht] at hrun
    obtain ⟨hpain', hstress'⟩ := tracks_laying settings l hlaying s
    have hclamp : stage ≠ .clampResources := by
      rintro rfl
      exact absurd hlaying (by decide)
    have hcurrents := sameCurrents_stage settings l hclamp s
    have hlaid := carry_eq_of_current (c := c) fun name current hname ↦
      hc name current ((hcurrents name).symm.trans hname)
    rw [hrun]
    refine ⟨by simpa using hcompleted, by simp, ⟨hlaid, ?_, ?_⟩, ?_⟩
    · rw [hpain', hpain]
      rfl
    · rw [hstress', hstress]
      rfl
    · rintro rfl
      exact absurd hlaying (by decide)
  · cases stage with
    | applyInjuries =>
      have hagree : Agree (applyInjuries l.injuries (s.carry (carriedOf s)))
          (applyInjuries l.injuries (s.carry c)) :=
        agree_applyInjuries l.injuries s rfl hpain hstress
      rw [carry_carriedOf, ht] at hagree
      have hstate := hagree.state hcompleted
      refine ⟨hagree.failure.symm.trans hcompleted, hagree.diagnostics.symm, ?_,
        fun _ ↦ hstate.symm⟩
      show SameButTracks (applyInjuries l.injuries s).state (applyInjuries l.injuries t).state
      rw [← hstate]
      exact .refl _
    | applyConditions =>
      rw [hrest]
      exact ⟨rfl, rfl, ⟨rfl, hpain, hstress⟩, fun h ↦ by cases h⟩
    | finalizeMovement =>
      rw [hrest]
      exact ⟨rfl, rfl, ⟨rfl, hpain, hstress⟩, fun h ↦ by cases h⟩
    | clampResources =>
      rw [hrest]
      exact ⟨rfl, rfl, ⟨rfl, hpain, hstress⟩, fun h ↦ by cases h⟩
    | _ => exact absurd (by decide) hlaying

theorem modifiers_applyInjuries (injuries : List Injury) (s : State) :
    (applyInjuries injuries s).state.pain.modifier = s.pain.modifier ∧
      (applyInjuries injuries s).state.stress.modifier = s.stress.modifier := by
  rw [applyInjuries_eq]
  refine keeps_andThen
    (P := fun t ↦ t.pain.modifier = s.pain.modifier ∧ t.stress.modifier = s.stress.modifier)
    ⟨Track.modifier_update .., rfl⟩ fun t ht ↦ ⟨ht.1, (Track.modifier_update ..).trans ht.2⟩

/-- Every overlay but the last hands on what it was handed, also when it fails. -/
theorem handsOnAlike_stage (settings : Settings) (l : Loadout) {stage : Stage}
    (hstage : stage ≠ .clampResources) (baseline s : State) :
    HandsOnAlike baseline s (stage.run settings l s).state := by
  have hcurrents := sameCurrents_stage settings l hstage s
  by_cases hlaying : stage ∈ Stage.laying
  · obtain ⟨hpain, hstress⟩ := tracks_laying settings l hlaying s
    exact hcurrents.handsOnAlike baseline (by rw [hpain]) (by rw [hstress])
  · cases stage with
    | applyInjuries =>
      obtain ⟨hpain, hstress⟩ := modifiers_applyInjuries l.injuries s
      exact hcurrents.handsOnAlike baseline hpain.symm hstress.symm
    | applyConditions => exact hcurrents.handsOnAlike baseline rfl rfl
    | finalizeMovement => exact hcurrents.handsOnAlike baseline rfl rfl
    | clampResources => exact absurd rfl hstage
    | _ => exact absurd (by decide) hlaying

end Overlay

end CharacterSheet
