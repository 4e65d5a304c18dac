import CharacterSheet.Character

/-!
# Inputs of characters

The working state, the diagnostics and the two marks of a recompute are set by passes; everything
else is an input.  Changes read and write inputs only.
-/

namespace CharacterSheet

namespace Character

/-- The same inputs with another working state, other diagnostics and other marks. -/
def withRun (c : Character) (state : State) (diagnostics : List Diagnostic) (queued : Bool)
    (status : Status) : Character :=
  { c with state, diagnostics, queued, status }

/-- A character whose inputs are those of another one. -/
def SameInputs (c c' : Character) : Prop :=
  c' = c.withRun c'.state c'.diagnostics c'.queued c'.status

theorem SameInputs.refl (c : Character) : SameInputs c c := rfl

theorem sameInputs_withRun (c : Character) (state : State) (diagnostics : List Diagnostic)
    (queued : Bool) (status : Status) :
    SameInputs c (c.withRun state diagnostics queued status) := rfl

theorem SameInputs.trans {c c' c'' : Character} (h : SameInputs c c') (h' : SameInputs c' c'') :
    SameInputs c c'' := by
  have hsecond : c'' = c'.withRun c''.state c''.diagnostics c''.queued c''.status := h'
  rw [show c' = c.withRun c'.state c'.diagnostics c'.queued c'.status from h] at hsecond
  exact hsecond

theorem SameInputs.name_eq {c c' : Character} (h : SameInputs c c') : c'.name = c.name := by
  rw [h]
  rfl

theorem SameInputs.baseline_eq {c c' : Character} (h : SameInputs c c') :
    c'.baseline = c.baseline := by
  rw [h]
  rfl

theorem SameInputs.loadout_eq {c c' : Character} (h : SameInputs c c') :
    c'.loadout = c.loadout := by
  rw [h]
  rfl

end Character

namespace Change

/-- Whether a change names no slot that there is not. -/
def accepted (change : Change) : Bool := (change.slot?.filter (!slots.contains ·)).isNone

theorem isOk_apply (change : Change) (c : Character) :
    (change.apply c).isOk = change.accepted := by
  unfold apply accepted
  cases change.slot?.filter (!slots.contains ·) <;> rfl

/-- A change is made to the sources of a character and to nothing else. -/
theorem eq_of_apply_eq_ok {change : Change} {c c' : Character} (h : change.apply c = .ok c') :
    c' = { c with
      trainings := c'.trainings
      equipment := c'.equipment
      injuries := c'.injuries
      conditions := c'.conditions } := by
  unfold apply at h
  cases hslot : change.slot?.filter (!slots.contains ·) with
  | some slot =>
    rw [hslot] at h
    cases h
  | none =>
    rw [hslot] at h
    cases change <;> cases h <;> rfl

theorem kept_of_apply_eq_ok {change : Change} {c c' : Character} (h : change.apply c = .ok c') :
    c'.name = c.name ∧ c'.baseline = c.baseline := by
  rw [eq_of_apply_eq_ok h]
  exact ⟨rfl, rfl⟩

/-- A change leaves the numbers of all layers. -/
theorem layers_of_apply_eq_ok {change : Change} {c c' : Character} (h : change.apply c = .ok c') :
    c'.base = c.base ∧ c'.baseline = c.baseline ∧ c'.state = c.state := by
  rw [eq_of_apply_eq_ok h]
  exact ⟨rfl, rfl, rfl⟩

theorem run_of_apply_eq_ok {change : Change} {c c' : Character} (h : change.apply c = .ok c') :
    c'.status = c.status ∧ c'.queued = c.queued := by
  rw [eq_of_apply_eq_ok h]
  exact ⟨rfl, rfl⟩

/-- A change neither reads nor writes what is derived from the inputs. -/
theorem apply_withRun (change : Change) (c : Character) (state : State)
    (diagnostics : List Diagnostic) (queued : Bool) (status : Status) :
    change.apply (c.withRun state diagnostics queued status) =
      (change.apply c).map (·.withRun state diagnostics queued status) := by
  unfold apply
  cases change.slot?.filter (!slots.contains ·) with
  | some slot => rfl
  | none => cases change <;> rfl

end Change

end CharacterSheet
