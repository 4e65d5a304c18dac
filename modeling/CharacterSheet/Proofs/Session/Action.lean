import CharacterSheet.Proofs.Character
import CharacterSheet.Session

/-!
# Actions inside passes

What an action does to the inputs of a character and what it is answered while a recompute is
running, one action after another.  Nothing that passes derive has a part in it.
-/

namespace CharacterSheet

/-- What is answered to a change that is made to a character. -/
def Change.reply (change : Change) (c : Character) : Reply :=
  match change with
  | unequip _ => .item ((change.takesOut? c).map Item.id)
  | _ => .done

namespace Action

/-- An action that makes a change, or asks for a recompute or a rebuild. -/
def Reentrant (a : Action) : Prop :=
  match a.command with
  | .change _ | .recompute | .rebuild => True
  | _ => False

/-- Whether an action makes a change. -/
def mutates (a : Action) : Bool :=
  match a.command with
  | .change change => change.accepted
  | _ => false

/-- Whether the pass goes on after an action. -/
def survives (a : Action) : Bool := a.mutates || a.caught

/-- What an action does to the inputs of a character. -/
def onto (a : Action) (c : Character) : Character :=
  match a.command with
  | .change change => (change.apply c).toOption.getD c
  | _ => c

/-- What an action is answered while a recompute is running. -/
def answer (a : Action) (c : Character) : Except Failure Reply :=
  match a.command with
  | .change change => (change.apply c).map fun _ ↦ change.reply c
  | .rebuild => .error (.rebuildDuringPass c.name)
  | _ => .error (.alreadyRunning c.name)

theorem isOk_answer (a : Action) (c : Character) : (a.answer c).isOk = a.mutates := by
  obtain ⟨command, caught, label⟩ := a
  cases command with
  | change change =>
    show ((change.apply c).map fun _ ↦ change.reply c).isOk = change.accepted
    rw [← Change.isOk_apply change c]
    cases change.apply c <;> rfl
  | _ => rfl

theorem onto_withRun (a : Action) (c : Character) (state : State) (diagnostics : List Diagnostic)
    (queued : Bool) (status : Status) :
    a.onto (c.withRun state diagnostics queued status) =
      (a.onto c).withRun state diagnostics queued status := by
  unfold onto
  split
  · rw [Change.apply_withRun]
    cases Change.apply _ c <;> rfl
  · rfl

theorem answer_withRun (a : Action) (c : Character) (state : State) (diagnostics : List Diagnostic)
    (queued : Bool) (status : Status) :
    a.answer (c.withRun state diagnostics queued status) = a.answer c := by
  unfold answer
  split
  · rw [Change.apply_withRun]
    cases Change.apply _ c <;> rfl
  · rfl
  · rfl

theorem kept_onto (a : Action) (c : Character) :
    (a.onto c).name = c.name ∧ (a.onto c).baseline = c.baseline := by
  obtain ⟨command, caught, label⟩ := a
  cases command with
  | change change =>
    show ((change.apply c).toOption.getD c).name = c.name ∧
      ((change.apply c).toOption.getD c).baseline = c.baseline
    cases happly : change.apply c with
    | error e => exact ⟨rfl, rfl⟩
    | ok c' => exact Change.kept_of_apply_eq_ok happly
  | _ => exact ⟨rfl, rfl⟩

theorem onto_of_not_mutates {a : Action} (h : a.mutates = false) (c : Character) :
    a.onto c = c := by
  have hanswer := a.isOk_answer c
  obtain ⟨command, caught, label⟩ := a
  cases command with
  | change change =>
    have hrefused : (change.apply c).isOk = false := (change.isOk_apply c).trans h
    show (change.apply c).toOption.getD c = c
    cases happly : change.apply c with
    | error e => rfl
    | ok c' =>
      rw [happly] at hrefused
      cases hrefused
  | _ => rfl

end Action

namespace Character

/-- The character after some actions inside passes, as far as inputs are concerned. -/
def replayed (c : Character) (actions : List Action) : Character :=
  actions.foldl (fun c a ↦ a.onto c) c

/-- What actions are answered one after another, under their labels. -/
def answers (c : Character) : List Action → List (Nat × Except Failure Reply)
  | [] => []
  | a :: actions => (a.label, a.answer c) :: (a.onto c).answers actions

theorem replayed_append (c : Character) (as bs : List Action) :
    c.replayed (as ++ bs) = (c.replayed as).replayed bs := List.foldl_append

theorem answers_append (c : Character) (as bs : List Action) :
    c.answers (as ++ bs) = c.answers as ++ (c.replayed as).answers bs := by
  induction as generalizing c with
  | nil => rfl
  | cons a as ih => exact congrArg (List.cons _) (ih (a.onto c))

theorem replayed_withRun (c : Character) (state : State) (diagnostics : List Diagnostic)
    (queued : Bool) (status : Status) (actions : List Action) :
    (c.withRun state diagnostics queued status).replayed actions =
      (c.replayed actions).withRun state diagnostics queued status := by
  induction actions generalizing c with
  | nil => rfl
  | cons a actions ih =>
    have hrest := ih (a.onto c)
    rw [← Action.onto_withRun] at hrest
    exact hrest

theorem answers_withRun (c : Character) (state : State) (diagnostics : List Diagnostic)
    (queued : Bool) (status : Status) (actions : List Action) :
    (c.withRun state diagnostics queued status).answers actions = c.answers actions := by
  induction actions generalizing c with
  | nil => rfl
  | cons a actions ih =>
    have hrest := ih (a.onto c)
    rw [answers, Action.answer_withRun, Action.onto_withRun, hrest, answers]

theorem replayed_of_not_mutates {actions : List Action} (h : actions.any Action.mutates = false)
    (c : Character) : c.replayed actions = c := by
  induction actions with
  | nil => rfl
  | cons a actions ih =>
    rw [List.any_cons, Bool.or_eq_false_iff] at h
    show (a.onto c).replayed actions = c
    rw [Action.onto_of_not_mutates h.1, ih h.2]

theorem kept_replayed (c : Character) (actions : List Action) :
    (c.replayed actions).name = c.name ∧ (c.replayed actions).baseline = c.baseline := by
  induction actions generalizing c with
  | nil => exact ⟨rfl, rfl⟩
  | cons a actions ih =>
    obtain ⟨hname, hbaseline⟩ := ih (a.onto c)
    obtain ⟨hname', hbaseline'⟩ := a.kept_onto c
    exact ⟨hname.trans hname', hbaseline.trans hbaseline'⟩

/-- Each action is answered by a character of the same name. -/
theorem exists_of_mem_zip_answers {c : Character} {actions : List Action} {a : Action}
    {r : Nat × Except Failure Reply} (h : (a, r) ∈ actions.zip (c.answers actions)) :
    ∃ c' : Character, c'.name = c.name ∧ r = (a.label, a.answer c') := by
  induction actions generalizing c with
  | nil => cases h
  | cons a' actions ih =>
    rw [answers, List.zip_cons_cons] at h
    rcases List.mem_cons.1 h with hfirst | hrest
    · cases hfirst
      exact ⟨c, rfl, rfl⟩
    · obtain ⟨c', hname, hr⟩ := ih hrest
      exact ⟨c', hname.trans (a'.kept_onto c).1, hr⟩

theorem SameInputs.replayed {c c' : Character} (h : SameInputs c c') (actions : List Action) :
    SameInputs (c.replayed actions) (c'.replayed actions) := by
  rw [show c' = c.withRun c'.state c'.diagnostics c'.queued c'.status from h, replayed_withRun]
  exact sameInputs_withRun ..

theorem SameInputs.answers_eq {c c' : Character} (h : SameInputs c c') (actions : List Action) :
    c'.answers actions = c.answers actions := by
  rw [show c' = c.withRun c'.state c'.diagnostics c'.queued c'.status from h, answers_withRun]

end Character

end CharacterSheet
