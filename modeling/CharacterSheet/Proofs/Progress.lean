import CharacterSheet.Progress

/-!
# Laws of progress

A run of steps completes exactly when each of its steps does.  A step is indifferent to a change of
the state when it makes no difference whether the change comes before it or after it: such a step
neither reads nor writes what is changed, and so does no run of such steps.
-/

namespace CharacterSheet

namespace Progress

variable {ι : Type}

@[simp] theorem state_start (s : State) : (start s).state = s := rfl

@[simp] theorem failure_start (s : State) : (start s).failure = none := rfl

@[simp] theorem diagnostics_start (s : State) : (start s).diagnostics = [] := rfl

theorem andThen_of_failure {p : Progress} {e : Failure} (h : p.failure = some e)
    (f : State → Progress) : p.andThen f = p := by
  simp [andThen, h]

theorem andThen_of_completed {p : Progress} (h : p.failure = none) (f : State → Progress) :
    p.andThen f = { f p.state with events := p.events ++ (f p.state).events } := by
  simp [andThen, h]

/-- A run completes exactly when its first part does, and then the rest. -/
theorem failure_andThen_eq_none_iff {p : Progress} {f : State → Progress} :
    (p.andThen f).failure = none ↔ p.failure = none ∧ (f p.state).failure = none := by
  cases h : p.failure with
  | some e => simp [andThen_of_failure h, h]
  | none => simp [andThen_of_completed h]

theorem state_andThen {p : Progress} (h : p.failure = none) (f : State → Progress) :
    (p.andThen f).state = (f p.state).state := by
  rw [andThen_of_completed h]

theorem state_thenPure {p : Progress} (h : p.failure = none) (f : State → State) :
    (p.thenPure f).state = f p.state :=
  state_andThen h _

theorem failure_andThen_of_completed {p : Progress} (h : p.failure = none)
    (f : State → Progress) : (p.andThen f).failure = (f p.state).failure := by
  rw [andThen_of_completed h]

theorem failure_thenPure (p : Progress) (f : State → State) :
    (p.thenPure f).failure = p.failure := by
  cases h : p.failure with
  | none => exact failure_andThen_of_completed h _
  | some e => rw [thenPure, andThen_of_failure h, h]

theorem diagnostics_andThen {p : Progress} (h : p.failure = none) (f : State → Progress) :
    (p.andThen f).diagnostics = p.diagnostics ++ (f p.state).diagnostics := by
  rw [andThen_of_completed h]
  exact List.filterMap_append ..

/-- Steps taken one after the other, each for one of some items. -/
def each (f : ι → State → Progress) (items : List ι) (s : State) : Progress :=
  items.foldl (fun p i ↦ p.andThen (f i)) (start s)

@[simp] theorem each_nil (f : ι → State → Progress) (s : State) : each f [] s = start s := rfl

theorem foldl_andThen (f : ι → State → Progress) (items : List ι) (p : Progress) :
    items.foldl (fun p i ↦ p.andThen (f i)) p = p.andThen (each f items) := by
  induction items generalizing p with
  | nil =>
    cases h : p.failure with
    | some e => rw [List.foldl_nil, andThen_of_failure h]
    | none =>
      rw [List.foldl_nil, andThen_of_completed h]
      obtain ⟨s, es, e⟩ := p
      cases h
      simp [start]
  | cons i items ih =>
    have h : each f (i :: items) = fun s ↦ (f i s).andThen (each f items) := by
      funext s
      rw [each, List.foldl_cons, ih, start_andThen]
    rw [List.foldl_cons, ih, h, andThen_assoc]

theorem each_cons (f : ι → State → Progress) (i : ι) (items : List ι) (s : State) :
    each f (i :: items) s = (f i s).andThen (each f items) := by
  rw [each, List.foldl_cons, foldl_andThen, start_andThen]

/-! ## Preservation -/

/-- What the first part of a run leaves true, and the rest keeps true, is true where the run ends,
however it ends. -/
theorem keeps_andThen {P : State → Prop} {p : Progress} {f : State → Progress} (hp : P p.state)
    (hf : ∀ s, P s → P (f s).state) : P (p.andThen f).state := by
  cases h : p.failure with
  | some e =>
    rw [andThen_of_failure h]
    exact hp
  | none =>
    rw [state_andThen h]
    exact hf p.state hp

theorem keeps_each {P : State → Prop} {f : ι → State → Progress} {items : List ι}
    (hf : ∀ i ∈ items, ∀ s, P s → P (f i s).state) {s : State} (hs : P s) :
    P (each f items s).state := by
  induction items generalizing s with
  | nil => exact hs
  | cons i items ih =>
    rw [each_cons]
    refine keeps_andThen (hf i List.mem_cons_self s hs) fun t ht ↦ ?_
    exact ih (fun j hj ↦ hf j (List.mem_cons_of_mem i hj)) ht

/-! ## Indifference -/

/-- The same progress, with the state that it reached changed. -/
def mapState (g : State → State) (p : Progress) : Progress := { p with state := g p.state }

@[simp] theorem state_mapState (g : State → State) (p : Progress) :
    (p.mapState g).state = g p.state := rfl

@[simp] theorem failure_mapState (g : State → State) (p : Progress) :
    (p.mapState g).failure = p.failure := rfl

@[simp] theorem diagnostics_mapState (g : State → State) (p : Progress) :
    (p.mapState g).diagnostics = p.diagnostics := rfl

/-- A step does the same before and after a change of the state. -/
def Indifferent (g : State → State) (f : State → Progress) : Prop :=
  ∀ s, f (g s) = (f s).mapState g

variable {g : State → State} {f h : State → Progress}

theorem mapState_andThen (p : Progress) (hf : Indifferent g f) :
    (p.mapState g).andThen f = (p.andThen f).mapState g := by
  cases hp : p.failure with
  | some e => rw [andThen_of_failure hp, andThen_of_failure (by simpa using hp)]
  | none =>
    rw [andThen_of_completed hp, andThen_of_completed (by simpa using hp), state_mapState, hf]
    rfl

namespace Indifferent

theorem of_pure {k : State → State} (hk : ∀ s, k (g s) = g (k s)) :
    Indifferent g fun s ↦ start (k s) := by
  intro s
  dsimp only
  rw [hk]
  rfl

theorem andThen (hf : Indifferent g f) (hh : Indifferent g h) :
    Indifferent g fun s ↦ (f s).andThen h := by
  intro s
  dsimp only
  rw [hf, mapState_andThen _ hh]

theorem each {f : ι → State → Progress} (hf : ∀ i, Indifferent g (f i)) (items : List ι) :
    Indifferent g (Progress.each f items) := by
  induction items with
  | nil => exact fun s ↦ rfl
  | cons i items ih =>
    intro s
    rw [each_cons, each_cons]
    exact (hf i).andThen ih s

end Indifferent

end Progress

end CharacterSheet
