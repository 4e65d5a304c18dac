import CharacterSheet.Proofs.Overlay.Training

/-!
# Broken sources

A source that cannot be processed is laid as if it were blank, and it is reported once.  So a pass
over a character with broken sources ends in the same way, and leaves the same working state, as a
pass over the character without them.
-/

namespace CharacterSheet

namespace Event

/-- The source failures among some events. -/
def faults (es : List Event) : List Diagnostic := Diagnostic.ofKind .sourceFailure (diagnostics es)

theorem faults_append (es es' : List Event) : faults (es ++ es') = faults es ++ faults es' := by
  rw [faults, diagnostics, List.filterMap_append]
  exact List.filter_append ..

end Event

namespace Progress

variable {ι : Type} {p q : Progress} {f g : State → Progress}

/-- Two runs fail in the same way or not at all, and reach the same state.  What they record may
differ. -/
structure EndsAlike (p q : Progress) : Prop where
  failure : p.failure = q.failure
  state : p.state = q.state

namespace EndsAlike

theorem refl (p : Progress) : p.EndsAlike p := ⟨rfl, rfl⟩

theorem andThen (h : p.EndsAlike q) (hf : ∀ s, (f s).EndsAlike (g s)) :
    (p.andThen f).EndsAlike (q.andThen g) := by
  cases hp : p.failure with
  | some e =>
    have hq : q.failure = some e := h.failure ▸ hp
    rw [andThen_of_failure hp, andThen_of_failure hq]
    exact h
  | none =>
    have hq : q.failure = none := h.failure ▸ hp
    rw [andThen_of_completed hp, andThen_of_completed hq, h.state]
    exact ⟨(hf q.state).failure, (hf q.state).state⟩

theorem each {f g : ι → State → Progress} (h : ∀ i s, (f i s).EndsAlike (g i s))
    (items : List ι) (s : State) :
    (Progress.each f items s).EndsAlike (Progress.each g items s) := by
  induction items generalizing s with
  | nil => exact .refl _
  | cons i items ih =>
    rw [each_cons, each_cons]
    exact (h i s).andThen ih

end EndsAlike

theorem each_map {κ : Type} (f : ι → State → Progress) (k : κ → ι) (items : List κ) (s : State) :
    each f (items.map k) s = each (fun i ↦ f (k i)) items s :=
  List.foldl_map

def faults (p : Progress) : List Diagnostic := Event.faults p.events

theorem faults_andThen (h : p.failure = none) (f : State → Progress) :
    (p.andThen f).faults = p.faults ++ (f p.state).faults := by
  rw [faults, andThen_of_completed h]
  exact Event.faults_append ..

theorem faults_andThen_of_eq_nil (p : Progress) (hf : ∀ s, (f s).faults = []) :
    (p.andThen f).faults = p.faults := by
  cases h : p.failure with
  | some e => rw [andThen_of_failure h]
  | none => rw [faults_andThen h, hf, List.append_nil]

theorem faults_thenPure (p : Progress) (f : State → State) : (p.thenPure f).faults = p.faults :=
  faults_andThen_of_eq_nil p fun _ ↦ rfl

theorem faults_each_eq_nil {f : ι → State → Progress} (hf : ∀ i s, (f i s).faults = [])
    (items : List ι) (s : State) : (each f items s).faults = [] := by
  induction items generalizing s with
  | nil => rfl
  | cons i items ih => rw [each_cons, faults_andThen_of_eq_nil _ ih, hf]

theorem faults_each {f : ι → State → Progress} {report : ι → List Diagnostic}
    (hf : ∀ i s, (f i s).faults = report i) {items : List ι} {s : State}
    (h : (each f items s).failure = none) : (each f items s).faults = items.flatMap report := by
  induction items generalizing s with
  | nil => rfl
  | cons i items ih =>
    rw [each_cons] at h ⊢
    obtain ⟨hfirst, hrest⟩ := failure_andThen_eq_none_iff.1 h
    rw [faults_andThen hfirst, hf, ih hrest, List.flatMap_cons]

end Progress

namespace Item

variable {α : Type}

/-- The item with nothing to bring.  Gates still see its category and its weight. -/
def blank (item : Item) : Item :=
  { item with
    code := .null
    encumbrance := .int 0
    detections := .map []
    effects := .list []
    immunities := .list [] }

/-- The item itself if it can be processed, or else its blank. -/
def spare (reading : Item → DataCode.Reading α) (item : Item) : Item :=
  if (reading item).result.isOk then item else item.blank

/-- What is reported of an item that cannot be processed: one source failure, in its name. -/
def failures (reading : Item → DataCode.Reading α) (item : Item) : List Diagnostic :=
  match (reading item).result with
  | .ok _ => []
  | .error e =>
    [⟨.sourceFailure, "could not process source: " ++ e.message, none, some item.id⟩]

theorem spare_of_ok {reading : Item → DataCode.Reading α} {item : Item} {a : α}
    (h : (reading item).result = .ok a) : item.spare reading = item := by
  rw [spare, h]
  rfl

theorem spare_of_error {reading : Item → DataCode.Reading α} {item : Item} {e : SourceError}
    (h : (reading item).result = .error e) : item.spare reading = item.blank := by
  rw [spare, h]
  rfl

theorem bearing_spare (reading : Item → DataCode.Reading α) (item : Item) :
    (item.spare reading).bearing = item.bearing := by
  unfold spare
  split <;> rfl

end Item

namespace Overlay

open Progress State

/-! ## Broken sources are blank -/

theorem endsAlike_train_spare (item : Item) (s : State) :
    (train (item.spare Item.training) s).EndsAlike (train item s) := by
  cases h : item.training.result with
  | ok d =>
    rw [Item.spare_of_ok h]
    exact .refl _
  | error e =>
    rw [Item.spare_of_error h, train, train, h]
    exact EndsAlike.andThen ⟨rfl, rfl⟩ fun s ↦ .refl _

/-- Gear that brings nothing changes nothing. -/
theorem endsAlike_wear_blank (item : Item) (s : State) :
    (wear item.blank s).EndsAlike (.start s) := by
  have hgear : item.blank.gear.result = .ok ⟨.empty, [], 0, [], []⟩ := rfl
  have hfailure := failure_apply_empty (some item.id) s
  constructor
  · exact (failure_wear hgear s).trans hfailure
  · have hstate : (applyWith (some item.id) .empty [] s).state = s := state_apply_empty ..
    rw [state_wear hgear hfailure, show item.blank.id = item.id from rfl, hstate]
    simp [addExtras]

theorem endsAlike_wear_spare (item : Item) (s : State) :
    (wear (item.spare Item.gear) s).EndsAlike (wear item s) := by
  cases h : item.gear.result with
  | ok g =>
    rw [Item.spare_of_ok h]
    exact .refl _
  | error e =>
    have hblank := endsAlike_wear_blank item s
    rw [Item.spare_of_error h, wear_of_error h]
    exact ⟨hblank.failure, hblank.state⟩

end Overlay

/-! ## Changing the items of a loadout -/

namespace Equipment

def mapItems (f : Item → Item) (e : Equipment) : Equipment := e.map (Option.map f)

variable (f : Item → Item) (e : Equipment)

theorem worn?_mapItems (slot : String) : (e.mapItems f).worn? slot = (e.worn? slot).map f := by
  rw [worn?, worn?, mapItems, Table.map, Table.getD, Table.getD, Table.get?_mapWithKey]
  cases e.get? slot <;> rfl

theorem wornItems_mapItems : (e.mapItems f).wornItems = e.wornItems.map f := by
  rw [wornItems, wornItems, List.map_filterMap, funext (worn?_mapItems f e)]

variable {f}

theorem satisfiedGates_mapItems (hf : ∀ item, (f item).bearing = item.bearing) :
    (e.mapItems f).satisfiedGates = e.satisfiedGates := by
  refine satisfiedGates_congr fun slot ↦ ?_
  rw [worn?_mapItems, Option.map_map]
  exact congrArg (fun g ↦ (e.worn? slot).map g) (funext hf)

end Equipment

namespace Loadout

def mapItems (f g : Item → Item) (l : Loadout) : Loadout :=
  { l with trainings := l.trainings.map f, equipment := l.equipment.mapItems g }

/-- The loadout in which sources that cannot be processed are blank. -/
def spared (l : Loadout) : Loadout := l.mapItems (Item.spare Item.training) (Item.spare Item.gear)

/-- One source failure for each source that cannot be processed, trainings first, then worn items
slot by slot. -/
def failures (l : Loadout) : List Diagnostic :=
  l.trainings.flatMap (Item.failures Item.training) ++
    l.equipment.wornItems.flatMap (Item.failures Item.gear)

end Loadout

namespace Overlay

open Progress State

theorem endsAlike_stage_spared (settings : Settings) (l : Loadout) (stage : Stage) (s : State) :
    (stage.run settings l.spared s).EndsAlike (stage.run settings l s) := by
  cases stage with
  | applyTraining =>
    show (each train (l.trainings.map (Item.spare Item.training)) s).EndsAlike
      (each train l.trainings s)
    rw [each_map]
    exact .each endsAlike_train_spare l.trainings s
  | applyEquipment =>
    -- The number of processed items is recorded, but it is no part of the state.
    have hworn : l.spared.equipment.wornItems = l.equipment.wornItems.map (Item.spare Item.gear) :=
      Equipment.wornItems_mapItems ..
    have heach : (each wear l.spared.equipment.wornItems s).EndsAlike
        (each wear l.equipment.wornItems s) := by
      rw [hworn, each_map]
      exact .each endsAlike_wear_spare l.equipment.wornItems s
    unfold Stage.run applyEquipment
    exact heach.andThen fun s ↦ ⟨rfl, rfl⟩
  | applyGateBonuses =>
    have hgates : l.spared.equipment.satisfiedGates = l.equipment.satisfiedGates :=
      Equipment.satisfiedGates_mapItems _ (Item.bearing_spare Item.gear)
    simp only [Stage.run, hgates]
    exact .refl _
  | _ => exact .refl _

/-- A pass ends as if the sources that cannot be processed were blank. -/
theorem endsAlike_run_spared (settings : Settings) (l : Loadout) (baseline s : State) :
    (run settings l.spared baseline s).EndsAlike (run settings l baseline s) :=
  .each (endsAlike_stage_spared settings l) Stage.all (restore baseline s)

end Overlay

/-! ## What is reported -/

namespace Event

theorem faults_danglingReferences (source : Option String) (category : String)
    (names : List String) : faults (names.map (danglingReference source category)) = [] := by
  induction names with
  | nil => rfl
  | cons name names ih => exact ih

theorem faults_complaints (source : Option String) (cs : List DataCode.Complaint) :
    faults ((cs.map (DataCode.Complaint.diagnostic source)).map (.reported · false)) = [] := by
  induction cs with
  | nil => rfl
  | cons c cs ih => exact ih

/-- Of a reading that fails one source failure is recorded, and none of one that does not. -/
theorem faults_reading {α : Type} (reading : Item → DataCode.Reading α) (item : Item) :
    faults ((reading item).events "source" item.id) = item.failures reading := by
  rw [DataCode.Reading.events, faults_append, DataCode.Reading.diagnostics, faults_complaints,
    List.nil_append, Item.failures]
  cases (reading item).result <;> rfl

end Event

namespace State

open Progress

theorem faults_addResource (source : Option String) (field : String) (n : Int) (s : State) :
    (addResource source field n s).faults = [] := by
  unfold addResource
  split
  · rfl
  · split
    · rfl
    · rfl
    · split <;> rfl

theorem faults_addImmunities (found : List Value) (s : State) :
    (addImmunities found s).faults = [] := by
  unfold addImmunities
  split
  · rfl
  · split <;> rfl

theorem faults_applyWith (source : Option String) (d : Delta) (found : List Value) (s : State) :
    (applyWith source d found s).faults = [] := by
  have hnumbers : Event.faults (danglingNumbers source d s) = [] := by
    simp only [danglingNumbers, Event.faults_append, Event.faults_danglingReferences,
      List.append_nil]
  have hranges (s : State) :
      faults { state := s.addRanges d, events := s.danglingRanges source d } = [] := by
    show Event.faults (danglingRanges source d s) = []
    simp only [danglingRanges, Event.faults_append, Event.faults_danglingReferences,
      List.append_nil]
  have hresources (s : State) : (addResources source d.resources.entries s).faults = [] :=
    faults_each_eq_nil (fun e : String × Int ↦ faults_addResource source e.1 e.2) _ s
  rw [applyWith, faults_thenPure, faults_thenPure,
    faults_andThen_of_eq_nil _ (faults_addImmunities _), faults_thenPure,
    faults_andThen_of_eq_nil _ hranges, faults_andThen_of_eq_nil _ hresources]
  exact hnumbers

end State

namespace Overlay

open Progress State

theorem faults_train (item : Item) (s : State) :
    (train item s).faults = item.failures Item.training := by
  have hlaid (t : State) : (apply (some item.id) item.trainingDelta t).faults = [] :=
    faults_applyWith ..
  exact (faults_andThen_of_eq_nil _ hlaid).trans (Event.faults_reading Item.training item)

theorem faults_wear (item : Item) (s : State) :
    (wear item s).faults = item.failures Item.gear := by
  refine Eq.trans ?_ (Event.faults_reading Item.gear item)
  cases h : item.gear.result with
  | ok g =>
    rw [wear_of_ok h, faults_thenPure, faults_andThen_of_eq_nil _ (faults_applyWith _ _ _)]
    rfl
  | error e =>
    rw [wear_of_error h]
    rfl

/-- A completed pass reports each source that cannot be processed once, and no other failure. -/
theorem faults_run {settings : Settings} {l : Loadout} {baseline s : State}
    (h : (run settings l baseline s).failure = none) :
    (run settings l baseline s).faults = l.failures := by
  obtain ⟨hlaid, -, -⟩ := state_run h
  have hfaults : (run settings l baseline s).faults = (laid settings l baseline).faults :=
    congrArg (Diagnostic.ofKind .sourceFailure) (diagnostics_run h)
  rw [hfaults]
  rw [laid_eq] at hlaid ⊢
  obtain ⟨htrained, hrest⟩ := failure_andThen_eq_none_iff.1 hlaid
  obtain ⟨hequipped, -⟩ := failure_andThen_eq_none_iff.1 hrest
  obtain ⟨hworn, -⟩ := failure_andThen_eq_none_iff.1 hequipped
  rw [faults_andThen htrained, faults_andThen_of_eq_nil _ fun _ ↦ rfl, applyEquipment,
    faults_andThen_of_eq_nil _ fun _ ↦ rfl]
  exact congr (congrArg List.append (faults_each faults_train htrained))
    (faults_each faults_wear hworn)

end Overlay

end CharacterSheet
