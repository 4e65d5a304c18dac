import CharacterSheet.Proofs.Overlay.ClosedForm
import CharacterSheet.Proofs.Table

/-!
# What sources report

Which problems a source reports depends on the source and on the names of the entries that the state
has.  Laying a source neither adds nor drops entries.  So each source reports the same wherever it
stands among the others.
-/

namespace CharacterSheet

namespace Table

variable {α β : Type}

theorem dangling_congr {t u : Table β} (h : t.keys = u.keys) (blank : α → Bool)
    (values : Table α) : t.dangling blank values = u.dangling blank values := by
  rw [dangling, dangling, funext (contains_congr h)]

end Table

namespace Progress

variable {ι β : Type} {view : State → β} {f g : State → Progress}

/-- A step that completes keeps a view of the state, and what it reports depends on the view. -/
structure Steady (view : State → β) (f : State → Progress) : Prop where
  keeps : ∀ s, (f s).failure = none → view (f s).state = view s
  reports : ∀ s t, view s = view t → (f s).failure = none → (f t).failure = none →
    (f s).diagnostics = (f t).diagnostics

namespace Steady

theorem of_pure {k : State → State} (hk : ∀ s, view (k s) = view s) :
    Steady view fun s ↦ start (k s) where
  keeps := fun s _ ↦ hk s
  reports := fun _ _ _ _ _ ↦ rfl

theorem andThen (hf : Steady view f) (hg : Steady view g) :
    Steady view fun s ↦ (f s).andThen g where
  keeps := fun s h ↦ by
    obtain ⟨hfirst, hrest⟩ := failure_andThen_eq_none_iff.1 h
    rw [state_andThen hfirst, hg.keeps _ hrest, hf.keeps s hfirst]
  reports := fun s t hview hs ht ↦ by
    obtain ⟨hsfirst, hsrest⟩ := failure_andThen_eq_none_iff.1 hs
    obtain ⟨htfirst, htrest⟩ := failure_andThen_eq_none_iff.1 ht
    have hreached : view (f s).state = view (f t).state := by
      rw [hf.keeps s hsfirst, hf.keeps t htfirst, hview]
    rw [diagnostics_andThen hsfirst, diagnostics_andThen htfirst,
      hf.reports s t hview hsfirst htfirst, hg.reports _ _ hreached hsrest htrest]

theorem each {f : ι → State → Progress} (hf : ∀ i, Steady view (f i)) (items : List ι) :
    Steady view (Progress.each f items) := by
  induction items with
  | nil => exact .of_pure fun _ ↦ rfl
  | cons i items ih =>
    have h := (hf i).andThen ih
    rwa [← funext (each_cons f i items)] at h

open Classical in
/-- What a steady step reports is a function of the view. -/
theorem exists_report (hf : Steady view f) : ∃ report : β → List Diagnostic,
    ∀ s, (f s).failure = none → (f s).diagnostics = report (view s) := by
  refine ⟨fun v ↦ if h : ∃ s, view s = v ∧ (f s).failure = none then (f h.choose).diagnostics
    else [], fun s hs ↦ ?_⟩
  have hsome : ∃ t, view t = view s ∧ (f t).failure = none := ⟨s, rfl, hs⟩
  dsimp only
  rw [dif_pos hsome]
  exact hf.reports s _ hsome.choose_spec.1.symm hs hsome.choose_spec.2

/-- Each item reports what it reports over a state with the same view. -/
theorem diagnostics_each {f : ι → State → Progress} (hf : ∀ i, Steady view (f i))
    {report : ι → β → List Diagnostic}
    (hreport : ∀ i s, (f i s).failure = none → (f i s).diagnostics = report i (view s))
    {items : List ι} {s : State} (h : (Progress.each f items s).failure = none) :
    (Progress.each f items s).diagnostics = items.flatMap fun i ↦ report i (view s) := by
  induction items generalizing s with
  | nil => rfl
  | cons i items ih =>
    rw [each_cons] at h ⊢
    obtain ⟨hfirst, hrest⟩ := failure_andThen_eq_none_iff.1 h
    rw [diagnostics_andThen hfirst, hreport i s hfirst, ih hrest, (hf i).keeps s hfirst,
      List.flatMap_cons]

/-- Items report the same in every order in which they complete. -/
theorem diagnostics_each_perm {f : ι → State → Progress} (hf : ∀ i, Steady view (f i))
    {items items' : List ι} (hitems : items.Perm items') {s t : State} (hview : view s = view t)
    (h : (Progress.each f items s).failure = none)
    (h' : (Progress.each f items' t).failure = none) :
    (Progress.each f items s).diagnostics.Perm (Progress.each f items' t).diagnostics := by
  obtain ⟨report, hreport⟩ := Classical.skolem.1 fun i ↦ (hf i).exists_report
  rw [diagnostics_each hf hreport h, diagnostics_each hf hreport h', hview]
  exact hitems.flatMap_right _

end Steady

end Progress

namespace State

open Progress

/-- The names of the entries that deltas add to. -/
structure EntryNames where
  attributes : List String
  basic : List String
  weapon : List String
  magic : List String
  crafting : List String
  mitigation : List String
  resources : List String
  movementBonuses : List String
  weaponRanges : List String

def entryNames (s : State) : EntryNames where
  attributes := s.attributes.keys
  basic := s.basic.keys
  weapon := s.weapon.keys
  magic := s.magic.keys
  crafting := s.crafting.keys
  mitigation := s.mitigation.keys
  resources := s.resources.keys
  movementBonuses := s.movementBonuses.keys
  weaponRanges := s.weaponRanges.keys

theorem steady_addResource (source : Option String) (field : String) (n : Int) :
    Steady entryNames (addResource source field n) where
  keeps := fun s _ ↦ by
    unfold addResource
    split
    · rfl
    · split
      · rfl
      · rfl
      · split
        · simp [start, entryNames]
        · rfl
  reports := fun s t hview _ _ ↦ by
    have hpools (name : String) : s.resources.contains name = t.resources.contains name :=
      Table.contains_congr (congrArg EntryNames.resources hview) name
    unfold addResource
    split
    · rfl
    · split
      · rfl
      · rfl
      · next name part _ =>
        rw [hpools]
        split <;> rfl

theorem steady_addNumbers (source : Option String) (d : Delta) : Steady entryNames fun s ↦
    { state := s.addNumbers d, events := s.danglingNumbers source d } where
  keeps := fun s _ ↦ by simp [addNumbers, entryNames]
  reports := fun s t hview _ _ ↦ by
    injection hview with hattributes hbasic hweapon hmagic hcrafting hmitigation
    simp only [diagnostics, danglingNumbers, Table.dangling_congr hattributes,
      Table.dangling_congr hbasic, Table.dangling_congr hweapon, Table.dangling_congr hmagic,
      Table.dangling_congr hcrafting, Table.dangling_congr hmitigation]

theorem steady_addRanges (source : Option String) (d : Delta) : Steady entryNames fun s ↦
    { state := s.addRanges d, events := s.danglingRanges source d } where
  keeps := fun s _ ↦ by simp [addRanges, entryNames]
  reports := fun s t hview _ _ ↦ by
    injection hview with _ _ _ _ _ _ _ hmovement hranges
    simp only [diagnostics, danglingRanges, Table.dangling_congr hmovement,
      Table.dangling_congr hranges]

theorem steady_addImmunities (found : List Value) : Steady entryNames (addImmunities found) where
  keeps := fun s _ ↦ by
    unfold addImmunities
    split
    · rfl
    · split <;> rfl
  reports := fun s t _ _ _ ↦ by
    have hnone (s : State) : (addImmunities found s).diagnostics = [] := by
      unfold addImmunities
      split
      · rfl
      · split <;> rfl
    rw [hnone, hnone]

theorem entryNames_file (gated : Table (List GatedEffect)) (s : State) :
    (file gated s).entryNames = s.entryNames := by
  unfold file
  dsimp only
  split <;> rfl

theorem steady_applyWith (source : Option String) (d : Delta) (found : List Value) :
    Steady entryNames (applyWith source d found) := by
  have hresources : Steady entryNames (addResources source d.resources.entries) :=
    Steady.each (f := fun e ↦ addResource source e.1 e.2)
      (fun e ↦ steady_addResource source e.1 e.2) d.resources.entries
  have hfeatures : Steady entryNames fun s ↦ start (addFeatures d.features s) :=
    .of_pure fun _ ↦ rfl
  have hlists : Steady entryNames fun s ↦ start (addLists d s) := .of_pure fun _ ↦ rfl
  have hfile : Steady entryNames fun s ↦ start (file d.gated s) :=
    .of_pure (entryNames_file d.gated)
  exact ((((((steady_addNumbers source d).andThen hresources).andThen
    (steady_addRanges source d)).andThen hfeatures).andThen (steady_addImmunities _)).andThen
      hlists).andThen hfile

end State

namespace Overlay

open Progress State

theorem steady_events (es : List Event) :
    Steady entryNames fun s ↦ { state := s, events := es } where
  keeps := fun _ _ ↦ rfl
  reports := fun _ _ _ _ _ ↦ rfl

theorem steady_train (item : Item) : Steady entryNames (train item) :=
  (steady_events (item.training.events "source" item.id)).andThen (steady_applyWith ..)

theorem steady_wear (item : Item) : Steady entryNames (wear item) := by
  have hread := steady_events (item.gear.events "source" item.id)
  cases h : item.gear.result with
  | error e =>
    rw [funext (wear_of_error h)]
    exact hread
  | ok g =>
    have hextras : Steady entryNames fun s ↦ start (addExtras g s) := .of_pure fun _ ↦ rfl
    rw [funext (wear_of_ok h)]
    exact (hread.andThen (steady_applyWith ..)).andThen hextras

/-- A completed pass reports what its trainings and its worn items report. -/
theorem diagnostics_run_eq {settings : Settings} {l : Loadout} {baseline s : State}
    (h : (run settings l baseline s).failure = none) :
    ∃ t : State, t.entryNames = (prepared baseline).entryNames ∧
      (each train l.trainings (prepared baseline)).failure = none ∧
      (each wear l.equipment.wornItems t).failure = none ∧
      (run settings l baseline s).diagnostics =
        (each train l.trainings (prepared baseline)).diagnostics ++
          (each wear l.equipment.wornItems t).diagnostics := by
  have hlaid := (state_run h).1
  have hreports := diagnostics_run h
  rw [laid_eq] at hlaid hreports
  obtain ⟨htrained, hrest⟩ := failure_andThen_eq_none_iff.1 hlaid
  obtain ⟨hequipped, -⟩ := failure_andThen_eq_none_iff.1 hrest
  obtain ⟨hworn, -⟩ := failure_andThen_eq_none_iff.1 hequipped
  refine ⟨_, (Steady.each steady_train l.trainings).keeps _ htrained, htrained, hworn, ?_⟩
  rw [hreports, diagnostics_andThen htrained, diagnostics_andThen hequipped, applyEquipment,
    diagnostics_andThen hworn]
  show _ ++ ((_ ++ []) ++ []) = _
  rw [List.append_nil, List.append_nil]
  rfl

/-- Two completed passes over the same sources in another order report the same. -/
theorem diagnostics_run_perm {settings : Settings} {l l' : Loadout} {baseline s : State}
    (htrainings : l.trainings.Perm l'.trainings)
    (hworn : l.equipment.wornItems.Perm l'.equipment.wornItems)
    (h : (run settings l baseline s).failure = none)
    (h' : (run settings l' baseline s).failure = none) :
    (run settings l baseline s).diagnostics.Perm (run settings l' baseline s).diagnostics := by
  obtain ⟨t, ht, htrained, hwearing, hreports⟩ := diagnostics_run_eq h
  obtain ⟨t', ht', htrained', hwearing', hreports'⟩ := diagnostics_run_eq h'
  rw [hreports, hreports']
  exact (Steady.diagnostics_each_perm steady_train htrainings rfl htrained htrained').append
    (Steady.diagnostics_each_perm steady_wear hworn (ht.trans ht'.symm) hwearing hwearing')

end Overlay

end CharacterSheet
