import CharacterSheet.Proofs.Content.Authored
import CharacterSheet.Proofs.Content.Checked
import Mathlib.Data.List.Forall2

/-!
# Resolving names

A character template names content, slots, attributes, skills, tiers and pools.  Assembling it fails
exactly when one of these names is unknown, and then refuses the template as not valid; otherwise it
yields the character that the template describes.
-/

namespace CharacterSheet

open ContentError

/-! ## Steps that resolve names -/

/-- A step that comes back with a result of a kind if the names in it are known, and otherwise
refuses them as content that is not valid. -/
def Resolves {α : Type} (known : Prop) (P : α → Prop) (x : Except ContentError α) : Prop :=
  (known → ∃ a, x = .ok a ∧ P a) ∧ (¬ known → ∃ e, x = .error e ∧ e.severity = .validation)

namespace Resolves

variable {α β ι σ : Type} {known known' : Prop} {P : α → Prop} {Q : β → Prop}
  {x : Except ContentError α}

theorem pure {a : α} (h : P a) : Resolves True P (.ok a) :=
  ⟨fun _ ↦ ⟨a, rfl, h⟩, fun h ↦ absurd trivial h⟩

theorem congr (hx : Resolves known P x) (h : known' ↔ known) : Resolves known' P x :=
  ⟨fun hknown ↦ hx.1 (h.1 hknown), fun hunknown ↦ hx.2 (mt h.2 hunknown)⟩

theorem mono (hx : Resolves known P x) {P' : α → Prop} (h : ∀ a, P a → P' a) :
    Resolves known P' x := by
  refine ⟨fun hknown ↦ ?_, hx.2⟩
  obtain ⟨a, ha, hP⟩ := hx.1 hknown
  exact ⟨a, ha, h a hP⟩

theorem bind {f : α → Except ContentError β} (hx : Resolves known P x)
    (hf : ∀ a, P a → Resolves known' Q (f a)) : Resolves (known ∧ known') Q (x >>= f) := by
  constructor
  · rintro ⟨hknown, hknown'⟩
    obtain ⟨a, rfl, hP⟩ := hx.1 hknown
    exact (hf a hP).1 hknown'
  · intro hunknown
    by_cases hknown : known
    · obtain ⟨a, rfl, hP⟩ := hx.1 hknown
      exact (hf a hP).2 fun hknown' ↦ hunknown ⟨hknown, hknown'⟩
    · obtain ⟨e, rfl, he⟩ := hx.2 hknown
      exact ⟨e, rfl, he⟩

theorem map {f : α → β} (hx : Resolves known P x) (hf : ∀ a, P a → Q (f a)) :
    Resolves known Q (do return f (← x)) :=
  (hx.bind fun a ha ↦ Resolves.pure (hf a ha)).congr (and_true known).symm.to_iff

/-- A name is looked at before anything is done with it. -/
theorem guard {b : Bool} {e : ContentError} (he : e.severity = .validation)
    (hx : b = true → Resolves known P x) :
    Resolves (b = true ∧ known) P (if b then x else .error e) := by
  cases b with
  | true => exact (hx rfl).congr (by simp)
  | false => exact ⟨fun h ↦ (by cases h.1), fun _ ↦ ⟨e, rfl, he⟩⟩

theorem guard_ok {b : Bool} {e : ContentError} (he : e.severity = .validation) {a : α}
    (ha : b = true → P a) : Resolves (b = true) P (if b then .ok a else .error e) :=
  (guard he fun hb ↦ Resolves.pure (ha hb)).congr (by simp)

theorem mapM {as : List ι} {known : ι → Prop} {P : ι → α → Prop}
    {f : ι → Except ContentError α} (hf : ∀ i ∈ as, Resolves (known i) (P i) (f i)) :
    Resolves (∀ i ∈ as, known i) (List.Forall₂ P as) (as.mapM f) := by
  induction as with
  | nil => exact (Resolves.pure .nil).congr (by simp)
  | cons i as ih =>
    obtain ⟨hhead, htail⟩ := List.forall_mem_cons.1 hf
    rw [List.mapM_cons]
    refine (hhead.bind fun a ha ↦ (ih htail).map fun bs hbs ↦ ?_).congr List.forall_mem_cons
    exact .cons ha hbs

/-- A fold of steps that each change one part of a whole in a known way. -/
theorem foldlM (whole : α → σ) (change : α → ι → α) (I : α → Prop) {is : List ι}
    {known : ι → Prop} {f : σ → ι → Except ContentError σ} (hI : ∀ a i, I a → I (change a i))
    (hf : ∀ a i, I a → Resolves (known i) (· = whole (change a i)) (f (whole a) i)) {a : α}
    (ha : I a) :
    Resolves (∀ i ∈ is, known i) (· = whole (is.foldl change a)) (is.foldlM f (whole a)) := by
  induction is generalizing a with
  | nil => exact (Resolves.pure (P := (· = whole a)) rfl).congr (by simp)
  | cons i is ih =>
    rw [List.foldlM_cons]
    refine ((hf a i ha).bind ?_).congr List.forall_mem_cons
    rintro _ rfl
    exact ih (hI a i ha)

end Resolves

/-! ## The steps of assembling -/

namespace CharacterTemplate

variable (t : CharacterTemplate) {settings : Settings}

theorem resolves_resolve {α : Type} (kind : String) (table : Table α) (key : String) :
    Resolves (key ∈ table.keys) (fun a ↦ table.get? key = some a) (t.resolve kind table key) := by
  unfold resolve
  cases hkey : table.get? key with
  | some a => exact ⟨fun _ ↦ ⟨a, rfl, rfl⟩, fun h ↦ absurd (Table.mem_keys_of_get? hkey) h⟩
  | none => exact ⟨fun h ↦ absurd h (Table.get?_eq_none_iff.1 hkey), fun _ ↦ ⟨_, rfl, rfl⟩⟩

theorem resolves_setAttributes (s : State) : Resolves
    (∀ name ∈ t.attributes.keys, name ∈ s.attributes.keys)
    (· = { s with attributes := s.attributes.mapWithKey fun name n ↦ t.attributes.getD name n })
    (t.setAttributes s) := by
  have hfold : Resolves (∀ e ∈ t.attributes.entries, e.1 ∈ s.attributes.keys)
      (· = { s with attributes :=
        t.attributes.entries.foldl (fun a e ↦ a.modify e.1 fun _ ↦ e.2) s.attributes })
      (t.setAttributes s) := by
    refine Resolves.foldlM (fun a ↦ { s with attributes := a })
      (fun a (e : String × Int) ↦ a.modify e.1 fun _ ↦ e.2) (·.keys = s.attributes.keys)
      (fun a e ha ↦ (Table.keys_modify ..).trans ha) (fun a e ha ↦ ?_) rfl
    refine (Resolves.guard_ok rfl fun hcontains ↦ ?_).congr ?_
    · rw [Table.set_eq_modify hcontains]
    · rw [Table.contains_iff, ha]
  rw [Table.foldl_modify_entries fun n _ ↦ n] at hfold
  simp only [Table.elim_get?] at hfold
  exact hfold.congr List.forall_mem_map

theorem resolves_setSkills {s : State} (hs : s.SkillsOfSchema) :
    Resolves (∀ name ∈ t.skills.keys, name ∈ skillNames)
      (· = s.mapSkills fun name k ↦ { k with value := t.skills.getD name k.value })
      (t.setSkills s) := by
  have hfold : Resolves (∀ e ∈ t.skills.entries, e.1 ∈ skillNames)
      (· = t.skills.entries.foldl
        (fun s e ↦ s.modifySkill e.1 fun k ↦ { k with value := e.2 }) s) (t.setSkills s) := by
    refine Resolves.foldlM id _ State.SkillsOfSchema
      (fun s e hs ↦ hs.modifySkill ..) (fun s e hs ↦ ?_) hs
    refine (Resolves.guard_ok rfl fun _ ↦ ?_).congr ?_
    · rfl
    · exact (State.isSome_skill?_iff hs).symm
  rw [State.foldl_modifySkill_entries (fun n k ↦ { k with value := n }) hs] at hfold
  refine (hfold.congr List.forall_mem_map).mono ?_
  rintro _ rfl
  congr 1
  funext name k
  unfold Table.getD
  cases t.skills.get? name <;> rfl

/-- The names under which a tier can be recorded. -/
def tierFields : List String := "tier" :: legacyTierFields

theorem resolves_setTier (s : State) (skill : String) (field : String × Int) :
    Resolves (field.1 ∈ tierFields) (· = s.modifySkill skill (recordTier field))
      (t.setTier skill s field) := by
  unfold setTier tierFields
  by_cases htier : field.1 = "tier"
  · rw [if_pos htier]
    refine (Resolves.pure ?_).congr (by simp [htier])
    congr 1
    funext k
    exact (if_pos htier).symm
  · rw [if_neg htier]
    refine (Resolves.guard_ok rfl fun _ ↦ ?_).congr (by simp [htier])
    congr 1
    funext k
    exact (if_neg htier).symm

theorem resolves_setTiers {s : State} (hs : s.SkillsOfSchema) :
    Resolves (∀ e ∈ t.skillTiers.entries, e.1 ∈ skillNames ∧ ∀ field ∈ e.2.keys, field ∈ tierFields)
      (· = s.mapSkills fun name k ↦ (t.skillTiers.get? name).elim k fun tiers ↦
        tiers.entries.foldl (fun k field ↦ recordTier field k) k) (t.setTiers s) := by
  have hfold : Resolves
      (∀ e ∈ t.skillTiers.entries, e.1 ∈ skillNames ∧ ∀ field ∈ e.2.keys, field ∈ tierFields)
      (· = t.skillTiers.entries.foldl (fun s e ↦ s.modifySkill e.1 fun k ↦
        e.2.entries.foldl (fun k field ↦ recordTier field k) k) s) (t.setTiers s) := by
    refine Resolves.foldlM id _ State.SkillsOfSchema
      (fun s e hs ↦ hs.modifySkill ..) (fun s e hs ↦ ?_) hs
    refine (Resolves.guard rfl fun _ ↦ ?_).congr (and_congr_left' ?_)
    · rw [← State.foldl_modifySkill_same recordTier e.1 e.2.entries hs]
      refine (Resolves.foldlM id _ State.SkillsOfSchema
        (fun s field hs ↦ hs.modifySkill ..) (fun s field _ ↦ ?_) hs).congr List.forall_mem_map
      exact t.resolves_setTier s e.1 field
    · exact (State.isSome_skill?_iff hs).symm
  rwa [State.foldl_modifySkill_entries (fun (tiers : Table Int) k ↦
    tiers.entries.foldl (fun k field ↦ recordTier field k) k) hs] at hfold

theorem resolves_setCurrents (s : State) : Resolves
    (∀ name ∈ t.current.keys, name ∈ s.resources.keys)
    (· = { s with resources := s.resources.mapWithKey fun name p ↦
      (t.current.get? name).elim p fun n ↦ { p with current := some n } })
    (t.setCurrents s) := by
  have hfold : Resolves (∀ e ∈ t.current.entries, e.1 ∈ s.resources.keys)
      (· = { s with resources := t.current.entries.foldl (fun pools e ↦
        pools.modify e.1 fun p ↦ { p with current := some e.2 }) s.resources })
      (t.setCurrents s) := by
    refine Resolves.foldlM (fun pools ↦ { s with resources := pools })
      (fun pools (e : String × Int) ↦ pools.modify e.1 fun p ↦ { p with current := some e.2 })
      (·.keys = s.resources.keys)
      (fun pools e hpools ↦ (Table.keys_modify ..).trans hpools) (fun pools e hpools ↦ ?_) rfl
    refine (Resolves.guard_ok rfl fun _ ↦ ?_).congr ?_
    · rfl
    · rw [Table.contains_iff, hpools]
  rw [Table.foldl_modify_entries fun (n : Int) (p : Pool) ↦ { p with current := some n }] at hfold
  exact hfold.congr List.forall_mem_map

/-- The base values are known once all attributes, skills, tiers and pools are. -/
theorem resolves_baseState : Resolves
    ((∀ name ∈ t.attributes.keys, name ∈ Schema.attributes) ∧
      (∀ name ∈ t.skills.keys, name ∈ skillNames) ∧
      (∀ e ∈ t.skillTiers.entries, e.1 ∈ skillNames ∧ ∀ field ∈ e.2.keys, field ∈ tierFields) ∧
      ∀ name ∈ t.current.keys, name ∈ t.poolNames)
    (· = t.authored settings) (t.baseState settings) := by
  have hfresh := State.skillsOfSchema_fresh settings
  let s : State := { State.fresh settings with
    attributes := (State.fresh settings).attributes.mapWithKey fun name n ↦
      t.attributes.getD name n }
  have hs : s.SkillsOfSchema := ⟨hfresh.basic, hfresh.weapon, hfresh.magic, hfresh.crafting⟩
  have hattributes : (State.fresh settings).attributes.keys = Schema.attributes :=
    Table.keys_ofNames Schema.attributes 0 Schema.nodup_attributes
  unfold baseState
  refine ((t.resolves_setAttributes (.fresh settings)).congr (by rw [hattributes])).bind ?_
  rintro _ rfl
  refine (t.resolves_setSkills hs).bind ?_
  rintro _ rfl
  refine (t.resolves_setTiers (hs.mapSkills _)).bind ?_
  rintro _ rfl
  rw [State.mapSkills_mapSkills]
  have hskills (f : String → SkillEntry → SkillEntry)
      (hf : ∀ name k, k.legacy = .empty → f name k = t.authoredSkill name k) :
      s.mapSkills f = { (State.fresh settings).mapSkills t.authoredSkill with
        attributes := s.attributes } := by
    rw [← State.mapSkills_fresh_congr hf]
    rfl
  rw [hskills]
  case hf =>
    intro name k hk
    unfold authoredSkill
    cases t.skillTiers.get? name with
    | none => rfl
    | some tiers => exact foldl_recordTier tiers hk
  let u : State := { (State.fresh settings).mapSkills t.authoredSkill with
    attributes := s.attributes }
  have hdefaults : u.resources = (State.fresh settings).resources := rfl
  have hpools := t.resources_setMaxima hdefaults
  have hnames : (t.setMaxima u).resources.keys = t.poolNames := by
    rw [hpools, Table.keys_mapWithKey, Table.keys_ofNames]
  refine ((t.resolves_setCurrents (t.setMaxima u)).congr (by rw [hnames])).mono ?_
  rintro _ rfl
  have hpool (name : String) : ((t.current.get? name).elim { max := t.resources.getD name 0 }
      fun n ↦ ({ max := t.resources.getD name 0, current := some n } : Pool)) =
        t.authoredPool name := by
    unfold authoredPool
    cases t.current.get? name <;> rfl
  rw [hpools, Table.mapWithKey_mapWithKey]
  simp only [hpool]
  rfl

/-! ## Content that is named -/

/-- Selects the options of a module whose names are listed, and no others. -/
def selecting (names : List String) (m : Module) : Module :=
  { m with options := m.options.map fun o ↦ { o with selected := names.contains o.name } }

end CharacterTemplate

/-- The names of the options that there are. -/
def OptionList.names : OptionList → List String
  | notACollection _ => []
  | entries es => es.filterMap fun
    | .option o => some o.name
    | .other _ => none

theorem OptionList.names_ofOptions (os : List ModuleOption) :
    (ofOptions os).names = os.map ModuleOption.name := by
  simp [names, ofOptions, List.filterMap_map]

theorem OptionList.all_ofOptions (field : String) (os : List ModuleOption) :
    (ofOptions os).all field = .ok os := by
  unfold ofOptions all
  dsimp only
  induction os with
  | nil => rfl
  | cons o os ih =>
    rw [List.map_cons, List.mapM_cons, ih]
    rfl

/-- The options of a checked module are options. -/
theorem Module.Checked.options_eq {m : Module} (h : m.Checked) :
    ∃ os : List ModuleOption, m.options = .ofOptions os := by
  obtain ⟨_, _, _, os, -, rfl⟩ := h
  exact ⟨os, rfl⟩

namespace CharacterTemplate

variable (t : CharacterTemplate) {settings : Settings} {c : Catalog}

theorem resolves_selectOptions (module : String) (names : List String) {m : Module}
    (hm : m.Checked) : Resolves (∀ n ∈ names, n ∈ m.options.names) (· = selecting names m)
      (selectOptions module names m) := by
  obtain ⟨os, hos⟩ := hm.options_eq
  have hknown (n : String) : n ∈ m.options.names ↔ os.any (·.name == n) = true := by
    simp [hos, OptionList.names_ofOptions]
  have hall : m.options.all "name" = .ok os := by rw [hos, OptionList.all_ofOptions]
  unfold selectOptions
  simp only [hall, Except.mapError, bind, Except.bind]
  cases hfind : names.find? fun n ↦ !os.any (·.name == n) with
  | none =>
    have hlisted : ∀ n ∈ names, n ∈ m.options.names := fun n hn ↦
      (hknown n).2 (by simpa using List.find?_eq_none.1 hfind n hn)
    exact ⟨fun _ ↦ ⟨_, rfl, rfl⟩, fun hnot ↦ absurd hlisted hnot⟩
  | some n =>
    refine ⟨fun hlisted ↦ ?_, fun _ ↦ ⟨_, rfl, rfl⟩⟩
    have hn := (hknown n).1 (hlisted n (List.mem_of_find?_eq_some hfind))
    have hnot := List.find?_some hfind
    rw [hn] at hnot
    cases hnot

theorem resolves_resolveModules (hc : c.Checked) : Resolves
    (∀ e ∈ t.modules.entries, e.1 ∈ c.modules.keys ∧ ∀ m, c.modules.get? e.1 = some m →
      ∀ n ∈ e.2, n ∈ m.options.names)
    (List.Forall₂ (fun e m ↦ ∃ found, c.modules.get? e.1 = some found ∧ m = selecting e.2 found)
      t.modules.entries) (t.resolveModules c) := by
  refine Resolves.mapM fun e _ ↦ ?_
  refine (t.resolves_resolve "module" c.modules e.1).bind fun m hm ↦ ?_
  refine ((resolves_selectOptions e.1 e.2 (hc.modules e.1 m hm)).mono ?_).congr ?_
  · rintro _ rfl
    exact ⟨m, hm, rfl⟩
  · simp [hm]

theorem resolves_resolveEquipment : Resolves
    (∀ e ∈ t.equipment.entries, e.1 ∈ slots ∧ e.2 ∈ c.items.keys)
    (· = Equipment.bare.mapWithKey fun slot worn ↦ (t.equipment.get? slot).elim worn c.items.get?)
    (t.resolveEquipment c) := by
  have hfold : Resolves (∀ e ∈ t.equipment.entries, e.1 ∈ slots ∧ e.2 ∈ c.items.keys)
      (· = t.equipment.entries.foldl (fun (worn : Equipment) e ↦
        worn.modify e.1 fun _ ↦ c.items.get? e.2) .bare) (t.resolveEquipment c) := by
    refine Resolves.foldlM id _ (fun worn : Equipment ↦ worn.keys = slots)
      (fun worn e hworn ↦ (Table.keys_modify ..).trans hworn) (fun worn e hworn ↦ ?_)
      (Table.keys_ofNames slots none nodup_slots)
    have hworn : worn.keys = slots := hworn
    by_cases h : e.1 ∈ slots
    · have hslot : (!slots.contains e.1) = false := by simpa using h
      rw [hslot, if_neg Bool.false_ne_true]
      refine ((t.resolves_resolve "item" c.items e.2).map fun item hitem ↦ ?_).congr
        (and_iff_right h)
      rw [hitem]
      exact Table.set_eq_modify (Table.contains_iff.2 (hworn ▸ h)) (some item)
    · have hslot : (!slots.contains e.1) = true := by simpa using h
      rw [hslot, if_pos rfl]
      exact ⟨fun hknown ↦ absurd hknown.1 h, fun _ ↦ ⟨_, rfl, rfl⟩⟩
  rwa [Table.foldl_modify_entries fun id (_ : Option Item) ↦ c.items.get? id] at hfold

end CharacterTemplate

end CharacterSheet
