import CharacterSheet.Content.Load
import CharacterSheet.Proofs.Overlay.Consistency

/-!
# Checked content

What passes the check of its document has fields of the declared types: beside its code, a checked
item brings names only, and detections under names.  Loaders differ in what they let pass; as long
as that has the declared types, so has all content that is loaded.  A character that is assembled
has a sound state for its base and wears items of the catalog.
-/

namespace CharacterSheet

/-- A fold that does not fail keeps what each of its steps keeps. -/
theorem keeps_foldlM {ε σ ι : Type} {P : σ → Prop} {f : σ → ι → Except ε σ} {items : List ι}
    (hf : ∀ i ∈ items, ∀ s t, P s → f s i = .ok t → P t) {s t : σ} (hs : P s)
    (h : items.foldlM f s = .ok t) : P t := by
  induction items generalizing s with
  | nil => exact Except.ok.inj h ▸ hs
  | cons i items ih =>
    rw [List.foldlM_cons] at h
    obtain ⟨u, hu, hrest⟩ := exists_of_bind_eq_ok h
    exact ih (fun j hj ↦ hf j (List.mem_cons_of_mem i hj)) (hf i List.mem_cons_self s u hs hu) hrest

theorem exists_of_mem_mapM {ε α β : Type} {f : α → Except ε β} {as : List α} {bs : List β}
    (h : as.mapM f = .ok bs) {b : β} (hb : b ∈ bs) : ∃ a ∈ as, f a = .ok b := by
  induction as generalizing bs with
  | nil =>
    obtain rfl : [] = bs := Except.ok.inj h
    cases hb
  | cons a as ih =>
    rw [List.mapM_cons] at h
    obtain ⟨b', hb', h⟩ := exists_of_bind_eq_ok h
    obtain ⟨bs', hbs', h⟩ := exists_of_bind_eq_ok h
    obtain rfl : b' :: bs' = bs := Except.ok.inj h
    rcases List.mem_cons.1 hb with rfl | hb
    · exact ⟨a, List.mem_cons_self, hb'⟩
    · obtain ⟨a', ha', hfound⟩ := ih hbs' hb
      exact ⟨a', List.mem_cons_of_mem a ha', hfound⟩

/-! ## Items -/

theorem Item.Checked.bringsNames {item : Item} (h : item.Checked) : item.BringsNames := by
  intro g hg
  obtain ⟨_, _, _, _, _, _, _, _, _, names, rfl⟩ := h
  obtain ⟨d, -, hextras⟩ := DataCode.Reading.andThen_result_eq_ok_iff.1 hg
  have hmembers := (extras_eq_ok_iff.1 hextras).2.1
  have hscalar : Value.firstUnhashable? (names.map Value.text) = none :=
    Value.firstUnhashable?_texts names
  refine ⟨names, ?_⟩
  rw [immunityMembers] at hmembers
  simp only [ofChecked, Value.ofTexts, Value.members, Value.alone, bind, Except.bind, hscalar]
    at hmembers
  exact (Except.ok.inj hmembers).symm

theorem Item.Checked.detectsNames {item : Item} (h : item.Checked) {g : Gear}
    (hg : item.gear.result = .ok g) : g.DetectsNames := by
  obtain ⟨_, _, _, _, _, _, _, detections, _, _, rfl⟩ := h
  obtain ⟨d, -, hextras⟩ := DataCode.Reading.andThen_result_eq_ok_iff.1 hg
  obtain ⟨-, -, -, hdetections, -⟩ := extras_eq_ok_iff.1 hextras
  intro found hfound
  obtain ⟨e, he, hvalue⟩ := exists_of_mem_mapM hdetections hfound
  obtain ⟨n, -, hkey⟩ := exists_of_bind_eq_ok hvalue
  obtain rfl := Except.ok.inj hkey
  obtain ⟨entry, -, rfl⟩ := List.mem_map.1 (List.mem_filter.1 he).1
  exact ⟨entry.1, rfl⟩

/-! ## Catalogs -/

namespace Catalog

/-- Everything in the catalog has the declared types. -/
structure Checked (c : Catalog) : Prop where
  items : ∀ id item, c.items.get? id = some item → item.Checked
  modules : ∀ id m, c.modules.get? id = some m → m.Checked

theorem checked_empty : ({} : Catalog).Checked where
  items := fun _ _ h ↦ by cases h
  modules := fun _ _ h ↦ by cases h

theorem exists_of_mem_readSection {α : Type} {levels : Nat} {category file : String}
    {check : Value → Except (List Issue) α} {document : List (Value × Value)} {xs : List α}
    (h : readSection levels category file check document = .ok xs) {x : α} (hx : x ∈ xs) :
    ∃ v, check v = .ok x := by
  unfold readSection at h
  split at h
  · obtain rfl := Except.ok.inj h
    cases hx
  · obtain rfl := Except.ok.inj h
    cases hx
  · obtain ⟨v, -, hv⟩ := exists_of_mem_mapM h hx
    unfold readEntry at hv
    split at hv
    · refine ⟨v, ?_⟩
      split at hv
      · next hchecked => exact hchecked.trans (congrArg Except.ok (Except.ok.inj hv))
      · split at hv <;> cases hv
    · cases hv
  · cases h

theorem of_get?_define {α : Type} {P : α → Prop} {category file : String} {id : α → String}
    {xs : List α} (hxs : ∀ x ∈ xs, P x) {t t' : Table α} {events : List Event}
    (h : define category file id t xs = (t', events)) (ht : ∀ k x, t.get? k = some x → P x) :
    ∀ k x, t'.get? k = some x → P x := by
  induction xs generalizing t t' events with
  | nil =>
    cases h
    exact ht
  | cons x xs ih =>
    have hrest : ∀ y ∈ xs, P y := fun y hy ↦ hxs y (List.mem_cons_of_mem x hy)
    unfold define at h
    split at h
    · cases h
      exact ih hrest rfl ht
    · refine ih hrest h fun k y hy ↦ ?_
      rw [Table.get?_set] at hy
      split at hy
      · exact Option.some.inj hy ▸ hxs x List.mem_cons_self
      · exact ht k y hy

theorem Checked.addDocument {l : Loader} (hl : l.Typed) {c c' : Catalog} (hc : c.Checked)
    {file : String} {document : List (Value × Value)} {events : List Event}
    (h : c.addDocument l file document = (events, .ok c')) : c'.Checked := by
  unfold Catalog.addDocument at h
  split at h
  · cases h
  next items hitems =>
  split at h
  next items' _ hitems' =>
  split at h
  · cases h
  split at h
  split at h
  · cases h
  next modules hmodules =>
  split at h
  next modules' _ hmodules' =>
  cases h
  refine ⟨of_get?_define (fun item hitem ↦ ?_) hitems' hc.items,
    of_get?_define (fun m hm ↦ ?_) hmodules' hc.modules⟩
  · obtain ⟨v, hv⟩ := exists_of_mem_readSection hitems hitem
    exact hl.item v item hv
  · obtain ⟨v, hv⟩ := exists_of_mem_readSection hmodules hm
    exact hl.module v m hv

end Catalog

theorem checked_addFiles {l : Loader} (hl : l.Typed) (root : Entry) {paths : List String}
    {c c' : Catalog} {events : List Event} (hc : c.Checked)
    (h : addFiles l root paths c = (events, .ok c')) : c'.Checked := by
  induction paths generalizing c events with
  | nil =>
    cases h
    exact hc
  | cons path paths ih =>
    unfold addFiles at h
    split at h
    · split at h
      · exact ih hc (Prod.ext rfl (Prod.mk.inj h).2)
      · cases h
    · split at h
      · cases h
      · next c₁ hadded => exact ih (hc.addDocument hl hadded) (Prod.ext rfl (Prod.mk.inj h).2)

/-- All content of a directory has the declared types. -/
theorem checked_loadContent {l : Loader} (hl : l.Typed) {root : Entry} {directory : String}
    {c : Catalog} {events : List Event} (h : loadContent l root directory = (events, .ok c)) :
    c.Checked := by
  unfold loadContent at h
  split at h
  · cases h
  · cases h
    exact Catalog.checked_empty
  · cases h
  · dsimp only at h
    split at h
    · cases h
      exact Catalog.checked_empty
    · split at h
      · cases h
      · next hfiles =>
        cases h
        exact checked_addFiles hl root Catalog.checked_empty hfiles

/-! ## Assembled characters -/

/-- A character between commands that can be relied on: what it is built from is sound, and what it
wears has the declared types. -/
structure Character.Sound (c : Character) : Prop where
  base : c.base.Sound
  baseline : ∀ b, c.baseline = some b → b.Sound
  worn : ∀ slot item, c.equipment.worn? slot = some item → item.Checked
  idle : c.status = .idle

namespace CharacterTemplate

open State

variable {t : CharacterTemplate}

theorem Sound.modifySkill {s : State} (hs : s.Sound) (name : String)
    (f : SkillEntry → SkillEntry) : (s.modifySkill name f).Sound := by
  unfold State.modifySkill
  split
  · exact ⟨hs.conditionals, hs.codes, hs.immunities, hs.dualWield⟩
  · split
    · exact ⟨hs.conditionals, hs.codes, hs.immunities, hs.dualWield⟩
    · split <;> exact ⟨hs.conditionals, hs.codes, hs.immunities, hs.dualWield⟩

theorem sound_setTier {s s' : State} (hs : s.Sound) {skill : String} {field : String × Int}
    (h : t.setTier skill s field = .ok s') : s'.Sound := by
  unfold setTier at h
  split at h
  · exact Except.ok.inj h ▸ Sound.modifySkill hs ..
  · split at h
    · exact Except.ok.inj h ▸ Sound.modifySkill hs ..
    · cases h

/-- Base values are numbers only. -/
theorem sound_baseState {settings : Settings} {s : State} (h : t.baseState settings = .ok s) :
    s.Sound := by
  unfold baseState at h
  obtain ⟨s₁, h₁, h⟩ := exists_of_bind_eq_ok h
  obtain ⟨s₂, h₂, h⟩ := exists_of_bind_eq_ok h
  obtain ⟨s₃, h₃, h⟩ := exists_of_bind_eq_ok h
  have hs₁ : s₁.Sound := by
    refine keeps_foldlM (P := State.Sound) (fun e _ s s' hs hset ↦ ?_) (sound_fresh settings) h₁
    split at hset
    · obtain rfl := Except.ok.inj hset
      exact ⟨hs.conditionals, hs.codes, hs.immunities, hs.dualWield⟩
    · cases hset
  have hs₂ : s₂.Sound := by
    refine keeps_foldlM (P := State.Sound) (fun e _ s s' hs hset ↦ ?_) hs₁ h₂
    split at hset
    · exact Except.ok.inj hset ▸ Sound.modifySkill hs ..
    · cases hset
  have hs₃ : s₃.Sound := by
    refine keeps_foldlM (P := State.Sound) (fun e _ s s' hs hset ↦ ?_) hs₂ h₃
    split at hset
    · exact keeps_foldlM (P := State.Sound) (fun _ _ _ _ hs h ↦ sound_setTier hs h) hs hset
    · cases hset
  have hmaxima : (t.setMaxima s₃).Sound :=
    ⟨hs₃.conditionals, hs₃.codes, hs₃.immunities, hs₃.dualWield⟩
  refine keeps_foldlM (P := State.Sound) (fun e _ s s' hs hset ↦ ?_) hmaxima h
  split at hset
  · obtain rfl := Except.ok.inj hset
    exact ⟨hs.conditionals, hs.codes, hs.immunities, hs.dualWield⟩
  · cases hset

theorem checked_resolveEquipment {c : Catalog} (hc : c.Checked) {e : Equipment}
    (h : t.resolveEquipment c = .ok e) {slot : String} {item : Item}
    (hworn : e.worn? slot = some item) : item.Checked := by
  have hbare (slot : String) : Equipment.bare.worn? slot = none :=
    Table.getD_ofNames slots none nodup_slots slot
  refine keeps_foldlM
    (P := fun e : Equipment ↦ ∀ slot item, e.worn? slot = some item → item.Checked)
    (fun entry _ e e' he hset ↦ ?_) (fun slot item hnone ↦ ?_) h slot item hworn
  · split at hset
    · cases hset
    obtain ⟨found, hfound, hset⟩ := exists_of_bind_eq_ok hset
    obtain rfl := Except.ok.inj hset
    intro slot item hworn
    rw [Equipment.worn?, Table.getD, Table.get?_set] at hworn
    split at hworn
    · obtain rfl := Option.some.inj hworn
      unfold resolve at hfound
      split at hfound
      · next hget => exact Except.ok.inj hfound ▸ hc.items _ _ hget
      · cases hfound
    · exact he slot item hworn
  · rw [hbare] at hnone
    cases hnone

/-- A character that is assembled from checked content is sound; it has not been built yet. -/
theorem sound_assemble {settings : Except SettingsError Settings} {catalog : Catalog}
    (hcatalog : catalog.Checked) {c : Character} (h : t.assemble settings catalog = .ok c) :
    c.Sound := by
  unfold assemble at h
  obtain ⟨modules, -, h⟩ := exists_of_bind_eq_ok h
  obtain ⟨equipment, hequipment, h⟩ := exists_of_bind_eq_ok h
  obtain ⟨settings', -, h⟩ := exists_of_bind_eq_ok h
  obtain ⟨base, hbase, h⟩ := exists_of_bind_eq_ok h
  obtain ⟨trainings, -, h⟩ := exists_of_bind_eq_ok h
  obtain ⟨injuries, -, h⟩ := exists_of_bind_eq_ok h
  obtain rfl := Except.ok.inj h
  exact
    { base := sound_baseState hbase
      baseline := fun b hb ↦ by cases hb
      worn := fun slot item hworn ↦ checked_resolveEquipment hcatalog hequipment hworn
      idle := rfl }

end CharacterTemplate

end CharacterSheet
