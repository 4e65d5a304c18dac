import CharacterSheet.Content.Assemble
import CharacterSheet.Proofs.Table
import Mathlib.Tactic.SplitIfs

/-!
# Authored base values

The base values of a character are the defaults, but for the numbers that its template names.  A
step that sets a skill changes one entry of one category, and all steps together change every entry
by what the template has for it.
-/

namespace CharacterSheet

/-! ## Folds over named values -/

section Keyed

variable {α β : Type} {name : String} {f : α → β → β} {es : List (String × α)}

theorem foldl_keyed_of_not_mem (h : name ∉ es.map Prod.fst) (b : β) :
    es.foldl (fun b e ↦ if name = e.1 then f e.2 b else b) b = b := by
  induction es generalizing b with
  | nil => rfl
  | cons e es ih =>
    obtain ⟨hne, hrest⟩ := not_or.1 (mt List.mem_cons.2 h)
    rw [List.foldl_cons, if_neg hne, ih hrest]

/-- Of steps that each concern one name, the step of a name is all that changes it. -/
theorem foldl_keyed (hes : (es.map Prod.fst).Nodup) (b : β) :
    es.foldl (fun b e ↦ if name = e.1 then f e.2 b else b) b =
      (es.lookup name).elim b fun a ↦ f a b := by
  induction es generalizing b with
  | nil => rfl
  | cons e es ih =>
    obtain ⟨hnew, hes⟩ := List.nodup_cons.1 hes
    rw [List.foldl_cons, List.lookup_cons]
    by_cases h : name = e.1
    · have hrest : name ∉ es.map Prod.fst := h ▸ hnew
      rw [if_pos h, foldl_keyed_of_not_mem hrest, beq_iff_eq.2 h]
      rfl
    · rw [if_neg h, ih hes, beq_eq_false_iff_ne.2 h]

end Keyed

namespace Table

variable {α β : Type}

theorem foldl_modify (f : β → α → α) (es : List (String × β)) (t : Table α) :
    es.foldl (fun t e ↦ t.modify e.1 (f e.2)) t =
      t.mapWithKey fun name a ↦ es.foldl (fun a e ↦ if name = e.1 then f e.2 a else a) a := by
  induction es generalizing t with
  | nil => exact (mapWithKey_eq_self fun _ _ _ ↦ rfl).symm
  | cons e es ih =>
    rw [List.foldl_cons, ih, modify, mapWithKey_mapWithKey]
    rfl

/-- Changes by the entries of another table, made one after the other. -/
theorem foldl_modify_entries (f : β → α → α) (t : Table α) (u : Table β) :
    u.entries.foldl (fun t e ↦ t.modify e.1 (f e.2)) t =
      t.mapWithKey fun name a ↦ (u.get? name).elim a fun b ↦ f b a := by
  rw [foldl_modify]
  refine mapWithKey_congr fun name a _ ↦ ?_
  rw [foldl_keyed u.nodup]
  rfl

theorem elim_get? (t : Table α) (name : String) (fallback : α) :
    ((t.get? name).elim fallback fun a ↦ a) = t.getD name fallback := by
  unfold getD
  cases t.get? name <;> rfl

theorem set_eq_modify {t : Table α} {name : String} (h : t.contains name = true) (a : α) :
    t.set name a = t.modify name fun _ ↦ a := by
  have hmem := contains_iff.1 h
  refine ext_get? (by rw [keys_set, if_pos hmem, keys_modify]) fun k ↦ ?_
  rw [get?_set, get?_modify]
  split
  · next hk =>
    rw [hk, get?_of_mem_keys hmem a]
    rfl
  · rfl

end Table

/-! ## Skills of all categories -/

/-- The skills of all categories. -/
def skillNames : List String :=
  Schema.skills ++ Schema.weaponSkills ++ Schema.magicSkills ++ Schema.craftingSkills

namespace State

/-- The categories have the skills of the schema and no others. -/
structure SkillsOfSchema (s : State) : Prop where
  basic : s.basic.keys = Schema.skills
  weapon : s.weapon.keys = Schema.weaponSkills
  magic : s.magic.keys = Schema.magicSkills
  crafting : s.crafting.keys = Schema.craftingSkills

/-- Changes the skills of all categories. -/
def mapSkills (f : String → SkillEntry → SkillEntry) (s : State) : State :=
  { s with
    basic := s.basic.mapWithKey f
    weapon := s.weapon.mapWithKey f
    magic := s.magic.mapWithKey f
    crafting := s.crafting.mapWithKey f }

theorem skillsOfSchema_fresh (settings : Settings) : (fresh settings).SkillsOfSchema where
  basic := by simp [fresh, basicSkills]
  weapon := by simp [fresh]
  magic := by simp [fresh]
  crafting := by simp [fresh]

theorem SkillsOfSchema.mapSkills {s : State} (h : s.SkillsOfSchema)
    (f : String → SkillEntry → SkillEntry) : (s.mapSkills f).SkillsOfSchema where
  basic := (Table.keys_mapWithKey s.basic f).trans h.basic
  weapon := (Table.keys_mapWithKey s.weapon f).trans h.weapon
  magic := (Table.keys_mapWithKey s.magic f).trans h.magic
  crafting := (Table.keys_mapWithKey s.crafting f).trans h.crafting

theorem mapSkills_mapSkills (s : State) (f g : String → SkillEntry → SkillEntry) :
    (s.mapSkills f).mapSkills g = s.mapSkills fun name k ↦ g name (f name k) := by
  simp [mapSkills, Table.mapWithKey_mapWithKey]

theorem mapSkills_id (s : State) : (s.mapSkills fun _ k ↦ k) = s := by
  simp [mapSkills, Table.mapWithKey_eq_self]

/-- No skill of a fresh state has a tier under an older name. -/
theorem mapSkills_fresh_congr {settings : Settings} {f g : String → SkillEntry → SkillEntry}
    (h : ∀ name k, k.legacy = .empty → f name k = g name k) :
    (fresh settings).mapSkills f = (fresh settings).mapSkills g := by
  have hbasic : basicSkills.mapWithKey f = basicSkills.mapWithKey g := by
    refine Table.mapWithKey_congr fun name k hk ↦ h name k ?_
    rw [basicSkills, Table.get?_mapWithKey, Option.map_eq_some_iff] at hk
    obtain ⟨-, -, rfl⟩ := hk
    rfl
  have hothers (names : List String) (hnames : names.Nodup) :
      (Table.ofNames names {} hnames).mapWithKey f =
        (Table.ofNames names {} hnames).mapWithKey g := by
    refine Table.mapWithKey_congr fun name k hk ↦ h name k ?_
    rw [Table.get?_ofNames] at hk
    split_ifs at hk
    obtain rfl := Option.some.inj hk
    rfl
  simp only [mapSkills, fresh, hbasic, hothers]

theorem isSome_skill?_iff {s : State} (h : s.SkillsOfSchema) {name : String} :
    (s.skill? name).isSome = true ↔ name ∈ skillNames := by
  have hcontains (t : Table SkillEntry) : (t.get? name).isSome = true ↔ name ∈ t.keys :=
    Table.contains_iff
  simp [skill?, hcontains, skillNames, h.basic, h.weapon, h.magic, h.crafting]

/-- A skill stands in one category, so a change of it is a change of all skills of that name. -/
theorem modifySkill_eq_mapSkills {s : State} (h : s.SkillsOfSchema) (name : String)
    (f : SkillEntry → SkillEntry) :
    s.modifySkill name f = s.mapSkills fun k v ↦ if k = name then f v else v := by
  have hkept {t : Table SkillEntry} (hname : name ∉ t.keys) :
      (t.mapWithKey fun k v ↦ if k = name then f v else v) = t := by
    refine Table.mapWithKey_eq_self fun k v hk ↦ if_neg ?_
    rintro rfl
    exact hname (Table.mem_keys_of_get? hk)
  have hbasic : ∀ n ∈ Schema.skills,
      n ∉ Schema.weaponSkills ∧ n ∉ Schema.magicSkills ∧ n ∉ Schema.craftingSkills := by decide
  have hweapon : ∀ n ∈ Schema.weaponSkills, n ∉ Schema.magicSkills ∧ n ∉ Schema.craftingSkills := by
    decide
  have hmagic : ∀ n ∈ Schema.magicSkills, n ∉ Schema.craftingSkills := by decide
  rw [← h.basic, ← h.weapon, ← h.magic, ← h.crafting] at hbasic
  rw [← h.weapon, ← h.magic, ← h.crafting] at hweapon
  rw [← h.magic, ← h.crafting] at hmagic
  unfold modifySkill mapSkills
  simp only [Table.contains_iff]
  split_ifs with h₁ h₂ h₃
  · obtain ⟨hw, hm, hc⟩ := hbasic name h₁
    rw [hkept hw, hkept hm, hkept hc]
    rfl
  · obtain ⟨hm, hc⟩ := hweapon name h₂
    rw [hkept h₁, hkept hm, hkept hc]
    rfl
  · rw [hkept h₁, hkept h₂, hkept (hmagic name h₃)]
    rfl
  · rw [hkept h₁, hkept h₂, hkept h₃]
    rfl

theorem SkillsOfSchema.modifySkill {s : State} (h : s.SkillsOfSchema) (name : String)
    (f : SkillEntry → SkillEntry) : (s.modifySkill name f).SkillsOfSchema := by
  rw [modifySkill_eq_mapSkills h]
  exact h.mapSkills _

/-- Changes of skills by the entries of a table, made one after the other. -/
theorem foldl_modifySkill_entries {β : Type} (f : β → SkillEntry → SkillEntry) {t : Table β}
    {s : State} (h : s.SkillsOfSchema) :
    t.entries.foldl (fun s e ↦ s.modifySkill e.1 (f e.2)) s =
      s.mapSkills fun name k ↦ (t.get? name).elim k fun b ↦ f b k := by
  have hfold (es : List (String × β)) : es.foldl (fun s e ↦ s.modifySkill e.1 (f e.2)) s =
      s.mapSkills fun name k ↦ es.foldl (fun k e ↦ if name = e.1 then f e.2 k else k) k := by
    induction es generalizing s with
    | nil => exact (mapSkills_id s).symm
    | cons e es ih =>
      rw [List.foldl_cons, modifySkill_eq_mapSkills h, ih (h.mapSkills _), mapSkills_mapSkills]
      rfl
  rw [hfold]
  congr 1
  funext name k
  rw [foldl_keyed t.nodup]
  rfl

/-- Changes of one skill, made one after the other. -/
theorem foldl_modifySkill_same {β : Type} (f : β → SkillEntry → SkillEntry) (name : String)
    (bs : List β) {s : State} (h : s.SkillsOfSchema) :
    bs.foldl (fun s b ↦ s.modifySkill name (f b)) s =
      s.modifySkill name fun k ↦ bs.foldl (fun k b ↦ f b k) k := by
  induction bs generalizing s with
  | nil =>
    rw [List.foldl_nil, modifySkill_eq_mapSkills h]
    simp [mapSkills_id]
  | cons b bs ih =>
    rw [List.foldl_cons, modifySkill_eq_mapSkills h, ih (h.mapSkills _),
      modifySkill_eq_mapSkills (h.mapSkills _), mapSkills_mapSkills, modifySkill_eq_mapSkills h]
    congr 1
    funext n k
    by_cases hn : n = name <;> simp [hn]

end State

namespace CharacterTemplate

/-! ## What a template has for a skill -/

/-- Records a tier under its field name. -/
def recordTier (field : String × Int) (k : SkillEntry) : SkillEntry :=
  if field.1 = "tier" then { k with tier := some field.2 }
  else { k with legacy := k.legacy.set field.1 field.2 }

/-- The tier of a skill, and what else is recorded about it under older names. -/
def withTiers (tiers : Table Int) (k : SkillEntry) : SkillEntry :=
  { k with
    tier := (tiers.get? "tier").or k.tier
    legacy := tiers.filter fun field _ ↦ field != "tier" }

/-- The entry of a skill with the numbers that a template has for it. -/
def authoredSkill (t : CharacterTemplate) (name : String) (k : SkillEntry) : SkillEntry :=
  let k := { k with value := t.skills.getD name k.value }
  (t.skillTiers.get? name).elim k fun tiers ↦ withTiers tiers k

theorem exists_foldl_recordTier {es : List (String × Int)} (hes : (es.map Prod.fst).Nodup)
    {k : SkillEntry} (hnew : ∀ e ∈ es, e.1 ∉ k.legacy.keys) : ∃ legacy : Table Int,
      legacy.entries = k.legacy.entries ++ es.filter (fun e ↦ e.1 != "tier") ∧
        es.foldl (fun k field ↦ recordTier field k) k =
          { k with tier := (es.lookup "tier").or k.tier, legacy } := by
  induction es generalizing k with
  | nil => exact ⟨k.legacy, (List.append_nil _).symm, rfl⟩
  | cons e es ih =>
    obtain ⟨hfirst, hes⟩ := List.nodup_cons.1 hes
    obtain ⟨hhead, htail⟩ := List.forall_mem_cons.1 hnew
    rw [List.foldl_cons, List.lookup_cons, List.filter_cons]
    by_cases h : e.1 = "tier"
    · -- No later field is a tier again.
      have hlast : es.lookup "tier" = none := (Table.lookup_eq_none_iff ..).2 (h ▸ hfirst)
      obtain ⟨legacy, hlegacy, hfold⟩ := ih (k := recordTier e k) hes
        (by simpa [recordTier, h] using htail)
      refine ⟨legacy, by simpa [recordTier, h] using hlegacy, ?_⟩
      rw [hfold, hlast]
      simp [recordTier, h]
    · have hother : ∀ f ∈ es, f.1 ∉ (k.legacy.set e.1 e.2).keys := by
        intro f hf
        have hne : f.1 ≠ e.1 := fun heq ↦ hfirst (heq ▸ List.mem_map.2 ⟨f, hf, rfl⟩)
        rw [Table.keys_set, if_neg hhead, List.mem_append, List.mem_singleton]
        exact fun hmem ↦ hmem.elim (htail f hf) hne
      obtain ⟨legacy, hlegacy, hfold⟩ := ih (k := recordTier e k) hes
        (by simpa [recordTier, h] using hother)
      have hset : (k.legacy.set e.1 e.2).entries = k.legacy.entries ++ [(e.1, e.2)] :=
        Table.putEntry_of_not_mem e.2 hhead
      refine ⟨legacy, ?_, ?_⟩
      · simpa [recordTier, h, hset] using hlegacy
      · rw [hfold]
        simp [recordTier, h, beq_eq_false_iff_ne.2 (Ne.symm h)]

theorem foldl_recordTier (tiers : Table Int) {k : SkillEntry} (h : k.legacy = .empty) :
    tiers.entries.foldl (fun k field ↦ recordTier field k) k = withTiers tiers k := by
  have hnew : ∀ e ∈ tiers.entries, e.1 ∉ k.legacy.keys := by
    intro e _
    rw [h]
    exact List.not_mem_nil
  obtain ⟨⟨es, hnodup⟩, hlegacy, hfold⟩ := exists_foldl_recordTier tiers.nodup hnew
  rw [h] at hlegacy
  obtain rfl : es = tiers.entries.filter fun e ↦ e.1 != "tier" := hlegacy
  rw [hfold]
  rfl

/-! ## The base values as a whole -/

/-- The pools of a character: the default ones, and those that its template adds. -/
def poolNames (t : CharacterTemplate) : List String :=
  defaultPools ++ t.resources.keys.filter (· ∉ defaultPools)

theorem nodup_poolNames (t : CharacterTemplate) : t.poolNames.Nodup := by
  refine List.nodup_append.2 ⟨nodup_defaultPools, t.resources.nodup.filter _, ?_⟩
  rintro a ha b hb rfl
  exact of_decide_eq_true (List.mem_filter.1 hb).2 ha

theorem mem_poolNames {t : CharacterTemplate} {name : String} :
    name ∈ t.poolNames ↔ name ∈ defaultPools ∨ name ∈ t.resources.keys := by
  unfold poolNames
  rw [List.mem_append, List.mem_filter, decide_eq_true_iff]
  by_cases h : name ∈ defaultPools <;> simp [h]

/-- A pool with the maximum and the current value that a template has for it. -/
def authoredPool (t : CharacterTemplate) (name : String) : Pool where
  max := t.resources.getD name 0
  current := t.current.get? name

def authoredPools (t : CharacterTemplate) : Table Pool :=
  (Table.ofNames t.poolNames () t.nodup_poolNames).mapWithKey fun name _ ↦ t.authoredPool name

/-- The defaults with the numbers that a template names. -/
def authored (t : CharacterTemplate) (settings : Settings) : State :=
  let s := State.fresh settings
  { s.mapSkills t.authoredSkill with
    attributes := s.attributes.mapWithKey fun name n ↦ t.attributes.getD name n
    resources := t.authoredPools }

/-- The maxima of a template over the default pools, before any current value is set. -/
theorem resources_setMaxima (t : CharacterTemplate) {s : State} {settings : Settings}
    (h : s.resources = (State.fresh settings).resources) : (t.setMaxima s).resources =
      (Table.ofNames t.poolNames () t.nodup_poolNames).mapWithKey fun name _ ↦
        { max := t.resources.getD name 0 } := by
  have habsorb : (t.setMaxima s).resources = s.resources.absorb {} (fun _ p q ↦
      { p with max := q.max }) (t.resources.map fun n ↦ { max := n }) := by
    unfold setMaxima Table.absorb Table.map Table.mapWithKey
    rw [List.foldl_map]
  have hfresh : s.resources = .ofNames defaultPools {} nodup_defaultPools := h
  rw [habsorb, hfresh]
  refine Table.ext_get? ?_ fun name ↦ ?_
  · rw [Table.keys_absorb, Table.keys_ofNames, Table.keys_mapWithKey, Table.keys_ofNames,
      Table.map, Table.keys_mapWithKey]
    rfl
  · rw [Table.get?_absorb, Table.getD_ofNames, Table.get?_ofNames, Table.map,
      Table.get?_mapWithKey, Table.get?_mapWithKey, Table.get?_ofNames]
    simp only [mem_poolNames]
    cases hname : t.resources.get? name with
    | some n =>
      have hmem := Table.mem_keys_of_get? hname
      simp [hmem, Table.getD, hname]
    | none =>
      have hnot := Table.get?_eq_none_iff.1 hname
      by_cases hdefault : name ∈ defaultPools <;> simp [hnot, hdefault, Table.getD, hname]

end CharacterTemplate

end CharacterSheet
