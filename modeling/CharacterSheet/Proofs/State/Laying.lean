import CharacterSheet.Proofs.Progress
import CharacterSheet.Proofs.State.GateTotals

/-!
# Laying a delta

Once the tiers of a state are set, a delta that is laid over it completely changes each table as a
whole: every entry gets the number of the delta under its name, or zero.  The effects of a delta are
filed behind those that are there, and the totals are either left alone or computed anew.
-/

namespace CharacterSheet

namespace Table

/-- Adding values is a change of all entries when a blank value changes nothing. -/
theorem overlay_eq_mapWithKey {α β : Type} {table : Table β} {blank : α → Bool}
    {change : β → α → β} {zero : α} (hblank : ∀ a, blank a → a = zero)
    (hzero : ∀ k b, table.get? k = some b → change b zero = b) (values : Table α) :
    table.overlay blank change values =
      table.mapWithKey fun k b ↦ change b (values.getD k zero) := by
  refine mapWithKey_congr fun k b hk ↦ ?_
  cases hv : values.get? k with
  | none => simp [getD, hv, hzero k b hk]
  | some a =>
    by_cases ha : blank a
    · obtain rfl := hblank a ha
      simp [getD, hv, hzero k b hk]
    · simp [getD, hv, ha]

def Tiered (t : Table SkillEntry) : Prop := ∀ k e, t.get? k = some e → e.tier.isSome

theorem tiered_mapWithKey {t : Table SkillEntry} {f : String → SkillEntry → SkillEntry}
    (h : ∀ k e, (f k e).tier.isSome) : (t.mapWithKey f).Tiered := by
  intro k e he
  rw [get?_mapWithKey] at he
  obtain ⟨e', -, rfl⟩ := Option.map_eq_some_iff.1 he
  exact h k e'

end Table

namespace SkillEntry

theorem addTier_zero {e : SkillEntry} (h : e.tier.isSome) : e.addTier 0 = e := by
  obtain ⟨value, talent, tier, governor, legacy⟩ := e
  obtain ⟨n, rfl⟩ := Option.isSome_iff_exists.1 h
  simp [addTier]

theorem addGain_zero {e : SkillEntry} (h : e.tier.isSome) : e.addGain .zero = e := by
  rw [← addTier_zero h]
  simp [addGain, addTier, SkillGain.zero]

theorem addGain_addGain (e : SkillEntry) (g h : SkillGain) :
    (e.addGain g).addGain h = e.addGain (g.add h) := by
  simp [addGain, addTier, SkillGain.add, Int.add_assoc]

@[simp] theorem isSome_tier_addGain (e : SkillEntry) (g : SkillGain) :
    (e.addGain g).tier.isSome := rfl

end SkillEntry

namespace Pool

def raise (p : Pool) (max recovery : Int) : Pool :=
  { p with max := p.max + max, recovery := p.recovery + recovery }

@[simp] theorem raise_zero (p : Pool) : p.raise 0 0 = p := by simp [raise]

theorem raise_raise (p : Pool) (m r m' r' : Int) :
    (p.raise m r).raise m' r' = p.raise (m + m') (r + r') := by
  simp [raise, Int.add_assoc]

end Pool

namespace Delta

/-- What some resource fields contribute to a target. -/
def contributionOf (target : ResourceTarget) : List (String × Int) → Int
  | [] => 0
  | e :: es =>
    (if resourceTargets.lookup e.1 = some target then e.2 else 0) + contributionOf target es

/-- What the resource fields of a delta contribute to a target. -/
def contribution (target : ResourceTarget) (d : Delta) : Int :=
  contributionOf target d.resources.entries

/-- What a delta gives to a basic skill: a value and steps of the tier. -/
def basicGain (d : Delta) (name : String) : SkillGain :=
  { skill := d.skills.getD name 0, tier := d.tiers.getD name 0 }

def files (d : Delta) : Bool := d.gated.values.any fun es ↦ !es.isEmpty

end Delta

namespace State

structure Tiered (s : State) : Prop where
  basic : s.basic.Tiered
  weapon : s.weapon.Tiered
  magic : s.magic.Tiered
  crafting : s.crafting.Tiered

/-- What laying a delta does to the numbers and the gated effects of a state. -/
structure Lays (d : Delta) (s s' : State) : Prop where
  attributes : s'.attributes = s.attributes.mapWithKey fun name n ↦ n + d.attributes.getD name 0
  basic : s'.basic = s.basic.mapWithKey fun name e ↦ e.addGain (d.basicGain name)
  weapon : s'.weapon = s.weapon.mapWithKey fun name e ↦ e.addGain (d.weapon.getD name .zero)
  magic : s'.magic = s.magic.mapWithKey fun name e ↦ e.addGain (d.magic.getD name .zero)
  crafting :
    s'.crafting = s.crafting.mapWithKey fun name e ↦ e.addGain (d.crafting.getD name .zero)
  mitigation : s'.mitigation = s.mitigation.mapWithKey fun name n ↦ n + d.mitigation.getD name 0
  resources : s'.resources = s.resources.mapWithKey fun name p ↦
    p.raise (d.contribution (.pool name .max)) (d.contribution (.pool name .recovery))
  spellSlots : s'.spellSlots = s.spellSlots + d.contribution .spellSlots
  movement : s'.movement = s.movement
  movementBonuses :
    s'.movementBonuses = s.movementBonuses.mapWithKey fun name n ↦ n + d.movement.getD name 0
  weaponRanges :
    s'.weaponRanges = s.weaponRanges.mapWithKey fun name n ↦ n + d.weaponRanges.getD name 0
  dualWield : 0 ≤ s.features.getD Schema.dualWieldTier 0 →
    s'.features.getD Schema.dualWieldTier 0 =
      max (s.features.getD Schema.dualWieldTier 0) (d.features.getD Schema.dualWieldTier 0)
  filed : ∀ gate, s'.conditionals.filed gate =
    s.conditionals.filed gate ++ d.gated.getD gate []
  total : ∀ gate kind name, s'.conditionals.total gate kind name =
    if d.files then
      if name ∈ kind.targets then effectSum kind name (s'.conditionals.filed gate) else 0
    else s.conditionals.total gate kind name

theorem Lays.tiered {d : Delta} {s s' : State} (h : Lays d s s') : s'.Tiered where
  basic := h.basic ▸ Table.tiered_mapWithKey fun _ _ ↦ rfl
  weapon := h.weapon ▸ Table.tiered_mapWithKey fun _ _ ↦ rfl
  magic := h.magic ▸ Table.tiered_mapWithKey fun _ _ ↦ rfl
  crafting := h.crafting ▸ Table.tiered_mapWithKey fun _ _ ↦ rfl

/-! ## The parts of a delta -/

open Progress

theorem overlay_isZero (t values : Table Int) :
    t.overlay isZero (· + ·) values = t.mapWithKey fun name n ↦ n + values.getD name 0 :=
  Table.overlay_eq_mapWithKey (fun _ h ↦ eq_of_beq h) (fun _ n _ ↦ Int.add_zero n) values

theorem overlay_addGain {t : Table SkillEntry} (ht : t.Tiered) (values : Table SkillGain) :
    t.overlay SkillGain.isZero SkillEntry.addGain values =
      t.mapWithKey fun name e ↦ e.addGain (values.getD name .zero) :=
  Table.overlay_eq_mapWithKey (fun _ h ↦ eq_of_beq h)
    (fun name e h ↦ SkillEntry.addGain_zero (ht name e h)) values

theorem overlay_basic {t : Table SkillEntry} (ht : t.Tiered) (d : Delta) :
    (t.overlay isZero (fun e n ↦ { e with value := e.value + n }) d.skills).overlay isZero
        SkillEntry.addTier d.tiers =
      t.mapWithKey fun name e ↦ e.addGain (d.basicGain name) := by
  let valued : Table SkillEntry :=
    t.mapWithKey fun name e ↦ { e with value := e.value + d.skills.getD name 0 }
  have hskills : t.overlay isZero (fun e n ↦ { e with value := e.value + n }) d.skills = valued :=
    Table.overlay_eq_mapWithKey (fun _ h ↦ eq_of_beq h) (fun _ e _ ↦ by simp) d.skills
  have hvalued : valued.Tiered := by
    intro name e he
    obtain ⟨e', he', rfl⟩ := Option.map_eq_some_iff.1 (Table.get?_mapWithKey t _ name ▸ he)
    exact ht name e' he'
  have htiers : valued.overlay isZero SkillEntry.addTier d.tiers =
      valued.mapWithKey fun name e ↦ e.addTier (d.tiers.getD name 0) :=
    Table.overlay_eq_mapWithKey (fun _ h ↦ eq_of_beq h)
      (fun name e h ↦ SkillEntry.addTier_zero (hvalued name e h)) d.tiers
  rw [hskills, htiers, Table.mapWithKey_mapWithKey]
  refine Table.mapWithKey_congr fun name e _ ↦ ?_
  simp [SkillEntry.addGain, Delta.basicGain]

/-- Adding to one part of a pool, if it is there, raises the pools by what is meant for them. -/
theorem modify_addTo (pools : Table Pool) (name : String) (part : PoolPart) (n : Int) :
    pools.modify name (·.addTo part n) = pools.mapWithKey fun k p ↦
      p.raise (if ResourceTarget.pool name part = .pool k .max then n else 0)
        (if ResourceTarget.pool name part = .pool k .recovery then n else 0) := by
  refine Table.mapWithKey_congr fun k p _ ↦ ?_
  by_cases hk : k = name
  · subst hk
    cases part <;> simp [Pool.addTo, Pool.raise]
  · have hne : ¬ name = k := fun h ↦ hk h.symm
    simp [hk, hne]

/-- What a resource field contributes, and nothing else, is added to the pools and the spell
slots. -/
theorem state_addResource {source : Option String} {field : String} {n : Int} {s : State}
    (h : (addResource source field n s).failure = none) :
    (addResource source field n s).state = { s with
      resources := s.resources.mapWithKey fun name p ↦
        p.raise (Delta.contributionOf (.pool name .max) [(field, n)])
          (Delta.contributionOf (.pool name .recovery) [(field, n)])
      spellSlots := s.spellSlots + Delta.contributionOf .spellSlots [(field, n)] } := by
  have hself : s.resources.mapWithKey (fun _ p ↦ p) = s.resources :=
    Table.mapWithKey_eq_self fun _ _ _ ↦ rfl
  unfold addResource at h ⊢
  simp only [Delta.contributionOf, Int.add_zero]
  split
  · next hn => simp [hn, hself]
  · next hn =>
    simp only [hn, if_false] at h
    split
    · next hfield =>
      rw [hfield] at h
      cases h
    · next hfield => simp [hfield, hself]
    · next name part hfield =>
      have hmodify := modify_addTo s.resources name part n
      simp only [hfield, Option.some.injEq, reduceCtorEq, if_false, Int.add_zero]
      rw [← hmodify]
      split
      · rfl
      · next hnone =>
        have hsame : s.resources.modify name (·.addTo part n) = s.resources := by
          refine Table.mapWithKey_eq_self fun k p hk ↦ ?_
          have hk' : ¬ k = name := by
            rintro rfl
            simp [Table.contains, hk] at hnone
          simp [hk']
        rw [hsame]

theorem state_addResources {source : Option String} {values : List (String × Int)} {s : State}
    (h : (addResources source values s).failure = none) :
    (addResources source values s).state = { s with
      resources := s.resources.mapWithKey fun name p ↦
        p.raise (Delta.contributionOf (.pool name .max) values)
          (Delta.contributionOf (.pool name .recovery) values)
      spellSlots := s.spellSlots + Delta.contributionOf .spellSlots values } := by
  have heach : addResources source values s =
      each (fun e : String × Int ↦ addResource source e.1 e.2) values s := rfl
  rw [heach] at h ⊢
  clear heach
  induction values generalizing s with
  | nil =>
    have hself : s.resources.mapWithKey (fun _ p ↦ p) = s.resources :=
      Table.mapWithKey_eq_self fun _ _ _ ↦ rfl
    simp [Delta.contributionOf, hself]
  | cons e values ih =>
    rw [each_cons] at h ⊢
    obtain ⟨hfirst, hrest⟩ := failure_andThen_eq_none_iff.1 h
    rw [state_andThen hfirst, ih hrest, state_addResource hfirst]
    simp only [Table.mapWithKey_mapWithKey, Pool.raise_raise, Delta.contributionOf, Int.add_zero,
      Int.add_assoc]

theorem state_addImmunities {found : List Value} {s : State}
    (h : (addImmunities found s).failure = none) :
    ∃ vs, (addImmunities found s).state = { s with immunities := vs } := by
  unfold addImmunities at h ⊢
  split
  · exact ⟨s.immunities, rfl⟩
  · next hfound =>
    simp only [hfound] at h
    split
    · next vs _ => exact ⟨vs, rfl⟩
    · next hsorted =>
      rw [hsorted] at h
      cases h

/-- A tier is raised to the one of the delta if that is higher. -/
theorem dualWield_addFeatures (values : Table Int) {s : State}
    (h : 0 ≤ s.features.getD Schema.dualWieldTier 0) :
    (addFeatures values s).features.getD Schema.dualWieldTier 0 =
      max (s.features.getD Schema.dualWieldTier 0) (values.getD Schema.dualWieldTier 0) := by
  have habsorb : (addFeatures values s).features =
      s.features.absorb 0 Delta.combineFeature (values.filter fun _ n ↦ !isZero n) := by
    simp only [addFeatures, Table.absorb, Table.filter, List.foldl_filter]
    congr
    funext t e
    by_cases he : e.2 = 0 <;> simp [isZero, he]
  rw [habsorb, Table.getD_absorb, Table.get?_filter]
  have hmax : s.features.getD Schema.dualWieldTier 0 =
      max (s.features.getD Schema.dualWieldTier 0) 0 := by omega
  cases hv : values.get? Schema.dualWieldTier with
  | none =>
    have hzero : values.getD Schema.dualWieldTier 0 = 0 := by simp [Table.getD, hv]
    rw [hzero]
    exact hmax
  | some n =>
    have hn : values.getD Schema.dualWieldTier 0 = n := by simp [Table.getD, hv]
    rw [hn]
    by_cases hzero : n = 0
    · subst hzero
      exact hmax
    · have hkept : Option.filter (fun n ↦ !isZero n) (some n) = some n := by
        simp [isZero, hzero]
      rw [hkept]
      rfl

/-- Filed effects come behind those that are there, under every gate. -/
theorem getD_absorb_filed (effects gated : Table (List GatedEffect)) (gate : String) :
    (effects.absorb [] (fun _ ↦ List.append) (gated.filter fun _ es ↦ !es.isEmpty)).getD gate [] =
      effects.getD gate [] ++ gated.getD gate [] := by
  rw [Table.getD_absorb, Table.get?_filter]
  cases hg : gated.get? gate with
  | none => simp [Table.getD, hg]
  | some es =>
    have hes : gated.getD gate [] = es := by simp [Table.getD, hg]
    rw [hes]
    cases es with
    | nil => exact (List.append_nil _).symm
    | cons e es => rfl

/-- Filing changes nothing but the gated effects and their totals. -/
theorem file_eq (gated : Table (List GatedEffect)) (s : State) :
    ∃ c, file gated s = { s with conditionals := c } := by
  unfold file
  dsimp only
  split
  · exact ⟨s.conditionals, rfl⟩
  · exact ⟨_, rfl⟩

theorem filed_file (gated : Table (List GatedEffect)) (s : State) (gate : String) :
    (file gated s).conditionals.filed gate =
      s.conditionals.filed gate ++ gated.getD gate [] := by
  rw [Conditionals.filed, Conditionals.filed, ← getD_absorb_filed]
  unfold file
  dsimp only
  split
  · next hnone =>
    have hempty : (gated.filter fun _ es ↦ !es.isEmpty) = .empty := by
      refine Table.ext_get? ?_ fun k ↦ ?_ <;>
        simp [Table.keys, Table.get?, Table.empty, List.isEmpty_iff.1 hnone]
    rw [hempty]
    rfl
  · rfl

theorem total_file (gated : Table (List GatedEffect)) (s : State) (gate : String)
    (kind : EffectKind) (name : String) :
    (file gated s).conditionals.total gate kind name =
      if gated.values.any fun es ↦ !es.isEmpty then
        if name ∈ kind.targets then effectSum kind name ((file gated s).conditionals.filed gate)
        else 0
      else s.conditionals.total gate kind name := by
  have hfiles : (gated.filter fun _ es ↦ !es.isEmpty).entries.isEmpty =
      !gated.values.any fun es ↦ !es.isEmpty := by
    rw [Bool.eq_iff_iff]
    simp [Table.filter, Table.values, List.isEmpty_iff]
  unfold file
  dsimp only
  rw [hfiles]
  cases gated.values.any fun es ↦ !es.isEmpty with
  | true => exact Conditionals.total_of_totals_eq rfl gate kind name
  | false => rfl

/-- The state that a delta laid completely leaves. -/
theorem state_applyWith {source : Option String} {d : Delta} {immunities : List Value} {s : State}
    (h : (applyWith source d immunities s).failure = none) :
    (addResources source d.resources.entries (addNumbers d s)).failure = none ∧
      ∃ vs, (applyWith source d immunities s).state =
        file d.gated (addLists d { addFeatures d.features (addRanges d
          (addResources source d.resources.entries (addNumbers d s)).state) with
            immunities := vs }) := by
  obtain ⟨hlists, -⟩ := failure_andThen_eq_none_iff.1 h
  obtain ⟨himmunities, -⟩ := failure_andThen_eq_none_iff.1 hlists
  obtain ⟨hfeatures, hsorted⟩ := failure_andThen_eq_none_iff.1 himmunities
  obtain ⟨hranges, -⟩ := failure_andThen_eq_none_iff.1 hfeatures
  obtain ⟨hresources, -⟩ := failure_andThen_eq_none_iff.1 hranges
  obtain ⟨hnumbers, hadded⟩ := failure_andThen_eq_none_iff.1 hresources
  obtain ⟨vs, hvs⟩ := state_addImmunities hsorted
  refine ⟨hadded, vs, ?_⟩
  unfold applyWith
  rw [state_thenPure hlists, state_thenPure himmunities, state_andThen hfeatures, hvs,
    state_thenPure hranges, state_andThen hresources, state_andThen hnumbers]

/-- A delta that is laid completely does to the numbers and the gated effects what it says. -/
theorem lays_applyWith {source : Option String} {d : Delta} {immunities : List Value} {s : State}
    (ht : s.Tiered) (h : (applyWith source d immunities s).failure = none) :
    Lays d s (applyWith source d immunities s).state := by
  obtain ⟨hresources, vs, hstate⟩ := state_applyWith h
  rw [hstate, state_addResources hresources]
  let t : State := addLists d { addFeatures d.features (addRanges d { addNumbers d s with
    resources := s.resources.mapWithKey fun name p ↦
      p.raise (d.contribution (.pool name .max)) (d.contribution (.pool name .recovery))
    spellSlots := s.spellSlots + d.contribution .spellSlots }) with immunities := vs }
  show Lays d s (file d.gated t)
  have hfiled := filed_file d.gated t
  have htotal := total_file d.gated t
  obtain ⟨c, hc⟩ := file_eq d.gated t
  rw [hc] at hfiled htotal ⊢
  exact
    { attributes := overlay_isZero s.attributes d.attributes
      basic := overlay_basic ht.basic d
      weapon := overlay_addGain ht.weapon d.weapon
      magic := overlay_addGain ht.magic d.magic
      crafting := overlay_addGain ht.crafting d.crafting
      mitigation := overlay_isZero s.mitigation d.mitigation
      resources := rfl
      spellSlots := rfl
      movement := rfl
      movementBonuses := overlay_isZero s.movementBonuses d.movement
      weaponRanges := overlay_isZero s.weaponRanges d.weaponRanges
      dualWield := fun h ↦ dualWield_addFeatures d.features h
      filed := hfiled
      total := htotal }

end State

/-! ## Several deltas -/

namespace Delta

def total (f : Delta → Int) : List Delta → Int
  | [] => 0
  | d :: ds => f d + total f ds

/-- The sum of what deltas give to a skill. -/
def gains (f : Delta → SkillGain) (ds : List Delta) : SkillGain where
  skill := total (fun d ↦ (f d).skill) ds
  talent := total (fun d ↦ (f d).talent) ds
  tier := total (fun d ↦ (f d).tier) ds

theorem foldl_add (f : Delta → Int) (ds : List Delta) (n : Int) :
    ds.foldl (fun n d ↦ n + f d) n = n + total f ds := by
  induction ds generalizing n with
  | nil => exact (Int.add_zero n).symm
  | cons d ds ih => rw [List.foldl_cons, ih, total, Int.add_assoc]

theorem foldl_addGain (f : Delta → SkillGain) (ds : List Delta) {e : SkillEntry}
    (h : e.tier.isSome) : ds.foldl (fun e d ↦ e.addGain (f d)) e = e.addGain (gains f ds) := by
  induction ds generalizing e with
  | nil => exact (SkillEntry.addGain_zero h).symm
  | cons d ds ih =>
    rw [List.foldl_cons, ih (SkillEntry.isSome_tier_addGain e (f d)), SkillEntry.addGain_addGain]
    rfl

theorem foldl_raise (f g : Delta → Int) (ds : List Delta) (p : Pool) :
    ds.foldl (fun p d ↦ p.raise (f d) (g d)) p = p.raise (total f ds) (total g ds) := by
  induction ds generalizing p with
  | nil => exact p.raise_zero.symm
  | cons d ds ih => rw [List.foldl_cons, ih, Pool.raise_raise, total, total]

theorem gated_of_not_files {d : Delta} (h : d.files = false) (gate : String) :
    d.gated.getD gate [] = [] := by
  cases hg : d.gated.get? gate with
  | none => simp [Table.getD, hg]
  | some es =>
    obtain ⟨before, after, hentries, -⟩ := List.lookup_eq_some_iff.1 hg
    have hmem : es ∈ d.gated.values :=
      List.mem_map.2 ⟨(gate, es), by rw [hentries]; simp, rfl⟩
    have hempty : es = [] := by simpa using List.any_eq_false.1 h es hmem
    simp [Table.getD, hg, hempty]

theorem flatMap_gated_eq_nil {ds : List Delta} (h : ds.any files = false) (gate : String) :
    ds.flatMap (fun d ↦ d.gated.getD gate []) = [] :=
  List.flatMap_eq_nil_iff.2 fun d hd ↦
    gated_of_not_files (by simpa using List.any_eq_false.1 h d hd) gate

theorem total_eq_zero {f : Delta → Int} {ds : List Delta} (h : ∀ d ∈ ds, f d = 0) :
    total f ds = 0 := by
  induction ds with
  | nil => rfl
  | cons d ds ih =>
    rw [total, h d List.mem_cons_self, ih fun d' hd' ↦ h d' (List.mem_cons_of_mem d hd'),
      Int.add_zero]

end Delta

namespace State

inductive LaysAll : List Delta → State → State → Prop
  | nil (s : State) : LaysAll [] s s
  | cons {d : Delta} {ds : List Delta} {s t u : State} :
    Lays d s t → LaysAll ds t u → LaysAll (d :: ds) s u

namespace LaysAll

variable {ds es : List Delta} {s t u : State}

theorem append (h : LaysAll ds s t) (h' : LaysAll es t u) : LaysAll (ds ++ es) s u := by
  induction h with
  | nil s => exact h'
  | cons hd _ ih => exact .cons hd (ih h')

theorem tiered (h : LaysAll ds s t) (hs : s.Tiered) : t.Tiered := by
  induction h with
  | nil s => exact hs
  | cons hd _ ih => exact ih hd.tiered

/-- A table that each delta changes as a whole is changed by all of them in turn. -/
theorem mapWithKey {β : Type} {field : State → Table β} {act : Delta → String → β → β}
    (hstep : ∀ {d s t}, Lays d s t → field t = (field s).mapWithKey (act d))
    (h : LaysAll ds s t) :
    field t = (field s).mapWithKey fun name b ↦ ds.foldl (fun b d ↦ act d name b) b := by
  induction h with
  | nil s => exact (Table.mapWithKey_eq_self fun _ _ _ ↦ rfl).symm
  | cons hd _ ih =>
    rw [ih, hstep hd, Table.mapWithKey_mapWithKey]
    rfl

/-- A table of numbers gets the sum of what the deltas have under each name. -/
theorem numbers {field : State → Table Int} {part : Delta → Table Int}
    (hstep : ∀ {d s t}, Lays d s t →
      field t = (field s).mapWithKey fun name n ↦ n + (part d).getD name 0)
    (h : LaysAll ds s t) :
    field t = (field s).mapWithKey fun name n ↦
      n + Delta.total (fun d ↦ (part d).getD name 0) ds := by
  rw [h.mapWithKey hstep]
  exact Table.mapWithKey_congr fun name n _ ↦ Delta.foldl_add _ ds n

theorem gains {field : State → Table SkillEntry} {part : Delta → String → SkillGain}
    (hstep : ∀ {d s t}, Lays d s t →
      field t = (field s).mapWithKey fun name e ↦ e.addGain (part d name))
    (ht : (field s).Tiered) (h : LaysAll ds s t) :
    field t = (field s).mapWithKey fun name e ↦ e.addGain (Delta.gains (part · name) ds) := by
  rw [h.mapWithKey hstep]
  exact Table.mapWithKey_congr fun name e he ↦ Delta.foldl_addGain _ ds (ht name e he)

theorem resources (h : LaysAll ds s t) :
    t.resources = s.resources.mapWithKey fun name p ↦
      p.raise (Delta.total (Delta.contribution (.pool name .max)) ds)
        (Delta.total (Delta.contribution (.pool name .recovery)) ds) := by
  rw [h.mapWithKey Lays.resources]
  exact Table.mapWithKey_congr fun name p _ ↦ Delta.foldl_raise _ _ ds p

theorem spellSlots (h : LaysAll ds s t) :
    t.spellSlots = s.spellSlots + Delta.total (Delta.contribution .spellSlots) ds := by
  induction h with
  | nil s => exact (Int.add_zero _).symm
  | cons hd _ ih => rw [ih, hd.spellSlots, Delta.total, Int.add_assoc]

theorem movement (h : LaysAll ds s t) : t.movement = s.movement := by
  induction h with
  | nil s => rfl
  | cons hd _ ih => rw [ih, hd.movement]

theorem dualWield (h : LaysAll ds s t) (hs : 0 ≤ s.features.getD Schema.dualWieldTier 0) :
    t.features.getD Schema.dualWieldTier 0 =
      ds.foldl (fun n d ↦ max n (d.features.getD Schema.dualWieldTier 0))
        (s.features.getD Schema.dualWieldTier 0) := by
  induction h with
  | nil s => rfl
  | cons hd _ ih =>
    have hraised := hd.dualWield hs
    rw [List.foldl_cons, ← hraised]
    exact ih (by omega)

theorem filed (h : LaysAll ds s t) (gate : String) :
    t.conditionals.filed gate =
      s.conditionals.filed gate ++ ds.flatMap fun d ↦ d.gated.getD gate [] := by
  induction h with
  | nil s => exact (List.append_nil _).symm
  | cons hd _ ih => rw [ih, hd.filed, List.flatMap_cons, List.append_assoc]

theorem total (h : LaysAll ds s t) (gate : String) (kind : EffectKind) (name : String) :
    t.conditionals.total gate kind name =
      if ds.any Delta.files then
        if name ∈ kind.targets then effectSum kind name (t.conditionals.filed gate) else 0
      else s.conditionals.total gate kind name := by
  induction h with
  | nil s => rfl
  | @cons d ds s t u hd hrest ih =>
    rw [ih, List.any_cons]
    cases hfiles : ds.any Delta.files with
    | true => simp
    | false =>
      have hsame := hrest.filed gate
      rw [Delta.flatMap_gated_eq_nil hfiles, List.append_nil] at hsame
      rw [hd.total, hsame, Bool.or_false]
      rfl

end LaysAll

end State

end CharacterSheet
