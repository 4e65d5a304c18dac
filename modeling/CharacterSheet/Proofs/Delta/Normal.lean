import CharacterSheet.DataCode.Contribution
import CharacterSheet.Proofs.Delta.Traits
import CharacterSheet.Proofs.State.GateTotals
import CharacterSheet.Proofs.Table

/-!
# The normal form of deltas

Deltas that are read from codes have exactly the names of the schema in every table, and only what a
code can say in their lists.  The empty delta is of this form, and adding a contribution that fits
the schema keeps it, and so does folding one such delta into another.
-/

namespace CharacterSheet

/-- A trait as a code can give it: known by a letter, with a payload that fits into a token. -/
structure Trait.Regular (t : Trait) : Prop where
  letter : ∃ c, TraitKind.letters.find? c = some t.kind ∧ t.code = String.ofList ['T', c]
  payload : ∀ p, t.payload = some p → p ≠ "" ∧ ':' ∉ p.toList ∧ '\n' ∉ p.toList

/-- An effect that counts for a target of the schema. -/
def GatedEffect.Regular (e : GatedEffect) : Prop := e.value ≠ 0 ∧ e.subtype ∈ e.kind.targets

namespace Table

variable {α : Type} {zero : α} {names : List String}

theorem keys_update_of_keys_eq {t : Table α} (ht : t.keys = names) {name : String}
    (h : name ∈ names) (f : α → α) : (t.update name zero f).keys = names := by
  rw [keys_update, if_pos (ht ▸ h), ht]

theorem keys_absorb_of_keys_eq {t u : Table α} (ht : t.keys = names) (hu : u.keys = names)
    (op : String → α → α → α) : (t.absorb zero op u).keys = names := by
  rw [keys_absorb_of_subset (by rw [ht, hu]; exact fun k hk ↦ hk), ht]

end Table

namespace Delta

structure Normal (d : Delta) : Prop where
  attributes : d.attributes.keys = Schema.attributes
  skills : d.skills.keys = Schema.skills
  tiers : d.tiers.keys = Schema.skills
  weapon : d.weapon.keys = Schema.weaponSkills
  magic : d.magic.keys = Schema.magicSkills
  crafting : d.crafting.keys = Schema.craftingSkills
  mitigation : d.mitigation.keys = Schema.mitigations
  resources : d.resources.keys = Schema.resourceFields
  movement : d.movement.keys = Schema.movementModes
  weaponRanges : d.weaponRanges.keys = Schema.weaponRanges
  features : d.features.keys = Schema.combatFeatures
  dualWield : d.features.getD Schema.dualWieldTier 0 ∈ 0 :: Schema.dualWieldTiers
  immunities : ∀ name ∈ d.immunities, name ∈ Schema.immunityLetters.names
  abilities : ∀ a ∈ d.abilities, 0 ≤ a.energy ∧ a.name = none
  codes : (d.traits.map Trait.code).Nodup
  traits : ∀ t ∈ d.traits, t.Regular
  gated : d.gated.keys = Schema.gates
  effects : ∀ gate, ∀ e ∈ d.gated.getD gate [], e.Regular
  raised : ∀ name on, d.flags.get? name = some on → on = true
  flags : ∀ name ∈ d.flags.keys, name ∈ Schema.flagLetters.names

theorem gated_empty (gate : String) : empty.gated.getD gate [] = [] :=
  Table.getD_ofNames _ [] Schema.nodup_gates gate

theorem gated_absorb (d e : Delta) (gate : String) :
    (d.absorb e).gated.getD gate [] = d.gated.getD gate [] ++ e.gated.getD gate [] :=
  Table.getD_absorb_add List.append_nil d.gated e.gated gate

theorem normal_empty : empty.Normal where
  attributes := Table.keys_ofNames _ _ Schema.nodup_attributes
  skills := Table.keys_ofNames _ _ Schema.nodup_skills
  tiers := Table.keys_ofNames _ _ Schema.nodup_skills
  weapon := Table.keys_ofNames _ _ Schema.nodup_weaponSkills
  magic := Table.keys_ofNames _ _ Schema.nodup_magicSkills
  crafting := Table.keys_ofNames _ _ Schema.nodup_craftingSkills
  mitigation := Table.keys_ofNames _ _ Schema.nodup_mitigations
  resources := Table.keys_ofNames _ _ Schema.nodup_resourceFields
  movement := Table.keys_ofNames _ _ Schema.nodup_movementModes
  weaponRanges := Table.keys_ofNames _ _ Schema.nodup_weaponRanges
  features := Table.keys_ofNames _ _ Schema.nodup_combatFeatures
  dualWield := by
    have hzero : empty.features.getD Schema.dualWieldTier 0 = 0 :=
      Table.getD_ofNames _ 0 Schema.nodup_combatFeatures _
    rw [hzero]
    exact List.mem_cons_self
  immunities := fun _ h ↦ absurd h (NameSet.not_mem_empty _)
  abilities := fun _ h ↦ absurd h List.not_mem_nil
  codes := List.nodup_nil
  traits := fun _ h ↦ absurd h List.not_mem_nil
  gated := Table.keys_ofNames _ _ Schema.nodup_gates
  effects := by
    intro gate e he
    rw [gated_empty] at he
    cases he
  raised := fun _ _ h ↦ by cases h
  flags := fun _ h ↦ absurd h List.not_mem_nil

end Delta

open Delta

/-! ## Adding a contribution -/

namespace DataCode.Contribution

/-- A contribution names an entry of the schema and says of it what a code can say. -/
def Fits : Contribution → Prop
  | .nothing => True
  | .attribute name _ => name ∈ Schema.attributes
  | .skill name _ => name ∈ Schema.skills
  | .tier name _ => name ∈ Schema.skills
  | .special branch name _ => name ∈ branch.letters.names
  | .mitigation name _ => name ∈ Schema.mitigations
  | .resource name _ => name ∈ Schema.resourceFields
  | .weaponRange name _ => name ∈ Schema.weaponRanges
  | .dualWield n => n ∈ Schema.dualWieldTiers
  | .movement name _ => name ∈ Schema.movementModes
  | .immunity name => name ∈ Schema.immunityLetters.names
  | .flag name => name ∈ Schema.flagLetters.names
  | .trait t => t.Regular
  | .ability a => 0 ≤ a.energy ∧ a.name = none
  | .gated _ effects => ∀ e ∈ effects, e.Regular

end DataCode.Contribution

theorem Trait.Regular.withPayload {t : Trait} (h : t.Regular) {p q : Option String}
    (hp : ∀ s, p = some s → s ≠ "" ∧ ':' ∉ s.toList ∧ '\n' ∉ s.toList) (hq : q = t.payload) :
    Trait.Regular { t with payload := p <|> q } where
  letter := h.letter
  payload := by
    intro s hs
    cases p with
    | none => exact h.payload s (by rw [← hq]; exact hs)
    | some p =>
      have hs : some p = some s := hs
      exact hp s hs

theorem regular_addTrait {ts : List Trait} {new : Trait} (hts : ∀ t ∈ ts, t.Regular)
    (hnew : new.Regular) : ∀ t ∈ addTrait ts new, t.Regular := by
  intro t ht
  rcases mem_addTrait ht with h | rfl | ⟨old, hold, -, rfl⟩
  · exact hts t h
  · exact hnew
  · exact (hts old hold).withPayload hnew.payload rfl

theorem dualWield_max {a b : Int} (ha : a ∈ 0 :: Schema.dualWieldTiers)
    (hb : b ∈ 0 :: Schema.dualWieldTiers) : max a b ∈ 0 :: Schema.dualWieldTiers := by
  rcases Int.le_total a b with h | h
  · rwa [Int.max_eq_right h]
  · rwa [Int.max_eq_left h]

theorem mem_schemaGates (gate : Gate) : gate.name ∈ Schema.gates := by
  cases gate <;> decide

theorem Delta.Normal.add {d : Delta} (hd : d.Normal) {c : DataCode.Contribution} (hc : c.Fits) :
    (d.add c).Normal := by
  match c, hc with
  | .nothing, _ => exact hd
  | .attribute name n, hc =>
    exact { hd with attributes := Table.keys_update_of_keys_eq hd.attributes hc _ }
  | .skill name n, hc => exact { hd with skills := Table.keys_update_of_keys_eq hd.skills hc _ }
  | .tier name n, hc => exact { hd with tiers := Table.keys_update_of_keys_eq hd.tiers hc _ }
  | .special branch name g, hc =>
    cases branch with
    | weapon => exact { hd with weapon := Table.keys_update_of_keys_eq hd.weapon hc _ }
    | magic => exact { hd with magic := Table.keys_update_of_keys_eq hd.magic hc _ }
    | crafting => exact { hd with crafting := Table.keys_update_of_keys_eq hd.crafting hc _ }
  | .mitigation name n, hc =>
    exact { hd with mitigation := Table.keys_update_of_keys_eq hd.mitigation hc _ }
  | .resource name n, hc =>
    exact { hd with resources := Table.keys_update_of_keys_eq hd.resources hc _ }
  | .weaponRange name n, hc =>
    exact { hd with weaponRanges := Table.keys_update_of_keys_eq hd.weaponRanges hc _ }
  | .dualWield n, hc =>
    have hraised : (d.add (.dualWield n)).features.getD Schema.dualWieldTier 0 =
        max (d.features.getD Schema.dualWieldTier 0) n := by
      show (d.features.update Schema.dualWieldTier 0 (max · n)).getD Schema.dualWieldTier 0 = _
      rw [Table.getD, Table.get?_update, if_pos rfl]
      rfl
    exact { hd with
      features := Table.keys_update_of_keys_eq hd.features List.mem_cons_self _
      dualWield := by
        rw [hraised]
        exact dualWield_max hd.dualWield (List.mem_cons_of_mem 0 hc) }
  | .movement name n, hc =>
    exact { hd with movement := Table.keys_update_of_keys_eq hd.movement hc _ }
  | .immunity name, hc =>
    exact { hd with
      immunities := by
        intro a ha
        rcases NameSet.mem_insert.1 ha with rfl | ha
        · exact hc
        · exact hd.immunities a ha }
  | .flag name, hc =>
    exact { hd with
      raised := by
        intro k on hk
        have hk : (d.flags.set name true).get? k = some on := hk
        rw [Table.get?_set] at hk
        split at hk
        · exact (Option.some.inj hk).symm
        · exact hd.raised k on hk
      flags := by
        intro k hk
        have hk : k ∈ (d.flags.set name true).keys := hk
        rw [Table.keys_set] at hk
        split at hk
        · exact hd.flags k hk
        · rcases List.mem_append.1 hk with hk | hk
          · exact hd.flags k hk
          · rw [List.mem_singleton.1 hk]
            exact hc }
  | .trait t, hc =>
    exact { hd with
      codes := nodup_code_addTrait t hd.codes
      traits := regular_addTrait hd.traits hc }
  | .ability a, hc =>
    exact { hd with
      abilities := by
        intro b hb
        rcases List.mem_append.1 hb with hb | hb
        · exact hd.abilities b hb
        · rw [List.mem_singleton.1 hb]
          exact hc }
  | .gated gate effects, hc =>
    exact { hd with
      gated := Table.keys_update_of_keys_eq hd.gated (mem_schemaGates gate) _
      effects := by
        intro k e he
        have he : e ∈ (d.gated.update gate.name [] (· ++ effects)).getD k [] := he
        rw [Table.getD, Table.get?_update] at he
        split at he
        · rcases List.mem_append.1 he with he | he
          · exact hd.effects _ e he
          · exact hc e he
        · exact hd.effects k e he }

/-! ## Folding deltas together -/

/-- Only what is on counts when flags are raised, so raising them is a fold of what is on. -/
theorem Delta.raiseFlags_eq_absorb (flags other : Table Bool) :
    raiseFlags flags other =
      flags.absorb false (fun _ _ on ↦ on) (other.filter fun _ on ↦ on) := by
  simp only [raiseFlags, Table.absorb, Table.filter, List.foldl_filter]
  congr
  funext acc e
  by_cases he : e.2 = true
  · simp [he, Table.update]
  · simp [he]

/-- What is raised over flags that are on is on. -/
theorem Delta.raised_absorb {flags other : Table Bool}
    (hflags : ∀ name on, flags.get? name = some on → on = true)
    (hother : ∀ name on, other.get? name = some on → on = true) {name : String} {on : Bool}
    (h : (flags.absorb false (fun _ _ on ↦ on) other).get? name = some on) : on = true := by
  rw [Table.get?_absorb] at h
  cases hon : other.get? name with
  | none =>
    rw [hon] at h
    exact hflags name on h
  | some on' =>
    rw [hon] at h
    obtain rfl : on' = on := Option.some.inj h
    exact hother name on' hon

theorem Delta.Normal.filter_flags {d : Delta} (hd : d.Normal) :
    (d.flags.filter fun _ on ↦ on) = d.flags :=
  Table.filter_eq_self hd.raised

end CharacterSheet
