import CharacterSheet.Proofs.Content.Resolving
import CharacterSheet.Proofs.Session.Reachable

/-!
# Assembling is resolving

A template is refused as not valid exactly when it uses a name that is not known, whatever kind of
name it is.  Otherwise it yields the character that it describes, which has not been built yet.
-/

namespace CharacterSheet.CharacterTemplate

/-- Every name that a template uses is known: content and its options, slots, attributes, skills of
any category, tier fields, and pools, which are the default ones and those that the template
adds. -/
structure Resolvable (t : CharacterTemplate) (c : Catalog) : Prop where
  modules : ∀ id ∈ t.modules.keys, id ∈ c.modules.keys
  options : ∀ e ∈ t.modules.entries, ∀ m, c.modules.get? e.1 = some m →
    ∀ name ∈ e.2, name ∈ m.options.names
  slots : ∀ slot ∈ t.equipment.keys, slot ∈ CharacterSheet.slots
  items : ∀ id ∈ t.equipment.values, id ∈ c.items.keys
  trainings : ∀ id ∈ t.trainings, id ∈ c.items.keys
  injuries : ∀ id ∈ t.injuries, id ∈ c.injuries.keys
  attributes : ∀ name ∈ t.attributes.keys, name ∈ Schema.attributes
  skills : ∀ name ∈ t.skills.keys, name ∈ skillNames
  tiers : ∀ name ∈ t.skillTiers.keys, name ∈ skillNames
  tierFields : ∀ fields ∈ t.skillTiers.values, ∀ field ∈ fields.keys,
    field = "tier" ∨ field ∈ legacyTierFields
  pools : ∀ name ∈ t.current.keys, name ∈ defaultPools ∨ name ∈ t.resources.keys

/-- The character that a template describes, before it is built. -/
structure Assembled (t : CharacterTemplate) (settings : Settings) (c : Catalog)
    (character : Character) : Prop where
  name : character.name = t.name
  base : character.base = t.authored settings
  modules : List.Forall₂
    (fun e m ↦ ∃ found, c.modules.get? e.1 = some found ∧ m = selecting e.2 found)
    t.modules.entries character.modules
  trainings : List.Forall₂ (fun id item ↦ c.items.get? id = some item)
    t.trainings character.trainings
  injuries : List.Forall₂ (fun id injury ↦ c.injuries.get? id = some injury)
    t.injuries character.injuries
  slots : character.equipment.keys = CharacterSheet.slots
  worn : ∀ slot ∈ CharacterSheet.slots,
    character.equipment.worn? slot = (t.equipment.get? slot).bind c.items.get?
  conditions : ∀ name, name ∈ character.conditions ↔ name ∈ t.conditions
  state : character.state = { State.fresh settings with
    pain := { modifier := t.painModifier }
    stress := { modifier := t.stressModifier } }
  unbuilt : character.baseline = none
  status : character.status = .idle
  queued : character.queued = false
  diagnostics : character.diagnostics = []
  buildDiagnostics : character.buildDiagnostics = []

variable {t : CharacterTemplate} {c : Catalog} {settings : Settings}

theorem resolvable_iff : t.Resolvable c ↔
    (∀ e ∈ t.modules.entries, e.1 ∈ c.modules.keys ∧ ∀ m, c.modules.get? e.1 = some m →
      ∀ name ∈ e.2, name ∈ m.options.names) ∧
    (∀ e ∈ t.equipment.entries, e.1 ∈ CharacterSheet.slots ∧ e.2 ∈ c.items.keys) ∧
    ((∀ name ∈ t.attributes.keys, name ∈ Schema.attributes) ∧
      (∀ name ∈ t.skills.keys, name ∈ skillNames) ∧
      (∀ e ∈ t.skillTiers.entries, e.1 ∈ skillNames ∧
        ∀ field ∈ e.2.keys, field ∈ CharacterTemplate.tierFields) ∧
      ∀ name ∈ t.current.keys, name ∈ t.poolNames) ∧
    (∀ id ∈ t.trainings, id ∈ c.items.keys) ∧ ∀ id ∈ t.injuries, id ∈ c.injuries.keys := by
  constructor
  · intro h
    refine ⟨fun e he ↦ ⟨?_, h.options e he⟩, fun e he ↦ ⟨?_, ?_⟩,
      ⟨h.attributes, h.skills, fun e he ↦ ⟨?_, ?_⟩, ?_⟩, h.trainings, h.injuries⟩
    · exact h.modules e.1 (List.mem_map_of_mem he)
    · exact h.slots e.1 (List.mem_map_of_mem he)
    · exact h.items e.2 (List.mem_map_of_mem he)
    · exact h.tiers e.1 (List.mem_map_of_mem he)
    · exact fun field hfield ↦
        List.mem_cons.2 (h.tierFields e.2 (List.mem_map_of_mem he) field hfield)
    · exact fun name hname ↦ mem_poolNames.2 (h.pools name hname)
  · rintro ⟨hmodules, hequipment, ⟨hattributes, hskills, htiers, hpools⟩, htrainings, hinjuries⟩
    exact
      { modules := List.forall_mem_map.2 fun e he ↦ (hmodules e he).1
        options := fun e he ↦ (hmodules e he).2
        slots := List.forall_mem_map.2 fun e he ↦ (hequipment e he).1
        items := List.forall_mem_map.2 fun e he ↦ (hequipment e he).2
        trainings := htrainings
        injuries := hinjuries
        attributes := hattributes
        skills := hskills
        tiers := List.forall_mem_map.2 fun e he ↦ (htiers e he).1
        tierFields := List.forall_mem_map.2 fun e he field hfield ↦
          List.mem_cons.1 ((htiers e he).2 field hfield)
        pools := fun name hname ↦ mem_poolNames.1 (hpools name hname) }

theorem resolves_assemble (hc : c.Checked) :
    Resolves (t.Resolvable c) (t.Assembled settings c) (t.assemble (.ok settings) c) := by
  refine Resolves.congr ?_ resolvable_iff
  refine (t.resolves_resolveModules hc).bind fun modules hmodules ↦ ?_
  refine t.resolves_resolveEquipment.bind ?_
  rintro _ rfl
  refine t.resolves_baseState.bind ?_
  rintro _ rfl
  refine (Resolves.mapM fun id _ ↦ t.resolves_resolve "item" c.items id).bind
    fun trainings htrainings ↦ ?_
  refine (Resolves.mapM fun id _ ↦ t.resolves_resolve "injury" c.injuries id).map
    fun injuries hinjuries ↦ ?_
  exact
    { name := rfl
      base := rfl
      modules := hmodules
      trainings := htrainings
      injuries := hinjuries
      slots := by rw [Table.keys_mapWithKey, Equipment.bare, Table.keys_ofNames]
      worn := fun slot hslot ↦ by
        rw [Equipment.worn?, Table.getD, Table.get?_mapWithKey, Equipment.bare,
          Table.get?_ofNames, if_pos hslot]
        cases t.equipment.get? slot <;> rfl
      conditions := fun name ↦ NameSet.mem_ofList
      state := rfl
      unbuilt := rfl
      status := rfl
      queued := rfl
      diagnostics := rfl
      buildDiagnostics := rfl }

/-- A template is refused as not valid exactly if it uses a name that is not known, and otherwise
yields the character that it describes. -/
theorem assemble_refuses_exactly_unknown (hc : c.Checked) :
    ((∃ e, t.assemble (.ok settings) c = .error e ∧ e.severity = .validation) ↔
        ¬ t.Resolvable c) ∧
      (t.Resolvable c → ∃ character,
        t.assemble (.ok settings) c = .ok character ∧ t.Assembled settings c character) := by
  have h : Resolves (t.Resolvable c) (t.Assembled settings c) (t.assemble (.ok settings) c) :=
    resolves_assemble hc
  refine ⟨⟨?_, h.2⟩, h.1⟩
  rintro ⟨e, herror, -⟩ hknown
  obtain ⟨character, hok, -⟩ := h.1 hknown
  cases herror.symm.trans hok

/-- One template names content of the catalog only; another one also an injury that nobody has. -/
theorem assemble_ada_or_refuse :
    (Session.ada.Resolvable Session.camp ∧ ∃ character,
        Session.ada.assemble (.ok {}) Session.camp = .ok character ∧
          Session.ada.Assembled {} Session.camp character) ∧
      ∃ e, { Session.ada with injuries := ["burn", "bite"] }.assemble (.ok {}) Session.camp =
        .error e ∧ e.severity = .validation := by
  constructor
  · obtain ⟨hrefuses, hyields⟩ := assemble_refuses_exactly_unknown Session.checked_camp
    have hknown : Session.ada.Resolvable Session.camp := by
      refine not_not.1 (mt hrefuses.2 ?_)
      rintro ⟨e, he, -⟩
      cases he.symm.trans Session.assemble_ada
    exact ⟨hknown, hyields hknown⟩
  · refine (assemble_refuses_exactly_unknown Session.checked_camp).1.2 fun hknown ↦ ?_
    exact absurd (hknown.injuries "bite" (by decide)) (by decide +kernel)

end CharacterSheet.CharacterTemplate
