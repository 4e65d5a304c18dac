import CharacterSheet.Proofs.DataCode.Joining
import CharacterSheet.Proofs.Delta.Canonical
import CharacterSheet.Proofs.State.Action

/-!
# Nothing is lost in silence

Each number of a delta is meant for one entry of the state.  If the state has the entry, the number
is added to it; if not, it is reported.  Laying a delta does nothing else to the numbers of a state:
no table gains or loses an entry, and an entry without a number of the delta stays as it is.
-/

namespace CharacterSheet

open DataCode (Branch Contribution)

/-! ## Numbers and their entries -/

namespace Delta

def branch (d : Delta) : Branch → Table SkillGain
  | .weapon => d.weapon
  | .magic => d.magic
  | .crafting => d.crafting

/-- The contributions of the entries that are not blank. -/
def filled {α : Type} (blank : α → Bool) (make : String → α → Contribution)
    (entries : List (String × α)) : List Contribution :=
  (entries.filter fun e ↦ !blank e.2).map fun e ↦ make e.1 e.2

/-- The numbers of a delta that are meant for entries of a state, as they are laid one after the
other.  Features are no such numbers, for a state need not have theirs. -/
def numbers (d : Delta) : List Contribution :=
  filled State.isZero .attribute d.attributes.entries
    ++ filled State.isZero .skill d.skills.entries
    ++ filled State.isZero .tier d.tiers.entries
    ++ filled SkillGain.isZero (.special .weapon) d.weapon.entries
    ++ filled SkillGain.isZero (.special .magic) d.magic.entries
    ++ filled SkillGain.isZero (.special .crafting) d.crafting.entries
    ++ filled State.isZero .mitigation d.mitigation.entries
    ++ filled State.isZero .resource d.resources.entries
    ++ filled State.isZero .movement d.movement.entries
    ++ filled State.isZero .weaponRange d.weaponRanges.entries

end Delta

namespace State

def branch (s : State) : Branch → Table SkillEntry
  | .weapon => s.weapon
  | .magic => s.magic
  | .crafting => s.crafting

/-- Whether a state has the entry that a number is meant for.  Every state has spell slots. -/
def has (s : State) : Contribution → Bool
  | .attribute name _ => s.attributes.contains name
  | .skill name _ | .tier name _ => s.basic.contains name
  | .special branch name _ => (s.branch branch).contains name
  | .mitigation name _ => s.mitigation.contains name
  | .resource field _ => match resourceTargets.lookup field with
    | some (.pool name _) => s.resources.contains name
    | _ => true
  | .movement name _ => s.movementBonuses.contains name
  | .weaponRange name _ => s.weaponRanges.contains name
  | _ => true

end State

namespace Table

variable {β : Type}

/-- An entry is in both tables, changed in some way. -/
def Turns (t u : Table β) (name : String) (r : β → β → Prop) : Prop :=
  ∃ b b', t.get? name = some b ∧ u.get? name = some b' ∧ r b b'

/-- Two tables have the same names, and what stands under each is related. -/
structure Pairs (t u : Table β) (r : String → β → β → Prop) : Prop where
  keys : u.keys = t.keys
  related : ∀ name b b', t.get? name = some b → u.get? name = some b' → r name b b'

end Table

namespace DataCode.Contribution

/-- The category and the name of the entry that a number is meant for. -/
def target : Contribution → String × String
  | .attribute name _ => ("attribute", name)
  | .skill name _ | .tier name _ => ("skill", name)
  | .special .weapon name _ => ("weapon skill", name)
  | .special .magic name _ => ("magic skill", name)
  | .special .crafting name _ => ("crafting skill", name)
  | .mitigation name _ => ("mitigation", name)
  | .resource field _ => match resourceTargets.lookup field with
    | some (.pool name _) => ("resource", name)
    | _ => ("resource", field)
  | .movement name _ => ("movement mode", name)
  | .weaponRange name _ => ("weapon modification", name)
  | _ => ("", "")

/-- The report of a number whose entry is missing. -/
def dangling (source : Option String) (c : Contribution) : Diagnostic :=
  ⟨.danglingReference, "character has no " ++ c.target.1 ++ " '" ++ c.target.2 ++ "'",
    some c.target.2, source⟩

/-- A number is added to its entry, and exactly as much as it is.  An unset tier counts as zero. -/
def Adds (s t : State) : Contribution → Prop
  | .attribute name n => s.attributes.Turns t.attributes name fun m m' ↦ m' = m + n
  | .skill name n => s.basic.Turns t.basic name fun e e' ↦ e'.value = e.value + n
  | .tier name n => s.basic.Turns t.basic name fun e e' ↦ e'.tier = some (e.tier.getD 0 + n)
  | .special branch name g => (s.branch branch).Turns (t.branch branch) name fun e e' ↦
    e'.value = e.value + g.skill ∧ e'.talent = e.talent + g.talent ∧
      e'.tier = some (e.tier.getD 0 + g.tier)
  | .mitigation name n => s.mitigation.Turns t.mitigation name fun m m' ↦ m' = m + n
  | .resource field n => match resourceTargets.lookup field with
    | some (.pool name .max) => s.resources.Turns t.resources name fun p p' ↦ p'.max = p.max + n
    | some (.pool name .recovery) =>
      s.resources.Turns t.resources name fun p p' ↦ p'.recovery = p.recovery + n
    | some .spellSlots => t.spellSlots = s.spellSlots + n
    | none => False
  | .movement name n => s.movementBonuses.Turns t.movementBonuses name fun m m' ↦ m' = m + n
  | .weaponRange name n => s.weaponRanges.Turns t.weaponRanges name fun m m' ↦ m' = m + n
  | _ => False

end DataCode.Contribution

namespace State

/-- What a delta leaves alone: the names of all entries, every entry for which it has no number,
and what no number is meant for. -/
structure Spares (d : Delta) (s t : State) : Prop where
  attributes : s.attributes.Pairs t.attributes fun name m m' ↦
    d.attributes.getD name 0 = 0 → m' = m
  basic : s.basic.Pairs t.basic fun name e e' ↦
    e'.talent = e.talent ∧ e'.governor = e.governor ∧ e'.legacy = e.legacy ∧
      (d.skills.getD name 0 = 0 → e'.value = e.value) ∧
      (d.tiers.getD name 0 = 0 → e'.tier = e.tier)
  branch : ∀ b, (s.branch b).Pairs (t.branch b) fun name e e' ↦
    e'.governor = e.governor ∧ e'.legacy = e.legacy ∧
      ((d.branch b).getD name .zero = .zero → e' = e)
  mitigation : s.mitigation.Pairs t.mitigation fun name m m' ↦
    d.mitigation.getD name 0 = 0 → m' = m
  resources : s.resources.Pairs t.resources fun name p p' ↦
    p'.current = p.current ∧
      (d.contribution (.pool name .max) = 0 → p'.max = p.max) ∧
      (d.contribution (.pool name .recovery) = 0 → p'.recovery = p.recovery)
  spellSlots : d.contribution .spellSlots = 0 → t.spellSlots = s.spellSlots
  movementBonuses : s.movementBonuses.Pairs t.movementBonuses fun name m m' ↦
    d.movement.getD name 0 = 0 → m' = m
  weaponRanges : s.weaponRanges.Pairs t.weaponRanges fun name m m' ↦
    d.weaponRanges.getD name 0 = 0 → m' = m
  movement : t.movement = s.movement
  detections : t.detections = s.detections
  grantedEffects : t.grantedEffects = s.grantedEffects
  encumbrance : t.encumbrance = s.encumbrance
  satisfiedGates : t.satisfiedGates = s.satisfiedGates
  effectiveConditions : t.effectiveConditions = s.effectiveConditions
  pain : t.pain = s.pain
  stress : t.stress = s.stress

end State

/-! ## One table -/

namespace Table

variable {α β : Type} {blank : α → Bool} {change : β → α → β} {values : Table α}

theorem Turns.mono {t u : Table β} {name : String} {r r' : β → β → Prop} (h : t.Turns u name r)
    (hr : ∀ b b', r b b' → r' b b') : t.Turns u name r' := by
  obtain ⟨b, b', hb, hb', hrel⟩ := h
  exact ⟨b, b', hb, hb', hr b b' hrel⟩

/-- A value that is not blank changes its entry, if there is one. -/
theorem turns_overlay {t : Table β} {e : String × α} (he : e ∈ values.entries)
    (hfilled : blank e.2 = false) (ht : t.contains e.1 = true) :
    t.Turns (t.overlay blank change values) e.1 fun b b' ↦ b' = change b e.2 := by
  obtain ⟨b, hb⟩ := Option.isSome_iff_exists.1 ht
  refine ⟨b, change b e.2, hb, ?_, rfl⟩
  rw [get?_overlay, hb, get?_of_mem_entries he]
  simp [hfilled]

/-- Every entry is left alone or changed by a value that is not blank. -/
theorem pairs_overlay {r : String → β → β → Prop} (t : Table β)
    (hkept : ∀ name b, r name b b)
    (hchanged : ∀ name a b, values.get? name = some a → blank a = false → r name b (change b a)) :
    t.Pairs (t.overlay blank change values) r where
  keys := keys_overlay t blank change values
  related := fun name b b' hb hb' ↦ by
    rw [get?_overlay, hb] at hb'
    obtain rfl := Option.some.inj hb'
    cases hvalue : values.get? name with
    | none => exact hkept name b
    | some a =>
      by_cases ha : blank a = true
      · simpa [ha] using hkept name b
      · simpa [ha] using hchanged name a b hvalue (by simpa using ha)

theorem Pairs.trans {t u v : Table β} {r r' r'' : String → β → β → Prop} (h : t.Pairs u r)
    (h' : u.Pairs v r') (hr : ∀ name a b c, r name a b → r' name b c → r'' name a c) :
    t.Pairs v r'' where
  keys := h'.keys.trans h.keys
  related := fun name a c ha hc ↦ by
    have hmem : name ∈ u.keys := h.keys ▸ mem_keys_of_get? ha
    obtain ⟨b, hb⟩ := Option.isSome_iff_exists.1 (contains_iff.2 hmem)
    exact hr name a b c (h.related name a b ha hb) (h'.related name b c hb hc)

theorem Turns.pairs {t u v : Table β} {name : String} {r r'' : β → β → Prop}
    {r' : String → β → β → Prop} (h : t.Turns u name r) (h' : u.Pairs v r')
    (hr : ∀ a b c, r a b → r' name b c → r'' a c) : t.Turns v name r'' := by
  obtain ⟨a, b, ha, hb, hab⟩ := h
  have hmem : name ∈ v.keys := h'.keys ▸ mem_keys_of_get? hb
  obtain ⟨c, hc⟩ := Option.isSome_iff_exists.1 (contains_iff.2 hmem)
  exact ⟨a, c, ha, hc, hr a b c hab (h'.related name b c hb hc)⟩

theorem Pairs.turns {t u v : Table β} {name : String} {r : String → β → β → Prop}
    {r' r'' : β → β → Prop} (h : t.Pairs u r) (h' : u.Turns v name r')
    (hr : ∀ a b c, r name a b → r' b c → r'' a c) : t.Turns v name r'' := by
  obtain ⟨b, c, hb, hc, hbc⟩ := h'
  have hmem : name ∈ t.keys := h.keys ▸ mem_keys_of_get? hb
  obtain ⟨a, ha⟩ := Option.isSome_iff_exists.1 (contains_iff.2 hmem)
  exact ⟨a, c, ha, hc, hr a b c (h.related name a b ha hb) hbc⟩

theorem pairs_mapWithKey (t : Table β) (f : String → β → β) :
    t.Pairs (t.mapWithKey f) fun name b b' ↦ b' = f name b where
  keys := keys_mapWithKey t f
  related := fun name b b' hb hb' ↦ by
    rw [get?_mapWithKey, hb] at hb'
    exact (Option.some.inj hb').symm

theorem Pairs.mono {t u : Table β} {r r' : String → β → β → Prop} (h : t.Pairs u r)
    (hr : ∀ name b b', r name b b' → r' name b b') : t.Pairs u r' :=
  ⟨h.keys, fun name b b' hb hb' ↦ hr name b b' (h.related name b b' hb hb')⟩

end Table

/-! ## Reports -/

namespace State

open Progress

variable {d : Delta} {s : State}

/-- The reports of the numbers that a state has no entries for. -/
def reports (source : Option String) (cs : List Contribution) (s : State) : List Diagnostic :=
  (cs.filter fun c ↦ !s.has c).map (·.dangling source)

theorem reports_append (source : Option String) (cs cs' : List Contribution) (s : State) :
    s.reports source (cs ++ cs') = s.reports source cs ++ s.reports source cs' := by
  simp [reports]

theorem filled_cons {α : Type} (blank : α → Bool) (make : String → α → Contribution)
    (e : String × α) (entries : List (String × α)) :
    Delta.filled blank make (e :: entries) =
      (if blank e.2 then [] else [make e.1 e.2]) ++ Delta.filled blank make entries := by
  unfold Delta.filled
  by_cases h : blank e.2 = true <;> simp [h]

/-- The reports of one table are those of its numbers without an entry. -/
theorem diagnostics_dangling {α β : Type} {table : Table β} (make : String → α → Contribution)
    {blank : α → Bool} {category : String}
    (hhas : ∀ name a, s.has (make name a) = table.contains name)
    (htarget : ∀ name a, (make name a).target = (category, name)) (source : Option String)
    (values : Table α) :
    Event.diagnostics ((table.dangling blank values).map (danglingReference source category)) =
      s.reports source (Delta.filled blank make values.entries) := by
  unfold Table.dangling
  generalize values.entries = entries
  induction entries with
  | nil => rfl
  | cons e entries ih =>
    have hreport : (make e.1 e.2).dangling source = ⟨.danglingReference,
        "character has no " ++ category ++ " '" ++ e.1 ++ "'", some e.1, source⟩ := by
      rw [Contribution.dangling, htarget]
    rw [filled_cons, reports_append, ← ih, List.filterMap_cons]
    by_cases hblank : blank e.2 = true
    · simp [hblank, reports]
    · by_cases hcontains : table.contains e.1 = true
      · simp [hblank, reports, hhas, hcontains]
      · simp [hblank, reports, hhas, hcontains, hreport, Event.diagnostics, Event.diagnostic?,
          danglingReference]

theorem diagnostics_append (es fs : List Event) :
    Event.diagnostics (es ++ fs) = Event.diagnostics es ++ Event.diagnostics fs :=
  List.filterMap_append ..

theorem diagnostics_danglingNumbers (source : Option String) (d : Delta) (s : State) :
    Event.diagnostics (s.danglingNumbers source d) = s.reports source
      (Delta.filled isZero .attribute d.attributes.entries
        ++ Delta.filled isZero .skill d.skills.entries
        ++ Delta.filled isZero .tier d.tiers.entries
        ++ Delta.filled SkillGain.isZero (.special .weapon) d.weapon.entries
        ++ Delta.filled SkillGain.isZero (.special .magic) d.magic.entries
        ++ Delta.filled SkillGain.isZero (.special .crafting) d.crafting.entries
        ++ Delta.filled isZero .mitigation d.mitigation.entries) := by
  have hweapon (name : String) (g : SkillGain) :
      s.has (.special .weapon name g) = s.weapon.contains name := rfl
  have hmagic (name : String) (g : SkillGain) :
      s.has (.special .magic name g) = s.magic.contains name := rfl
  have hcrafting (name : String) (g : SkillGain) :
      s.has (.special .crafting name g) = s.crafting.contains name := rfl
  simp only [danglingNumbers, diagnostics_append, reports_append]
  rw [diagnostics_dangling .attribute (fun _ _ ↦ rfl) (fun _ _ ↦ rfl),
    diagnostics_dangling .skill (fun _ _ ↦ rfl) (fun _ _ ↦ rfl),
    diagnostics_dangling .tier (fun _ _ ↦ rfl) (fun _ _ ↦ rfl),
    diagnostics_dangling (.special .weapon) hweapon (fun _ _ ↦ rfl),
    diagnostics_dangling (.special .magic) hmagic (fun _ _ ↦ rfl),
    diagnostics_dangling (.special .crafting) hcrafting (fun _ _ ↦ rfl),
    diagnostics_dangling .mitigation (fun _ _ ↦ rfl) (fun _ _ ↦ rfl)]

theorem diagnostics_danglingRanges (source : Option String) (d : Delta) (s : State) :
    Event.diagnostics (s.danglingRanges source d) = s.reports source
      (Delta.filled isZero .movement d.movement.entries
        ++ Delta.filled isZero .weaponRange d.weaponRanges.entries) := by
  simp only [danglingRanges, diagnostics_append, reports_append]
  rw [diagnostics_dangling .movement (fun _ _ ↦ rfl) (fun _ _ ↦ rfl),
    diagnostics_dangling .weaponRange (fun _ _ ↦ rfl) (fun _ _ ↦ rfl)]

theorem keys_resources_addResource (source : Option String) (field : String) (n : Int)
    (s : State) : (addResource source field n s).state.resources.keys = s.resources.keys := by
  unfold addResource
  split
  · rfl
  · split
    · rfl
    · rfl
    · split
      · exact Table.keys_modify s.resources _ _
      · rfl

theorem diagnostics_addResource (source : Option String) (field : String) (n : Int) (s : State) :
    (addResource source field n s).diagnostics =
      s.reports source (Delta.filled isZero .resource [(field, n)]) := by
  unfold addResource reports
  split
  · next hn => simp [Delta.filled, isZero, hn]
  · next hn =>
    split
    · next hfield => simp [Delta.filled, isZero, hn, has, hfield, diagnostics, Event.diagnostics]
    · next hfield => simp [Delta.filled, isZero, hn, has, hfield]
    · next name part hfield =>
      split
      · next hpool => simp [Delta.filled, isZero, hn, has, hfield, hpool]
      · next hpool =>
        simp [Delta.filled, isZero, hn, has, hfield, hpool, diagnostics, Event.diagnostics,
          Event.diagnostic?, danglingReference, Contribution.dangling, Contribution.target]

theorem reports_filled_congr {α : Type} {s t : State} {make : String → α → Contribution}
    (h : ∀ name a, t.has (make name a) = s.has (make name a)) (source : Option String)
    (blank : α → Bool) (entries : List (String × α)) :
    t.reports source (Delta.filled blank make entries) =
      s.reports source (Delta.filled blank make entries) := by
  refine congrArg (List.map _) (List.filter_congr fun c hc ↦ ?_)
  obtain ⟨e, -, rfl⟩ := List.mem_map.1 hc
  rw [h]

theorem diagnostics_addResources (source : Option String) {values : List (String × Int)}
    (hvalues : ∀ e ∈ values, (resourceTargets.lookup e.1).isSome = true) (s : State) :
    (addResources source values s).diagnostics =
      s.reports source (Delta.filled isZero .resource values) := by
  have heach : addResources source values s =
      each (fun e : String × Int ↦ addResource source e.1 e.2) values s := rfl
  rw [heach]
  clear heach
  induction values generalizing s with
  | nil => rfl
  | cons e values ih =>
    have hfirst := failure_addResource source (hvalues e List.mem_cons_self) e.2 s
    have hrest := ih (fun e' he' ↦ hvalues e' (List.mem_cons_of_mem e he'))
      (addResource source e.1 e.2 s).state
    have hcons : Delta.filled isZero .resource (e :: values) =
        Delta.filled isZero .resource [e] ++ Delta.filled isZero .resource values := by
      rw [filled_cons, filled_cons isZero _ e []]
      simp [Delta.filled]
    -- The first contribution leaves the names of the pools alone, and so what is missing.
    have hhas (name : String) (n : Int) : (addResource source e.1 e.2 s).state.has
        (.resource name n) = s.has (.resource name n) := by
      simp only [has, Table.contains_congr (keys_resources_addResource source e.1 e.2 s)]
    rw [each_cons, diagnostics_andThen hfirst, hrest, diagnostics_addResource, hcons,
      reports_append, reports_filled_congr hhas]

theorem diagnostics_addImmunities (found : List Value) (s : State) :
    (addImmunities found s).diagnostics = [] := by
  unfold addImmunities
  split
  · rfl
  · split <;> rfl

theorem diagnostics_thenPure (p : Progress) (f : State → State) :
    (p.thenPure f).diagnostics = p.diagnostics := by
  cases h : p.failure with
  | none => rw [thenPure, diagnostics_andThen h, diagnostics_start, List.append_nil]
  | some e => rw [thenPure, andThen_of_failure h]

/-- Of a delta that is laid exactly the numbers without an entry are reported. -/
theorem diagnostics_applyWith (hd : d.Normal) (source : Option String) (found : List Value)
    (s : State) : (applyWith source d found s).diagnostics = s.reports source d.numbers := by
  let p : Progress := { state := s.addNumbers d, events := s.danglingNumbers source d }
  let q := p.andThen (addResources source d.resources.entries)
  let r := q.andThen fun s ↦ { state := s.addRanges d, events := s.danglingRanges source d }
  have hnames : ∀ e ∈ d.resources.entries, (resourceTargets.lookup e.1).isSome = true := by
    intro e he
    refine Delta.lookup_resourceFields (hd.resources ▸ ?_)
    exact List.mem_map.2 ⟨e, he, rfl⟩
  have hresources := failure_addResources source hnames (addNumbers d s)
  have hq : q.failure = none := (failure_andThen_of_completed rfl _).trans hresources
  have hr : r.failure = none := failure_andThen_of_completed hq _
  have hqstate : q.state = _ := state_addResources hresources
  -- Neither the numbers nor the resources change which of the later entries are there.
  have hpools (name : String) (n : Int) :
      (s.addNumbers d).has (.resource name n) = s.has (.resource name n) := rfl
  have hmovement (name : String) (n : Int) :
      q.state.has (.movement name n) = s.has (.movement name n) := by
    rw [hqstate]
    rfl
  have hranges (name : String) (n : Int) :
      q.state.has (.weaponRange name n) = s.has (.weaponRange name n) := by
    rw [hqstate]
    rfl
  have hqreports : q.diagnostics = Event.diagnostics (s.danglingNumbers source d) ++
      (addResources source d.resources.entries (s.addNumbers d)).diagnostics :=
    diagnostics_andThen rfl _
  have hrreports : r.diagnostics =
      q.diagnostics ++ Event.diagnostics (q.state.danglingRanges source d) :=
    diagnostics_andThen hq _
  have hfeatures := (failure_thenPure r (addFeatures d.features)).trans hr
  show ((((r.thenPure (addFeatures d.features)).andThen _).thenPure _).thenPure _).diagnostics = _
  rw [diagnostics_thenPure, diagnostics_thenPure, diagnostics_andThen hfeatures,
    diagnostics_addImmunities, List.append_nil, diagnostics_thenPure, hrreports, hqreports,
    diagnostics_danglingNumbers, diagnostics_addResources source hnames,
    diagnostics_danglingRanges]
  simp only [Delta.numbers, reports_append, List.append_assoc, reports_filled_congr hpools,
    reports_filled_congr hmovement, reports_filled_congr hranges]

/-! ## Numbers -/

/-- What is laid of a delta apart from its numbers changes lists and gates only. -/
theorem exists_state_applyWith (hd : d.Normal) (source : Option String) (found : List Value)
    (s : State) : ∃ immunities abilities traits conditionals,
      (applyWith source d found s).state =
        { layNumbers d s with immunities, abilities, traits, conditionals } := by
  let listed (t : State) : Prop := ∃ immunities abilities traits conditionals,
    t = { layNumbers d s with immunities, abilities, traits, conditionals }
  obtain ⟨events, heq⟩ := exists_applyWith_eq hd source found s
  rw [heq]
  have himmunities (t : State) (ht : listed t) : listed (addImmunities
      (d.immunities.names.map .text ++ found) t).state := by
    obtain ⟨vs, as, ts, c, rfl⟩ := ht
    unfold addImmunities
    split
    · exact ⟨vs, as, ts, c, rfl⟩
    · split
      · next ws _ => exact ⟨ws, as, ts, c, rfl⟩
      · exact ⟨vs, as, ts, c, rfl⟩
  refine keeps_andThen (P := listed) (keeps_andThen (P := listed) (keeps_andThen (P := listed)
    ⟨_, _, _, _, rfl⟩ himmunities) ?_) ?_
  · rintro t ⟨vs, as, ts, c, rfl⟩
    exact ⟨_, _, _, _, rfl⟩
  · rintro t ⟨vs, as, ts, c, rfl⟩
    obtain ⟨c', hc⟩ := file_eq d.gated
      { layNumbers d s with immunities := vs, abilities := as, traits := ts, conditionals := c }
    exact ⟨vs, as, ts, c', hc⟩

theorem eq_zero_of_getD {values : Table Int} {name : String} {n : Int}
    (h : values.get? name = some n) (hfilled : isZero n = false) : values.getD name 0 ≠ 0 := by
  rw [Table.getD_of_get? h]
  simpa [isZero] using hfilled

/-- Numbers that are added to numbers leave those alone that nothing is added to. -/
theorem pairs_overlay_isZero (t values : Table Int) :
    t.Pairs (t.overlay isZero (· + ·) values) fun name m m' ↦
      values.getD name 0 = 0 → m' = m :=
  Table.pairs_overlay t (fun _ _ _ ↦ rfl) fun _ _ _ ha hfilled hzero ↦
    absurd hzero (eq_zero_of_getD ha hfilled)

theorem pairs_overlay_addGain (t : Table SkillEntry) (values : Table SkillGain) :
    t.Pairs (t.overlay SkillGain.isZero SkillEntry.addGain values) fun name e e' ↦
      e'.governor = e.governor ∧ e'.legacy = e.legacy ∧
        (values.getD name .zero = .zero → e' = e) := by
  refine Table.pairs_overlay t (fun _ _ ↦ ⟨rfl, rfl, fun _ ↦ rfl⟩) fun name g e hg hfilled ↦ ?_
  refine ⟨rfl, rfl, fun hzero ↦ ?_⟩
  rw [Table.getD_of_get? hg] at hzero
  simp [hzero, SkillGain.isZero] at hfilled

/-- Adding the values of skills changes nothing but values. -/
theorem pairs_values (t : Table SkillEntry) (values : Table Int) :
    t.Pairs (t.overlay isZero (fun e n ↦ { e with value := e.value + n }) values) fun name e e' ↦
      e'.talent = e.talent ∧ e'.governor = e.governor ∧ e'.legacy = e.legacy ∧
        (values.getD name 0 = 0 → e'.value = e.value) ∧ e'.tier = e.tier :=
  Table.pairs_overlay t (fun _ _ ↦ ⟨rfl, rfl, rfl, fun _ ↦ rfl, rfl⟩) fun _ _ _ ha hfilled ↦
    ⟨rfl, rfl, rfl, fun hzero ↦ absurd hzero (eq_zero_of_getD ha hfilled), rfl⟩

/-- Adding the tiers of skills changes nothing but tiers. -/
theorem pairs_tiers (t : Table SkillEntry) (values : Table Int) :
    t.Pairs (t.overlay isZero SkillEntry.addTier values) fun name e e' ↦
      e'.talent = e.talent ∧ e'.governor = e.governor ∧ e'.legacy = e.legacy ∧
        e'.value = e.value ∧ (values.getD name 0 = 0 → e'.tier = e.tier) :=
  Table.pairs_overlay t (fun _ _ ↦ ⟨rfl, rfl, rfl, rfl, fun _ ↦ rfl⟩) fun _ _ _ ha hfilled ↦
    ⟨rfl, rfl, rfl, rfl, fun hzero ↦ absurd hzero (eq_zero_of_getD ha hfilled)⟩

theorem pairs_raise (d : Delta) (pools : Table Pool) :
    pools.Pairs (pools.mapWithKey fun name p ↦
        p.raise (d.contribution (.pool name .max)) (d.contribution (.pool name .recovery)))
      fun name p p' ↦ p'.current = p.current ∧
        (d.contribution (.pool name .max) = 0 → p'.max = p.max) ∧
        (d.contribution (.pool name .recovery) = 0 → p'.recovery = p.recovery) := by
  refine (Table.pairs_mapWithKey pools _).mono fun name p p' hp ↦ ?_
  subst hp
  refine ⟨rfl, fun hzero ↦ ?_, fun hzero ↦ ?_⟩ <;> simp [Pool.raise, hzero]

theorem spares_applyWith (hd : d.Normal) (source : Option String) (found : List Value)
    (s : State) : Spares d s (applyWith source d found s).state := by
  obtain ⟨vs, as, ts, c, hstate⟩ := exists_state_applyWith hd source found s
  rw [hstate]
  exact
    { attributes := pairs_overlay_isZero s.attributes d.attributes
      basic := (pairs_values s.basic d.skills).trans (pairs_tiers _ d.tiers)
        fun _ _ _ _ h h' ↦ ⟨h'.1.trans h.1, h'.2.1.trans h.2.1, h'.2.2.1.trans h.2.2.1,
          fun hzero ↦ h'.2.2.2.1.trans (h.2.2.2.1 hzero),
          fun hzero ↦ (h'.2.2.2.2 hzero).trans h.2.2.2.2⟩
      branch := fun b ↦ by cases b <;> exact pairs_overlay_addGain _ _
      mitigation := pairs_overlay_isZero s.mitigation d.mitigation
      resources := pairs_raise d s.resources
      spellSlots := fun hzero ↦ by simp [layNumbers, addFeatures, addRanges, hzero]
      movementBonuses := pairs_overlay_isZero s.movementBonuses d.movement
      weaponRanges := pairs_overlay_isZero s.weaponRanges d.weaponRanges
      movement := rfl
      detections := rfl
      grantedEffects := rfl
      encumbrance := rfl
      satisfiedGates := rfl
      effectiveConditions := rfl
      pain := rfl
      stress := rfl }

/-- No two resource fields add to the same target. -/
theorem eq_of_lookup_resourceTargets {field field' : String} (h : field ∈ Schema.resourceFields)
    (h' : field' ∈ Schema.resourceFields)
    (htarget : resourceTargets.lookup field = resourceTargets.lookup field') : field = field' := by
  have hall : ∀ field ∈ Schema.resourceFields, ∀ field' ∈ Schema.resourceFields,
      resourceTargets.lookup field = resourceTargets.lookup field' → field = field' := by
    decide
  exact hall field h field' h' htarget

theorem contributionOf_eq_zero {target : ResourceTarget} {entries : List (String × Int)}
    (h : ∀ e ∈ entries, resourceTargets.lookup e.1 ≠ some target) :
    Delta.contributionOf target entries = 0 := by
  induction entries with
  | nil => rfl
  | cons e entries ih =>
    rw [Delta.contributionOf, if_neg (h e List.mem_cons_self),
      ih fun e' he' ↦ h e' (List.mem_cons_of_mem e he')]
    rfl

theorem contributionOf_of_mem {target : ResourceTarget} {entries : List (String × Int)}
    (hnodup : (entries.map Prod.fst).Nodup)
    (hfields : ∀ e ∈ entries, e.1 ∈ Schema.resourceFields) {e : String × Int} (he : e ∈ entries)
    (htarget : resourceTargets.lookup e.1 = some target) :
    Delta.contributionOf target entries = e.2 := by
  induction entries with
  | nil => cases he
  | cons f entries ih =>
    obtain ⟨hfirst, hrest⟩ := List.nodup_cons.1 hnodup
    rw [Delta.contributionOf]
    rcases List.mem_cons.1 he with rfl | he
    · have hzero : Delta.contributionOf target entries = 0 := by
        refine contributionOf_eq_zero fun f hf hlookup ↦ hfirst ?_
        rw [eq_of_lookup_resourceTargets (hfields e List.mem_cons_self)
          (hfields f (List.mem_cons_of_mem _ hf)) (htarget.trans hlookup.symm)]
        exact List.mem_map_of_mem hf
      rw [if_pos htarget, hzero, Int.add_zero]
    · have hother : resourceTargets.lookup f.1 ≠ some target := by
        intro hlookup
        refine hfirst (List.mem_map.2 ⟨e, he, ?_⟩)
        exact eq_of_lookup_resourceTargets (hfields e (List.mem_cons_of_mem f he))
          (hfields f List.mem_cons_self) (htarget.trans hlookup.symm)
      rw [if_neg hother, Int.zero_add,
        ih hrest (fun f' hf' ↦ hfields f' (List.mem_cons_of_mem f hf')) he]

theorem exists_of_mem_filled {α : Type} {blank : α → Bool} {make : String → α → Contribution}
    {entries : List (String × α)} {c : Contribution} (h : c ∈ Delta.filled blank make entries) :
    ∃ e ∈ entries, blank e.2 = false ∧ make e.1 e.2 = c := by
  obtain ⟨e, he, rfl⟩ := List.mem_map.1 h
  obtain ⟨he, hfilled⟩ := List.mem_filter.1 he
  exact ⟨e, he, by simpa using hfilled, rfl⟩

theorem adds_resource (hd : d.Normal) {e : String × Int} (he : e ∈ d.resources.entries)
    (hhas : s.has (.resource e.1 e.2) = true) :
    (Contribution.resource e.1 e.2).Adds s (layNumbers d s) := by
  have hfield : e.1 ∈ Schema.resourceFields := hd.resources ▸ List.mem_map_of_mem he
  have hfields : ∀ e ∈ d.resources.entries, e.1 ∈ Schema.resourceFields :=
    fun e he ↦ hd.resources ▸ List.mem_map_of_mem he
  have hcontribution {target : ResourceTarget}
      (htarget : resourceTargets.lookup e.1 = some target) : d.contribution target = e.2 :=
    contributionOf_of_mem d.resources.nodup hfields he htarget
  have hpool {name : String} (hname : s.resources.contains name = true) :
      s.resources.Turns (layNumbers d s).resources name fun p p' ↦
        p' = p.raise (d.contribution (.pool name .max))
          (d.contribution (.pool name .recovery)) := by
    obtain ⟨p, hp⟩ := Option.isSome_iff_exists.1 hname
    exact ⟨p, _, hp, by simp [layNumbers, addFeatures, addRanges, hp], rfl⟩
  unfold Contribution.Adds
  unfold has at hhas
  dsimp only at hhas ⊢
  split
  · next name hlookup =>
    rw [hlookup] at hhas
    refine (hpool hhas).mono fun p p' hp ↦ ?_
    rw [hp, Pool.raise, hcontribution hlookup]
  · next name hlookup =>
    rw [hlookup] at hhas
    refine (hpool hhas).mono fun p p' hp ↦ ?_
    rw [hp, Pool.raise, hcontribution hlookup]
  · next hlookup =>
    show s.spellSlots + d.contribution .spellSlots = s.spellSlots + e.2
    rw [hcontribution hlookup]
  · next hlookup =>
    have hsome := Delta.lookup_resourceFields hfield
    simp [hlookup] at hsome

theorem turns_addGain {t : Table SkillEntry} {values : Table SkillGain} {e : String × SkillGain}
    (he : e ∈ values.entries) (hfilled : SkillGain.isZero e.2 = false)
    (ht : t.contains e.1 = true) :
    t.Turns (t.overlay SkillGain.isZero SkillEntry.addGain values) e.1 fun b b' ↦
      b'.value = b.value + e.2.skill ∧ b'.talent = b.talent + e.2.talent ∧
        b'.tier = some (b.tier.getD 0 + e.2.tier) := by
  refine (Table.turns_overlay he hfilled ht).mono ?_
  rintro b _ rfl
  exact ⟨rfl, rfl, rfl⟩

/-- A number with an entry of its own is added to it. -/
theorem adds_layNumbers (hd : d.Normal) {c : Contribution} (hc : c ∈ d.numbers)
    (hhas : s.has c = true) : c.Adds s (layNumbers d s) := by
  simp only [Delta.numbers, List.mem_append] at hc
  rcases hc with ((((((((hc | hc) | hc) | hc) | hc) | hc) | hc) | hc) | hc) | hc <;>
    obtain ⟨e, he, hfilled, rfl⟩ := exists_of_mem_filled hc
  · exact Table.turns_overlay he hfilled hhas
  · -- The tiers are added after the values, and leave them alone.
    refine (Table.turns_overlay he hfilled hhas).pairs (pairs_tiers _ d.tiers) ?_
    rintro a b c hb ⟨-, -, -, hvalue, -⟩
    rw [hvalue, hb]
  · have hvalues := pairs_values s.basic d.skills
    have hname : (s.basic.overlay isZero (fun e n ↦ { e with value := e.value + n })
        d.skills).contains e.1 = true := (Table.contains_congr hvalues.keys e.1).trans hhas
    refine hvalues.turns (Table.turns_overlay he hfilled hname) ?_
    rintro a b c ⟨-, -, -, -, htier⟩ hc
    rw [hc, SkillEntry.addTier, htier]
  · exact turns_addGain he hfilled hhas
  · exact turns_addGain he hfilled hhas
  · exact turns_addGain he hfilled hhas
  · exact Table.turns_overlay he hfilled hhas
  · exact adds_resource hd he hhas
  · exact Table.turns_overlay he hfilled hhas
  · exact Table.turns_overlay he hfilled hhas

theorem adds_applyWith (hd : d.Normal) (source : Option String) (found : List Value)
    {c : Contribution} (hc : c ∈ d.numbers) (hhas : s.has c = true) :
    c.Adds s (applyWith source d found s).state := by
  have hadds := adds_layNumbers hd hc hhas
  obtain ⟨vs, as, ts, conditionals, hstate⟩ := exists_state_applyWith hd source found s
  rw [hstate]
  cases c with
  | special branch name g => cases branch <;> exact hadds
  | _ => exact hadds

/-! ## Laying loses nothing -/

/-- A delta is laid without a failure as long as the immunities of the state are names.  Each of its
numbers is added to its entry or, if the state does not have the entry, reported once in the name of
the source; nothing else is reported, and nothing else changes among the numbers of the state. -/
theorem apply_conserves (hd : d.Produced) (source : Option String) (s : State) :
    (∀ names : List String, s.immunities = names.map .text →
      (apply source d s).failure = none) ∧
    (∀ c ∈ d.numbers, s.has c = true → c.Adds s (apply source d s).state) ∧
    (apply source d s).diagnostics =
      (d.numbers.filter fun c ↦ !s.has c).map (·.dangling source) ∧
    Spares d s (apply source d s).state := by
  refine ⟨fun names hnames ↦ ?_, fun c hc hhas ↦ adds_applyWith hd.normal source [] hc hhas,
    diagnostics_applyWith hd.normal source [] s, spares_applyWith hd.normal source [] s⟩
  rw [apply, failure_applyWith hd.normal, hnames, List.append_nil, gather_texts]

/-- A state without attributes and magic, with one pool, and with a skill whose tier is unset. -/
def patchy : State :=
  { State.fresh {} with
    attributes := .empty
    basic := (State.fresh {}).basic.modify "fitness" ({ · with tier := none })
    magic := .empty
    resources := .ofNames ["mana"] { max := 4, current := some 9 } (by decide)
    immunities := [.text "prone"] }

/-- What an oath and a drill bring together: three numbers without an entry, and two that cancel. -/
def oathAndDrill : Delta :=
  (Delta.ofText "SS1=2:SSA=-1:SSA=X:YS1=3:A9=5").merge (Delta.ofText "A1=2:AM=-1:IB=1:K2=4:K2=-4")

theorem apply_patchy_conserves :
    oathAndDrill.Produced ∧ (apply (some "oath") oathAndDrill patchy).failure = none ∧
    (∀ c ∈ oathAndDrill.numbers, patchy.has c = true →
      c.Adds patchy (apply (some "oath") oathAndDrill patchy).state) ∧
    (apply (some "oath") oathAndDrill patchy).diagnostics.map Diagnostic.token =
      [some "physique", some "black", some "health"] ∧
    Spares oathAndDrill patchy (apply (some "oath") oathAndDrill patchy).state := by
  have hproduced : oathAndDrill.Produced :=
    .merge (Delta.produced_ofText _) (Delta.produced_ofText _)
  obtain ⟨hfailure, hadds, hreports, hspares⟩ :=
    apply_conserves hproduced (some "oath") patchy
  refine ⟨hproduced, hfailure ["prone"] rfl, hadds, ?_, hspares⟩
  rw [hreports]
  decide +kernel

end State

end CharacterSheet
