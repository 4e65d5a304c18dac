import CharacterSheet.Proofs.Delta.Normal

/-!
# Entries of deltas

Seen from the outside a delta is what stands at each of its places.  A contribution names one place
at most; adding it changes what stands there and nothing else.  A delta of the normal form is empty
exactly when it is compared as such.
-/

namespace CharacterSheet

namespace Delta

inductive Place where
  | attribute (name : String)
  | skill (name : String)
  | tier (name : String)
  | special (branch : DataCode.Branch) (name : String)
  | mitigation (name : String)
  | resource (name : String)
  | movement (name : String)
  | weaponRange (name : String)
  | feature (name : String)
  | immunity (name : String)
  | abilities
  | trait (code : String)
  | gate (name : String)
  | flag (name : String)
  deriving DecidableEq, Repr

inductive Entry where
  | number (n : Option Int)
  | gain (g : Option SkillGain)
  | listed (found : Bool)
  | abilities (as : List Ability)
  | trait (t : Option Trait)
  | effects (es : Option (List GatedEffect))
  | flag (on : Option Bool)
  deriving DecidableEq, Repr

def entry (d : Delta) : Place → Entry
  | .attribute name => .number (d.attributes.get? name)
  | .skill name => .number (d.skills.get? name)
  | .tier name => .number (d.tiers.get? name)
  | .special .weapon name => .gain (d.weapon.get? name)
  | .special .magic name => .gain (d.magic.get? name)
  | .special .crafting name => .gain (d.crafting.get? name)
  | .mitigation name => .number (d.mitigation.get? name)
  | .resource name => .number (d.resources.get? name)
  | .movement name => .number (d.movement.get? name)
  | .weaponRange name => .number (d.weaponRanges.get? name)
  | .feature name => .number (d.features.get? name)
  | .immunity name => .listed (decide (name ∈ d.immunities))
  | .abilities => .abilities d.abilities
  | .trait code => .trait (d.traits.find? fun t ↦ t.code = code)
  | .gate name => .effects (d.gated.get? name)
  | .flag name => .flag (d.flags.get? name)

end Delta

open Delta

namespace DataCode.Contribution

def place? : Contribution → Option Place
  | .nothing => none
  | .attribute name _ => some (.attribute name)
  | .skill name _ => some (.skill name)
  | .tier name _ => some (.tier name)
  | .special branch name _ => some (.special branch name)
  | .mitigation name _ => some (.mitigation name)
  | .resource name _ => some (.resource name)
  | .weaponRange name _ => some (.weaponRange name)
  | .dualWield _ => some (.feature Schema.dualWieldTier)
  | .movement name _ => some (.movement name)
  | .immunity name => some (.immunity name)
  | .flag name => some (.flag name)
  | .trait t => some (.trait t.code)
  | .ability _ => some .abilities
  | .gated gate _ => some (.gate gate.name)

/-- What becomes of the entry that a contribution names. -/
def change : Contribution → Delta.Entry → Delta.Entry
  | .attribute _ n, .number m | .skill _ n, .number m | .tier _ n, .number m
  | .mitigation _ n, .number m | .resource _ n, .number m | .weaponRange _ n, .number m
  | .movement _ n, .number m => .number (some (m.getD 0 + n))
  | .dualWield n, .number m => .number (some (max (m.getD 0) n))
  | .special _ _ g, .gain h => .gain (some ((h.getD .zero).add g))
  | .immunity _, .listed _ => .listed true
  | .flag _, .flag _ => .flag (some true)
  | .trait t, .trait none => .trait (some t)
  | .trait t, .trait (some old) => .trait (some { old with payload := t.payload <|> old.payload })
  | .ability a, .abilities as => .abilities (as ++ [a])
  | .gated _ effects, .effects es => .effects (some (es.getD [] ++ effects))
  | _, e => e

/-- A contribution changes one delta into another: the entry that it names changes, every other
entry stays, and no trait changes its place in the list. -/
structure Changes (c : Contribution) (d d' : Delta) : Prop where
  own : ∀ p, c.place? = some p → d'.entry p = c.change (d.entry p)
  others : ∀ p, c.place? ≠ some p → d'.entry p = d.entry p
  order : d.traits.map Trait.code <+: d'.traits.map Trait.code

end DataCode.Contribution

open DataCode (Contribution)

theorem find?_addTrait (ts : List Trait) (new : Trait) (code : String) :
    (addTrait ts new).find? (fun t ↦ t.code = code) =
      if code = new.code then
        match ts.find? fun t ↦ t.code = code with
        | none => some new
        | some old => some { old with payload := new.payload <|> old.payload }
      else ts.find? fun t ↦ t.code = code := by
  induction ts with
  | nil =>
    by_cases h : new.code = code
    · simp [addTrait, h]
    · simp [addTrait, h, Ne.symm h]
  | cons old ts ih =>
    by_cases hold : old.code = new.code
    · by_cases h : old.code = code
      · simp [addTrait, hold, ← h]
      · have hnew : ¬ code = new.code := fun h' ↦ h (hold.trans h'.symm)
        simp [addTrait, hold, hnew, Ne.symm hnew]
    · by_cases h : old.code = code
      · have hnew : ¬ code = new.code := fun h' ↦ hold (h.trans h')
        simp [addTrait, h, hnew]
      · simp [addTrait, hold, h, ih]

namespace Delta

theorem entry_add_own (d : Delta) {c : Contribution} {p : Place} (h : c.place? = some p) :
    (d.add c).entry p = c.change (d.entry p) := by
  cases c with
  | nothing => cases h
  | special branch name g =>
    obtain rfl := Option.some.inj h
    cases branch <;> simp [add, entry, Contribution.change, Table.getD]
  | immunity name =>
    obtain rfl := Option.some.inj h
    simp [add, entry, Contribution.change, NameSet.mem_insert]
  | trait t =>
    obtain rfl := Option.some.inj h
    simp only [add, addTrait, entry, find?_addTrait]
    cases d.traits.find? fun u ↦ u.code = t.code <;> simp [Contribution.change]
  | _ =>
    obtain rfl := Option.some.inj h
    simp [add, entry, Contribution.change, Table.getD]

/-- Adding leaves every entry alone that the contribution does not name. -/
theorem entry_add_other (d : Delta) {c : Contribution} {p : Place} (h : c.place? ≠ some p) :
    (d.add c).entry p = d.entry p := by
  cases c with
  | nothing => rfl
  | special branch name g =>
    cases p with
    | special branch' name' =>
      cases branch <;> cases branch' <;> simp_all [add, entry, Contribution.place?, eq_comm]
    | _ => cases branch <;> rfl
  | trait t =>
    cases p with
    | special branch' name' => cases branch' <;> rfl
    | trait code =>
      have hcode : code ≠ t.code := fun hcode ↦ h (hcode ▸ rfl)
      simp only [add, addTrait, entry, find?_addTrait, if_neg hcode]
    | _ => rfl
  | immunity name =>
    cases p with
    | special branch' name' => cases branch' <;> rfl
    | immunity other =>
      have hother : other ≠ name := fun hother ↦ h (hother ▸ rfl)
      simp [add, entry, hother]
    | _ => rfl
  | _ =>
    cases p with
    | special branch' name' => cases branch' <;> rfl
    | immunity name' => rfl
    | _ => simp_all [add, entry, Contribution.place?, eq_comm]

theorem traits_prefix_add (d : Delta) (c : Contribution) :
    d.traits.map Trait.code <+: (d.add c).traits.map Trait.code := by
  cases c with
  | trait t =>
    simp only [add, addTrait, map_code_addTrait]
    split
    · exact List.prefix_rfl
    · exact List.prefix_append _ _
  | special branch name g => cases branch <;> exact List.prefix_rfl
  | _ => exact List.prefix_rfl

theorem changes_add (d : Delta) (c : Contribution) : c.Changes d (d.add c) where
  own := fun _ h ↦ entry_add_own d h
  others := fun _ h ↦ entry_add_other d h
  order := traits_prefix_add d c

/-! ## Empty deltas -/

end Delta

theorem Table.eq_of_same {α : Type} [BEq α] [LawfulBEq α] {t u : Table α} (h : t.same u = true)
    (hkeys : t.keys = u.keys) : t = u := by
  simp only [Table.same, Bool.and_eq_true, List.all_eq_true, beq_iff_eq] at h
  refine Table.ext_get? hkeys fun k ↦ ?_
  cases hk : t.get? k with
  | some a =>
    obtain ⟨before, after, hentries, -⟩ := List.lookup_eq_some_iff.1 hk
    exact (h.2 (k, a) (by simp [hentries])).symm
  | none =>
    have hmem := Table.get?_eq_none_iff.1 hk
    rw [hkeys] at hmem
    exact (Table.get?_eq_none_iff.2 hmem).symm

theorem Table.same_self {α : Type} [BEq α] [LawfulBEq α] (t : Table α) : t.same t = true := by
  simp only [Table.same, Bool.and_eq_true, List.all_eq_true, beq_iff_eq, true_and]
  exact fun e he ↦ Table.get?_of_mem_entries he

theorem Table.eq_empty_of_same {α : Type} [BEq α] {t : Table α} (h : t.same .empty = true) :
    t = .empty := by
  simp only [Table.same, Bool.and_eq_true, beq_iff_eq] at h
  have hnil : t.entries = [] := List.eq_nil_of_length_eq_zero h.1
  exact ext_get? (congrArg (List.map Prod.fst) hnil) fun k ↦ congrArg (List.lookup k) hnil

/-- A delta of the normal form has the names of the empty delta. -/
theorem Delta.Normal.isEmpty_iff {d : Delta} (hd : d.Normal) : d.isEmpty = true ↔ d = empty := by
  have hempty := normal_empty
  constructor
  · intro h
    simp only [isEmpty, same, Bool.and_eq_true, beq_iff_eq] at h
    obtain ⟨⟨⟨⟨⟨⟨⟨⟨⟨⟨⟨⟨⟨⟨⟨hattributes, hskills⟩, htiers⟩, hweapon⟩, hmagic⟩, hcrafting⟩,
      hmitigation⟩, hresources⟩, hmovement⟩, hranges⟩, hfeatures⟩, himmunities⟩, habilities⟩,
      htraits⟩, hgated⟩, hflags⟩ := h
    obtain ⟨a, b, c, w, m, cr, mi, r, mo, wr, f, i, ab, t, g, fl⟩ := d
    obtain rfl := Table.eq_of_same hattributes (hd.attributes.trans hempty.attributes.symm)
    obtain rfl := Table.eq_of_same hskills (hd.skills.trans hempty.skills.symm)
    obtain rfl := Table.eq_of_same htiers (hd.tiers.trans hempty.tiers.symm)
    obtain rfl := Table.eq_of_same hweapon (hd.weapon.trans hempty.weapon.symm)
    obtain rfl := Table.eq_of_same hmagic (hd.magic.trans hempty.magic.symm)
    obtain rfl := Table.eq_of_same hcrafting (hd.crafting.trans hempty.crafting.symm)
    obtain rfl := Table.eq_of_same hmitigation (hd.mitigation.trans hempty.mitigation.symm)
    obtain rfl := Table.eq_of_same hresources (hd.resources.trans hempty.resources.symm)
    obtain rfl := Table.eq_of_same hmovement (hd.movement.trans hempty.movement.symm)
    obtain rfl := Table.eq_of_same hranges (hd.weaponRanges.trans hempty.weaponRanges.symm)
    obtain rfl := Table.eq_of_same hfeatures (hd.features.trans hempty.features.symm)
    obtain rfl := Table.eq_of_same hgated (hd.gated.trans hempty.gated.symm)
    obtain rfl := Table.eq_empty_of_same hflags
    subst himmunities habilities htraits
    rfl
  · rintro rfl
    simp [isEmpty, same, Table.same_self]

end CharacterSheet
