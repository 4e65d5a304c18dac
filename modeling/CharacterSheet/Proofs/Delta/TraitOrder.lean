import CharacterSheet.Proofs.Delta.Normal
import Mathlib.Data.List.Nodup

/-!
# The order in which traits are added

A trait acts on the traits of its own code only, and there on their payload.  So the order of
traits with different codes shows in the order of the list alone, and the order of traits with one
code only if two of them have different payloads.
-/

namespace CharacterSheet

namespace Trait

/-- The traits of a code. -/
def ofCode (code : String) (ts : List Trait) : List Trait := ts.filter fun t ↦ t.code = code

/-- A trait without its payload. -/
def bare (t : Trait) : Trait := { t with payload := none }

/-- Two traits give different payloads to one code. -/
def Contradicts (t u : Trait) : Prop :=
  t.code = u.code ∧ ∃ p q, t.payload = some p ∧ u.payload = some q ∧ p ≠ q

variable {t u : Trait} {ts us vs : List Trait} {code : String}

theorem Contradicts.symm (h : t.Contradicts u) : u.Contradicts t := by
  obtain ⟨hcode, p, q, hp, hq, hne⟩ := h
  exact ⟨hcode.symm, q, p, hq, hp, hne.symm⟩

instance (t u : Trait) : Decidable (t.Contradicts u) :=
  decidable_of_iff
    (t.code = u.code ∧ t.payload.isSome ∧ u.payload.isSome ∧ t.payload ≠ u.payload) <| by
      unfold Contradicts
      cases t.payload <;> cases u.payload <;> simp

theorem mem_ofCode : t ∈ ofCode code ts ↔ t ∈ ts ∧ t.code = code := by
  simp [ofCode]

/-- A list with one trait a code has no other trait of the code of a member. -/
theorem ofCode_of_mem (hcodes : (ts.map Trait.code).Nodup) (ht : t ∈ ts) :
    ofCode t.code ts = [t] := by
  obtain ⟨before, after, rfl⟩ := List.append_of_mem ht
  rw [List.map_append, List.map_cons, List.nodup_middle, List.nodup_cons, List.mem_append,
    not_or] at hcodes
  obtain ⟨⟨hbefore, hafter⟩, -⟩ := hcodes
  have hother {us : List Trait} (hus : t.code ∉ us.map Trait.code) : ofCode t.code us = [] := by
    refine List.filter_eq_nil_iff.2 fun u hu ↦ ?_
    have hcode : u.code ≠ t.code := fun hcode ↦ hus (List.mem_map.2 ⟨u, hu, hcode⟩)
    simpa using hcode
  have hsplit : ofCode t.code (before ++ t :: after) =
      ofCode t.code before ++ t :: ofCode t.code after := by
    simp [ofCode]
  rw [hsplit, hother hbefore, hother hafter, List.nil_append]

/-- Rearranging a list with one trait a code does not change what it has of a code. -/
theorem ofCode_perm (hcodes : (ts.map Trait.code).Nodup) (h : ts.Perm us) (code : String) :
    ofCode code ts = ofCode code us := by
  have hperm : (ofCode code ts).Perm (ofCode code us) := h.filter _
  cases hus : ofCode code us with
  | nil => exact (hus ▸ hperm).eq_nil
  | cons u rest =>
    have hmem : u ∈ ofCode code us := hus ▸ List.mem_cons_self
    obtain ⟨hu, rfl⟩ := mem_ofCode.1 hmem
    rw [← hus, ofCode_of_mem hcodes (h.mem_iff.2 hu),
      ofCode_of_mem ((h.map Trait.code).nodup_iff.1 hcodes) hu]

theorem ofCode_addTrait (ts : List Trait) (t : Trait) (code : String) :
    ofCode code (addTrait ts t) =
      if t.code = code then addTrait (ofCode code ts) t else ofCode code ts := by
  unfold ofCode
  induction ts with
  | nil => by_cases h : t.code = code <;> simp [addTrait, h]
  | cons old ts ih =>
    by_cases hold : old.code = t.code
    · by_cases h : t.code = code <;> simp [addTrait, hold, h]
    · by_cases h : old.code = code
      · have ht : ¬ t.code = code := fun ht ↦ hold (h.trans ht.symm)
        rw [if_neg ht] at ih
        rw [addTrait, if_neg hold, if_neg ht]
        simp [h, ih]
      · by_cases ht : t.code = code <;> simp_all [addTrait]

/-- What becomes of the traits of a code depends on the traits of that code only. -/
theorem ofCode_foldl_addTrait (us ts : List Trait) (code : String) :
    ofCode code (us.foldl addTrait ts) = (ofCode code us).foldl addTrait (ofCode code ts) := by
  induction us generalizing ts with
  | nil => rfl
  | cons u us ih =>
    rw [List.foldl_cons, ih, ofCode_addTrait]
    by_cases h : u.code = code <;> simp [ofCode, h]

theorem map_bare_addTrait (ts : List Trait) (t : Trait) :
    (addTrait ts t).map bare = addTrait (ts.map bare) t.bare := by
  induction ts with
  | nil => rfl
  | cons old ts ih =>
    by_cases h : old.code = t.code
    · simp [addTrait, bare, h]
    · have hbare : ¬ old.bare.code = t.bare.code := h
      simp only [addTrait, h, if_false, List.map_cons, hbare, ih]

theorem map_bare_foldl_addTrait (us ts : List Trait) :
    (us.foldl addTrait ts).map bare = (us.map bare).foldl addTrait (ts.map bare) := by
  induction us generalizing ts with
  | nil => rfl
  | cons u us ih => rw [List.foldl_cons, ih, map_bare_addTrait, List.map_cons, List.foldl_cons]

/-- Traits of one code and one kind can be swapped unless their payloads differ. -/
theorem addTrait_comm (hcode : t.code = u.code) (hkind : t.kind = u.kind)
    (h : ¬ t.Contradicts u) (ts : List Trait) :
    addTrait (addTrait ts t) u = addTrait (addTrait ts u) t := by
  rw [addTrait_addTrait_of_eq hcode, addTrait_addTrait_of_eq hcode.symm]
  obtain ⟨kind, code, p⟩ := t
  obtain ⟨kind', code', q⟩ := u
  obtain rfl : code = code' := hcode
  obtain rfl : kind = kind' := hkind
  cases p with
  | none => simp
  | some p =>
    cases q with
    | none => rfl
    | some q =>
      have hpq : p = q := Decidable.byContradiction fun hne ↦ h ⟨rfl, p, q, rfl, rfl, hne⟩
      rw [hpq]

theorem Regular.kind_eq (ht : t.Regular) (hu : u.Regular) (h : t.code = u.code) :
    t.kind = u.kind := by
  obtain ⟨c, hc, htcode⟩ := ht.letter
  obtain ⟨d, hd, hucode⟩ := hu.letter
  have hletters := String.ofList_injective (htcode.symm.trans (h.trans hucode))
  obtain rfl : c = d := by simpa using hletters
  exact Option.some.inj (hc.symm.trans hd)

theorem Regular.bare (h : t.Regular) : t.bare.Regular where
  letter := h.letter
  payload := fun p hp ↦ by cases hp

/-- The order of the added traits does not matter to a code whose traits do not contradict each
other. -/
theorem ofCode_foldl_addTrait_perm (h : us.Perm vs) (hregular : ∀ u ∈ us, u.Regular)
    (hcode : ∀ t ∈ us, ∀ u ∈ us, t.code = code → ¬ t.Contradicts u) (ts : List Trait) :
    ofCode code (us.foldl addTrait ts) = ofCode code (vs.foldl addTrait ts) := by
  rw [ofCode_foldl_addTrait, ofCode_foldl_addTrait]
  refine (h.filter _).foldl_eq' (fun t ht u hu ts ↦ ?_) _
  obtain ⟨htmem, ht⟩ := mem_ofCode.1 ht
  obtain ⟨humem, hu⟩ := mem_ofCode.1 hu
  have hsame : t.code = u.code := ht.trans hu.symm
  exact addTrait_comm hsame ((hregular t htmem).kind_eq (hregular u humem) hsame)
    (hcode t htmem u humem ht) ts

/-- Lists with the same traits of each code are rearrangements of each other. -/
theorem perm_of_ofCode (h : ∀ code, ofCode code ts = ofCode code us) : ts.Perm us := by
  refine List.perm_iff_count.2 fun t ↦ ?_
  have hcount (ts : List Trait) : (ofCode t.code ts).count t = ts.count t :=
    List.count_filter (by simp)
  rw [← hcount ts, h, hcount us]

/-- But for payloads, the order of the added traits is seen only in the order of the list. -/
theorem map_bare_foldl_addTrait_perm (h : us.Perm vs) (hregular : ∀ u ∈ us, u.Regular)
    (ts : List Trait) :
    ((us.foldl addTrait ts).map bare).Perm ((vs.foldl addTrait ts).map bare) := by
  refine perm_of_ofCode fun code ↦ ?_
  rw [map_bare_foldl_addTrait, map_bare_foldl_addTrait]
  refine ofCode_foldl_addTrait_perm (h.map bare) ?_ ?_ _
  · intro u hu
    obtain ⟨v, hv, rfl⟩ := List.mem_map.1 hu
    exact (hregular v hv).bare
  · rintro t ht u hu - ⟨-, p, q, hp, -⟩
    obtain ⟨v, -, rfl⟩ := List.mem_map.1 ht
    cases hp

end Trait

end CharacterSheet
