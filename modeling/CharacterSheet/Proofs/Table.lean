import CharacterSheet.Table
import Mathlib.Data.List.Induction

/-!
# Laws of folding tables

A fold of one table into another is known by its names, those of the first table and then the new
ones of the second, and by what is stored under each name.  From these two facts follow the laws of
a monoid, as far as the operation under each name has them.
-/

namespace CharacterSheet.Table

variable {α : Type} {zero : α} {op : String → α → α → α}

theorem keys_update (t : Table α) (name : String) (fallback : α) (f : α → α) :
    (t.update name fallback f).keys = if name ∈ t.keys then t.keys else t.keys ++ [name] :=
  keys_set t name _

theorem mem_keys_of_get? {t : Table α} {k : String} {a : α} (h : t.get? k = some a) :
    k ∈ t.keys := by
  refine Decidable.byContradiction fun hk ↦ ?_
  rw [get?_eq_none_iff.2 hk] at h
  cases h

theorem contains_congr {t u : Table α} (h : t.keys = u.keys) (name : String) :
    t.contains name = u.contains name := by
  rw [Bool.eq_iff_iff, contains_iff, contains_iff, h]

theorem getD_of_get? {t : Table α} {k : String} {a : α} (h : t.get? k = some a) (fallback : α) :
    t.getD k fallback = a := by
  rw [getD, h]
  rfl

theorem get?_of_mem_keys {t : Table α} {k : String} (h : k ∈ t.keys) (fallback : α) :
    t.get? k = some (t.getD k fallback) := by
  cases hk : t.get? k with
  | none => exact absurd h (get?_eq_none_iff.1 hk)
  | some a => rw [getD_of_get? hk]

theorem lookup_of_mem {e : String × α} {es : List (String × α)} (hes : (es.map Prod.fst).Nodup)
    (h : e ∈ es) : es.lookup e.1 = some e.2 := by
  induction es with
  | nil => cases h
  | cons f es ih =>
    obtain ⟨hf, hes⟩ := List.nodup_cons.1 hes
    rcases List.mem_cons.1 h with rfl | h
    · exact List.lookup_cons_self
    · have hne : e.1 ≠ f.1 := fun he ↦ hf (he ▸ List.mem_map.2 ⟨e, h, rfl⟩)
      rw [List.lookup_cons, beq_eq_false_iff_ne.2 hne]
      exact ih hes h

theorem get?_of_mem_entries {t : Table α} {e : String × α} (h : e ∈ t.entries) :
    t.get? e.1 = some e.2 :=
  lookup_of_mem t.nodup h

/-- What a table from pairs holds is one of the pairs. -/
theorem mem_of_get?_ofPairs {pairs : List (String × α)} {k : String} {a : α}
    (h : (ofPairs pairs).get? k = some a) : (k, a) ∈ pairs := by
  induction pairs using List.reverseRecOn with
  | nil => cases h
  | append_singleton pairs e ih =>
    rw [ofPairs, List.foldl_append, List.foldl_cons, List.foldl_nil, get?_set] at h
    rw [List.mem_append, List.mem_singleton]
    split at h
    · next hk => exact .inr (Prod.ext hk (Option.some.inj h).symm)
    · exact .inl (ih h)

theorem filter_eq_self {t : Table α} {p : String → α → Bool}
    (h : ∀ k a, t.get? k = some a → p k a) : t.filter p = t := by
  have hall : (t.filter p).entries = t.entries :=
    List.filter_eq_self.2 fun e he ↦ h e.1 e.2 (get?_of_mem_entries he)
  exact ext_get? (congrArg (List.map Prod.fst) hall) fun k ↦ congrArg (List.lookup k) hall

theorem putEntry_of_not_mem {name : String} (a : α) {es : List (String × α)}
    (h : name ∉ es.map Prod.fst) : putEntry name a es = es ++ [(name, a)] := by
  induction es with
  | nil => rfl
  | cons e es ih =>
    obtain ⟨hne, hrest⟩ := not_or.1 (mt List.mem_cons.2 h)
    rw [putEntry, if_neg (Ne.symm hne), ih hrest]
    rfl

theorem set_eq_self {t : Table α} {name : String} {a : α} (h : t.get? name = some a) :
    t.set name a = t := by
  refine ext_get? ?_ fun k ↦ ?_
  · rw [keys_set, if_pos (mem_keys_of_get? h)]
  · rw [get?_set]
    split
    · next hk => rw [hk, h]
    · rfl

theorem keys_absorb (t u : Table α) :
    (t.absorb zero op u).keys = t.keys ++ u.keys.filter (· ∉ t.keys) := by
  obtain ⟨es, hes⟩ := u
  show (es.foldl (fun acc e ↦ acc.update e.1 zero fun v ↦ op e.1 v e.2) t).keys =
    t.keys ++ (es.map Prod.fst).filter (· ∉ t.keys)
  induction es generalizing t with
  | nil => exact (List.append_nil _).symm
  | cons e es ih =>
    obtain ⟨hname, hes⟩ := List.nodup_cons.1 hes
    rw [List.foldl_cons, ih _ hes, keys_update, List.map_cons, List.filter_cons]
    by_cases hmem : e.1 ∈ t.keys
    · simp [hmem]
    · -- The name is new, and no later entry has it.
      have hlater : (es.map Prod.fst).filter (· ∉ t.keys ++ [e.1]) =
          (es.map Prod.fst).filter (· ∉ t.keys) := by
        refine List.filter_congr fun k hk ↦ ?_
        have hne : k ≠ e.1 := fun h ↦ hname (h ▸ hk)
        simp [hne]
      simp only [hmem, if_false, not_false_eq_true, decide_true, if_true, hlater,
        List.append_assoc, List.singleton_append]

theorem keys_prefix_absorb (t u : Table α) : t.keys <+: (t.absorb zero op u).keys := by
  rw [keys_absorb]
  exact List.prefix_append _ _

theorem mem_keys_absorb {t u : Table α} {k : String} :
    k ∈ (t.absorb zero op u).keys ↔ k ∈ t.keys ∨ k ∈ u.keys := by
  rw [keys_absorb, List.mem_append, List.mem_filter, decide_eq_true_iff]
  constructor
  · rintro (h | h)
    · exact .inl h
    · exact .inr h.1
  · rintro (h | h)
    · exact .inl h
    · by_cases hk : k ∈ t.keys
      · exact .inl hk
      · exact .inr ⟨h, hk⟩

theorem getD_absorb_add {zero : α} {add : α → α → α} (hadd : ∀ a, add a zero = a) (t u : Table α)
    (k : String) : (t.absorb zero (fun _ ↦ add) u).getD k zero =
      add (t.getD k zero) (u.getD k zero) := by
  rw [getD_absorb]
  cases hk : u.get? k with
  | none => simp [getD, hk, hadd]
  | some a => simp [getD, hk]

/-- No name is new to a table that has them all. -/
theorem keys_absorb_of_subset {t u : Table α} (h : ∀ k ∈ u.keys, k ∈ t.keys) :
    (t.absorb zero op u).keys = t.keys := by
  have hnone : u.keys.filter (· ∉ t.keys) = [] :=
    List.filter_eq_nil_iff.2 fun k hk ↦ by simpa using h k hk
  rw [keys_absorb, hnone, List.append_nil]

/-- A change to what is folded in can be made after the fold. -/
theorem absorb_update (t : Table α) {u : Table α} {name : String} (h : name ∈ u.keys)
    {f g : α → α} (hop : ∀ a b, op name a (f b) = g (op name a b)) :
    t.absorb zero op (u.update name zero f) = (t.absorb zero op u).update name zero g := by
  have hkeys : (u.update name zero f).keys = u.keys := by rw [keys_update, if_pos h]
  refine ext_get? ?_ fun k ↦ ?_
  · rw [keys_absorb, hkeys, keys_update, if_pos (mem_keys_absorb.2 (.inr h)), keys_absorb]
  · rw [get?_absorb, get?_update, get?_update]
    by_cases hk : k = name
    · subst hk
      rw [if_pos rfl, if_pos rfl, getD_absorb, get?_of_mem_keys h zero]
      exact congrArg some (hop _ _)
    · rw [if_neg hk, if_neg hk, get?_absorb]

/-- What is stored under a new name of the second table is folded in last. -/
theorem absorb_set_of_not_mem (t : Table α) {u : Table α} {name : String} (h : name ∉ u.keys)
    (a : α) : t.absorb zero op (u.set name a) =
      (t.absorb zero op u).update name zero fun v ↦ op name v a := by
  have hlast : (u.set name a).entries = u.entries ++ [(name, a)] := putEntry_of_not_mem a h
  rw [absorb, hlast, List.foldl_append]
  rfl

theorem absorb_assoc (t u v : Table α)
    (hassoc : ∀ k a b c, op k (op k a b) c = op k a (op k b c))
    (hzero : ∀ k c, u.get? k = none → v.get? k = some c → op k zero c = c) :
    (t.absorb zero op u).absorb zero op v = t.absorb zero op (u.absorb zero op v) := by
  refine ext_get? ?_ fun k ↦ ?_
  · rw [keys_absorb, keys_absorb, keys_absorb, keys_absorb, List.filter_append, List.append_assoc,
      List.filter_filter]
    congr 2
    refine List.filter_congr fun k _ ↦ ?_
    by_cases ht : k ∈ t.keys <;> by_cases hu : k ∈ u.keys <;> simp [ht, hu]
  · rw [get?_absorb, get?_absorb, get?_absorb, get?_absorb, getD_absorb]
    cases hv : v.get? k with
    | none => rfl
    | some c =>
      cases hu : u.get? k with
      | none => simp [getD, hu, hzero k c hu hv]
      | some b => simp [getD, hu, hassoc]

/-- Folding in zeros changes nothing. -/
theorem absorb_ofNames {t : Table α} {names : List String} (hnames : names.Nodup)
    (hsub : ∀ k ∈ names, k ∈ t.keys) (hzero : ∀ k a, t.get? k = some a → op k a zero = a) :
    t.absorb zero op (ofNames names zero hnames) = t := by
  refine ext_get? (keys_absorb_of_subset (by simpa using hsub)) fun k ↦ ?_
  rw [get?_absorb, get?_ofNames]
  by_cases hk : k ∈ names
  · have hsome := get?_of_mem_keys (hsub k hk) zero
    rw [if_pos hk, hsome]
    exact congrArg some (hzero k _ hsome)
  · rw [if_neg hk]

/-- A table of zeros takes over a table that starts with the same names. -/
theorem ofNames_absorb {t : Table α} {names : List String} (hnames : names.Nodup)
    (hkeys : names <+: t.keys) (hzero : ∀ k a, t.get? k = some a → op k zero a = a) :
    (ofNames names zero hnames).absorb zero op t = t := by
  refine ext_get? ?_ fun k ↦ ?_
  · obtain ⟨rest, hrest⟩ := hkeys
    have hnodup : (names ++ rest).Nodup := hrest ▸ t.nodup
    have hnew : ∀ k ∈ rest, k ∉ names := fun k hk hn ↦
      (List.nodup_append.1 hnodup).2.2 k hn k hk rfl
    have hold : names.filter (· ∉ names) = [] :=
      List.filter_eq_nil_iff.2 fun k hk ↦ by simpa using hk
    have hall : rest.filter (· ∉ names) = rest :=
      List.filter_eq_self.2 fun k hk ↦ by simpa using hnew k hk
    rw [keys_absorb, keys_ofNames, ← hrest, List.filter_append, hold, hall, List.nil_append]
  · rw [get?_absorb, getD_ofNames, get?_ofNames]
    cases hk : t.get? k with
    | none =>
      have hnot := get?_eq_none_iff.1 hk
      exact if_neg fun h ↦ hnot (hkeys.subset h)
    | some a => exact congrArg some (hzero k a hk)

theorem empty_absorb {t : Table α} (hzero : ∀ k a, t.get? k = some a → op k zero a = a) :
    (empty : Table α).absorb zero op t = t := by
  refine ext_get? ?_ fun k ↦ ?_
  · rw [keys_absorb]
    simp [keys, empty]
  · rw [get?_absorb]
    cases hk : t.get? k with
    | none => rfl
    | some a => exact congrArg some (hzero k a hk)

end CharacterSheet.Table
