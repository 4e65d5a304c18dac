/-!
# Sets of names

A set of names is kept as its strictly increasing list, ordered by code point, so that two sets
with the same members are equal.
-/

namespace CharacterSheet

/-- A finite set of names, listed in increasing order. -/
structure NameSet where
  names : List String
  sorted : names.Pairwise (· < ·)
  deriving DecidableEq

namespace NameSet

instance : Repr NameSet := ⟨fun s n ↦ reprPrec s.names n⟩

def empty : NameSet := ⟨[], .nil⟩

instance : Inhabited NameSet := ⟨empty⟩

instance : Membership String NameSet := ⟨fun s x ↦ x ∈ s.names⟩

instance (x : String) (s : NameSet) : Decidable (x ∈ s) := inferInstanceAs (Decidable (x ∈ s.names))

theorem mem_names {x : String} {s : NameSet} : x ∈ s.names ↔ x ∈ s := .rfl

/-- Inserts a name into an increasing list, once. -/
def insertName (x : String) : List String → List String
  | [] => [x]
  | y :: ys => if x < y then x :: y :: ys else if x = y then y :: ys else y :: insertName x ys

theorem mem_insertName {a x : String} {ys : List String} :
    a ∈ insertName x ys ↔ a = x ∨ a ∈ ys := by
  induction ys with
  | nil => simp [insertName]
  | cons y ys ih =>
    simp only [insertName]
    split
    · simp
    · split
      · next h =>
        subst h
        simp
      · simp only [List.mem_cons, ih]
        exact or_left_comm

theorem lt_of_not_lt_of_ne {x y : String} (h : ¬ x < y) (hne : x ≠ y) : y < x := by
  have hle : y ≤ x := String.not_lt.1 h
  by_cases hyx : y < x
  · exact hyx
  · exact absurd (String.le_antisymm (String.not_lt.1 hyx) hle) hne

theorem sorted_insertName (x : String) {ys : List String} (h : ys.Pairwise (· < ·)) :
    (insertName x ys).Pairwise (· < ·) := by
  induction ys with
  | nil => simp [insertName]
  | cons y ys ih =>
    have hy := List.pairwise_cons.1 h
    simp only [insertName]
    split
    · next hxy =>
      refine List.pairwise_cons.2 ⟨?_, h⟩
      intro b hb
      rcases List.mem_cons.1 hb with rfl | hb
      · exact hxy
      · exact String.lt_trans hxy (hy.1 b hb)
    · next hxy =>
      split
      · exact h
      · next hne =>
        refine List.pairwise_cons.2 ⟨?_, ih hy.2⟩
        intro b hb
        rcases mem_insertName.1 hb with rfl | hb
        · exact lt_of_not_lt_of_ne hxy hne
        · exact hy.1 b hb

def insert (s : NameSet) (x : String) : NameSet :=
  ⟨insertName x s.names, sorted_insertName x s.sorted⟩

def erase (s : NameSet) (x : String) : NameSet :=
  ⟨s.names.filter (· != x), s.sorted.sublist List.filter_sublist⟩

def union (s t : NameSet) : NameSet := t.names.foldl insert s

def ofList (xs : List String) : NameSet := xs.foldl insert empty

@[simp] theorem mem_insert {a x : String} {s : NameSet} : a ∈ s.insert x ↔ a = x ∨ a ∈ s :=
  mem_insertName

@[simp] theorem not_mem_empty (a : String) : ¬ a ∈ empty := List.not_mem_nil

theorem mem_foldl_insert {a : String} (xs : List String) (s : NameSet) :
    a ∈ xs.foldl insert s ↔ a ∈ s ∨ a ∈ xs := by
  induction xs generalizing s with
  | nil => simp
  | cons x xs ih =>
    rw [List.foldl_cons, ih, mem_insert, List.mem_cons]
    exact ⟨fun h ↦ by rcases h with (h | h) | h <;> simp [h],
      fun h ↦ by rcases h with h | h | h <;> simp [h]⟩

@[simp] theorem mem_union {a : String} {s t : NameSet} : a ∈ s.union t ↔ a ∈ s ∨ a ∈ t :=
  mem_foldl_insert t.names s

@[simp] theorem mem_ofList {a : String} {xs : List String} : a ∈ ofList xs ↔ a ∈ xs := by
  simp [ofList, mem_foldl_insert]

theorem eq_of_sorted {xs ys : List String} (hx : xs.Pairwise (· < ·)) (hy : ys.Pairwise (· < ·))
    (h : ∀ a, a ∈ xs ↔ a ∈ ys) : xs = ys := by
  induction xs generalizing ys with
  | nil =>
    cases ys with
    | nil => rfl
    | cons y ys => exact absurd ((h y).2 List.mem_cons_self) List.not_mem_nil
  | cons x xs ih =>
    cases ys with
    | nil => exact absurd ((h x).1 List.mem_cons_self) List.not_mem_nil
    | cons y ys =>
      have hx' := List.pairwise_cons.1 hx
      have hy' := List.pairwise_cons.1 hy
      have hxy : x = y := by
        rcases List.mem_cons.1 ((h x).1 List.mem_cons_self) with hxy | hxy
        · exact hxy
        rcases List.mem_cons.1 ((h y).2 List.mem_cons_self) with hyx | hyx
        · exact hyx.symm
        exact absurd (hx'.1 y hyx) (String.lt_asymm (hy'.1 x hxy))
      subst hxy
      refine congrArg _ (ih hx'.2 hy'.2 fun a ↦ ⟨fun ha ↦ ?_, fun ha ↦ ?_⟩)
      · rcases List.mem_cons.1 ((h a).1 (List.mem_cons_of_mem x ha)) with rfl | ha'
        · exact absurd (hx'.1 a ha) (String.lt_irrefl a)
        · exact ha'
      · rcases List.mem_cons.1 ((h a).2 (List.mem_cons_of_mem x ha)) with rfl | ha'
        · exact absurd (hy'.1 a ha) (String.lt_irrefl a)
        · exact ha'

/-- Two sets with the same members are equal. -/
theorem ext_mem {s t : NameSet} (h : ∀ a, a ∈ s ↔ a ∈ t) : s = t := by
  obtain ⟨xs, hx⟩ := s
  obtain ⟨ys, hy⟩ := t
  obtain rfl : xs = ys := eq_of_sorted hx hy h
  rfl

end NameSet

end CharacterSheet
