/-!
# Tables

A table maps names to values and remembers the order in which the names arrived.  Each name occurs
once, and that is part of the type.  Every operation is described through `get?` and `keys`.
-/

namespace CharacterSheet

/-- Values under distinct names, in order of arrival. -/
structure Table (α : Type) where
  entries : List (String × α)
  nodup : (entries.map Prod.fst).Nodup
  deriving DecidableEq

namespace Table

variable {α β : Type}

instance [Repr α] : Repr (Table α) := ⟨fun t n ↦ reprPrec t.entries n⟩

def empty : Table α := ⟨[], by simp⟩

instance : Inhabited (Table α) := ⟨empty⟩

def keys (t : Table α) : List String := t.entries.map Prod.fst

def values (t : Table α) : List α := t.entries.map Prod.snd

def get? (t : Table α) (name : String) : Option α := t.entries.lookup name

def getD (t : Table α) (name : String) (fallback : α) : α := (t.get? name).getD fallback

def contains (t : Table α) (name : String) : Bool := (t.get? name).isSome

def size (t : Table α) : Nat := t.entries.length

/-- Puts a value under a name: in place if the name is there, else at the end. -/
def putEntry (name : String) (value : α) : List (String × α) → List (String × α)
  | [] => [(name, value)]
  | e :: es => if e.1 = name then (name, value) :: es else e :: putEntry name value es

theorem map_fst_putEntry (name : String) (value : α) (es : List (String × α)) :
    (putEntry name value es).map Prod.fst =
      if name ∈ es.map Prod.fst then es.map Prod.fst else es.map Prod.fst ++ [name] := by
  induction es with
  | nil => simp [putEntry]
  | cons e es ih =>
    by_cases h : e.1 = name
    · simp [putEntry, h]
    · have h' : ¬ name = e.1 := fun hh ↦ h hh.symm
      simp only [putEntry, h, if_false, List.map_cons, ih, List.mem_cons, h', false_or]
      split <;> simp

theorem nodup_putEntry (name : String) (value : α) {es : List (String × α)}
    (h : (es.map Prod.fst).Nodup) : ((putEntry name value es).map Prod.fst).Nodup := by
  rw [map_fst_putEntry]
  split
  · exact h
  · next hn =>
    refine List.nodup_append.2 ⟨h, by simp, ?_⟩
    intro a ha b hb
    rw [List.mem_singleton.1 hb]
    exact fun hab ↦ hn (hab ▸ ha)

/-- Stores a value under a name: in place if the name is there, else as the last entry. -/
def set (t : Table α) (name : String) (value : α) : Table α :=
  ⟨putEntry name value t.entries, nodup_putEntry name value t.nodup⟩

/-- Combines what is stored under a name, or a fallback, into a new value for it. -/
def update (t : Table α) (name : String) (fallback : α) (f : α → α) : Table α :=
  t.set name (f (t.getD name fallback))

/-- Stores a value under a name that is not there yet. -/
def setDefault (t : Table α) (name : String) (value : α) : Table α :=
  if t.contains name then t else t.set name value

def mapWithKey (t : Table α) (f : String → α → β) : Table β :=
  ⟨t.entries.map fun e ↦ (e.1, f e.1 e.2), by simpa [Function.comp_def] using t.nodup⟩

def map (t : Table α) (f : α → β) : Table β := t.mapWithKey fun _ ↦ f

def modify (t : Table α) (name : String) (f : α → α) : Table α :=
  t.mapWithKey fun k v ↦ if k = name then f v else v

def filter (t : Table α) (p : String → α → Bool) : Table α :=
  ⟨t.entries.filter fun e ↦ p e.1 e.2, t.nodup.sublist (List.filter_sublist.map _)⟩

def erase (t : Table α) (name : String) : Table α := t.filter fun k _ ↦ !(k == name)

/-- The same value under each of some distinct names. -/
def ofNames (names : List String) (value : α) (h : names.Nodup) : Table α :=
  ⟨names.map fun n ↦ (n, value), by simpa [Function.comp_def] using h⟩

/-- A table from pairs; a repeated name keeps its place and takes the last value. -/
def ofPairs (pairs : List (String × α)) : Table α := pairs.foldl (fun t e ↦ t.set e.1 e.2) empty

/-- Folds each entry of `other` into the table: under a name that is not there yet, `zero` counts
as stored. -/
def absorb (zero : α) (op : String → α → α → α) (t other : Table α) : Table α :=
  other.entries.foldl (fun acc e ↦ acc.update e.1 zero fun v ↦ op e.1 v e.2) t

/-- Two tables hold the same entries, in whatever order. -/
def Same (s t : Table α) : Prop := ∀ name, s.get? name = t.get? name

/-- Decides whether two tables hold the same entries. -/
def same [BEq α] (s t : Table α) : Bool :=
  s.size == t.size && s.entries.all fun e ↦ t.get? e.1 == some e.2

/-! ## Lookups -/

theorem lookup_putEntry (name k : String) (value : α) (es : List (String × α)) :
    (putEntry name value es).lookup k = if k = name then some value else es.lookup k := by
  induction es with
  | nil =>
    by_cases h : k = name
    · simp [putEntry, h]
    · simp [putEntry, List.lookup_cons, h, beq_eq_false_iff_ne.2 h]
  | cons e es ih =>
    obtain ⟨e₁, e₂⟩ := e
    by_cases he : e₁ = name
    · subst he
      by_cases h : k = e₁
      · simp [putEntry, h]
      · simp [putEntry, List.lookup_cons, h, beq_eq_false_iff_ne.2 h]
    · by_cases hk : k = e₁
      · subst hk
        simp [putEntry, he]
      · simp [putEntry, he, List.lookup_cons, beq_eq_false_iff_ne.2 hk, ih]

@[simp] theorem get?_set (t : Table α) (name k : String) (value : α) :
    (t.set name value).get? k = if k = name then some value else t.get? k :=
  lookup_putEntry name k value t.entries

@[simp] theorem get?_empty (k : String) : (empty : Table α).get? k = none := rfl

theorem keys_set (t : Table α) (name : String) (value : α) :
    (t.set name value).keys = if name ∈ t.keys then t.keys else t.keys ++ [name] :=
  map_fst_putEntry name value t.entries

@[simp] theorem get?_update (t : Table α) (name k : String) (fallback : α) (f : α → α) :
    (t.update name fallback f).get? k =
      if k = name then some (f (t.getD name fallback)) else t.get? k := by
  simp [update]

@[simp] theorem get?_mapWithKey (t : Table α) (f : String → α → β) (k : String) :
    (t.mapWithKey f).get? k = (t.get? k).map (f k) := by
  obtain ⟨es, h⟩ := t
  show (es.map fun e ↦ (e.1, f e.1 e.2)).lookup k = (es.lookup k).map (f k)
  clear h
  induction es with
  | nil => rfl
  | cons e es ih =>
    obtain ⟨e₁, e₂⟩ := e
    by_cases hk : k = e₁
    · subst hk
      simp
    · simpa [List.lookup_cons, beq_eq_false_iff_ne.2 hk] using ih

@[simp] theorem keys_mapWithKey (t : Table α) (f : String → α → β) :
    (t.mapWithKey f).keys = t.keys := by
  simp [keys, mapWithKey, Function.comp_def]

@[simp] theorem get?_modify (t : Table α) (name k : String) (f : α → α) :
    (t.modify name f).get? k = if k = name then (t.get? k).map f else t.get? k := by
  unfold modify
  rw [get?_mapWithKey]
  split <;> simp

@[simp] theorem keys_modify (t : Table α) (name : String) (f : α → α) :
    (t.modify name f).keys = t.keys :=
  keys_mapWithKey t _

theorem lookup_eq_none_iff (k : String) (es : List (String × α)) :
    es.lookup k = none ↔ k ∉ es.map Prod.fst := by
  induction es with
  | nil => simp
  | cons e es ih =>
    obtain ⟨e₁, e₂⟩ := e
    by_cases hk : k = e₁
    · simp [hk]
    · simpa [List.lookup_cons, beq_eq_false_iff_ne.2 hk, hk] using ih

theorem get?_eq_none_iff {t : Table α} {k : String} : t.get? k = none ↔ k ∉ t.keys :=
  lookup_eq_none_iff k t.entries

theorem contains_iff {t : Table α} {k : String} : t.contains k = true ↔ k ∈ t.keys := by
  have h := get?_eq_none_iff (t := t) (k := k)
  cases hk : t.get? k <;> simp_all [contains]

theorem get?_filter (t : Table α) (p : String → α → Bool) (k : String) :
    (t.filter p).get? k = (t.get? k).filter (p k) := by
  obtain ⟨es, h⟩ := t
  show (es.filter fun e ↦ p e.1 e.2).lookup k = (es.lookup k).filter (p k)
  induction es with
  | nil => rfl
  | cons e es ih =>
    obtain ⟨e₁, e₂⟩ := e
    have hn := List.nodup_cons.1 h
    have ih := ih hn.2
    by_cases hk : k = e₁
    · subst hk
      rw [(lookup_eq_none_iff k es).2 hn.1] at ih
      cases hp : p k e₂
      · simpa [hp, Option.filter] using ih
      · simp [hp, Option.filter]
    · cases hp : p e₁ e₂ <;> simp [hp, List.lookup_cons, beq_eq_false_iff_ne.2 hk, ih]

@[simp] theorem get?_erase (t : Table α) (name k : String) :
    (t.erase name).get? k = if k = name then none else t.get? k := by
  rw [erase, get?_filter]
  by_cases hk : k = name
  · cases ht : t.get? k <;> simp [hk, Option.filter]
  · cases ht : t.get? k <;> simp [hk, Option.filter]

@[simp] theorem keys_ofNames (names : List String) (value : α) (h : names.Nodup) :
    (ofNames names value h).keys = names := by
  simp [keys, ofNames, Function.comp_def]

@[simp] theorem get?_ofNames (names : List String) (value : α) (h : names.Nodup) (k : String) :
    (ofNames names value h).get? k = if k ∈ names then some value else none := by
  show (names.map fun n ↦ (n, value)).lookup k = _
  clear h
  induction names with
  | nil => simp
  | cons n names ih =>
    by_cases hk : k = n
    · simp [hk]
    · simp [List.lookup_cons, beq_eq_false_iff_ne.2 hk, hk, ih]

/-- A table is known by its names in order and by what is stored under each name. -/
theorem ext_get? {s t : Table α} (hk : s.keys = t.keys) (hg : ∀ k, s.get? k = t.get? k) :
    s = t := by
  obtain ⟨es, hs⟩ := s
  obtain ⟨fs, ht⟩ := t
  have h : es = fs := by
    induction es generalizing fs with
    | nil => exact (List.map_eq_nil_iff.1 hk.symm).symm
    | cons e es ih =>
      cases fs with
      | nil => cases hk
      | cons f fs =>
        obtain ⟨e₁, e₂⟩ := e
        obtain ⟨f₁, f₂⟩ := f
        obtain ⟨rfl, hkeys⟩ := List.cons.inj hk
        have hv : some e₂ = some f₂ := by simpa [get?] using hg e₁
        obtain rfl := Option.some.inj hv
        have hs' := List.nodup_cons.1 hs
        have ht' := List.nodup_cons.1 ht
        refine congrArg _ (ih hs'.2 fs ht'.2 hkeys fun k ↦ ?_)
        by_cases hk' : k = e₁
        · subst hk'
          exact ((lookup_eq_none_iff k es).2 hs'.1).trans
            ((lookup_eq_none_iff k fs).2 ht'.1).symm
        · simpa [get?, List.lookup_cons, beq_eq_false_iff_ne.2 hk'] using hg k
  subst h
  rfl

/-- Only what a table holds matters to a change of its values. -/
theorem mapWithKey_congr {t : Table α} {f g : String → α → β}
    (h : ∀ k v, t.get? k = some v → f k v = g k v) : t.mapWithKey f = t.mapWithKey g := by
  refine ext_get? (by simp) fun k ↦ ?_
  rw [get?_mapWithKey, get?_mapWithKey]
  cases hk : t.get? k with
  | none => rfl
  | some v => simp [h k v hk]

/-- A change of all values and a change of one value can be swapped if they can be swapped at that
one. -/
theorem modify_mapWithKey (t : Table α) (f : String → α → α) (name : String) (g : α → α)
    (h : ∀ v, g (f name v) = f name (g v)) :
    (t.mapWithKey f).modify name g = (t.modify name g).mapWithKey f := by
  refine ext_get? (by simp) fun k ↦ ?_
  by_cases hk : k = name
  · subst hk
    simp [Function.comp_def, h]
  · simp [hk]

/-- Two changes of all values, one after the other, are one change. -/
theorem mapWithKey_mapWithKey {γ : Type} (t : Table α) (f : String → α → β) (g : String → β → γ) :
    (t.mapWithKey f).mapWithKey g = t.mapWithKey fun k v ↦ g k (f k v) :=
  ext_get? (by simp) fun k ↦ by simp [Function.comp_def]

theorem mapWithKey_eq_self {t : Table α} {f : String → α → α}
    (h : ∀ k v, t.get? k = some v → f k v = v) : t.mapWithKey f = t := by
  refine ext_get? (by simp) fun k ↦ ?_
  rw [get?_mapWithKey]
  cases hk : t.get? k with
  | none => rfl
  | some v => simp [h k v hk]

@[simp] theorem getD_ofNames (names : List String) (value : α) (h : names.Nodup) (k : String) :
    (ofNames names value h).getD k value = value := by
  simp only [getD, get?_ofNames]
  split <;> rfl

/-- A fold changes the entries that the other table has, starting from `zero` where there is none. -/
theorem get?_absorb (zero : α) (op : String → α → α → α) (t other : Table α) (k : String) :
    (t.absorb zero op other).get? k = match other.get? k with
      | some v => some (op k (t.getD k zero) v)
      | none => t.get? k := by
  obtain ⟨es, hes⟩ := other
  show (es.foldl (fun acc e ↦ acc.update e.1 zero fun v ↦ op e.1 v e.2) t).get? k =
    match es.lookup k with
      | some v => some (op k (t.getD k zero) v)
      | none => t.get? k
  induction es generalizing t with
  | nil => rfl
  | cons e es ih =>
    obtain ⟨name, v⟩ := e
    obtain ⟨hname, hes⟩ := List.nodup_cons.1 hes
    rw [List.foldl_cons, ih _ hes]
    by_cases hk : k = name
    · subst hk
      rw [(lookup_eq_none_iff k es).2 hname]
      simp
    · rw [List.lookup_cons, beq_eq_false_iff_ne.2 hk]
      simp [getD, hk]

theorem getD_absorb (zero : α) (op : String → α → α → α) (t other : Table α) (k : String) :
    (t.absorb zero op other).getD k zero = match other.get? k with
      | some v => op k (t.getD k zero) v
      | none => t.getD k zero := by
  rw [getD, get?_absorb]
  cases other.get? k <;> rfl

@[simp] theorem contains_mapWithKey (t : Table α) (f : String → α → β) (k : String) :
    (t.mapWithKey f).contains k = t.contains k := by
  simp [contains]

end Table

end CharacterSheet
