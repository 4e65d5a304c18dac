import CharacterSheet.Value

/-!
# Tallies

A tally counts under keys of any kind.  Each key stands in it once, in the order of arrival.
-/

namespace CharacterSheet

structure Tally where
  entries : List (Value × Int)
  distinct : entries.Pairwise fun d e ↦ d.1.sameKey e.1 = false

namespace Tally

instance : Repr Tally := ⟨fun t n ↦ reprPrec t.entries n⟩

def empty : Tally := ⟨[], .nil⟩

instance : Inhabited Tally := ⟨empty⟩

/-- What entries hold under a key. -/
def lookup (key : Value) (es : List (Value × Int)) : Option Int :=
  (es.find? fun e ↦ e.1.sameKey key).map Prod.snd

/-- What is counted under a key. -/
def get? (t : Tally) (key : Value) : Option Int := lookup key t.entries

/-- Counts under a key: in place if the key is there, else at the end. -/
def addEntry (key : Value) (n : Int) : List (Value × Int) → List (Value × Int)
  | [] => [(key, n)]
  | e :: es => if e.1.sameKey key then (e.1, e.2 + n) :: es else e :: addEntry key n es

variable {key : Value} {n : Int} {es : List (Value × Int)}

theorem key_of_mem_addEntry {d : Value × Int} (h : d ∈ addEntry key n es) :
    d.1 = key ∨ ∃ e ∈ es, d.1 = e.1 := by
  induction es with
  | nil => exact .inl (congrArg Prod.fst (List.mem_singleton.1 h))
  | cons e es ih =>
    rw [addEntry] at h
    split at h
    · rcases List.mem_cons.1 h with rfl | h
      · exact .inr ⟨e, List.mem_cons_self, rfl⟩
      · exact .inr ⟨d, List.mem_cons_of_mem e h, rfl⟩
    · rcases List.mem_cons.1 h with rfl | h
      · exact .inr ⟨d, List.mem_cons_self, rfl⟩
      · rcases ih h with hkey | ⟨e', he', hkey⟩
        · exact .inl hkey
        · exact .inr ⟨e', List.mem_cons_of_mem e he', hkey⟩

theorem distinct_addEntry (h : es.Pairwise fun d e ↦ d.1.sameKey e.1 = false) :
    (addEntry key n es).Pairwise fun d e ↦ d.1.sameKey e.1 = false := by
  induction es with
  | nil => exact List.pairwise_singleton _ _
  | cons e es ih =>
    obtain ⟨hfirst, hrest⟩ := List.pairwise_cons.1 h
    rw [addEntry]
    split
    · exact List.pairwise_cons.2 ⟨hfirst, hrest⟩
    · next hkey =>
      refine List.pairwise_cons.2 ⟨fun d hd ↦ ?_, ih hrest⟩
      rcases key_of_mem_addEntry hd with hd | ⟨e', he', hd⟩
      · rw [hd]
        exact Bool.eq_false_iff.2 hkey
      · rw [hd]
        exact hfirst e' he'

def add (t : Tally) (key : Value) (n : Int) : Tally :=
  ⟨addEntry key n t.entries, distinct_addEntry t.distinct⟩

/-! ## Counting under names -/

theorem lookup_addEntry_text (name : String) (n : Int) (es : List (Value × Int)) :
    lookup (.text name) (addEntry (.text name) n es) =
      some ((lookup (.text name) es).getD 0 + n) := by
  induction es with
  | nil => simp [lookup, addEntry]
  | cons e es ih =>
    unfold lookup at ih ⊢
    by_cases hkey : e.1.sameKey (.text name) = true
    · simp [addEntry, hkey]
    · simpa [addEntry, hkey] using ih

theorem lookup_addEntry_text_of_ne {name : String} {key : Value} (h : key ≠ .text name) (n : Int)
    (es : List (Value × Int)) : lookup key (addEntry (.text name) n es) = lookup key es := by
  induction es with
  | nil => simp [lookup, addEntry, h]
  | cons e es ih =>
    unfold lookup at ih ⊢
    by_cases hkey : e.1.sameKey (.text name) = true
    · -- The entry of the name is under no other key.
      have hother : e.1.sameKey key = false := by
        rw [Value.sameKey_text_iff.1 hkey]
        exact Bool.eq_false_iff.2 (mt Value.text_sameKey_iff.1 h)
      simp [addEntry, hkey, hother]
    · by_cases hother : e.1.sameKey key = true
      · simp [addEntry, hkey, hother]
      · simpa [addEntry, hkey, hother] using ih

theorem get?_add_text (t : Tally) (name : String) (n : Int) :
    (t.add (.text name) n).get? (.text name) = some ((t.get? (.text name)).getD 0 + n) :=
  lookup_addEntry_text name n t.entries

theorem get?_add_text_of_ne (t : Tally) {name : String} {key : Value} (h : key ≠ .text name)
    (n : Int) : (t.add (.text name) n).get? key = t.get? key :=
  lookup_addEntry_text_of_ne h n t.entries

/-- Two tallies count the same under every key. -/
def Same (t u : Tally) : Prop := ∀ key, t.get? key = u.get? key

theorem Same.refl (t : Tally) : t.Same t := fun _ ↦ rfl

theorem Same.trans {t u v : Tally} (h : t.Same u) (h' : u.Same v) : t.Same v :=
  fun key ↦ (h key).trans (h' key)

theorem Same.add_text {t u : Tally} (h : t.Same u) (name : String) (n : Int) :
    (t.add (.text name) n).Same (u.add (.text name) n) := by
  intro key
  by_cases hkey : key = .text name
  · rw [hkey, get?_add_text, get?_add_text, h]
  · rw [get?_add_text_of_ne t hkey, get?_add_text_of_ne u hkey, h]

/-- Names are counted alike in either order. -/
theorem same_add_text_comm (t : Tally) (name name' : String) (m n : Int) :
    ((t.add (.text name) m).add (.text name') n).Same
      ((t.add (.text name') n).add (.text name) m) := by
  intro key
  by_cases hname : Value.text name = .text name'
  · by_cases hkey : key = .text name
    · simp only [hkey, hname, get?_add_text, Option.getD_some, Int.add_right_comm]
    · simp only [hname ▸ hkey, hkey, get?_add_text_of_ne, ne_eq, not_false_eq_true]
  · by_cases hkey : key = .text name
    · rw [hkey, get?_add_text_of_ne _ hname, get?_add_text, get?_add_text,
        get?_add_text_of_ne _ hname]
    · by_cases hkey' : key = .text name'
      · rw [hkey', get?_add_text, get?_add_text_of_ne _ (Ne.symm hname),
          get?_add_text_of_ne _ (Ne.symm hname), get?_add_text]
      · simp only [get?_add_text_of_ne, ne_eq, hkey, hkey', not_false_eq_true]

end Tally

end CharacterSheet
