import CharacterSheet.Content.Standard
import CharacterSheet.Proofs.Content.Checked

/-!
# What the program's checks let pass

The program checks documents field by field.  A check that is put together from checks passes only
if each of them does, and then it yields what the fields hold; so what passes has fields of the
declared types.
-/

namespace CharacterSheet

namespace Check

variable {α β γ : Type}

theorem both_result_eq_ok_iff {f : α → β → γ} {a : Check α} {b : Check β} {c : γ} :
    (both f a b).result = .ok c ↔ ∃ x y, a.result = .ok x ∧ b.result = .ok y ∧ f x y = c := by
  unfold both
  cases a.result with
  | error e => cases b.result <;> simp
  | ok x => cases b.result <;> simp

theorem exists_of_seq_eq_ok {f : Check (α → β)} {a : Check α} {b : β}
    (h : (f <*> a).result = .ok b) : ∃ g x, f.result = .ok g ∧ a.result = .ok x ∧ b = g x := by
  obtain ⟨g, x, hg, hx, rfl⟩ := both_result_eq_ok_iff.1 h
  exact ⟨g, x, hg, hx, rfl⟩

theorem exists_of_map_eq_ok {f : α → β} {a : Check α} {b : β} (h : (f <$> a).result = .ok b) :
    ∃ x, a.result = .ok x ∧ b = f x := by
  obtain ⟨g, x, hg, hx, rfl⟩ := exists_of_seq_eq_ok (f := pass f) h
  exact ⟨x, hx, by rw [← Except.ok.inj hg]⟩

theorem result_of_under {step : Step} {c : Check α} {a : α} (h : (under step c).result = .ok a) :
    c.result = .ok a := by
  unfold under at h
  cases hc : c.result with
  | error issues =>
    rw [hc] at h
    cases h
  | ok b =>
    rw [hc] at h
    exact h

/-- What passes a check of items has only members that pass the check of one. -/
theorem forall_of_items_eq_ok {check : Value → Check α} {n : Nat} {vs : List Value} {as : List α}
    (h : (items check n vs).result = .ok as) : ∀ a ∈ as, ∃ v, (check v).result = .ok a := by
  induction vs generalizing n as with
  | nil =>
    obtain rfl : [] = as := Except.ok.inj h
    exact fun a ha ↦ absurd ha List.not_mem_nil
  | cons v vs ih =>
    obtain ⟨_, rest, hcons, hrest, rfl⟩ := exists_of_seq_eq_ok h
    obtain ⟨first, hfirst, rfl⟩ := exists_of_map_eq_ok hcons
    intro a ha
    rcases List.mem_cons.1 ha with rfl | ha
    · exact ⟨v, result_of_under hfirst⟩
    · exact ih hrest a ha

theorem forall_of_listOf_eq_ok {check : Value → Check α} {v : Value} {as : List α}
    (h : (listOf check v).result = .ok as) : ∀ a ∈ as, ∃ w, (check w).result = .ok a := by
  unfold listOf at h
  split at h
  · exact forall_of_items_eq_ok h
  · exact forall_of_items_eq_ok h
  · exact forall_of_items_eq_ok h
  · cases h

/-- A field that passes holds its default, or what its own check lets pass. -/
theorem defaulted_eq_ok {fields : List (Value × Value)} {name : String} {default a : α}
    {check : Value → Check α} (h : (defaulted fields name default check).result = .ok a) :
    a = default ∨ ∃ v, (check v).result = .ok a := by
  unfold defaulted at h
  split at h
  · next v _ => exact .inr ⟨v, result_of_under h⟩
  · exact .inl (Except.ok.inj h).symm

theorem exists_of_record_eq_ok {check : List (Value × Value) → Check α} {v : Value} {a : α}
    (h : (record check v).result = .ok a) : ∃ fields, (check fields).result = .ok a := by
  unfold record at h
  split at h
  · next fields _ => exact ⟨fields, h⟩
  · cases h

theorem exists_of_closedRecord_eq_ok {names : List String}
    {check : List (Value × Value) → Check α} {v : Value} {a : α}
    (h : (closedRecord names check v).result = .ok a) :
    ∃ fields, (check fields).result = .ok a := by
  obtain ⟨fields, h⟩ := exists_of_record_eq_ok h
  dsimp only at h
  split at h
  · cases h
  · obtain ⟨a', -, hchecked, -, rfl⟩ := both_result_eq_ok_iff.1 h
    exact ⟨fields, hchecked⟩

end Check

open Check

theorem Item.checked_of_check {v : Value} {item : Item} (h : (Item.check v).result = .ok item) :
    item.Checked := by
  obtain ⟨fields, h⟩ := exists_of_closedRecord_eq_ok h
  obtain ⟨_, immunities, h₉, -, rfl⟩ := exists_of_seq_eq_ok h
  obtain ⟨_, effects, h₈, -, rfl⟩ := exists_of_seq_eq_ok h₉
  obtain ⟨_, detections, h₇, -, rfl⟩ := exists_of_seq_eq_ok h₈
  obtain ⟨_, encumbrance, h₆, -, rfl⟩ := exists_of_seq_eq_ok h₇
  obtain ⟨_, code, h₅, -, rfl⟩ := exists_of_seq_eq_ok h₆
  obtain ⟨_, weight, h₄, -, rfl⟩ := exists_of_seq_eq_ok h₅
  obtain ⟨_, category, h₃, -, rfl⟩ := exists_of_seq_eq_ok h₄
  obtain ⟨_, description, h₂, -, rfl⟩ := exists_of_seq_eq_ok h₃
  obtain ⟨_, name, h₁, -, rfl⟩ := exists_of_seq_eq_ok h₂
  obtain ⟨id, -, rfl⟩ := Check.exists_of_map_eq_ok h₁
  exact ⟨id, name, description, category, weight, code, encumbrance, detections, effects,
    immunities, rfl⟩

theorem ModuleOption.checked_of_check {v : Value} {o : ModuleOption}
    (h : (ModuleOption.check v).result = .ok o) : o.Checked := by
  obtain ⟨fields, h⟩ := exists_of_record_eq_ok h
  obtain ⟨_, location, h₃, -, rfl⟩ := exists_of_seq_eq_ok h
  obtain ⟨_, selected, h₂, -, rfl⟩ := exists_of_seq_eq_ok h₃
  obtain ⟨_, data, h₁, -, rfl⟩ := exists_of_seq_eq_ok h₂
  obtain ⟨name, -, rfl⟩ := Check.exists_of_map_eq_ok h₁
  exact ⟨name, data, selected, location, rfl⟩

theorem Module.checked_of_check {v : Value} {m : Module} (h : (Module.check v).result = .ok m) :
    m.Checked := by
  obtain ⟨fields, h⟩ := exists_of_record_eq_ok h
  obtain ⟨_, options, h₃, hoptions, rfl⟩ := exists_of_seq_eq_ok h
  obtain ⟨_, kind, h₂, -, rfl⟩ := exists_of_seq_eq_ok h₃
  obtain ⟨_, name, h₁, -, rfl⟩ := exists_of_seq_eq_ok h₂
  obtain ⟨id, -, rfl⟩ := Check.exists_of_map_eq_ok h₁
  refine ⟨id, name, kind, options, fun o ho ↦ ?_, rfl⟩
  rcases defaulted_eq_ok hoptions with rfl | ⟨w, hw⟩
  · cases ho
  · obtain ⟨u, hu⟩ := forall_of_listOf_eq_ok hw o ho
    exact ModuleOption.checked_of_check hu

/-- The loader of the program lets only documents pass whose fields have the declared types. -/
theorem Loader.typed_standard : Loader.standard.Typed where
  item := fun _ _ h ↦ Item.checked_of_check h
  module := fun _ _ h ↦ Module.checked_of_check h

theorem checked_loadContent_standard {root : Entry} {directory : String} {c : Catalog}
    {events : List Event} (h : loadContent .standard root directory = (events, .ok c)) :
    c.Checked :=
  checked_loadContent Loader.typed_standard h

end CharacterSheet
