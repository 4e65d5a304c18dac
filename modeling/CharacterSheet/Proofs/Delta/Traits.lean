import CharacterSheet.Delta

/-!
# Laws of trait lists

A list of traits holds each code once.  A trait whose code is there only changes a payload in place,
so it can be added before or after traits of other codes, and adding a list of traits comes to the
same as adding what that list folds to.
-/

namespace CharacterSheet

/-- Of two traits of one code the second one's payload counts, if there is one. -/
theorem addTrait_addTrait_of_eq {t u : Trait} (h : t.code = u.code) (ts : List Trait) :
    addTrait (addTrait ts t) u = addTrait ts { t with payload := u.payload <|> t.payload } := by
  induction ts with
  | nil => simp [addTrait, h]
  | cons old ts ih =>
    by_cases hold : old.code = t.code
    · simp [addTrait, hold, h, Option.or_assoc]
    · have hold' : ¬ old.code = u.code := fun h' ↦ hold (h'.trans h.symm)
      simp only [addTrait, hold, hold', if_false, ih]

/-- A trait whose code is there can be added before another one. -/
theorem addTrait_addTrait_of_mem {t u : Trait} (hne : u.code ≠ t.code) {ts : List Trait}
    (hmem : t.code ∈ ts.map Trait.code) :
    addTrait (addTrait ts t) u = addTrait (addTrait ts u) t := by
  induction ts with
  | nil => cases hmem
  | cons old ts ih =>
    by_cases ht : old.code = t.code
    · have hu : ¬ old.code = u.code := fun h ↦ hne (h.symm.trans ht)
      have htu : ¬ t.code = u.code := fun h ↦ hne h.symm
      simp [addTrait, ht, htu]
    · by_cases hu : old.code = u.code
      · simp [addTrait, hu, hne]
      · have hrest : t.code ∈ ts.map Trait.code := by
          rcases List.mem_cons.1 hmem with h | h
          · exact absurd h.symm ht
          · exact h
        simp only [addTrait, ht, hu, if_false, ih hrest]

theorem code_mem_addTrait {new : Trait} {ts : List Trait} {code : String}
    (h : code = new.code ∨ code ∈ ts.map Trait.code) :
    code ∈ (addTrait ts new).map Trait.code := by
  rw [map_code_addTrait]
  split
  · next hmem =>
    rcases h with rfl | h
    · exact hmem
    · exact h
  · rcases h with rfl | h
    · simp
    · simp [h]

theorem foldl_addTrait_of_mem {t : Trait} {us ts : List Trait} (hne : t.code ∉ us.map Trait.code)
    (hmem : t.code ∈ ts.map Trait.code) :
    us.foldl addTrait (addTrait ts t) = addTrait (us.foldl addTrait ts) t := by
  induction us generalizing ts with
  | nil => rfl
  | cons u us ih =>
    obtain ⟨hu, hus⟩ := not_or.1 (mt List.mem_cons.2 hne)
    rw [List.foldl_cons, List.foldl_cons, addTrait_addTrait_of_mem (Ne.symm hu) hmem]
    exact ih hus (code_mem_addTrait (.inr hmem))

/-- Adding a list of traits that was changed by one more trait. -/
theorem foldl_addTrait_addTrait {ts : List Trait} (h : (ts.map Trait.code).Nodup) (t : Trait)
    (s : List Trait) :
    (addTrait ts t).foldl addTrait s = addTrait (ts.foldl addTrait s) t := by
  induction ts generalizing s with
  | nil => rfl
  | cons old ts ih =>
    obtain ⟨hold, hts⟩ := List.nodup_cons.1 h
    by_cases hcode : old.code = t.code
    · have hadded : t.code ∈ (addTrait s old).map Trait.code :=
        code_mem_addTrait (.inl hcode.symm)
      rw [addTrait, if_pos hcode, List.foldl_cons, ← addTrait_addTrait_of_eq hcode]
      exact foldl_addTrait_of_mem (hcode ▸ hold) hadded
    · rw [addTrait, if_neg hcode, List.foldl_cons, ih hts]
      rfl

theorem nodup_code_foldl_addTrait {ts : List Trait} (us : List Trait)
    (h : (ts.map Trait.code).Nodup) : ((us.foldl addTrait ts).map Trait.code).Nodup := by
  induction us generalizing ts with
  | nil => exact h
  | cons u us ih => exact ih (nodup_code_addTrait u h)

/-- Adding what a list of traits folds to comes to the same as adding the list. -/
theorem foldl_addTrait_foldl {ts : List Trait} (h : (ts.map Trait.code).Nodup)
    (us s : List Trait) :
    (us.foldl addTrait ts).foldl addTrait s = us.foldl addTrait (ts.foldl addTrait s) := by
  induction us generalizing ts with
  | nil => rfl
  | cons u us ih =>
    rw [List.foldl_cons, List.foldl_cons, ih (nodup_code_addTrait u h),
      foldl_addTrait_addTrait h]

theorem addTrait_of_not_mem {ts : List Trait} {t : Trait} (h : t.code ∉ ts.map Trait.code) :
    addTrait ts t = ts ++ [t] := by
  induction ts with
  | nil => rfl
  | cons old ts ih =>
    obtain ⟨hold, hts⟩ := not_or.1 (mt List.mem_cons.2 h)
    rw [addTrait, if_neg (Ne.symm hold), ih hts]
    rfl

theorem foldl_addTrait_eq_append {before ts : List Trait}
    (h : ((before ++ ts).map Trait.code).Nodup) : ts.foldl addTrait before = before ++ ts := by
  induction ts generalizing before with
  | nil => exact (List.append_nil before).symm
  | cons t ts ih =>
    have hnew : t.code ∉ before.map Trait.code := by
      intro hmem
      rw [List.map_append, List.nodup_append] at h
      exact h.2.2 _ hmem t.code List.mem_cons_self rfl
    have hsplit : before ++ t :: ts = (before ++ [t]) ++ ts := by simp
    rw [List.foldl_cons, addTrait_of_not_mem hnew, ih (hsplit ▸ h), hsplit]

theorem foldl_addTrait_nil {ts : List Trait} (h : (ts.map Trait.code).Nodup) :
    ts.foldl addTrait [] = ts :=
  foldl_addTrait_eq_append h

theorem mem_addTrait {t new : Trait} {ts : List Trait} (h : t ∈ addTrait ts new) :
    t ∈ ts ∨ t = new ∨
      ∃ old ∈ ts, old.code = new.code ∧
        t = { old with payload := new.payload <|> old.payload } := by
  induction ts with
  | nil => exact .inr (.inl (List.mem_singleton.1 h))
  | cons old ts ih =>
    by_cases hcode : old.code = new.code
    · rw [addTrait, if_pos hcode] at h
      rcases List.mem_cons.1 h with rfl | h
      · exact .inr (.inr ⟨old, List.mem_cons_self, hcode, rfl⟩)
      · exact .inl (List.mem_cons_of_mem old h)
    · rw [addTrait, if_neg hcode] at h
      rcases List.mem_cons.1 h with rfl | h
      · exact .inl List.mem_cons_self
      · rcases ih h with h | h | ⟨old', hmem, h⟩
        · exact .inl (List.mem_cons_of_mem old h)
        · exact .inr (.inl h)
        · exact .inr (.inr ⟨old', List.mem_cons_of_mem old hmem, h⟩)

end CharacterSheet
