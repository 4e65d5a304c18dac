import CharacterSheet.State.Apply

/-!
# Gathering immunities

Immunities are gathered into a sorted list without repetitions, but only when there is something to
add.  Texts can always be gathered, two sets of names one after the other as well as both at once;
a text and a value of another kind never can.
-/

namespace CharacterSheet

namespace Value

theorem texts?_eq_some_iff {vs : List Value} {names : List String} :
    texts? vs = some names ↔ vs = names.map text := by
  induction vs generalizing names with
  | nil => simp [texts?, eq_comm]
  | cons v vs ih =>
    cases v with
    | text s =>
      simp only [texts?, Option.map_eq_some_iff]
      constructor
      · rintro ⟨rest, hrest, rfl⟩
        rw [ih.1 hrest, List.map_cons]
      · intro h
        cases names with
        | nil => cases h
        | cons name names =>
          obtain ⟨hs, hvs⟩ := List.cons.inj h
          obtain rfl := Value.text.inj hs
          exact ⟨names, ih.2 hvs, rfl⟩
    | _ => cases names <;> simp [texts?]

theorem sorted_texts (names : List String) :
    sorted (names.map text) = .ok ((NameSet.ofList names).names.map text) := by
  rw [sorted, texts?_eq_some_iff.2 rfl]

theorem isText_eq_of_sameKey {v w : Value} (h : v.sameKey w = true) : v.isText = w.isText := by
  cases v with
  | text s => rw [text_sameKey_iff.1 h]
  | _ =>
    cases w with
    | text s => cases sameKey_text_iff.1 h
    | _ => rfl

/-- Of each sort of value, text or not, something is kept. -/
theorem exists_mem_distinct {vs : List Value} {v : Value} (h : v ∈ vs) :
    ∃ w ∈ distinct vs, w.isText = v.isText := by
  have hfold (vs kept : List Value) (h : v ∈ vs ∨ ∃ w ∈ kept, w.isText = v.isText) :
      ∃ w ∈ vs.foldl (fun kept v ↦ if kept.any (·.sameKey v) then kept else v :: kept) kept,
        w.isText = v.isText := by
    induction vs generalizing kept with
    | nil => exact h.resolve_left List.not_mem_nil
    | cons u vs ih =>
      rw [List.foldl_cons]
      apply ih
      rcases h with h | ⟨w, hw, hsame⟩
      · rcases List.mem_cons.1 h with rfl | h
        · right
          split
          · next hany =>
            obtain ⟨w, hw, hkey⟩ := List.any_eq_true.1 hany
            exact ⟨w, hw, isText_eq_of_sameKey hkey⟩
          · exact ⟨v, List.mem_cons_self, rfl⟩
        · exact .inl h
      · right
        split
        · exact ⟨w, hw, hsame⟩
        · exact ⟨w, List.mem_cons_of_mem u hw, hsame⟩
  obtain ⟨w, hw, hsame⟩ := hfold vs [] (.inl h)
  exact ⟨w, List.mem_reverse.2 hw, hsame⟩

theorem isText_eq_scale (v : Value) : v.isText = decide (v.scale? = some .text) := by
  cases v with
  | moment m =>
    rw [scale?]
    cases m.offset <;> rfl
  | _ => rfl

theorem isText_eq_of_clash? {v w : Value} (h : clash? v w = none) : v.isText = w.isText := by
  unfold clash? at h
  split at h
  · rfl
  · split at h
    · next hscale =>
      rw [Bool.and_eq_true, beq_iff_eq] at hscale
      rw [isText_eq_scale, isText_eq_scale, hscale.2]
    · cases h

/-- Values that have an order are all texts, or none of them is. -/
theorem isText_eq_of_anyClash? {v : Value} {vs : List Value} (h : anyClash? (v :: vs) = none)
    {w : Value} (hw : w ∈ v :: vs) : v.isText = w.isText := by
  rcases List.mem_cons.1 hw with rfl | hw
  · rfl
  · rw [anyClash?, Option.or_eq_none_iff, List.findSome?_eq_none_iff] at h
    exact isText_eq_of_clash? (h.1 w hw)

theorem exists_not_isText {vs : List Value} (h : texts? vs = none) :
    ∃ v ∈ vs, v.isText = false := by
  induction vs with
  | nil => cases h
  | cons v vs ih =>
    cases hv : v.isText with
    | false => exact ⟨v, List.mem_cons_self, hv⟩
    | true =>
      obtain ⟨s, rfl⟩ : ∃ s, v = text s := by cases v <;> simp_all [isText]
      obtain ⟨w, hw, hwtext⟩ := ih (Option.map_eq_none_iff.1 h)
      exact ⟨w, List.mem_cons_of_mem _ hw, hwtext⟩

theorem sorted_eq_error {vs : List Value} (hnone : texts? vs = none) {s : String}
    (h : text s ∈ vs) : ∃ clash, sorted vs = .error clash := by
  obtain ⟨v, hv, hother⟩ := exists_not_isText hnone
  obtain ⟨x, hx, hxtext⟩ := exists_mem_distinct h
  obtain ⟨y, hy, hytext⟩ := exists_mem_distinct hv
  rw [sorted, hnone]
  dsimp only
  cases hclash : anyClash? (distinct vs) with
  | some clash => exact ⟨clash, rfl⟩
  | none =>
    cases hdistinct : distinct vs with
    | nil =>
      rw [hdistinct] at hx
      cases hx
    | cons z zs =>
      rw [hdistinct] at hclash hx hy
      have hsame := (isText_eq_of_anyClash? hclash hx).symm.trans (isText_eq_of_anyClash? hclash hy)
      rw [hxtext, hytext, hother] at hsame
      cases hsame

end Value

namespace NameSet

theorem names_union_eq_nil_iff {a b : NameSet} :
    (a.union b).names = [] ↔ a.names = [] ∧ b.names = [] := by
  simp only [List.eq_nil_iff_forall_not_mem, mem_names, mem_union, not_or, forall_and]

end NameSet

namespace State

/-- The immunities that there are, with others put in. -/
def gather (immunities found : List Value) : Except (Value.Kind × Value.Kind) (List Value) :=
  if found.isEmpty then .ok immunities else Value.sorted (immunities ++ found)

theorem addImmunities_eq (found : List Value) (s : State) :
    addImmunities found s = match gather s.immunities found with
      | .ok vs => .start { s with immunities := vs }
      | .error (a, b) => { state := s, failure := some (.incomparable a b) } := by
  unfold addImmunities gather
  split
  · rfl
  · rfl

theorem gather_nil (vs : List Value) : gather vs [] = .ok vs := rfl

theorem gather_texts (names : List String) (a : NameSet) :
    gather (names.map .text) (a.names.map .text) =
      .ok ((if a.names = [] then names
        else (NameSet.ofList (names ++ a.names)).names).map .text) := by
  unfold gather
  by_cases ha : a.names = []
  · simp [ha]
  · rw [← List.map_append, Value.sorted_texts, if_neg ha]
    simp [ha]

/-- Texts cannot be put to values among which there is something else. -/
theorem gather_eq_error {vs : List Value} (hnone : Value.texts? vs = none) {names : List String}
    (hne : names ≠ []) : ∃ clash, gather vs (names.map .text) = .error clash := by
  have htexts : Value.texts? (vs ++ names.map .text) = none := by
    refine Option.eq_none_iff_forall_not_mem.2 fun texts h ↦ ?_
    obtain ⟨front, back, -, hfront, -⟩ :=
      List.append_eq_map_iff.1 (Value.texts?_eq_some_iff.1 h)
    rw [Value.texts?_eq_some_iff.2 hfront.symm] at hnone
    cases hnone
  obtain ⟨name, rest, hnames⟩ := List.exists_cons_of_ne_nil hne
  have hmem : Value.text name ∈ vs ++ names.map .text := by simp [hnames]
  obtain ⟨clash, hclash⟩ := Value.sorted_eq_error htexts hmem
  exact ⟨clash, by simp [gather, hne, hclash]⟩

/-- Two sets of names are gathered one after the other as they are gathered at once. -/
theorem gather_union {vs ws : List Value} {a b : NameSet} :
    gather vs ((a.union b).names.map .text) = .ok ws ↔
      ∃ us, gather vs (a.names.map .text) = .ok us ∧ gather us (b.names.map .text) = .ok ws := by
  by_cases ha : a.names = []
  · have hunion : a.union b = b := by
      refine NameSet.ext_mem fun x ↦ ?_
      have hx : x ∉ a := by simp [← NameSet.mem_names, ha]
      simp [hx]
    rw [hunion, ha]
    simp [gather_nil]
  · have hne : (a.union b).names ≠ [] := fun h ↦ ha (NameSet.names_union_eq_nil_iff.1 h).1
    cases hvs : Value.texts? vs with
    | none =>
      -- Neither of the two can be gathered.
      obtain ⟨clash, hclash⟩ := gather_eq_error hvs hne
      obtain ⟨clash', hclash'⟩ := gather_eq_error hvs ha
      simp [hclash, hclash']
    | some names =>
      obtain rfl := Value.texts?_eq_some_iff.1 hvs
      simp only [gather_texts, if_neg ha, if_neg hne, Except.ok.injEq, exists_eq_left']
      suffices h : (if b.names = [] then (NameSet.ofList (names ++ a.names)).names
          else (NameSet.ofList ((NameSet.ofList (names ++ a.names)).names ++ b.names)).names) =
            (NameSet.ofList (names ++ (a.union b).names)).names by rw [h]
      split
      · next hb =>
        refine congrArg NameSet.names (NameSet.ext_mem fun x ↦ ?_)
        have hx : x ∉ b := by simp [← NameSet.mem_names, hb]
        simp [NameSet.mem_names, hx]
      · refine congrArg NameSet.names (NameSet.ext_mem fun x ↦ ?_)
        simp [NameSet.mem_names, or_assoc]

/-- Names are gathered as the set of them is. -/
theorem gather_ofList {vs ws : List Value} (names : List String) :
    gather vs (names.map .text) = .ok ws ↔
      gather vs ((NameSet.ofList names).names.map .text) = .ok ws := by
  by_cases hne : names = []
  · subst hne
    rfl
  · have hset : (NameSet.ofList names).names ≠ [] := by
      simp only [ne_eq, List.eq_nil_iff_forall_not_mem, NameSet.mem_names, NameSet.mem_ofList]
      exact mt List.eq_nil_iff_forall_not_mem.2 hne
    cases hvs : Value.texts? vs with
    | none =>
      obtain ⟨clash, hclash⟩ := gather_eq_error hvs hne
      obtain ⟨clash', hclash'⟩ := gather_eq_error hvs hset
      simp [hclash, hclash']
    | some old =>
      obtain rfl := Value.texts?_eq_some_iff.1 hvs
      have hsame : NameSet.ofList (old ++ names) =
          NameSet.ofList (old ++ (NameSet.ofList names).names) :=
        NameSet.ext_mem fun x ↦ by simp [NameSet.mem_names]
      rw [gather_texts, if_neg hset, gather, if_neg (by simpa using hne), ← List.map_append,
        Value.sorted_texts, hsame]

/-- Two lots of names are gathered in either order. -/
theorem gather_comm {vs us ws : List Value} {names names' : List String}
    (h : gather vs (names.map .text) = .ok us) (h' : gather us (names'.map .text) = .ok ws) :
    ∃ us', gather vs (names'.map .text) = .ok us' ∧ gather us' (names.map .text) = .ok ws := by
  have hunion := gather_union.2 ⟨us, (gather_ofList names).1 h, (gather_ofList names').1 h'⟩
  have hcomm : (NameSet.ofList names).union (NameSet.ofList names') =
      (NameSet.ofList names').union (NameSet.ofList names) :=
    NameSet.ext_mem fun x ↦ by simp only [NameSet.mem_union, or_comm]
  rw [hcomm] at hunion
  obtain ⟨us', hfirst, hsecond⟩ := gather_union.1 hunion
  exact ⟨us', (gather_ofList names').2 hfirst, (gather_ofList names).2 hsecond⟩

/-- The immunities that there are, with those of several sources put in one source after the
other. -/
def gatherAll (immunities : List Value) (found : List (List Value)) :
    Except (Value.Kind × Value.Kind) (List Value) :=
  found.foldlM gather immunities

theorem gatherAll_append (immunities : List Value) (found more : List (List Value)) :
    gatherAll immunities (found ++ more) =
      (gatherAll immunities found).bind fun vs ↦ gatherAll vs more :=
  List.foldlM_append

/-- Names can always be gathered, from however many sources. -/
theorem exists_gatherAll_texts {immunities : List Value} {found : List (List Value)}
    (himmunities : ∃ names : List String, immunities = names.map .text)
    (hfound : ∀ vs ∈ found, ∃ names : List String, vs = names.map .text) :
    ∃ names : List String, gatherAll immunities found = .ok (names.map .text) := by
  induction found generalizing immunities with
  | nil =>
    obtain ⟨names, rfl⟩ := himmunities
    exact ⟨names, rfl⟩
  | cons vs found ih =>
    obtain ⟨old, rfl⟩ := himmunities
    obtain ⟨new, rfl⟩ := hfound vs List.mem_cons_self
    obtain ⟨names, hnames⟩ : ∃ names : List String,
        gather (old.map .text) (new.map .text) = .ok (names.map .text) := by
      unfold gather
      split
      · exact ⟨old, rfl⟩
      · exact ⟨_, by rw [← List.map_append, Value.sorted_texts]⟩
    rw [gatherAll, List.foldlM_cons, hnames]
    exact ih ⟨names, rfl⟩ fun vs hvs ↦ hfound vs (List.mem_cons_of_mem _ hvs)

/-- Gathering names keeps what there is and puts the names to it. -/
theorem mem_gather {vs ws : List Value} {names : List String}
    (h : gather vs (names.map .text) = .ok ws) {v : Value} :
    v ∈ ws ↔ v ∈ vs ∨ v ∈ names.map .text := by
  by_cases hne : names = []
  · subst hne
    obtain rfl : vs = ws := Except.ok.inj h
    simp
  · cases hvs : Value.texts? vs with
    | none =>
      obtain ⟨clash, hclash⟩ := gather_eq_error hvs hne
      cases h.symm.trans hclash
    | some old =>
      obtain rfl := Value.texts?_eq_some_iff.1 hvs
      rw [gather, if_neg (by simpa using hne), ← List.map_append, Value.sorted_texts] at h
      obtain rfl := Except.ok.inj h
      simp [NameSet.mem_names, or_and_right, exists_or]

/-- Sources that bring names make up a union with what there is. -/
theorem mem_gatherAll {vs ws : List Value} {found : List (List Value)}
    (hfound : ∀ us ∈ found, ∃ names : List String, us = names.map .text)
    (h : gatherAll vs found = .ok ws) {v : Value} : v ∈ ws ↔ v ∈ vs ∨ ∃ us ∈ found, v ∈ us := by
  induction found generalizing vs with
  | nil =>
    obtain rfl : vs = ws := Except.ok.inj h
    simp
  | cons us found ih =>
    obtain ⟨names, rfl⟩ := hfound us List.mem_cons_self
    rw [gatherAll, List.foldlM_cons] at h
    cases hfirst : gather vs (names.map .text) with
    | error clash =>
      rw [hfirst] at h
      cases h
    | ok first =>
      rw [hfirst] at h
      rw [ih (fun us hus ↦ hfound us (List.mem_cons_of_mem _ hus)) h, mem_gather hfirst]
      simp only [List.mem_cons, exists_eq_or_imp, or_assoc]

/-- Names are gathered alike in every order of their sources. -/
theorem gatherAll_perm {found found' : List (List Value)} (h : found.Perm found')
    (hfound : ∀ vs ∈ found, ∃ names : List String, vs = names.map .text) {vs ws : List Value}
    (hws : gatherAll vs found = .ok ws) : gatherAll vs found' = .ok ws := by
  induction h generalizing vs with
  | nil => exact hws
  | cons first _ ih =>
    rw [gatherAll, List.foldlM_cons] at hws ⊢
    cases hfirst : gather vs first with
    | error clash =>
      rw [hfirst] at hws
      cases hws
    | ok us =>
      rw [hfirst] at hws
      exact ih (fun us hus ↦ hfound us (List.mem_cons_of_mem first hus)) hws
  | swap first second rest =>
    obtain ⟨names, rfl⟩ := hfound first (List.mem_cons_of_mem _ List.mem_cons_self)
    obtain ⟨names', rfl⟩ := hfound second List.mem_cons_self
    rw [gatherAll, List.foldlM_cons] at hws ⊢
    cases hsecond : gather vs (names'.map .text) with
    | error clash =>
      rw [hsecond] at hws
      cases hws
    | ok us =>
      rw [hsecond] at hws
      dsimp only [bind, Except.bind] at hws
      rw [List.foldlM_cons] at hws
      cases hfirst : gather us (names.map .text) with
      | error clash =>
        rw [hfirst] at hws
        cases hws
      | ok both =>
        rw [hfirst] at hws
        obtain ⟨us', hfirst', hsecond'⟩ := gather_comm hsecond hfirst
        rw [hfirst']
        dsimp only [bind, Except.bind]
        rw [List.foldlM_cons, hsecond']
        exact hws
  | trans hleft _ ih ih' =>
    exact ih' (fun us hus ↦ hfound us (hleft.mem_iff.2 hus)) (ih hfound hws)

end State

end CharacterSheet
