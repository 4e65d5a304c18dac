import CharacterSheet.Proofs.Build.Isolation
import CharacterSheet.Proofs.Content.Checked
import CharacterSheet.Proofs.Delta.TraitOrder

/-!
# Build order

Modules are applied rank by rank, and within a rank as they are listed: the order is that of a
stable sort by rank.  So lists that agree rank by rank build the same state, however their ranks are
interleaved.  What the order decides is the payload of a trait: of all options that give one to its
code, the last one counts.
-/

namespace CharacterSheet

namespace Module

/-! ## Sorting by rank -/

def ofRank (r : Fin 3) (ms : List Module) : List Module := ms.filter (·.kind.rank == r)

def follows (a b : Module) : Bool := a.kind.rank ≤ b.kind.rank

variable {ms ms' : List Module}

theorem inBuildOrder_eq (ms : List Module) :
    inBuildOrder ms = ofRank 0 ms ++ ofRank 1 ms ++ ofRank 2 ms := rfl

theorem rank_of_mem_ofRank {m : Module} {r : Fin 3} (h : m ∈ ofRank r ms) : m.kind.rank = r :=
  beq_iff_eq.1 (List.mem_filter.1 h).2

theorem ofRank_ofRank (r : Fin 3) (ms : List Module) : ofRank r (ofRank r ms) = ofRank r ms := by
  simp only [ofRank, List.filter_filter, Bool.and_self]

theorem inBuildOrder_congr (h : ∀ r, ofRank r ms = ofRank r ms') :
    inBuildOrder ms = inBuildOrder ms' := by
  rw [inBuildOrder_eq, inBuildOrder_eq, h, h, h]

theorem perm_inBuildOrder (ms : List Module) : (inBuildOrder ms).Perm ms := by
  induction ms with
  | nil => exact .refl _
  | cons m ms ih =>
    have hrank : m.kind.rank = 0 ∨ m.kind.rank = 1 ∨ m.kind.rank = 2 := by omega
    have hfront : (inBuildOrder (m :: ms)).Perm (m :: inBuildOrder ms) := by
      rcases hrank with h | h | h
      · simp [inBuildOrder, h]
      · simp [inBuildOrder, h]
      · have hlast : inBuildOrder (m :: ms) = ofRank 0 ms ++ ofRank 1 ms ++ m :: ofRank 2 ms := by
          simp [inBuildOrder, ofRank, h]
        rw [hlast]
        exact List.perm_middle
    exact hfront.trans (ih.cons m)

theorem pairwise_ofRank (r : Fin 3) (ms : List Module) : (ofRank r ms).Pairwise (follows · ·) := by
  refine List.pairwise_of_forall_mem_list fun a ha b hb ↦ ?_
  rw [follows, rank_of_mem_ofRank ha, rank_of_mem_ofRank hb]
  exact decide_eq_true (Nat.le_refl r.val)

theorem pairwise_inBuildOrder (ms : List Module) : (inBuildOrder ms).Pairwise (follows · ·) := by
  have hrank {a b : Module} {q r : Fin 3} (hqr : q ≤ r) (ha : a ∈ ofRank q ms)
      (hb : b ∈ ofRank r ms) : a.follows b := by
    rw [follows, rank_of_mem_ofRank ha, rank_of_mem_ofRank hb]
    exact decide_eq_true hqr
  rw [inBuildOrder_eq, List.pairwise_append, List.pairwise_append]
  refine ⟨⟨pairwise_ofRank 0 ms, pairwise_ofRank 1 ms, fun a ha b hb ↦ ?_⟩, pairwise_ofRank 2 ms,
    fun a ha b hb ↦ ?_⟩
  · exact hrank (by decide) ha hb
  · rcases List.mem_append.1 ha with ha | ha
    · exact hrank (by decide) ha hb
    · exact hrank (by decide) ha hb

theorem inBuildOrder_of_pairwise (h : ms.Pairwise (follows · ·)) : inBuildOrder ms = ms := by
  induction ms with
  | nil => rfl
  | cons m ms ih =>
    obtain ⟨hm, hms⟩ := List.pairwise_cons.1 h
    have ih := ih hms
    have hnone (r : Fin 3) (hr : r < m.kind.rank) : ofRank r ms = [] := by
      refine List.filter_eq_nil_iff.2 fun a ha hrank ↦ ?_
      have hle : m.kind.rank ≤ a.kind.rank := of_decide_eq_true (hm a ha)
      rw [beq_iff_eq] at hrank
      omega
    have hrank : m.kind.rank = 0 ∨ m.kind.rank = 1 ∨ m.kind.rank = 2 := by omega
    unfold inBuildOrder at ih ⊢
    unfold ofRank at hnone
    rcases hrank with h | h | h
    · simp [h, ih]
    · have h0 := hnone 0 (by omega)
      rw [h0, List.nil_append] at ih
      simp [h, h0, ih]
    · have h0 := hnone 0 (by omega)
      have h1 := hnone 1 (by omega)
      rw [h0, h1, List.nil_append, List.nil_append] at ih
      simp [h, h0, h1, ih]

/-- Build order is a stable sort by rank. -/
theorem inBuildOrder_eq_mergeSort (ms : List Module) : inBuildOrder ms = ms.mergeSort follows := by
  have htrans (a b c : Module) (hab : a.follows b) (hbc : b.follows c) : a.follows c :=
    decide_eq_true (Nat.le_trans (of_decide_eq_true hab) (of_decide_eq_true hbc))
  have htotal (a b : Module) : a.follows b || b.follows a := by
    simp only [follows, Bool.or_eq_true, decide_eq_true_eq]
    omega
  have hranks (r : Fin 3) : ofRank r ms = ofRank r (ms.mergeSort follows) := by
    have hkept : (ofRank r ms).Sublist (ms.mergeSort follows) :=
      List.sublist_mergeSort htrans htotal (pairwise_ofRank r ms) List.filter_sublist
    have hsub : (ofRank r (ofRank r ms)).Sublist (ofRank r (ms.mergeSort follows)) :=
      hkept.filter _
    rw [ofRank_ofRank] at hsub
    have hperm : (ofRank r (ms.mergeSort follows)).Perm (ofRank r ms) :=
      (List.mergeSort_perm ms follows).filter _
    exact hsub.eq_of_length hperm.length_eq.symm
  rw [inBuildOrder_congr hranks]
  exact inBuildOrder_of_pairwise (List.pairwise_mergeSort htrans htotal ms)

/-- No trait comes after an ancestry or another module, and no ancestry after another module. -/
theorem pairwise_kind_inBuildOrder (ms : List Module) : (inBuildOrder ms).Pairwise fun a b ↦
    (b.kind = .trait → a.kind = .trait) ∧
      (b.kind = .ancestry → a.kind = .trait ∨ a.kind = .ancestry) := by
  refine (pairwise_inBuildOrder ms).imp fun {a b} hab ↦ ?_
  rw [follows, decide_eq_true_eq] at hab
  cases ha : a.kind <;> cases hb : b.kind <;> simp_all [ModuleKind.rank]

/-! ## What a module contributes -/

/-- What each selected option contributes, if the options can be listed and all of these can be
read. -/
def deltas (m : Module) : Except SourceError (List Delta) := do
  let os ← m.selectedOptions
  os.mapM fun o ↦ (DataCode.readValue o.data).result

/-- The deltas of the selected options, in order; a module that cannot be processed has none. -/
def contributed (m : Module) : List Delta := m.deltas.toOption.getD []

theorem result_readOptions (d : Delta) (os : List ModuleOption) :
    (readOptions d os).result =
      (os.mapM fun o ↦ (DataCode.readValue o.data).result).map fun ds ↦ ds.foldl Delta.merge d := by
  induction os generalizing d with
  | nil => rfl
  | cons o os ih =>
    rw [readOptions, DataCode.Reading.andThen, List.mapM_cons]
    cases hread : (DataCode.readValue o.data).result with
    | error e => rfl
    | ok d' =>
      dsimp only
      rw [ih]
      cases os.mapM fun o ↦ (DataCode.readValue o.data).result <;> rfl

/-- Options that are merged while they are read come to the same as options that are read first. -/
theorem result_reading (m : Module) : m.reading.result = m.deltas.map Delta.mergeAll := by
  unfold reading deltas
  cases m.selectedOptions with
  | error e => rfl
  | ok os => exact result_readOptions .empty os

theorem normal_of_mem_contributed {m : Module} {d : Delta} (h : d ∈ m.contributed) : d.Normal := by
  unfold contributed at h
  cases hdeltas : m.deltas with
  | error e =>
    rw [hdeltas] at h
    cases h
  | ok ds =>
    rw [hdeltas] at h
    obtain ⟨os, -, hread⟩ := exists_of_bind_eq_ok hdeltas
    obtain ⟨o, -, ho⟩ := exists_of_mem_mapM hread h
    exact (DataCode.produced_of_readValue ho).normal

theorem reading_of_readable {m : Module} (h : m.readable) :
    m.reading.result = .ok (Delta.mergeAll m.contributed) := by
  rw [readable, result_reading] at h
  rw [result_reading, contributed]
  cases hdeltas : m.deltas with
  | error e =>
    rw [hdeltas] at h
    cases h
  | ok ds => rfl

theorem contributed_of_unreadable {m : Module} (h : m.readable = false) : m.contributed = [] := by
  rw [readable, result_reading] at h
  rw [contributed]
  cases hdeltas : m.deltas with
  | error e => rfl
  | ok ds =>
    rw [hdeltas] at h
    cases h

end Module

/-! ## Payloads -/

namespace Trait

/-- The payload that a list of traits has for a code. -/
def payloadOf (code : String) (ts : List Trait) : Option String :=
  (ts.find? fun t ↦ t.code = code).bind payload

variable {code : String} {ts us : List Trait}

theorem payloadOf_cons (t : Trait) (ts : List Trait) :
    payloadOf code (t :: ts) = if t.code = code then t.payload else payloadOf code ts := by
  unfold payloadOf
  by_cases h : t.code = code <;> simp [h]

theorem payloadOf_of_not_mem (h : code ∉ ts.map Trait.code) : payloadOf code ts = none := by
  unfold payloadOf
  rw [List.find?_eq_none.2 fun t ht hcode ↦ h (List.mem_map.2 ⟨t, ht, of_decide_eq_true hcode⟩)]
  rfl

theorem payloadOf_addTrait (ts : List Trait) (t : Trait) :
    payloadOf code (addTrait ts t) =
      if t.code = code then t.payload.or (payloadOf code ts) else payloadOf code ts := by
  induction ts with
  | nil => by_cases h : t.code = code <;> simp [addTrait, payloadOf, h]
  | cons old ts ih =>
    by_cases hold : old.code = t.code
    · by_cases h : t.code = code <;> simp [addTrait, payloadOf_cons, hold, h]
    · by_cases h : old.code = code
      · have ht : ¬ t.code = code := fun ht ↦ hold (h.trans ht.symm)
        rw [addTrait, if_neg hold, payloadOf_cons, if_pos h, if_neg ht, payloadOf_cons, if_pos h]
      · simp only [addTrait, payloadOf_cons, hold, h, if_false, ih]

/-- What is added last counts, if it has a payload for the code. -/
theorem payloadOf_foldl_addTrait (h : (us.map Trait.code).Nodup) (ts : List Trait) :
    payloadOf code (us.foldl addTrait ts) = (payloadOf code us).or (payloadOf code ts) := by
  induction us generalizing ts with
  | nil => rfl
  | cons u us ih =>
    obtain ⟨hu, hus⟩ := List.nodup_cons.1 h
    rw [List.foldl_cons, ih hus, payloadOf_addTrait, payloadOf_cons]
    by_cases hcode : u.code = code
    · rw [if_pos hcode, if_pos hcode, payloadOf_of_not_mem (hcode ▸ hu), Option.none_or]
    · rw [if_neg hcode, if_neg hcode]

end Trait

namespace Delta

def payloadOf (code : String) (d : Delta) : Option String := Trait.payloadOf code d.traits

/-- The last payload that some deltas give to a trait code. -/
def lastPayload (code : String) (ds : List Delta) : Option String :=
  (ds.filterMap (payloadOf code)).getLast?

variable {code : String} {d : Delta} {ds es : List Delta}

theorem lastPayload_append (ds es : List Delta) :
    lastPayload code (ds ++ es) = (lastPayload code es).or (lastPayload code ds) := by
  rw [lastPayload, List.filterMap_append, List.getLast?_append]
  rfl

theorem lastPayload_singleton (d : Delta) : lastPayload code [d] = payloadOf code d := by
  unfold lastPayload
  cases h : payloadOf code d <;> simp [h]

theorem payloadOf_absorb (hd : d.Normal) (e : Delta) :
    payloadOf code (e.absorb d) = (payloadOf code d).or (payloadOf code e) :=
  Trait.payloadOf_foldl_addTrait hd.codes e.traits

theorem payloadOf_foldl_merge (hds : ∀ d ∈ ds, d.Normal) {e : Delta} (he : e.Rooted) :
    payloadOf code (ds.foldl merge e) = (lastPayload code ds).or (payloadOf code e) := by
  induction ds generalizing e with
  | nil => rfl
  | cons d ds ih =>
    have hd := hds d List.mem_cons_self
    rw [List.foldl_cons, ih (fun d' hd' ↦ hds d' (List.mem_cons_of_mem d hd')) (rooted_merge e d),
      he.merge_eq_absorb, payloadOf_absorb hd, ← List.singleton_append, lastPayload_append,
      lastPayload_singleton, Option.or_assoc]

end Delta

namespace Build

open Progress State

variable {ms ms' : List Module} {s : State} {code : String}

/-- The payload that a module leaves to a code: the last one that its options give, or else the one
that was there. -/
theorem payloadOf_addModule {m : Module} (h : (addModule m s).failure = none) :
    Trait.payloadOf code (addModule m s).state.traits =
      (Delta.lastPayload code m.contributed).or (Trait.payloadOf code s.traits) := by
  cases hm : m.readable with
  | false =>
    rw [addModule_of_unreadable hm, Module.contributed_of_unreadable hm]
    rfl
  | true =>
    have hreading := Module.reading_of_readable hm
    have hnormal := Module.normal_of_reading hreading
    rw [addModule_of_ok hreading, failure_andThen_of_completed rfl,
      failure_apply_eq_none_iff hnormal] at h
    obtain ⟨vs, hvs⟩ := h
    have hmerged : Delta.payloadOf code (Delta.mergeAll m.contributed) =
        Delta.lastPayload code m.contributed := by
      have hoptions : ∀ d ∈ m.contributed, d.Normal := fun d ↦ Module.normal_of_mem_contributed
      exact (Delta.payloadOf_foldl_merge hoptions Delta.rooted_empty).trans (Option.or_none ..)
    rw [addModule_of_ok hreading, state_andThen rfl, state_apply_of_gather hnormal hvs,
      traits_layOver, Trait.payloadOf_foldl_addTrait hnormal.codes, ← hmerged]
    rfl

theorem payloadOf_each (h : (each addModule ms s).failure = none) :
    Trait.payloadOf code (each addModule ms s).state.traits =
      (Delta.lastPayload code (ms.flatMap Module.contributed)).or
        (Trait.payloadOf code s.traits) := by
  induction ms generalizing s with
  | nil => rfl
  | cons m ms ih =>
    rw [each_cons] at h ⊢
    obtain ⟨hfirst, hrest⟩ := failure_andThen_eq_none_iff.1 h
    rw [state_andThen hfirst, ih hrest, payloadOf_addModule hfirst, List.flatMap_cons,
      Delta.lastPayload_append, Option.or_assoc]

/-- Lists of modules that agree rank by rank are applied in the same order, that of a stable sort by
rank: a rearrangement of either list in which no trait follows an ancestry or another module, and
no ancestry follows another module.  So they build the same state and report the same.  In that
state a trait has the last payload that an option of a readable module gives to its code, in that
order of the modules, or else the payload in the base values. -/
theorem run_eq_of_ofRank_eq (h : ∀ r, Module.ofRank r ms = Module.ofRank r ms') :
    Module.inBuildOrder ms = Module.inBuildOrder ms' ∧
      Module.inBuildOrder ms = ms.mergeSort Module.follows ∧
      (Module.inBuildOrder ms).Perm ms ∧
      ((Module.inBuildOrder ms).Pairwise fun a b ↦
        (b.kind = .trait → a.kind = .trait) ∧
          (b.kind = .ancestry → a.kind = .trait ∨ a.kind = .ancestry)) ∧
      ∀ base working,
        run base working ms = run base working ms' ∧
          ((∃ names : List String, base.immunities = names.map .text) →
            (run base working ms).failure = none ∧
              ∀ code, Trait.payloadOf code (run base working ms).state.traits =
                (Delta.lastPayload code
                  ((Module.inBuildOrder ms).flatMap Module.contributed)).or
                    (Trait.payloadOf code base.traits)) := by
  have horder := Module.inBuildOrder_congr h
  refine ⟨horder, Module.inBuildOrder_eq_mergeSort ms, Module.perm_inBuildOrder ms,
    Module.pairwise_kind_inBuildOrder ms, fun base working ↦ ⟨?_, fun hbase ↦ ?_⟩⟩
  · rw [run_eq_each, run_eq_each, horder]
  · have hcompleted := failure_run_of_names hbase working ms
    exact ⟨hcompleted, fun code ↦ payloadOf_each hcompleted⟩

/-- Modules of all ranks that give payloads to one code, the first of them out of order and the last
one broken. -/
def lineage : List Module :=
  [{ id := "guild"
     kind := .secondary
     options := .ofOptions [
       { name := "oath", data := .text "TA=smith", selected := true },
       { name := "badge", data := .text "TA", selected := true }] },
    { id := "elf"
      kind := .ancestry
      options := .ofOptions [{ name := "grace", data := .text "TA=elf", selected := true }] },
    { id := "keen"
      kind := .trait
      options := .ofOptions [{ name := "eyes", data := .text "TA=keen", selected := true }] },
    { id := "torn"
      kind := .personality
      options := .ofOptions [
        { name := "mood", data := .text "TA=grim", selected := true },
        { name := "page", data := .int 7, selected := true }] }]

/-- The same modules with their ranks interleaved in another way. -/
def relisted : List Module :=
  lineage.filter (·.kind ≠ .ancestry) ++ lineage.filter (·.kind = .ancestry)

theorem run_lineage_eq_run_relisted :
    run (.fresh {}) (.fresh {}) lineage = run (.fresh {}) (.fresh {}) relisted ∧
      Trait.payloadOf "TA" (run (.fresh {}) (.fresh {}) lineage).state.traits = some "smith" := by
  have hranks (r : Fin 3) : Module.ofRank r lineage = Module.ofRank r relisted := by
    match r with
    | 0 => rfl
    | 1 => rfl
    | 2 => rfl
  obtain ⟨-, -, -, -, hrun⟩ := run_eq_of_ofRank_eq hranks
  obtain ⟨hsame, hnames⟩ := hrun (.fresh {}) (.fresh {})
  obtain ⟨-, hpayload⟩ := hnames ⟨[], rfl⟩
  refine ⟨hsame, (hpayload "TA").trans ?_⟩
  decide +kernel

end Build

end CharacterSheet
