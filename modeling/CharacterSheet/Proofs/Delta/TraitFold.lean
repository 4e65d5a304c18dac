import CharacterSheet.Proofs.Delta.TraitOrder

/-!
# What traits fold to

Traits that are added one after the other fold into one trait for each code.  It takes its place and
its kind from the first trait with that code, and the last payload that any of them gives.
-/

namespace CharacterSheet

namespace Trait

/-- The last payload that some traits give to a code. -/
def lastPayload (code : String) (ts : List Trait) : Option String :=
  ((ofCode code ts).filterMap payload).getLast?

variable {t : Trait} {ts us : List Trait} {code : String}

/-- Traits with the code of a given one fold into it. -/
theorem foldl_addTrait_singleton (h : ∀ u ∈ us, u.code = t.code) :
    us.foldl addTrait [t] = [{ t with payload := ((t :: us).filterMap payload).getLast? }] := by
  induction us generalizing t with
  | nil =>
    obtain ⟨kind, code, p⟩ := t
    cases p <;> rfl
  | cons u us ih =>
    have hu := h u List.mem_cons_self
    have hadd : addTrait [t] u = [{ t with payload := u.payload <|> t.payload }] := by
      simp [addTrait, hu]
    have hrest := ih (t := { t with payload := u.payload <|> t.payload })
      fun v hv ↦ h v (List.mem_cons_of_mem u hv)
    rw [List.foldl_cons, hadd, hrest]
    cases hu : u.payload <;> cases ht : t.payload <;> simp [hu, ht, List.getLast?_cons]

/-- What the traits of a code fold into. -/
theorem ofCode_foldl_addTrait_nil (ts : List Trait) (code : String) :
    ofCode code (ts.foldl addTrait []) = match ofCode code ts with
      | [] => []
      | first :: _ => [{ first with payload := lastPayload code ts }] := by
  rw [ofCode_foldl_addTrait, lastPayload]
  cases hcolumn : ofCode code ts with
  | nil => rfl
  | cons first rest =>
    have hcode : ∀ u ∈ first :: rest, u.code = code := fun u hu ↦
      (mem_ofCode.1 (hcolumn ▸ hu)).2
    have hfirst := hcode first List.mem_cons_self
    refine foldl_addTrait_singleton fun u hu ↦ ?_
    rw [hcode u (List.mem_cons_of_mem first hu), hfirst]

theorem mem_foldl_addTrait_nil (h : t ∈ ts.foldl addTrait []) :
    (ts.find? fun u ↦ u.code = t.code).map kind = some t.kind ∧
      t.payload = lastPayload t.code ts := by
  have hmem : t ∈ ofCode t.code (ts.foldl addTrait []) := mem_ofCode.2 ⟨h, rfl⟩
  have hhead : (ofCode t.code ts).head? = ts.find? fun u ↦ u.code = t.code :=
    List.head?_filter
  rw [ofCode_foldl_addTrait_nil] at hmem
  rw [← hhead]
  cases hcolumn : ofCode t.code ts with
  | nil =>
    rw [hcolumn] at hmem
    cases hmem
  | cons first rest =>
    rw [hcolumn, List.mem_singleton] at hmem
    have hkind : t.kind = first.kind := by rw [hmem]
    exact ⟨congrArg some hkind.symm, congrArg payload hmem⟩

/-- A new code comes after those that are there, at its first appearance. -/
theorem map_code_foldl_addTrait (us ts : List Trait) :
    (us.foldl addTrait ts).map Trait.code =
      ts.map Trait.code ++ ((us.map Trait.code).removeAll (ts.map Trait.code)).eraseDups := by
  induction us generalizing ts with
  | nil => exact (List.append_nil _).symm
  | cons u us ih =>
    rw [List.foldl_cons, ih, map_code_addTrait, List.map_cons, List.cons_removeAll]
    by_cases hmem : u.code ∈ ts.map Trait.code
    · simp [hmem]
    · have hlater : (us.map Trait.code).removeAll (ts.map Trait.code ++ [u.code]) =
          ((us.map Trait.code).removeAll (ts.map Trait.code)).filter fun c ↦ !c == u.code := by
        simp only [List.removeAll, List.filter_filter]
        refine List.filter_congr fun c _ ↦ ?_
        rw [Bool.eq_iff_iff]
        simp [not_or, and_comm]
      simp [hmem, hlater, List.eraseDups_cons]

end Trait

/-- Adding traits to a list that has each code once gives such a list.  It has the codes of all
these traits in the order in which they first appear, each with the kind of its first trait and the
last payload that was given to it.  So it does not matter whether the traits themselves are added or
what they fold to. -/
theorem foldl_addTrait_closedForm {ts : List Trait} (h : (ts.map Trait.code).Nodup)
    (us : List Trait) :
    ((us.foldl addTrait ts).map Trait.code).Nodup ∧
      (us.foldl addTrait ts).map Trait.code = ((ts ++ us).map Trait.code).eraseDups ∧
      (∀ t ∈ us.foldl addTrait ts,
        ((ts ++ us).find? fun u ↦ u.code = t.code).map Trait.kind = some t.kind ∧
          t.payload = Trait.lastPayload t.code (ts ++ us)) ∧
      (us.foldl addTrait []).foldl addTrait ts = us.foldl addTrait ts := by
  have hfold : us.foldl addTrait ts = (ts ++ us).foldl addTrait [] := by
    rw [List.foldl_append, foldl_addTrait_nil h]
  refine ⟨nodup_code_foldl_addTrait us h, ?_, fun t ht ↦ ?_, ?_⟩
  · have hnone : ((ts ++ us).map Trait.code).removeAll [] = (ts ++ us).map Trait.code :=
      List.filter_eq_self.2 fun _ _ ↦ rfl
    rw [hfold, Trait.map_code_foldl_addTrait, List.map_nil, hnone, List.nil_append]
  · rw [hfold] at ht
    exact Trait.mem_foldl_addTrait_nil ht
  · have hnil : (([] : List Trait).map Trait.code).Nodup := List.nodup_nil
    exact foldl_addTrait_foldl hnil us ts

def guild : List Trait :=
  [⟨.crafting, "TC", some "smith"⟩, ⟨.ancestry, "TA", none⟩]

/-- Newcomers with a code that the guild lacks, and with its own codes in other kinds. -/
def newcomers : List Trait :=
  [⟨.general, "TG", none⟩, ⟨.general, "TC", some "brewer"⟩, ⟨.ancestry, "TA", some "elf"⟩,
    ⟨.crafting, "TC", none⟩, ⟨.ancestry, "TG", some "wild"⟩]

theorem foldl_addTrait_newcomers :
    (guild.map Trait.code).Nodup ∧
      (newcomers.foldl addTrait guild).map Trait.code = ["TC", "TA", "TG"] ∧
      (∀ t ∈ newcomers.foldl addTrait guild,
        ((guild ++ newcomers).find? fun u ↦ u.code = t.code).map Trait.kind = some t.kind ∧
          t.payload = Trait.lastPayload t.code (guild ++ newcomers)) ∧
      (newcomers.foldl addTrait []).foldl addTrait guild = newcomers.foldl addTrait guild := by
  have hcodes : (guild.map Trait.code).Nodup := by decide
  obtain ⟨-, horder, hfolded, hagain⟩ := foldl_addTrait_closedForm hcodes newcomers
  exact ⟨hcodes, horder.trans (by decide), hfolded, hagain⟩

end CharacterSheet
