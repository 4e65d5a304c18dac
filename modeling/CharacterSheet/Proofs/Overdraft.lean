import CharacterSheet.Proofs.Build.Carrying
import CharacterSheet.Proofs.Content.Checked
import CharacterSheet.Proofs.Rounding

/-!
# Overdrawn pools

The quotient of a current value and a maximum is too large exactly from halfway between the largest
double and the next power of two on.  A pool that is overdrawn that far stops a pass; over a sound
baseline, with checked items, nothing else does.
-/

namespace CharacterSheet

namespace Binary64

/-- Halfway between the largest double and `2 ^ 1024`. -/
-- Irreducible, or `simp` would try to evaluate the power.
@[irreducible] def overflow : Nat := (4 * leastFull - 1) * wholePower 2 970

theorem one_lt_overflow : 1 < overflow := by
  have hpos : 0 < wholePower 2 970 := wholePower_pos 970
  unfold overflow leastFull
  omega

theorem overflow_mul (den : Nat) :
    overflow * den = (4 * leastFull - 1) * (wholePower 2 970 * den) := by
  unfold overflow
  exact Nat.mul_assoc ..

variable {num den : Nat}

theorem mul_wholePower_add (den m : Nat) : den * wholePower 2 ((m + 970 : Nat) : Int) =
    wholePower 2 m * (wholePower 2 970 * den) := by
  rw [wholePower_add, Nat.mul_left_comm, Nat.mul_comm den]
  rfl

/-- Between the last two powers of two, the significand is carried from `overflow` on. -/
theorem carried_iff (hden : 0 < den) (hlt : num < 4 * leastFull * (wholePower 2 970 * den)) :
    roundHalfEven (num * wholePower 2 (-971)) (den * wholePower 2 971) = 2 * leastFull ↔
      overflow * den ≤ num := by
  have hup : den * wholePower 2 971 = 2 * (wholePower 2 970 * den) := mul_wholePower_add den 1
  have hdown : wholePower 2 (-971) = 1 := wholePower_neg_natCast 2 971
  have hunit : 0 < wholePower 2 970 * den := Nat.mul_pos (wholePower_pos 970) hden
  have hfull : leastFull = 4503599627370496 := rfl
  rw [hup, hdown, Nat.mul_one, overflow_mul, hfull]
  rw [hfull] at hlt
  generalize wholePower 2 970 * den = unit at hlt hunit ⊢
  rw [roundHalfEven_eq_iff (by omega) (by decide) (by omega)]
  omega

/-- A quotient is too large for a double from `overflow` on, and below it is finite. -/
theorem ofRatio_eq_infinite_iff (negative : Bool) (hden : 0 < den) :
    ofRatio negative num den = infinite negative ↔ overflow * den ≤ num := by
  by_cases hnum : num = 0
  · have hpos : 0 < overflow * den := Nat.mul_pos (Nat.lt_of_succ_lt one_lt_overflow) hden
    rw [ofRatio, if_pos hnum]
    exact iff_of_false (fun h ↦ by cases h) (by omega)
  have hden' : den ≠ 0 := Nat.ne_of_gt hden
  have hlow : 1023 ≤ ratioLog2 num den ↔ wholePower 2 53 * (wholePower 2 970 * den) ≤ num :=
    mul_wholePower_add den 53 ▸ natCast_le_ratioLog2_iff hnum hden' (53 + 970)
  have hhigh : 1024 ≤ ratioLog2 num den ↔ wholePower 2 54 * (wholePower 2 970 * den) ≤ num :=
    mul_wholePower_add den 54 ▸ natCast_le_ratioLog2_iff hnum hden' (54 + 970)
  have hhalf : wholePower 2 53 = 9007199254740992 := rfl
  have hwhole : wholePower 2 54 = 18014398509481984 := rfl
  have hfull : leastFull = 4503599627370496 := rfl
  rw [hhalf] at hlow
  rw [hwhole] at hhigh
  have hsize := overflow_mul den
  have hunit : 0 < wholePower 2 970 * den := Nat.mul_pos (wholePower_pos 970) hden
  have hexponent : ratioExponent num den = max (ratioLog2 num den - 52) (-1074) := rfl
  have hinfinite : ofRatio negative num den = infinite negative ↔ 971 <
      if roundHalfEven (num * wholePower 2 (-ratioExponent num den))
        (den * wholePower 2 (ratioExponent num den)) = 2 * leastFull
      then ratioExponent num den + 1 else ratioExponent num den := by
    rw [ofRatio, if_neg hnum]
    dsimp only
    generalize (if _ = 2 * leastFull then ratioExponent num den + 1 else _) = last
    by_cases hlast : 971 < last
    · rw [if_pos hlast]
      exact iff_of_true rfl hlast
    · rw [if_neg hlast]
      exact iff_of_false (fun h ↦ by cases h) hlast
  rw [hfull] at hsize
  rw [hinfinite]
  rcases Int.lt_trichotomy (ratioExponent num den) 971 with hlt | heq | hgt
  · refine iff_of_false (by split <;> omega) ?_
    omega
  · rw [heq, ← carried_iff hden (by rw [hfull]; omega)]
    split <;> omega
  · refine iff_of_true (by split <;> omega) ?_
    omega

end Binary64

theorem quotient_eq_error_iff {n : Int} {d : Nat} (hd : 0 < d) {e : Failure} :
    quotient n d = .error e ↔ e = .quotientTooLarge ∧ Binary64.overflow * d ≤ n.natAbs := by
  rw [← Binary64.ofRatio_eq_infinite_iff (n < 0) hd, quotient]
  rcases Binary64.ofRatio_cases (n < 0) n.natAbs d with ⟨m, k, hfinite⟩ | hinfinite
  · simp [hfinite]
  · simp [hinfinite, eq_comm]

/-- Its current value is too far below zero to be divided by its maximum. -/
def Pool.Overdrawn (p : Pool) : Prop :=
  0 < p.max ∧ ∃ n, p.current = some n ∧ n ≤ -(Binary64.overflow * p.max)

theorem lowPoolBonus_eq_error_iff {p : Pool} {e : Failure} :
    lowPoolBonus (some p) = .error e ↔ e = .quotientTooLarge ∧ p.Overdrawn := by
  unfold lowPoolBonus Pool.Overdrawn
  dsimp only
  cases hcurrent : p.current with
  | none => simp
  | some n =>
    by_cases hmax : p.max ≤ 0
    · have hmax' : ¬ 0 < p.max := by omega
      simp [hmax, hmax']
    · have hpos : 0 < p.max.toNat := by omega
      have hcast : ((Binary64.overflow * p.max.toNat : Nat) : Int) = Binary64.overflow * p.max := by
        rw [Int.natCast_mul, Int.toNat_of_nonneg (by omega)]
      have hover : p.max.toNat < Binary64.overflow * p.max.toNat :=
        (Nat.lt_mul_iff_one_lt_left hpos).2 Binary64.one_lt_overflow
      have hmap : (quotient (min n p.max) p.max.toNat).map bandBonus = .error e ↔
          quotient (min n p.max) p.max.toNat = .error e := by
        cases quotient (min n p.max) p.max.toNat <;> simp [Except.map]
      have hfar : Binary64.overflow * p.max.toNat ≤ (min n p.max).natAbs ↔
          n ≤ -(Binary64.overflow * p.max) := by omega
      dsimp only
      rw [if_neg hmax, hmap, quotient_eq_error_iff hpos, hfar]
      simp [Int.not_le.1 hmax]

theorem Track.failure_update_eq_some_iff {t : Track} {total : Int} {pool : Option Pool}
    {e : Failure} : (t.update total pool).2 = some e ↔
      e = .quotientTooLarge ∧ ∃ p, pool = some p ∧ p.Overdrawn := by
  have hbonus : (t.update total pool).2 = some e ↔ lowPoolBonus pool = .error e := by
    unfold update
    cases lowPoolBonus pool <;> simp
  rw [hbonus]
  cases pool with
  | none => simp [lowPoolBonus]
  | some p => simp [lowPoolBonus_eq_error_iff]

namespace Overlay

open Progress State

/-- A pass that can gather the immunities of its sources stops at an overdrawn pool and nowhere
else. -/
theorem failure_run_eq_some_iff (settings : Settings) {l : Loadout} {baseline s : State}
    (hgathered : ∃ vs, gatherAll baseline.immunities l.immunities = .ok vs) {e : Failure} :
    (run settings l baseline s).failure = some e ↔ e = .quotientTooLarge ∧
      ∃ name ∈ ["health", "resolve"], ∃ p, l.pool? baseline s name = some p ∧ p.Overdrawn := by
  have hlaid : (laid settings l baseline).failure = none :=
    (gathers_laid settings l baseline).failure_eq_none_iff.2 hgathered
  have hmapped : ((laid settings l baseline).mapState
      (State.carry (handedOn baseline s))).failure = none := hlaid
  rw [run_eq_laid_andThen, failure_andThen_of_completed hmapped, state_mapState, failure_settling,
    failure_applyInjuries, painTrack, stressTrack, get?_resources_laid hlaid,
    get?_resources_laid hlaid]
  -- The stress is derived only if the pain was.
  cases hpain : (Track.update _ _ (l.pool? baseline s "health")).2 with
  | some e' =>
    obtain ⟨rfl, hhealth⟩ := Track.failure_update_eq_some_iff.1 hpain
    rw [Option.some_or, Option.some.injEq]
    constructor
    · rintro rfl
      exact ⟨rfl, "health", by simp, hhealth⟩
    · exact fun h ↦ h.1.symm
  | none =>
    have hhealth : ¬ ∃ p, l.pool? baseline s "health" = some p ∧ p.Overdrawn := fun h ↦ by
      cases hpain.symm.trans (Track.failure_update_eq_some_iff.2 ⟨rfl, h⟩)
    rw [Option.none_or, Track.failure_update_eq_some_iff]
    simp [hhealth]

end Overlay

/-! ## Solvent pools -/

/-- The current value of a pool, unless it is unset, is within reach of zero for every maximum. -/
def State.Solvent (name : String) (s : State) : Prop :=
  ∀ n, s.current? name = some (some n) → -(Binary64.overflow : Int) < n

section Solvent

open State

variable {name : String} {baseline s : State}

theorem Pool.not_overdrawn {p : Pool}
    (h : ∀ n, p.current = some n → -(Binary64.overflow : Int) < n) : ¬ p.Overdrawn := by
  rintro ⟨hmax, n, hn, hle⟩
  have hlow := h n hn
  have hscaled : (Binary64.overflow : Int) * 1 ≤ Binary64.overflow * p.max :=
    Int.mul_le_mul_of_nonneg_left hmax (Int.natCast_nonneg _)
  omega

theorem current_fresh {settings : Settings} {p : Pool}
    (h : (fresh settings).resources.get? name = some p) : p.current = none := by
  rw [fresh, Table.get?_ofNames] at h
  split at h
  · obtain rfl := Option.some.inj h
    rfl
  · cases h

theorem solvent_of_fresh {settings : Settings} (h : s.resources = (fresh settings).resources) :
    s.Solvent name := by
  intro n hn
  obtain ⟨p, hp, hset⟩ := Option.map_eq_some_iff.1 hn
  rw [h] at hp
  cases (current_fresh hp).symm.trans hset

theorem current?_of_bind {n : Int} (h : (s.resources.get? name).bind Pool.current = some n) :
    s.current? name = some (some n) := by
  obtain ⟨p, hp, hn⟩ := Option.bind_eq_some_iff.1 h
  rw [current?, hp, Option.map_some, hn]

theorem lt_effectiveCurrent (hbaseline : baseline.Solvent name) (hs : s.Solvent name) {n : Int}
    (h : effectiveCurrent baseline s name = some n) : -(Binary64.overflow : Int) < n := by
  rw [effectiveCurrent_eq] at h
  cases hcurrent : s.current? name with
  | some current =>
    rw [hcurrent] at h
    exact hs n (hcurrent.trans (congrArg some h))
  | none =>
    rw [hcurrent] at h
    exact hbaseline n (current?_of_bind h)

theorem lt_current_of_solvent {l : Loadout} (hbaseline : baseline.Solvent name)
    (hs : s.Solvent name) {p : Pool} (hp : l.pool? baseline s name = some p) {n : Int}
    (hn : p.current = some n) : -(Binary64.overflow : Int) < n := by
  obtain ⟨q, -, rfl⟩ := Option.map_eq_some_iff.1 hp
  exact lt_effectiveCurrent hbaseline hs hn

/-- A completed pass brings a pool down to its maximum and no further. -/
theorem Overlay.solvent_run {settings : Settings} {l : Loadout}
    (hcompleted : (run settings l baseline s).failure = none) (hbaseline : baseline.Solvent name)
    (hs : s.Solvent name)
    (hmax : ∀ p, l.pool? baseline s name = some p → -(Binary64.overflow : Int) < p.max) :
    (run settings l baseline s).state.Solvent name := by
  intro n hn
  rw [current?, get?_resources_run hcompleted, Option.map_map] at hn
  obtain ⟨p, hp, hclamped⟩ := Option.map_eq_some_iff.1 hn
  have hlow := hmax p hp
  cases hcurrent : p.current with
  | none =>
    simp only [Function.comp, clampPool, hcurrent] at hclamped
    obtain rfl := Option.some.inj hclamped
    exact hlow
  | some m =>
    simp only [Function.comp, clampPool, hcurrent] at hclamped
    obtain rfl := Option.some.inj hclamped
    have hm := lt_current_of_solvent hbaseline hs hp hcurrent
    omega

theorem Build.solvent_run {base working : State} (hbase : base.Solvent name)
    (hworking : working.Solvent name) (modules : List Module) :
    (Build.run base working modules).state.Solvent name := by
  intro n hn
  rw [sameCurrents_run base working modules name, start_eq_carry, current?, resources_carry,
    Table.get?_mapWithKey, Option.map_map] at hn
  obtain ⟨p, hp, hcurrent⟩ := Option.map_eq_some_iff.1 hn
  have hbrought : ((working.resources.get? name).bind Pool.current).or
      ((base.resources.get? name).bind Pool.current) = some n := hcurrent
  rcases Option.or_eq_some_iff.1 hbrought with hset | ⟨-, hset⟩
  · exact hworking n (current?_of_bind hset)
  · exact hbase n (current?_of_bind hset)

/-! ## Authored currents -/

namespace CharacterTemplate

variable {t : CharacterTemplate}

theorem resources_modifySkill (s : State) (skill : String) (f : SkillEntry → SkillEntry) :
    (s.modifySkill skill f).resources = s.resources := by
  unfold State.modifySkill
  split
  · rfl
  · split
    · rfl
    · split <;> rfl

theorem resources_setTier {skill : String} {field : String × Int} {s s' : State}
    (h : t.setTier skill s field = .ok s') : s'.resources = s.resources := by
  unfold setTier at h
  split at h
  · obtain rfl := Except.ok.inj h
    exact resources_modifySkill ..
  · split at h
    · obtain rfl := Except.ok.inj h
      exact resources_modifySkill ..
    · cases h

theorem resources_of_skills {settings : Settings} {s₁ s₂ s₃ : State}
    (h₁ : t.setAttributes (.fresh settings) = .ok s₁) (h₂ : t.setSkills s₁ = .ok s₂)
    (h₃ : t.setTiers s₂ = .ok s₃) : s₃.resources = (State.fresh settings).resources := by
  let Bare (s : State) : Prop := s.resources = (State.fresh settings).resources
  have hs₁ : Bare s₁ := by
    refine keeps_foldlM (P := Bare) (fun e _ s s' hs hset ↦ ?_) rfl h₁
    split at hset
    · obtain rfl := Except.ok.inj hset
      exact hs
    · cases hset
  have hs₂ : Bare s₂ := by
    refine keeps_foldlM (P := Bare) (fun e _ s s' hs hset ↦ ?_) hs₁ h₂
    split at hset
    · obtain rfl := Except.ok.inj hset
      exact (resources_modifySkill ..).trans hs
    · cases hset
  refine keeps_foldlM (P := Bare) (fun e _ s s' hs hset ↦ ?_) hs₂ h₃
  split at hset
  · exact keeps_foldlM (P := Bare) (fun _ _ _ _ hs h ↦ (resources_setTier h).trans hs) hs hset
  · cases hset

theorem solvent_setMaxima {settings : Settings}
    (hs : s.resources = (State.fresh settings).resources) : (t.setMaxima s).Solvent name := by
  have hfold (es : List (String × Int)) (pools : Table Pool)
      (hpools : ∀ name p, pools.get? name = some p → p.current = none) :
      ∀ name p, (es.foldl (fun pools (e : String × Int) ↦
        pools.update e.1 {} fun p ↦ { p with max := e.2 }) pools).get? name = some p →
          p.current = none := by
    induction es generalizing pools with
    | nil => exact hpools
    | cons e es ih =>
      refine ih _ fun name p hp ↦ ?_
      rw [Table.get?_update] at hp
      split at hp
      · obtain rfl := Option.some.inj hp
        show (pools.getD e.1 {}).current = none
        rw [Table.getD]
        cases hold : pools.get? e.1 with
        | none => rfl
        | some q => exact hpools e.1 q hold
      · exact hpools name p hp
  intro n hn
  obtain ⟨p, hp, hset⟩ := Option.map_eq_some_iff.1 hn
  have hunset := hfold t.resources.entries s.resources
    (fun name p hp ↦ current_fresh (hs ▸ hp)) name p hp
  cases hunset.symm.trans hset

theorem solvent_setCurrents {s' : State} (hs : s.Solvent name) (h : t.setCurrents s = .ok s')
    (hcurrent : ∀ n, t.current.get? name = some n → -(Binary64.overflow : Int) < n) :
    s'.Solvent name := by
  refine keeps_foldlM (P := State.Solvent name) (fun e he s s' hs hset ↦ ?_) hs h
  split at hset
  · obtain rfl := Except.ok.inj hset
    intro n hn
    obtain ⟨p, hp, hset⟩ := Option.map_eq_some_iff.1 hn
    rw [Table.get?_modify] at hp
    split at hp
    · next hname =>
      obtain ⟨q, -, rfl⟩ := Option.map_eq_some_iff.1 hp
      obtain rfl := Option.some.inj hset
      exact hcurrent e.2 (hname ▸ Table.get?_of_mem_entries he)
    · exact hs n (by rw [current?, hp, Option.map_some, hset])
  · cases hset

theorem solvent_baseState {settings : Settings} (h : t.baseState settings = .ok s)
    (hcurrent : ∀ n, t.current.get? name = some n → -(Binary64.overflow : Int) < n) :
    s.Solvent name := by
  unfold baseState at h
  obtain ⟨s₁, h₁, h⟩ := exists_of_bind_eq_ok h
  obtain ⟨s₂, h₂, h⟩ := exists_of_bind_eq_ok h
  obtain ⟨s₃, h₃, h⟩ := exists_of_bind_eq_ok h
  exact solvent_setCurrents (solvent_setMaxima (resources_of_skills h₁ h₂ h₃)) h hcurrent

end CharacterTemplate

end Solvent

end CharacterSheet
