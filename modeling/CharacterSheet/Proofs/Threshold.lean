import CharacterSheet.Proofs.Rounding
import CharacterSheet.Track

/-!
# Thresholds

The bonus of a pool that runs low depends on the exact quotient of its current value and its
maximum: rounding moves the edge of a band by half a unit in the last place and no further.  So the
lower of two current values never gives the lower bonus, and a larger total or a larger bonus never
gives a track fewer penalty dice.
-/

namespace CharacterSheet

section Quotient

variable {n : Int} {max : Nat} {ratio : Binary64}

theorem exists_quotient_eq_finite (h : quotient n max = .ok ratio) :
    ∃ m e, ratio = .finite (n < 0) m e ∧ Binary64.ofRatio (n < 0) n.natAbs max = ratio := by
  unfold quotient at h
  rcases Binary64.ofRatio_cases (n < 0) n.natAbs max with ⟨m, e, hfinite⟩ | hinfinite
  · rw [hfinite] at h ⊢
    cases h
    exact ⟨m, e, rfl, rfl⟩
  · rw [hinfinite] at h
    cases h

/-- A quotient of at most one lies in the band up to `1 / 2 ^ k` as far as the halfway point to the
next double. -/
theorem leRatio_quotient_iff (hle : n ≤ max) (h : quotient n max = .ok ratio) {k : Nat}
    (hk : k ≤ 1000) : ratio.leRatio 1 (2 ^ k) = true ↔ n * 2 ^ (53 + k) ≤ max * (2 ^ 53 + 1) := by
  obtain ⟨m, e, hfinite, hratio⟩ := exists_quotient_eq_finite h
  rcases Int.lt_trichotomy n 0 with hneg | rfl | hpos
  · have hbelow : n * 2 ^ (53 + k) ≤ 0 :=
      Int.mul_nonpos_of_nonpos_of_nonneg (by omega) (Int.pow_nonneg (by decide))
    refine iff_of_true ?_ (by omega)
    simp [hfinite, Binary64.leRatio, hneg]
  · refine iff_of_true ?_ (by omega)
    rw [← hratio]
    simp [Binary64.ofRatio, Binary64.leRatio]
  · obtain ⟨num, rfl⟩ := Int.eq_ofNat_of_zero_le (Int.le_of_lt hpos)
    have hnonneg : decide ((num : Int) < 0) = false := by simp
    rw [← hratio, hnonneg, Int.natAbs_natCast,
      Binary64.leRatio_ofRatio_iff (by omega) (by omega) hk]
    exact_mod_cast Iff.rfl

theorem bandBonus_quotient (hle : n ≤ max) (h : quotient n max = .ok ratio) :
    bandBonus ratio =
      if n * 2 ^ 55 ≤ max * (2 ^ 53 + 1) then 6
      else if n * 2 ^ 54 ≤ max * (2 ^ 53 + 1) then 3 else 0 := by
  have hquarter : ratio.leRatio 1 4 = true ↔ n * 2 ^ 55 ≤ max * (2 ^ 53 + 1) :=
    leRatio_quotient_iff hle h (k := 2) (by decide)
  have hhalf : ratio.leRatio 1 2 = true ↔ n * 2 ^ 54 ≤ max * (2 ^ 53 + 1) :=
    leRatio_quotient_iff hle h (k := 1) (by decide)
  unfold bandBonus thresholdBands
  rw [List.find?_cons, List.find?_cons]
  dsimp only
  by_cases hlow : n * 2 ^ 55 ≤ max * (2 ^ 53 + 1)
  · rw [if_pos hlow, hquarter.2 hlow]
  rw [if_neg hlow, Bool.eq_false_iff.2 (mt hquarter.1 hlow)]
  by_cases hmiddle : n * 2 ^ 54 ≤ max * (2 ^ 53 + 1)
  · rw [if_pos hmiddle, hhalf.2 hmiddle]
  · rw [if_neg hmiddle, Bool.eq_false_iff.2 (mt hhalf.1 hmiddle)]
    rfl

end Quotient

section Pool

variable {p q : Pool} {m n bonus bonus' : Int}

/-- The bonus of a pool, where it has one, in whole numbers. -/
theorem lowPoolBonus_eq_ok (hmax : 0 < p.max) (hp : p.current = some n)
    (h : lowPoolBonus (some p) = .ok bonus) :
    bonus =
      if min n p.max * 2 ^ 55 ≤ p.max * (2 ^ 53 + 1) then 6
      else if min n p.max * 2 ^ 54 ≤ p.max * (2 ^ 53 + 1) then 3 else 0 := by
  have hcast : ((p.max.toNat : Nat) : Int) = p.max := by omega
  have hcapped : min n p.max ≤ p.max.toNat := by omega
  unfold lowPoolBonus at h
  dsimp only at h
  rw [hp] at h
  dsimp only at h
  rw [if_neg (by omega)] at h
  cases hratio : quotient (min n p.max) p.max.toNat with
  | error e =>
    rw [hratio] at h
    cases h
  | ok ratio =>
    rw [hratio] at h
    obtain rfl := Except.ok.inj h
    rw [bandBonus_quotient hcapped hratio, hcast]

/-- The lower of two current values never gives the lower bonus. -/
theorem lowPoolBonus_le (hmax : p.max = q.max) (hp : p.current = some m) (hq : q.current = some n)
    (hle : n ≤ m) (h : lowPoolBonus (some p) = .ok bonus)
    (h' : lowPoolBonus (some q) = .ok bonus') : bonus ≤ bonus' := by
  by_cases hpos : 0 < p.max
  · rw [lowPoolBonus_eq_ok hpos hp h, lowPoolBonus_eq_ok (hmax ▸ hpos) hq h', ← hmax]
    grind
  · have hnone {r : Pool} (hr : r.max = p.max) : lowPoolBonus (some r) = .ok 0 := by
      unfold lowPoolBonus
      cases r.current <;> grind
    have hzero := Except.ok.inj ((hnone rfl).symm.trans h)
    have hzero' := Except.ok.inj ((hnone hmax.symm).symm.trans h')
    omega

end Pool

theorem diceFor_le {a b : Int} (h : a ≤ b) : diceFor a ≤ diceFor b := by
  unfold diceFor penaltyBands
  grind

namespace Track

/-- A higher calculated value and no fewer penalty dice, or the same ones. -/
structure Worsens (t u : Track) : Prop where
  calculated : t.calculated ≤ u.calculated
  penaltyDice : t.penaltyDice ≤ u.penaltyDice

variable {t u : Track} {total total' bonus bonus' : Int} {pool pool' : Option Pool}

theorem worsens_update (hm : t.modifier = u.modifier) (htotal : total ≤ total')
    (hb : lowPoolBonus pool = .ok bonus) (hb' : lowPoolBonus pool' = .ok bonus')
    (hbonus : bonus ≤ bonus') : (t.update total pool).1.Worsens (u.update total' pool').1 := by
  have hle : max 0 (total + bonus + t.modifier) ≤ max 0 (total' + bonus' + u.modifier) := by omega
  unfold update
  rw [hb, hb']
  exact ⟨hle, diceFor_le hle⟩

end Track

end CharacterSheet
