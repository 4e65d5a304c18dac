import CharacterSheet.Proofs.Nearest
import CharacterSheet.Proofs.Overdraft
import CharacterSheet.Proofs.Threshold
import Mathlib.Tactic.NormNum.Basic

/-!
# Bands of low pools

The quotient of a pool is the nearest double.  For a maximum of at most `2 ^ 53`, rounding moves no
quotient over the edge of a band, so the bonus is what whole numbers tell; and for any maximum a
pool that is fuller never gets a larger bonus.
-/

namespace CharacterSheet

/-- The double of a quotient is the nearest one to it. -/
theorem nearest_quotient {n : ℤ} {d : ℕ} (hd : d ≠ 0) {ratio : Binary64}
    (h : quotient n d = .ok ratio) : ratio.Nearest (n / d) := by
  obtain ⟨m, e, rfl, hratio⟩ := exists_quotient_eq_finite h
  have hnearest := Binary64.nearest_ofRatio hd hratio
  have hvalue : Binary64.signed (decide (n < 0)) ((n.natAbs : ℕ) / d) = (n : ℚ) / d := by
    rcases lt_or_ge n 0 with hneg | hnonneg
    · have hsize : ((n.natAbs : ℕ) : ℚ) = -n := by
        rw [Nat.cast_natAbs, abs_of_neg hneg, Int.cast_neg]
      rw [decide_eq_true hneg, Binary64.signed_true, hsize, neg_div, neg_neg]
    · have hsize : ((n.natAbs : ℕ) : ℚ) = n := by
        rw [Nat.cast_natAbs, abs_of_nonneg hnonneg]
      rw [decide_eq_false (by omega), Binary64.signed_false, hsize]
  rwa [hvalue] at hnearest

/-- Up to a maximum of `2 ^ 53`, the halfway point above the edge of a band comes before the next
quotient. -/
theorem le_halfway_iff {n max : ℤ} (hpos : 0 < max) (hmax : max ≤ 2 ^ 53) {k : ℕ}
    (hk : k = 1 ∨ k = 2) : n * 2 ^ (53 + k) ≤ max * (2 ^ 53 + 1) ↔ 2 ^ k * n ≤ max := by
  rcases hk with rfl | rfl
  · norm_num at hmax ⊢
    omega
  · norm_num at hmax ⊢
    omega

variable {p : Pool} {n : ℤ} {ratio : Binary64}

theorem exists_bonus_of_quotient (hmax : 0 < p.max) (hcurrent : p.current = some n)
    (h : quotient (min n p.max) p.max.toNat = .ok ratio) :
    ∃ bonus, lowPoolBonus (some p) = .ok bonus := by
  refine ⟨bandBonus ratio, ?_⟩
  unfold lowPoolBonus
  dsimp only
  rw [hcurrent]
  dsimp only
  rw [if_neg (by omega), h]
  rfl

/-- A pool that is fuller is not overdrawn if the other is not. -/
theorem Pool.not_overdrawn_of_le {q : Pool} {m : ℤ} (hmax : q.max = p.max)
    (hp : p.current = some n) (hq : q.current = some m) (hle : n ≤ m) (h : ¬ p.Overdrawn) :
    ¬ q.Overdrawn := by
  rintro ⟨hpos, m', hm', hfar⟩
  obtain rfl := Option.some.inj (hq.symm.trans hm')
  rw [hmax] at hpos hfar
  exact h ⟨hpos, n, hp, hle.trans hfar⟩

/-- Wherever the quotient of a pool is a double at all, it is the nearest one.  Up to a maximum of
`2 ^ 53` the bonus is six up to a quarter of the maximum, three up to half of it, and nothing above;
for every maximum, a current value that is higher has a bonus, too, and not a larger one. -/
theorem lowPoolBonus_exact_antitone (hmax : 0 < p.max) (hcurrent : p.current = some n)
    (hratio : quotient (min n p.max) p.max.toNat = .ok ratio) :
    ratio.Nearest ((min n p.max : ℤ) / (p.max : ℤ)) ∧
      (p.max ≤ 2 ^ 53 → lowPoolBonus (some p) = .ok (if 4 * min n p.max ≤ p.max then 6
        else if 2 * min n p.max ≤ p.max then 3 else 0)) ∧
      ∀ (q : Pool) (m : ℤ), q.max = p.max → q.current = some m → n ≤ m → ∃ bonus bonus',
        lowPoolBonus (some p) = .ok bonus ∧ lowPoolBonus (some q) = .ok bonus' ∧
          bonus' ≤ bonus := by
  obtain ⟨bonus, hbonus⟩ := exists_bonus_of_quotient hmax hcurrent hratio
  refine ⟨?_, fun hsmall ↦ ?_, fun q m hq hm hle ↦ ?_⟩
  · have hcast : ((p.max.toNat : ℕ) : ℚ) = (p.max : ℤ) := by
      exact_mod_cast Int.toNat_of_nonneg hmax.le
    have hnearest := nearest_quotient (by omega) hratio
    rwa [hcast] at hnearest
  · have hquarter := le_halfway_iff (n := min n p.max) hmax hsmall (.inr rfl)
    have hhalf := le_halfway_iff (n := min n p.max) hmax hsmall (.inl rfl)
    rw [hbonus, lowPoolBonus_eq_ok hmax hcurrent hbonus, if_congr hquarter rfl
      (if_congr hhalf rfl rfl)]
    rfl
  · have hwithin : ¬ p.Overdrawn := fun hover ↦ by
      cases hbonus.symm.trans (lowPoolBonus_eq_error_iff.2 ⟨rfl, hover⟩)
    cases hbonus' : lowPoolBonus (some q) with
    | error e =>
      have hover := (lowPoolBonus_eq_error_iff.1 hbonus').2
      exact absurd hover (Pool.not_overdrawn_of_le hq hcurrent hm hle hwithin)
    | ok bonus' =>
      exact ⟨bonus, bonus', hbonus, rfl, lowPoolBonus_le hq hm hcurrent hle hbonus' hbonus⟩

/-- A quarter of a point more than a quarter of the maximum, which is odd: the quotient is just
above the halfway point to the next double. -/
def brink : Pool := { max := 2 ^ 53 - 1, current := some (2 ^ 51) }

theorem lowPoolBonus_brink : ∃ ratio,
    quotient (min (2 ^ 51) brink.max) brink.max.toNat = .ok ratio ∧
      ratio.Nearest ((min (2 ^ 51) brink.max : ℤ) / (brink.max : ℤ)) ∧
        lowPoolBonus (some brink) = .ok 3 ∧ ∃ bonus bonus', lowPoolBonus (some brink) = .ok bonus ∧
          lowPoolBonus (some { brink with current := some (2 ^ 52) }) = .ok bonus' ∧
            bonus' ≤ bonus := by
  have hratio := eq_ok_getD_of_isOk
    (x := quotient (min (2 ^ 51) brink.max) brink.max.toNat) (by decide +kernel) .nan
  obtain ⟨hnearest, hexact, hantitone⟩ := lowPoolBonus_exact_antitone (by decide) rfl hratio
  exact ⟨_, hratio, hnearest, hexact (by decide),
    hantitone { brink with current := some (2 ^ 52) } (2 ^ 52) rfl rfl (by decide)⟩

end CharacterSheet
