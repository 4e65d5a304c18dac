import CharacterSheet.Overlay

/-!
# Laws of pain and stress

A full pool gives no bonus, however large its maximum is: the quotient of a number and itself is
exactly one.  So a pool gives the same bonus before and after it is clamped, and a track that has
been derived once is derived again as it is.
-/

namespace CharacterSheet

namespace Binary64

/-- The double one: the least significand of full length over its own size. -/
def one : Binary64 := finite false leastFull (-52)

theorem ratioLog2_self (n : Nat) : ratioLog2 n n = 0 := by
  simp [ratioLog2, wholePower]

theorem roundHalfEven_mul_right (m : Nat) {n : Nat} (h : 0 < n) :
    roundHalfEven (n * m) n = m := by
  simp [roundHalfEven, Nat.mul_div_cancel_left m h, h]

/-- A positive number divided by itself is one, without any rounding. -/
theorem ofRatio_self (negative : Bool) {n : Nat} (h : 0 < n) :
    ofRatio negative n n = finite negative leastFull (-52) := by
  have hexp : ratioExponent n n = -52 := by
    rw [ratioExponent, ratioLog2_self]
    rfl
  have hround : roundHalfEven (n * wholePower 2 52) (n * wholePower 2 (-52)) = leastFull := by
    have hden : n * wholePower 2 (-52) = n := by simp [wholePower]
    rw [hden, roundHalfEven_mul_right _ h]
    rfl
  have hn : n ≠ 0 := Nat.ne_of_gt h
  simp only [ofRatio, hn, hexp, if_false]
  rw [show (-(-52) : Int) = 52 from rfl, hround]
  rfl

/-- A quotient that is not far beyond the powers of two that doubles reach is finite. -/
theorem exists_ofRatio_eq_finite (negative : Bool) {num den : Nat}
    (h : num.log2 ≤ den.log2 + 1022) : ∃ m e, ofRatio negative num den = finite negative m e := by
  have hexponent : ratioExponent num den ≤ 970 := by
    have hlog : ratioLog2 num den ≤ (num.log2 : Int) - den.log2 := by
      unfold ratioLog2
      dsimp only
      split <;> omega
    unfold ratioExponent
    omega
  unfold ofRatio
  dsimp only
  split
  · exact ⟨_, _, rfl⟩
  · -- One more power of two is reached when the significand is rounded up to its full length.
    rw [if_neg (by split <;> omega)]
    exact ⟨_, _, rfl⟩

end Binary64

theorem exists_quotient_eq_ok {n : Int} {d : Nat} (h : n.natAbs.log2 ≤ d.log2 + 1022) :
    ∃ x, quotient n d = .ok x := by
  obtain ⟨m, e, hfinite⟩ := Binary64.exists_ofRatio_eq_finite (n < 0) h
  rw [quotient, hfinite]
  exact ⟨_, rfl⟩

/-- Capped at its maximum, a current value is no longer than the maximum, or it is overdrawn. -/
theorem log2_natAbs_min_le {n max : Int} (hmax : 0 < max) (h : (-n).toNat.log2 < 1023) :
    (min n max).natAbs.log2 ≤ max.toNat.log2 + 1022 := by
  by_cases hneg : n < 0
  · have hsize : (min n max).natAbs = (-n).toNat := by omega
    rw [hsize]
    omega
  by_cases hzero : min n max = 0
  · simp [hzero]
  have hne : (min n max).natAbs ≠ 0 := by omega
  have hpos : max.toNat ≠ 0 := by omega
  have hcapped : (min n max).natAbs ≤ max.toNat := by omega
  have hshort : (min n max).natAbs.log2 ≤ max.toNat.log2 :=
    (Nat.le_log2 hpos).2 (Nat.le_trans (Nat.log2_self_le hne) hcapped)
  omega

/-- A pool that is overdrawn by a number of at most 1023 bits, or not at all, has a bonus. -/
theorem exists_lowPoolBonus_eq_ok {p : Pool}
    (h : ∀ n, p.current = some n → (-n).toNat.log2 < 1023) :
    ∃ bonus, lowPoolBonus (some p) = .ok bonus := by
  unfold lowPoolBonus
  dsimp only
  split
  · exact ⟨0, rfl⟩
  · next n hn =>
    split
    · exact ⟨0, rfl⟩
    · next hmax =>
      obtain ⟨x, hx⟩ := exists_quotient_eq_ok (log2_natAbs_min_le (Int.not_le.1 hmax) (h n hn))
      rw [hx]
      exact ⟨_, rfl⟩

theorem quotient_self {n : Nat} (h : 0 < n) : quotient n n = .ok Binary64.one := by
  have hnonneg : ¬ (n : Int) < 0 := by omega
  simp only [quotient, hnonneg, decide_false, Int.natAbs_natCast, Binary64.ofRatio_self _ h]
  rfl

theorem bandBonus_one : bandBonus Binary64.one = 0 := by decide

theorem lowPoolBonus_full (max recovery : Int) :
    lowPoolBonus (some ⟨max, some max, recovery⟩) = .ok 0 := by
  unfold lowPoolBonus
  dsimp only
  split
  · rfl
  · next h =>
    have hmax : ((max.toNat : Nat) : Int) = max := by omega
    have hpos : 0 < max.toNat := by omega
    rw [Int.min_self, ← hmax, Int.toNat_natCast, quotient_self hpos]
    exact congrArg Except.ok bandBonus_one

theorem lowPoolBonus_clampPool (p : Pool) :
    lowPoolBonus (some (Overlay.clampPool p)) = lowPoolBonus (some p) := by
  obtain ⟨max, current, recovery⟩ := p
  cases current with
  | none => exact lowPoolBonus_full max recovery
  | some n =>
    have hmin : min (min n max) max = min n max := by omega
    simp only [Overlay.clampPool, lowPoolBonus, hmin]

namespace Track

/-- A track that is derived keeps its modifier, also when the quotient is too large. -/
@[simp] theorem modifier_update (t : Track) (total : Int) (pool : Option Pool) :
    (t.update total pool).1.modifier = t.modifier := by
  unfold update
  split <;> rfl

/-- Of the old track only the modifier matters to whether the new one can be derived and to what it
is; a track that cannot be derived keeps its old parts. -/
theorem update_congr {t u : Track} (total : Int) {p q : Option Pool}
    (hm : t.modifier = u.modifier) (hb : lowPoolBonus p = lowPoolBonus q) :
    (t.update total p).2 = (u.update total q).2 ∧
      ((t.update total p).2 = none → (t.update total p).1 = (u.update total q).1) := by
  unfold update
  rw [hb, hm]
  cases lowPoolBonus q with
  | error e => simp
  | ok bonus => simp

/-- A track can be derived if the pool has a quotient. -/
theorem failure_update_eq_none_iff {t : Track} {total : Int} {pool : Option Pool} :
    (t.update total pool).2 = none ↔ ∃ bonus, lowPoolBonus pool = .ok bonus := by
  unfold update
  cases lowPoolBonus pool <;> simp

end Track

end CharacterSheet
