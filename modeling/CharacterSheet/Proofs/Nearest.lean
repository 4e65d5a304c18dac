import CharacterSheet.Proofs.Rounding
import Mathlib.Algebra.Order.Field.Power
import Mathlib.Data.Rat.Cast.Order
import Mathlib.Tactic.FieldSimp
import Mathlib.Tactic.Linarith
import Mathlib.Tactic.Positivity
import Mathlib.Tactic.Ring

/-!
# Nearest doubles

A double stands for a rational number.  The double of a quotient is the nearest one that there is,
and of two that are equally near it is the one with the even significand.
-/

namespace CharacterSheet.Binary64

/-! ## Values -/

/-- A number with a sign. -/
def signed (negative : Bool) (q : ℚ) : ℚ := if negative then -q else q

/-- The rational number that a finite double stands for. -/
def toRat : Binary64 → ℚ
  | finite negative m e => signed negative (m * 2 ^ e)
  | _ => 0

/-- The doubles that there are: a significand of 53 bits at most, which takes all of them unless the
exponent is the least one. -/
def Proper : Binary64 → Prop
  | finite _ m e => m < 2 * leastFull ∧ -1074 ≤ e ∧ e ≤ 971 ∧ (leastFull ≤ m ∨ e = -1074)
  | _ => False

def significand : Binary64 → Nat
  | finite _ m _ => m
  | _ => 0

/-- Of all doubles none is nearer to a number, and another that is as near leaves it the even
significand. -/
structure Nearest (x : Binary64) (q : ℚ) : Prop where
  proper : x.Proper
  le : ∀ y : Binary64, y.Proper → |x.toRat - q| ≤ |y.toRat - q|
  even : ∀ y : Binary64, y.Proper → |y.toRat - q| = |x.toRat - q| → y.toRat ≠ x.toRat →
    x.significand % 2 = 0

theorem wholePower_div (k : ℤ) : (wholePower 2 k : ℚ) / wholePower 2 (-k) = 2 ^ k := by
  rcases Int.le_total 0 k with hk | hk
  · obtain ⟨n, rfl⟩ := Int.eq_ofNat_of_zero_le hk
    rw [wholePower_neg_natCast, wholePower_natCast, zpow_natCast]
    push_cast
    exact div_one _
  · obtain ⟨n, hn⟩ := Int.eq_ofNat_of_zero_le (Int.neg_nonneg_of_nonpos hk)
    obtain rfl : k = -(n : ℤ) := by omega
    rw [wholePower_neg_natCast, Int.neg_neg, wholePower_natCast, zpow_neg, zpow_natCast]
    push_cast
    exact one_div _

@[simp] theorem signed_false (q : ℚ) : signed false q = q := rfl

@[simp] theorem signed_true (q : ℚ) : signed true q = -q := rfl

theorem abs_signed_sub (s : Bool) (a b : ℚ) : |signed s a - signed s b| = |a - b| := by
  cases s
  · rfl
  · rw [signed_true, signed_true, neg_sub_neg, abs_sub_comm]

theorem abs_signed_sub_of_ne {s t : Bool} (h : s ≠ t) {a b : ℚ} (ha : 0 ≤ a) (hb : 0 ≤ b) :
    |signed s a - signed t b| = a + b := by
  obtain rfl : t = !s := by
    cases s <;> cases t <;> simp_all
  cases s
  · rw [Bool.not_false, signed_false, signed_true, sub_neg_eq_add, abs_of_nonneg (by linarith)]
  · rw [Bool.not_true, signed_false, signed_true, abs_of_nonpos (by linarith)]
    ring

/-- Signs only bring two numbers further apart. -/
theorem abs_sub_le_abs_signed_sub {a b : ℚ} (ha : 0 ≤ a) (hb : 0 < b) (s t : Bool) :
    |a - b| ≤ |signed s a - signed t b| ∧
      (|signed s a - signed t b| = |a - b| → signed s a = signed t a) := by
  by_cases h : s = t
  · obtain rfl := h
    exact ⟨(abs_signed_sub s a b).ge, fun _ ↦ rfl⟩
  rw [abs_signed_sub_of_ne h ha hb.le]
  refine ⟨abs_sub_le_iff.2 ⟨by linarith, by linarith⟩, fun heq ↦ ?_⟩
  have hzero : a = 0 := by
    rcases abs_choice (a - b) with habs | habs <;> linarith
  cases s <;> cases t <;> simp [hzero]

/-! ## Nearest whole numbers -/

variable {num den : Nat}

/-- A quotient is rounded by half a unit at most, and by that much only to an even number. -/
theorem exists_roundHalfEven_mul_eq (num : Nat) (hden : 0 < den) : ∃ d : ℤ,
    (roundHalfEven num den : ℤ) * den = num + d ∧ 2 * |d| ≤ den ∧
      (2 * |d| = den → roundHalfEven num den % 2 = 0) := by
  have hsplit : (num : ℤ) = (num / den : ℕ) * den + (num % den : ℕ) := by
    exact_mod_cast (Nat.div_add_mod' num den).symm
  have hrest : num % den < den := Nat.mod_lt num hden
  have hdown : |(-(num % den : ℕ) : ℤ)| = (num % den : ℕ) := by
    rw [abs_neg, Nat.abs_cast]
  have hup : |((den : ℤ) - (num % den : ℕ))| = den - (num % den : ℕ) :=
    abs_of_nonneg (by omega)
  unfold roundHalfEven
  dsimp only
  split_ifs with hbelow habove heven
  · refine ⟨-(num % den : ℕ), by omega, by omega, by omega⟩
  · refine ⟨den - (num % den : ℕ), ?_, by omega, by omega⟩
    rw [Nat.cast_add, Nat.cast_one, add_one_mul]
    omega
  · exact ⟨-(num % den : ℕ), by omega, by omega, fun _ ↦ heven⟩
  · refine ⟨den - (num % den : ℕ), ?_, by omega, by omega⟩
    rw [Nat.cast_add, Nat.cast_one, add_one_mul]
    omega

/-- No whole number is nearer to a quotient than the rounded one. -/
theorem abs_roundHalfEven_sub_le (num : Nat) (hden : 0 < den) (k : ℤ) :
    |(roundHalfEven num den : ℚ) - num / den| ≤ |(k : ℚ) - num / den| ∧
      (|(k : ℚ) - num / den| = |(roundHalfEven num den : ℚ) - num / den| →
        k ≠ roundHalfEven num den → roundHalfEven num den % 2 = 0) := by
  obtain ⟨d, hd, hhalf, htie⟩ := exists_roundHalfEven_mul_eq num hden
  have hpos : (0 : ℚ) < den := by exact_mod_cast hden
  have hnear : (roundHalfEven num den : ℚ) - num / den = d / den := by
    have hd' : (roundHalfEven num den : ℚ) * den = num + d := by exact_mod_cast hd
    field_simp
    linarith
  have hscaled (z : ℤ) : |(z : ℚ) / den| = (|z| : ℤ) / den := by
    rw [abs_div, abs_of_pos hpos, Int.cast_abs]
  have hfar : (k : ℚ) - num / den = ((k - roundHalfEven num den) * den + d : ℤ) / den := by
    have hsplit : (k : ℚ) - num / den =
        k - roundHalfEven num den + ((roundHalfEven num den : ℚ) - num / den) := by ring
    rw [hsplit, hnear]
    push_cast
    field_simp
  rw [hnear, hfar, hscaled, hscaled]
  -- Another whole number is off by a whole unit less the error of the rounded one.
  have hother (hne : k ≠ roundHalfEven num den) :
      (den : ℤ) ≤ |(k - roundHalfEven num den) * den + d| + |d| := by
    have hone : 1 ≤ |k - roundHalfEven num den| := Int.one_le_abs (sub_ne_zero.2 hne)
    calc (den : ℤ)
      _ ≤ |k - roundHalfEven num den| * den := le_mul_of_one_le_left (by omega) hone
      _ = |(k - roundHalfEven num den) * den| := by rw [abs_mul, Nat.abs_cast]
      _ = |(k - roundHalfEven num den) * den + d - d| := by rw [add_sub_cancel_right]
      _ ≤ |(k - roundHalfEven num den) * den + d| + |d| := abs_sub _ _
  constructor
  · rw [div_le_div_iff_of_pos_right hpos, Int.cast_le]
    by_cases hk : k = roundHalfEven num den
    · simp [hk]
    · have hfull := hother hk
      omega
  · intro heq hne
    have hfull := hother hne
    rw [div_left_inj' (ne_of_gt hpos), Int.cast_inj] at heq
    exact htie (by omega)

/-! ## Nearest doubles -/

/-- The number of units in the last place of which a quotient is made up. -/
theorem ratio_eq_mul (num den : Nat) (e : ℤ) : (num : ℚ) / den =
    ((num * wholePower 2 (-e) : ℕ) : ℚ) / ((den * wholePower 2 e : ℕ) : ℚ) * 2 ^ e := by
  have hup : (wholePower 2 e : ℚ) ≠ 0 := by exact_mod_cast (wholePower_pos e).ne'
  have hdown : (wholePower 2 (-e) : ℚ) ≠ 0 := by exact_mod_cast (wholePower_pos (-e)).ne'
  rw [← wholePower_div]
  push_cast
  field_simp

theorem le_ratioLog2_iff_zpow_le (hnum : num ≠ 0) (hden : den ≠ 0) (k : ℤ) :
    k ≤ ratioLog2 num den ↔ (2 : ℚ) ^ k ≤ num / den := by
  have hpos : (0 : ℚ) < den := by exact_mod_cast Nat.pos_of_ne_zero hden
  have hdown : (0 : ℚ) < wholePower 2 (-k) := by exact_mod_cast wholePower_pos (-k)
  rw [le_ratioLog2_iff hnum hden, ← wholePower_div, div_le_div_iff₀ hdown hpos,
    mul_comm (wholePower 2 k : ℚ)]
  exact_mod_cast Iff.rfl

/-- Counted in units in the last place, a quotient reaches a power of two as it does itself. -/
theorem two_pow_le_units_iff (hnum : num ≠ 0) (hden : den ≠ 0) (e : ℤ) (j : ℕ) :
    den * wholePower 2 e * 2 ^ j ≤ num * wholePower 2 (-e) ↔ j + e ≤ ratioLog2 num den := by
  have hunit : (0 : ℚ) < (den * wholePower 2 e : ℕ) := by
    exact_mod_cast Nat.mul_pos (Nat.pos_of_ne_zero hden) (wholePower_pos e)
  have hpow : (0 : ℚ) < 2 ^ e := by positivity
  rw [le_ratioLog2_iff_zpow_le hnum hden, ratio_eq_mul num den e, zpow_add₀ two_ne_zero,
    mul_le_mul_iff_left₀ hpow, le_div_iff₀ hunit, zpow_natCast, mul_comm (2 ^ j : ℚ)]
  exact_mod_cast Iff.rfl

/-- The significand of a quotient has 53 bits at most, or is rounded up to the next power of two,
and it has all of them unless the exponent is the least one. -/
theorem significand_bounds (hnum : num ≠ 0) (hden : den ≠ 0) {e : ℤ}
    (he : ratioExponent num den = e) :
    roundHalfEven (num * wholePower 2 (-e)) (den * wholePower 2 e) ≤ 2 * leastFull ∧
      (leastFull ≤ roundHalfEven (num * wholePower 2 (-e)) (den * wholePower 2 e) ∨
        e = -1074) := by
  have hunit : 0 < den * wholePower 2 e :=
    Nat.mul_pos (Nat.pos_of_ne_zero hden) (wholePower_pos e)
  have hfull := two_pow_le_units_iff hnum hden e 52
  have hover := two_pow_le_units_iff hnum hden e 53
  unfold ratioExponent at he
  refine ⟨roundHalfEven_le hunit (Nat.le_of_lt (Nat.lt_of_not_le (mt hover.1 (by omega)))), ?_⟩
  by_cases hleast : e = -1074
  · exact .inr hleast
  · exact .inl (le_roundHalfEven hunit (hfull.2 (by omega)))

/-- A finite quotient is its rounded number of units, and there is such a double. -/
theorem ofRatio_eq_finite (hnum : num ≠ 0) (hden : den ≠ 0) {negative negative' : Bool} {m : ℕ}
    {e : ℤ} (h : ofRatio negative num den = finite negative' m e) :
    negative' = negative ∧ (finite negative m e).Proper ∧
      (m : ℚ) * 2 ^ e = (roundHalfEven (num * wholePower 2 (-ratioExponent num den))
        (den * wholePower 2 (ratioExponent num den)) : ℚ) * 2 ^ ratioExponent num den ∧
      (roundHalfEven (num * wholePower 2 (-ratioExponent num den))
        (den * wholePower 2 (ratioExponent num den)) % 2 = 0 → m % 2 = 0) := by
  obtain ⟨hbound, hfull⟩ := significand_bounds hnum hden rfl
  have hleast : -1074 ≤ ratioExponent num den := le_max_right _ _
  have hsize : 0 < leastFull := by decide
  rw [ofRatio, if_neg hnum] at h
  dsimp only at h
  generalize hr : roundHalfEven _ _ = r at *
  generalize ratioExponent num den = e₀ at *
  by_cases hcarried : r = 2 * leastFull
  · rw [if_pos hcarried, if_pos hcarried] at h
    split_ifs at h with hrange
    cases h
    refine ⟨rfl, ⟨by omega, by omega, by omega, .inl le_rfl⟩, ?_, fun _ ↦ by decide⟩
    rw [hcarried, zpow_add₀ two_ne_zero]
    push_cast
    ring
  · rw [if_neg hcarried, if_neg hcarried] at h
    split_ifs at h with hrange
    cases h
    exact ⟨rfl, ⟨by omega, by omega, by omega, hfull⟩, rfl, fun heven ↦ heven⟩

/-- No double is nearer to a quotient than its rounded number of units. -/
theorem abs_units_sub_le (hnum : num ≠ 0) (hden : den ≠ 0) {e : ℤ}
    (he : ratioExponent num den = e) {r : ℕ}
    (hr : roundHalfEven (num * wholePower 2 (-e)) (den * wholePower 2 e) = r) {m : ℕ} {k : ℤ}
    (hm : m < 2 * leastFull) (hk : -1074 ≤ k) :
    |(r : ℚ) * 2 ^ e - num / den| ≤ |(m : ℚ) * 2 ^ k - num / den| ∧
      (|(m : ℚ) * 2 ^ k - num / den| = |(r : ℚ) * 2 ^ e - num / den| →
        (m : ℚ) * 2 ^ k ≠ r * 2 ^ e → r % 2 = 0) := by
  have hunit : 0 < den * wholePower 2 e :=
    Nat.mul_pos (Nat.pos_of_ne_zero hden) (wholePower_pos e)
  have hpow : (0 : ℚ) < 2 ^ e := by positivity
  have hquotient := ratio_eq_mul num den e
  have hscaled (z : ℚ) : |z * 2 ^ e - num / den| =
      |z - (num * wholePower 2 (-e) : ℕ) / (den * wholePower 2 e : ℕ)| * 2 ^ e := by
    rw [hquotient, ← sub_mul, abs_mul, abs_of_pos hpow]
  by_cases hek : e ≤ k
  · -- A double of at least this exponent is a whole number of units.
    obtain ⟨j, hj⟩ := Int.eq_ofNat_of_zero_le (sub_nonneg.2 hek)
    have hwhole : (m : ℚ) * 2 ^ k = ((m * 2 ^ j : ℕ) : ℤ) * 2 ^ e := by
      have hsum : k = j + e := by omega
      rw [hsum, zpow_add₀ two_ne_zero, zpow_natCast]
      push_cast
      ring
    obtain ⟨hle, heven⟩ := abs_roundHalfEven_sub_le (num * wholePower 2 (-e)) hunit
      ((m * 2 ^ j : ℕ) : ℤ)
    rw [hr] at hle heven
    rw [hwhole, hscaled, hscaled, mul_le_mul_iff_left₀ hpow, mul_left_inj' hpow.ne']
    refine ⟨hle, fun heq hne ↦ heven heq fun hsame ↦ hne ?_⟩
    rw [hsame]
    rfl
  · -- A double of a lesser exponent is less than a full significand, which is not nearer.
    have hlog : 52 + e ≤ ratioLog2 num den := by
      unfold ratioExponent at he
      omega
    have hreach : (2 : ℚ) ^ (52 + e) ≤ num / den := (le_ratioLog2_iff_zpow_le hnum hden _).1 hlog
    have hbelow : (m : ℚ) * 2 ^ k < 2 ^ (52 + e) := by
      have hm' : (m : ℚ) < 2 ^ 53 := by exact_mod_cast hm
      have hk' : (2 : ℚ) ^ k ≤ 2 ^ (e - 1) := zpow_le_zpow_right₀ one_le_two (by omega)
      calc (m : ℚ) * 2 ^ k
        _ ≤ m * 2 ^ (e - 1) := mul_le_mul_of_nonneg_left hk' (Nat.cast_nonneg m)
        _ < 2 ^ 53 * 2 ^ (e - 1) := mul_lt_mul_of_pos_right hm' (by positivity)
        _ = 2 ^ (52 + e) := by
          rw [← zpow_natCast, ← zpow_add₀ two_ne_zero]
          congr 1
          push_cast
          ring
    obtain ⟨hle, -⟩ := abs_roundHalfEven_sub_le (num * wholePower 2 (-e)) hunit (2 ^ 52)
    rw [hr] at hle
    have hnearer : |(r : ℚ) * 2 ^ e - num / den| ≤ num / den - 2 ^ (52 + e) := by
      rw [hscaled]
      calc _
        _ ≤ _ := mul_le_mul_of_nonneg_right hle hpow.le
        _ = |2 ^ (52 + e) - (num : ℚ) / den| := by
          rw [← hscaled, zpow_add₀ two_ne_zero]
          push_cast
          rfl
        _ = num / den - 2 ^ (52 + e) := by rw [abs_sub_comm, abs_of_nonneg (by linarith)]
    have hfar : |(m : ℚ) * 2 ^ k - num / den| = num / den - m * 2 ^ k := by
      rw [abs_sub_comm, abs_of_nonneg (by linarith)]
    rw [hfar]
    exact ⟨by linarith, fun heq _ ↦ by linarith⟩

/-- The double of a quotient is the nearest one, a tie going to the even significand. -/
theorem nearest_ofRatio (hden : den ≠ 0) {negative negative' : Bool} {m : ℕ} {e : ℤ}
    (h : ofRatio negative num den = finite negative' m e) :
    (finite negative' m e).Nearest (signed negative (num / den)) := by
  by_cases hnum : num = 0
  · rw [ofRatio, if_pos hnum] at h
    cases h
    have hzero : (finite negative 0 (-1074)).toRat - signed negative ((num : ℚ) / den) = 0 := by
      cases negative <;> simp [hnum, toRat]
    refine ⟨⟨by decide, by decide, by decide, .inr rfl⟩, fun y _ ↦ ?_, fun _ _ _ _ ↦ rfl⟩
    rw [hzero, abs_zero]
    exact abs_nonneg _
  obtain ⟨rfl, hproper, hvalue, heven⟩ := ofRatio_eq_finite hnum hden h
  have hpos : (0 : ℚ) < num / den := by positivity
  have hself : |(finite negative' m e).toRat - signed negative' ((num : ℚ) / den)| =
      |(m : ℚ) * 2 ^ e - num / den| := abs_signed_sub ..
  -- A double with another sign is as far away as the one with its sign changed, or further.
  have hother : ∀ y : Binary64, y.Proper →
      |(m : ℚ) * 2 ^ e - num / den| ≤ |y.toRat - signed negative' (num / den)| ∧
        (|y.toRat - signed negative' (num / den)| = |(m : ℚ) * 2 ^ e - num / den| →
          y.toRat ≠ signed negative' (m * 2 ^ e) → m % 2 = 0) := by
    intro y hy
    obtain ⟨s, m', k⟩ | s | - := y
    · have hsigned := abs_sub_le_abs_signed_sub (a := (m' : ℚ) * 2 ^ k) (by positivity) hpos s
        negative'
      have hnear := abs_units_sub_le hnum hden rfl rfl hy.1 hy.2.1
      rw [← hvalue] at hnear
      refine ⟨hnear.1.trans hsigned.1, fun heq hne ↦ heven (hnear.2 ?_ fun hsame ↦ hne ?_)⟩
      · exact le_antisymm (hsigned.1.trans heq.le) hnear.1
      · rw [hsame] at hsigned
        rw [toRat, hsame] at heq ⊢
        exact hsigned.2 heq
    · cases hy
    · cases hy
  refine ⟨hproper, fun y hy ↦ ?_, fun y hy heq hne ↦ ?_⟩
  · rw [hself]
    exact (hother y hy).1
  · rw [hself] at heq
    exact (hother y hy).2 heq hne

end CharacterSheet.Binary64
