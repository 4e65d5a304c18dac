import CharacterSheet.Number.Binary64
import Mathlib.Algebra.Group.Int.Defs
import Mathlib.Algebra.Group.Nat.Defs

/-!
# Rounded quotients

The exponent of a quotient is the largest power of two that the quotient reaches, and its
significand is rounded to a whole number up to the halfway point above it, which itself goes to the
even neighbour.
-/

namespace CharacterSheet.Binary64

/-! ## Whole powers of two -/

theorem wholePower_natCast (base k : Nat) : wholePower base k = base ^ k := rfl

theorem wholePower_of_nonpos {base : Nat} {k : Int} (h : k ≤ 0) : wholePower base k = 1 := by
  have hzero : k.toNat = 0 := by omega
  rw [wholePower, hzero, Nat.pow_eq, Nat.pow_zero]

theorem wholePower_neg_natCast (base k : Nat) : wholePower base (-(k : Int)) = 1 :=
  wholePower_of_nonpos (by omega)

theorem wholePower_pos (k : Int) : 0 < wholePower 2 k := Nat.pow_pos Nat.two_pos

theorem wholePower_add (m k : Nat) :
    wholePower 2 ((m + k : Nat) : Int) = wholePower 2 m * wholePower 2 k := Nat.pow_add 2 m k

theorem wholePower_le {j k : Int} (h : j ≤ k) : wholePower 2 j ≤ wholePower 2 k :=
  Nat.pow_le_pow_right Nat.two_pos (Int.toNat_le_toNat h)

/-- One step up, either the power doubles or its denominator halves. -/
theorem wholePower_succ (k : Int) :
    (wholePower 2 (k + 1) = 2 * wholePower 2 k ∧ wholePower 2 (-(k + 1)) = wholePower 2 (-k)) ∨
      (wholePower 2 (k + 1) = wholePower 2 k ∧
        wholePower 2 (-k) = 2 * wholePower 2 (-(k + 1))) := by
  by_cases h : 0 ≤ k
  · left
    have hup : (k + 1).toNat = k.toNat + 1 := by omega
    have hzero : (-(k + 1)).toNat = (-k).toNat := by omega
    unfold wholePower
    rw [hup, hzero]
    exact ⟨Nat.pow_succ', rfl⟩
  · right
    have hdown : (-k).toNat = (-(k + 1)).toNat + 1 := by omega
    have hzero : (k + 1).toNat = k.toNat := by omega
    unfold wholePower
    rw [hdown, hzero]
    exact ⟨rfl, Nat.pow_succ'⟩

/-- Whether a fraction reaches a power of two, in whole numbers whatever the sign of the
exponent. -/
theorem mul_wholePower_le_iff (num den : Nat) {k : Int} {shift : Nat} (h : -k ≤ shift) :
    den * wholePower 2 k ≤ num * wholePower 2 (-k) ↔
      den * 2 ^ (shift + k).toNat ≤ num * 2 ^ shift := by
  by_cases hk : 0 ≤ k
  · have hsum : (shift + k).toNat = k.toNat + shift := by omega
    have hone : wholePower 2 (-k) = 1 := wholePower_of_nonpos (by omega)
    have hpow : wholePower 2 k = 2 ^ k.toNat := rfl
    rw [hone, hpow, hsum, Nat.pow_add, Nat.mul_one, ← Nat.mul_assoc]
    exact (Nat.mul_le_mul_right_iff (Nat.two_pow_pos shift)).symm
  · have hsum : shift = (-k).toNat + (shift + k).toNat := by omega
    have hone : wholePower 2 k = 1 := wholePower_of_nonpos (by omega)
    have hpow : wholePower 2 (-k) = 2 ^ (-k).toNat := rfl
    have hsplit : num * 2 ^ shift = num * 2 ^ (-k).toNat * 2 ^ (shift + k).toNat := by
      rw [Nat.mul_assoc, ← Nat.pow_add, ← hsum]
    rw [hone, hpow, hsplit, Nat.mul_one]
    exact (Nat.mul_le_mul_right_iff (Nat.two_pow_pos _)).symm

/-! ## The exponent -/

variable {num den : Nat}

/-- The logarithm of a quotient is the largest power of two that the quotient reaches. -/
theorem le_ratioLog2_iff (hnum : num ≠ 0) (hden : den ≠ 0) (k : Int) :
    k ≤ ratioLog2 num den ↔ den * wholePower 2 k ≤ num * wholePower 2 (-k) := by
  have hnumLow : 2 ^ num.log2 ≤ num := Nat.log2_self_le hnum
  have hnumHigh : num < 2 ^ (num.log2 + 1) := Nat.lt_log2_self
  have hdenLow : 2 ^ den.log2 ≤ den := Nat.log2_self_le hden
  have hdenHigh : den < 2 ^ (den.log2 + 1) := Nat.lt_log2_self
  unfold ratioLog2
  dsimp only
  rcases Int.lt_trichotomy k ((num.log2 : Int) - den.log2) with hlt | rfl | hgt
  · -- Below the difference of the two lengths both sides are true.
    refine iff_of_true (by split <;> omega) ?_
    rw [mul_wholePower_le_iff num den (Int.self_le_toNat (-k))]
    have hpow : 2 ^ (den.log2 + 1) * 2 ^ (((-k).toNat : Int) + k).toNat ≤
        2 ^ num.log2 * 2 ^ (-k).toNat := by
      rw [← Nat.pow_add, ← Nat.pow_add]
      exact Nat.pow_le_pow_right Nat.two_pos (by omega)
    calc den * 2 ^ (((-k).toNat : Int) + k).toNat
      _ ≤ 2 ^ (den.log2 + 1) * 2 ^ (((-k).toNat : Int) + k).toNat :=
        Nat.mul_le_mul_right _ (Nat.le_of_lt hdenHigh)
      _ ≤ 2 ^ num.log2 * 2 ^ (-k).toNat := hpow
      _ ≤ num * 2 ^ (-k).toNat := Nat.mul_le_mul_right _ hnumLow
  · split <;> omega
  · refine iff_of_false (by split <;> omega) ?_
    rw [mul_wholePower_le_iff num den (Int.self_le_toNat (-k)), Nat.not_le]
    have hpow : 2 ^ (num.log2 + 1) * 2 ^ (-k).toNat ≤
        2 ^ den.log2 * 2 ^ (((-k).toNat : Int) + k).toNat := by
      rw [← Nat.pow_add, ← Nat.pow_add]
      exact Nat.pow_le_pow_right Nat.two_pos (by omega)
    calc num * 2 ^ (-k).toNat
      _ < 2 ^ (num.log2 + 1) * 2 ^ (-k).toNat :=
        Nat.mul_lt_mul_of_pos_right hnumHigh (Nat.two_pow_pos _)
      _ ≤ 2 ^ den.log2 * 2 ^ (((-k).toNat : Int) + k).toNat := hpow
      _ ≤ den * 2 ^ (((-k).toNat : Int) + k).toNat := Nat.mul_le_mul_right _ hdenLow

theorem natCast_le_ratioLog2_iff (hnum : num ≠ 0) (hden : den ≠ 0) (k : Nat) :
    (k : Int) ≤ ratioLog2 num den ↔ den * wholePower 2 k ≤ num := by
  rw [le_ratioLog2_iff hnum hden, wholePower_neg_natCast, Nat.mul_one]

theorem exists_ratioLog2_eq (hnum : num ≠ 0) (hle : num ≤ den) :
    ∃ l : Nat, ratioLog2 num den = -(l : Int) ∧ ∀ j, l ≤ j ↔ den ≤ num * 2 ^ j := by
  have hden : den ≠ 0 := by omega
  have hone := natCast_le_ratioLog2_iff hnum hden 1
  rw [wholePower_natCast] at hone
  refine ⟨(-ratioLog2 num den).toNat, by omega, fun j ↦ ?_⟩
  have hlog := le_ratioLog2_iff hnum hden (-j)
  rw [wholePower_neg_natCast, Int.neg_neg, Nat.mul_one, wholePower_natCast] at hlog
  omega

/-! ## The significand -/

/-- A quotient is rounded to a number or less up to the halfway point above it, and at that point
if the number is even. -/
theorem roundHalfEven_le_iff (hden : 0 < den) {a : Nat} : roundHalfEven num den ≤ a ↔
    if a % 2 = 0 then 2 * num ≤ den * (2 * a + 1) else 2 * num < den * (2 * a + 1) := by
  have hsplit := Nat.div_add_mod num den
  have hrest := Nat.mod_lt num hden
  have hodd : den * (2 * a + 1) = 2 * (den * a) + den := by
    rw [Nat.mul_add, Nat.mul_one, Nat.mul_left_comm]
  have hlow : num / den ≤ roundHalfEven num den := by
    unfold roundHalfEven
    grind
  have hhigh : roundHalfEven num den ≤ num / den + 1 := by
    unfold roundHalfEven
    grind
  rw [hodd]
  rcases Nat.lt_trichotomy (num / den) a with hlt | rfl | hgt
  · have hnext : den * (num / den) + den ≤ den * a := Nat.mul_le_mul_left den hlt
    refine iff_of_true (by omega) ?_
    split <;> omega
  · unfold roundHalfEven
    grind
  · have hnext : den * a + den ≤ den * (num / den) := Nat.mul_le_mul_left den hgt
    refine iff_of_false (by omega) ?_
    split <;> omega

/-- Below an even number, a quotient is rounded up to it from halfway on. -/
theorem roundHalfEven_eq_iff {n : Nat} (hden : 0 < den) (heven : n % 2 = 0) (hlt : num < den * n) :
    roundHalfEven num den = n ↔ den * (2 * n - 1) ≤ 2 * num := by
  have hpos : 0 < n := Nat.pos_of_mul_pos_left (Nat.zero_lt_of_lt hlt)
  have hle : roundHalfEven num den ≤ n := by
    rw [roundHalfEven_le_iff hden, if_pos heven, Nat.mul_add, Nat.mul_left_comm]
    omega
  have hbelow : roundHalfEven num den ≤ n - 1 ↔ _ := roundHalfEven_le_iff hden
  have hhalf : 2 * (n - 1) + 1 = 2 * n - 1 := by omega
  rw [if_neg (by omega), hhalf] at hbelow
  omega

theorem roundHalfEven_le (hden : 0 < den) {a : Nat} (h : num ≤ den * a) :
    roundHalfEven num den ≤ a := by
  rw [roundHalfEven_le_iff hden, Nat.mul_add, Nat.mul_left_comm]
  split <;> omega

theorem le_roundHalfEven (hden : 0 < den) {a : Nat} (h : den * a ≤ num) :
    a ≤ roundHalfEven num den := by
  have hquot : a ≤ num / den := (Nat.le_div_iff_mul_le hden).2 (Nat.mul_comm den a ▸ h)
  unfold roundHalfEven
  grind

/-! ## The double -/

theorem ofRatio_cases (negative : Bool) (num den : Nat) :
    (∃ m e, ofRatio negative num den = finite negative m e) ∨
      ofRatio negative num den = infinite negative := by
  have hif {c : Prop} [Decidable c] (m : Nat) (e : Int) :
      (∃ m' e', (if c then infinite negative else finite negative m e) = finite negative m' e') ∨
        (if c then infinite negative else finite negative m e) = infinite negative := by
    split
    · exact .inr rfl
    · exact .inl ⟨m, e, rfl⟩
  unfold ofRatio
  split
  · exact .inl ⟨0, -1074, rfl⟩
  · exact hif _ _

/-! ## Comparison with a power of two -/

/-- Whether a finite double that is not negative is at most `1 / 2 ^ k`. -/
theorem leRatio_finite_iff {m k : Nat} {e : Int} : (finite false m e).leRatio 1 (2 ^ k) = true ↔
    m * wholePower 2 (e + k) ≤ wholePower 2 (-(e + k)) := by
  have hscale : (((-e).toNat : Int) + (e + k)).toNat = k + (((-e).toNat : Int) + e).toNat := by
    omega
  have hshift : -(e + k) ≤ ((-e).toNat : Int) := by omega
  have hsum := mul_wholePower_le_iff 1 m hshift
  have hproduct := mul_wholePower_le_iff 1 (m * 2 ^ k) (Int.self_le_toNat (-e))
  rw [hscale, Nat.pow_add, ← Nat.mul_assoc, ← hproduct, Nat.one_mul] at hsum
  rw [hsum, Nat.mul_right_comm]
  unfold leRatio
  by_cases hm : m = 0 <;> simp [hm]

theorem leRatio_carried {k : Nat} {e : Int} :
    (finite false leastFull (e + 1)).leRatio 1 (2 ^ k) =
      (finite false (2 * leastFull) e).leRatio 1 (2 ^ k) := by
  have hnext : e + 1 + k = e + k + 1 := by omega
  rw [Bool.eq_iff_iff, leRatio_finite_iff, leRatio_finite_iff, hnext, Nat.mul_assoc]
  rcases wholePower_succ (e + k) with ⟨hup, hdown⟩ | ⟨hup, hdown⟩
  · rw [hup, hdown, Nat.mul_left_comm]
  · rw [hup, hdown]
    omega

/-- A quotient whose exponent is in range is compared as its rounded significand is, whether or not
that is carried. -/
theorem leRatio_ofRatio_eq (hnum : num ≠ 0) {k s : Nat} (hs : ratioExponent num den = -(s : Int)) :
    (ofRatio false num den).leRatio 1 (2 ^ k) =
      (finite false (roundHalfEven (num * 2 ^ s) den) (-s)).leRatio 1 (2 ^ k) := by
  have hup : wholePower 2 (-(-(s : Int))) = 2 ^ s := by rw [Int.neg_neg, wholePower_natCast]
  rw [ofRatio, if_neg hnum, hs]
  dsimp only
  rw [hup, wholePower_neg_natCast, Nat.mul_one, if_neg (by split <;> omega)]
  split
  · next hcarried => rw [leRatio_carried, hcarried]
  · rfl

/-- A quotient of at most one is rounded to `1 / 2 ^ k` or less up to the halfway point above
that. -/
theorem leRatio_ofRatio_iff (hnum : num ≠ 0) (hle : num ≤ den) {k : Nat} (hk : k ≤ 1000) :
    (ofRatio false num den).leRatio 1 (2 ^ k) = true ↔
      num * 2 ^ (53 + k) ≤ den * (2 ^ 53 + 1) := by
  have hden : 0 < den := by omega
  obtain ⟨l, hl, hreach⟩ := exists_ratioLog2_eq hnum hle
  obtain ⟨s, hs⟩ : ∃ s : Nat, ratioExponent num den = -(s : Int) ∧ s = min (l + 52) 1074 :=
    ⟨min (l + 52) 1074, by unfold ratioExponent; omega, rfl⟩
  have hsplit (j : Nat) : num * 2 ^ (j + k) = num * 2 ^ k * 2 ^ j := by
    rw [Nat.add_comm, Nat.pow_add, Nat.mul_assoc]
  rw [leRatio_ofRatio_eq hnum hs.1, leRatio_finite_iff, hsplit 53]
  by_cases hlow : k ≤ l
  · -- The significand is compared with a power of two, to which ties are rounded.
    obtain ⟨j, hj⟩ := Nat.exists_eq_add_of_le' (show k ≤ s by omega)
    have hdiff : -(s : Int) + k = -(j : Int) := by omega
    rw [hdiff, wholePower_neg_natCast, Int.neg_neg, wholePower_natCast, Nat.mul_one, hj, hsplit j]
    by_cases heq : k = l
    · have hj52 : j = 52 := by omega
      rw [hj52, roundHalfEven_le_iff hden, if_pos (by decide)]
      omega
    · have hless : num * 2 ^ k < den := by
        have hfar := mt (hreach k).2 (by omega)
        omega
      exact iff_of_true (roundHalfEven_le hden (Nat.mul_le_mul_right _ (Nat.le_of_lt hless)))
        (by omega)
  · -- The quotient is at least twice as large, and its significand has full length.
    have hsignificand : 2 ^ 52 ≤ roundHalfEven (num * 2 ^ s) den := by
      have hl52 : s = l + 52 := by omega
      rw [hl52, Nat.pow_add, ← Nat.mul_assoc]
      exact le_roundHalfEven hden (Nat.mul_le_mul_right _ ((hreach l).1 (Nat.le_refl l)))
    have hunit : wholePower 2 (-(-(s : Int) + k)) ≤ 2 ^ 51 :=
      wholePower_le (k := 51) (by omega)
    have hscaled : roundHalfEven (num * 2 ^ s) den ≤
        roundHalfEven (num * 2 ^ s) den * wholePower 2 (-(s : Int) + k) :=
      Nat.le_mul_of_pos_right _ (wholePower_pos _)
    have hdouble : 2 * den ≤ num * 2 ^ k := by
      obtain ⟨j, rfl⟩ := Nat.exists_eq_add_of_le' (show 1 ≤ k by omega)
      have hhalf := (hreach j).1 (by omega)
      rw [Nat.pow_succ, ← Nat.mul_assoc]
      omega
    exact iff_of_false (by omega) (by omega)

end CharacterSheet.Binary64
