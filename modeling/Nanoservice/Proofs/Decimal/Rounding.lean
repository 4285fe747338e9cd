import Mathlib.Algebra.Order.Field.Power
import Mathlib.Data.Int.Log
import Mathlib.Data.Rat.Floor
import Mathlib.Tactic.FieldSimp
import Mathlib.Tactic.Linarith
import Mathlib.Tactic.Positivity
import Nanoservice.Decimal.Double

/-!
# Rounding to binary64

The rank of a fraction depends on its value only (`rankOfFraction_mul_right`), since the exponent
that rounding starts from is the binary logarithm of the value (`binaryExponent_eq_log`), and the
magnitude of a finite rank rounds to the rank itself (`rankOfFraction_fraction`).
-/

namespace Nanoservice.Decimal.Double

/-! ## The binary exponent -/

/-- A power of two is at most a fraction, in natural numbers. -/
theorem zpow_le_div_iff {num den : Nat} (hden : 0 < den) (e : Int) :
    (2 : ℚ) ^ e ≤ num / den ↔
      if 0 ≤ e then den * Nat.pow 2 e.toNat ≤ num else den ≤ num * Nat.pow 2 (-e).toNat := by
  have hpos : (0 : ℚ) < den := by exact_mod_cast hden
  rw [le_div_iff₀ hpos]
  split
  · next he =>
    obtain ⟨k, rfl⟩ := Int.eq_ofNat_of_zero_le he
    rw [zpow_natCast, Int.toNat_natCast, mul_comm]
    exact_mod_cast Iff.rfl
  · next he =>
    obtain ⟨k, rfl⟩ : ∃ k : Nat, e = -k := ⟨(-e).toNat, by omega⟩
    rw [zpow_neg, zpow_natCast, neg_neg, Int.toNat_natCast, inv_mul_le_iff₀ (by positivity),
      mul_comm]
    exact_mod_cast Iff.rfl

/-- A positive number lies between the powers of two of its logarithm. -/
theorem log2_bounds {n : Nat} (h : 0 < n) :
    (2 : ℚ) ^ (n.log2 : Int) ≤ n ∧ (n : ℚ) < 2 ^ ((n.log2 : Int) + 1) := by
  constructor
  · rw [zpow_natCast]
    exact_mod_cast Nat.log2_self_le h.ne'
  · rw [show ((n.log2 : Int) + 1) = ((n.log2 + 1 : Nat) : Int) by simp, zpow_natCast]
    exact_mod_cast Nat.lt_log2_self

/-- The exponent that rounding starts from is the logarithm of the value. -/
theorem binaryExponent_eq_log {num den : Nat} (hnum : 0 < num) (hden : 0 < den) :
    binaryExponent num den = Int.log 2 ((num : ℚ) / den) := by
  have hq : (0 : ℚ) < num / den := by positivity
  obtain ⟨hnlow, hnhigh⟩ := log2_bounds hnum
  obtain ⟨hdlow, hdhigh⟩ := log2_bounds hden
  have hnum' : (0 : ℚ) < num := by exact_mod_cast hnum
  have hden' : (0 : ℚ) < den := by exact_mod_cast hden
  set e : Int := (Nat.log2 num : Int) - Nat.log2 den with he
  have hhigh : Int.log 2 ((num : ℚ) / den) < e + 1 := by
    rw [← Int.lt_zpow_iff_log_lt (by decide) hq, div_lt_iff₀ hden']
    calc (num : ℚ) < 2 ^ ((num.log2 : Int) + 1) := hnhigh
      _ = 2 ^ (e + 1) * 2 ^ (den.log2 : Int) := by rw [← zpow_add₀ (by norm_num)]; congr 1; omega
      _ ≤ (2 : Nat) ^ (e + 1) * den := by push_cast; gcongr
  have hlow : e - 1 ≤ Int.log 2 ((num : ℚ) / den) := by
    rw [← Int.zpow_le_iff_le_log (by decide) hq, le_div_iff₀ hden']
    calc ((2 : Nat) : ℚ) ^ (e - 1) * den ≤ 2 ^ (e - 1) * 2 ^ ((den.log2 : Int) + 1) := by
          push_cast; gcongr
      _ = 2 ^ (num.log2 : Int) := by rw [← zpow_add₀ (by norm_num)]; congr 1; omega
      _ ≤ num := hnlow
  have hreached : 2 ^ e ≤ (num : ℚ) / den ↔ _ := zpow_le_div_iff hden e
  have hlog := Int.zpow_le_iff_le_log (b := 2) (by decide) hq (x := e)
  push_cast at hlog
  unfold binaryExponent
  simp only [← he, ← hreached, hlog]
  split <;> omega

/-- The exponent depends on the value of a fraction only. -/
theorem binaryExponent_mul_right {num den c : Nat} (hnum : 0 < num) (hden : 0 < den)
    (hc : 0 < c) : binaryExponent (num * c) (den * c) = binaryExponent num den := by
  have hc' : (c : ℚ) ≠ 0 := by exact_mod_cast hc.ne'
  rw [binaryExponent_eq_log (Nat.mul_pos hnum hc) (Nat.mul_pos hden hc),
    binaryExponent_eq_log hnum hden]
  push_cast
  rw [mul_div_mul_right _ _ hc']

/-- The exponent of a number times a power of two. -/
theorem binaryExponent_of_eq {num den m : Nat} {k : Int} (hm : 0 < m) (hnum : 0 < num)
    (hden : 0 < den) (h : (num : ℚ) / den = m * 2 ^ k) :
    binaryExponent num den = m.log2 + k := by
  have hq : (0 : ℚ) < m * 2 ^ k := by positivity
  obtain ⟨hlow, hhigh⟩ := log2_bounds hm
  rw [binaryExponent_eq_log hnum hden, h]
  apply le_antisymm
  · rw [← Int.lt_add_one_iff, ← Int.lt_zpow_iff_log_lt (by decide) hq]
    calc (m : ℚ) * 2 ^ k < 2 ^ ((m.log2 : Int) + 1) * 2 ^ k := by gcongr
      _ = ((2 : Nat) : ℚ) ^ ((m.log2 : Int) + k + 1) := by
        push_cast; rw [← zpow_add₀ (by norm_num)]; congr 1; omega
  · rw [← Int.zpow_le_iff_le_log (by decide) hq]
    calc ((2 : Nat) : ℚ) ^ ((m.log2 : Int) + k) = 2 ^ (m.log2 : Int) * 2 ^ k := by
          push_cast; rw [← zpow_add₀ (by norm_num)]
      _ ≤ m * 2 ^ k := by gcongr

/-! ## The rank of a fraction -/

/-- Rounding to a natural number depends on the value of a fraction only. -/
theorem nearest_mul_right {num den c : Nat} (hc : 0 < c) :
    nearest (num * c) (den * c) = nearest num den := by
  simp only [nearest, Nat.mul_div_mul_right _ _ hc, Nat.mul_mod_mul_right, ← Nat.mul_assoc,
    Nat.mul_lt_mul_right hc]

/-- A whole number rounds to itself. -/
theorem nearest_mul_self {n den : Nat} (hden : 0 < den) : nearest (n * den) den = n := by
  simp [nearest, hden]

/-- The rank depends on the value of a fraction only. -/
theorem rankOfFraction_mul_right {num den c : Nat} (hden : 0 < den) (hc : 0 < c) :
    rankOfFraction (num * c) (den * c) = rankOfFraction num den := by
  by_cases hnum : num = 0
  · simp [rankOfFraction, hnum]
  have hpos : 0 < num := Nat.pos_of_ne_zero hnum
  simp only [rankOfFraction, hnum, Nat.mul_ne_zero hnum hc.ne', if_false,
    binaryExponent_mul_right hpos hden hc]
  rw [Nat.mul_right_comm den, Nat.mul_right_comm num, nearest_mul_right hc, nearest_mul_right hc]

/-- Fractions of one value have one rank. -/
theorem rankOfFraction_eq {a b c d : Nat} (hb : 0 < b) (hd : 0 < d) (h : a * d = c * b) :
    rankOfFraction a b = rankOfFraction c d := by
  rw [← rankOfFraction_mul_right hb hd, h, Nat.mul_comm b d, rankOfFraction_mul_right hd hb]

/-! ## Magnitudes round to themselves -/

/-- A number times a power of two, as a fraction of natural numbers. -/
def scaled (m : Nat) (k : Int) : Nat × Nat :=
  if 0 ≤ k then (m * Nat.pow 2 k.toNat, 1) else (m, Nat.pow 2 (-k).toNat)

theorem fraction_eq_scaled (rank : Nat) : fraction rank = scaled (mantissa rank) (scale rank) := rfl

theorem scaled_pos {m : Nat} (hm : 0 < m) (k : Int) : 0 < (scaled m k).1 ∧ 0 < (scaled m k).2 := by
  unfold scaled
  split
  · exact ⟨Nat.mul_pos hm (Nat.pow_pos (by decide)), Nat.one_pos⟩
  · exact ⟨hm, Nat.pow_pos (by decide)⟩

theorem scaled_value (m : Nat) (k : Int) :
    ((scaled m k).1 : ℚ) / (scaled m k).2 = m * 2 ^ k := by
  unfold scaled
  split
  · next hk =>
    obtain ⟨n, rfl⟩ := Int.eq_ofNat_of_zero_le hk
    simp
  · next hk =>
    obtain ⟨n, rfl⟩ : ∃ n : Nat, k = -n := ⟨(-k).toNat, by omega⟩
    simp [div_eq_mul_inv]

/-- A number on the grid that rounding chooses for it stays where it is. -/
theorem rankOfFraction_scaled {m : Nat} {k : Int} (hm : 0 < m)
    (hgrid : max ((m.log2 : Int) + k - 52) (-1074) = k) :
    rankOfFraction (scaled m k).1 (scaled m k).2 =
      cutOff ((k + 1074).toNat * binade + m) := by
  obtain ⟨hnum, hden⟩ := scaled_pos hm k
  have hexp := binaryExponent_of_eq hm hnum hden (scaled_value m k)
  simp only [rankOfFraction, hnum.ne', if_false, hexp, hgrid]
  congr 2
  unfold scaled
  by_cases hk : 0 ≤ k
  · simp only [hk, if_true, Nat.one_mul]
    exact nearest_mul_self (Nat.pow_pos (by decide))
  · simp only [hk, if_false]
    exact nearest_mul_self (Nat.pow_pos (by decide))

/-- The mantissa of a rank lies on the grid of its scale. -/
theorem grid_of_rank {rank : Nat} (h : 0 < rank) :
    max (((mantissa rank).log2 : Int) + scale rank - 52) (-1074) = scale rank := by
  unfold mantissa scale
  split
  · next hsmall =>
    have hlog : rank.log2 < 52 := (Nat.log2_lt h.ne').2 hsmall
    omega
  · next hlarge =>
    have hmod : rank % binade < binade := Nat.mod_lt _ (by decide)
    have hlog : (binade + rank % binade).log2 = 52 := by
      rw [Nat.log2_eq_iff (by unfold binade; omega)]
      unfold binade at hmod ⊢
      omega
    have hdiv : 1 ≤ rank / binade := (Nat.one_le_div_iff (by decide)).2 (by omega)
    rw [hlog]
    omega

/-- The magnitude of a finite rank rounds to the rank. -/
theorem rankOfFraction_fraction {rank : Nat} (h : 0 < rank) (hfinite : rank < infinityRank) :
    (rankOfFraction (fraction rank).1 (fraction rank).2).val = rank := by
  have hm : 0 < mantissa rank := by
    unfold mantissa binade
    split <;> omega
  have hrank : (scale rank + 1074).toNat * binade + mantissa rank = rank := by
    unfold scale mantissa
    split
    · simp
    · next hlarge =>
      have hdiv : 1 ≤ rank / binade := (Nat.one_le_div_iff (by decide)).2 (by omega)
      have hpred : (((rank / binade : Nat) : Int) - 1075 + 1074).toNat = rank / binade - 1 := by
        omega
      have hsplit := Nat.div_add_mod' rank binade
      rw [hpred, Nat.sub_mul]
      have hle : binade ≤ rank / binade * binade := Nat.le_mul_of_pos_left _ hdiv
      omega
  rw [fraction_eq_scaled, rankOfFraction_scaled hm (grid_of_rank h), hrank]
  exact Nat.min_eq_left hfinite.le

end Nanoservice.Decimal.Double
