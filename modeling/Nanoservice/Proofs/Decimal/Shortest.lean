import Nanoservice.Decimal.Shortest
import Nanoservice.Proofs.Decimal.Rounding

/-!
# Shortest decimals read back

A factor of ten moves between the digits and the exponent of a decimal without changing the number
that it rounds to (`rankOfDecimal_mul_ten`), and the shortest decimal of a finite number rounds to
that number (`rankOfDecimal_ofRank`): the decimals on the grids are tried, and the exact expansion,
which stands in for them, is the number itself (`rankOfDecimal_expansion`).
-/

namespace Nanoservice.Decimal

namespace Double

/-! ## Factors of ten -/

theorem length_toDigits_le {n k : Nat} (hk : 0 < k) (h : n < 10 ^ k) :
    (Nat.toDigits 10 n).length ≤ k :=
  (Nat.length_toDigits_le_iff (by decide) hk).2 h

/-- Ten times a positive number has one digit more. -/
theorem length_toDigits_mul_ten {d : Nat} (h : 0 < d) :
    (Nat.toDigits 10 (d * 10)).length = (Nat.toDigits 10 d).length + 1 := by
  rw [Nat.toDigits_of_base_le (by decide) (by omega), List.length_append,
    Nat.mul_div_cancel _ (by decide), List.length_singleton]

/-- A factor of ten among the digits counts as one in the exponent. -/
theorem rankOfDecimal_mul_ten (d : Nat) (e : Int) :
    rankOfDecimal (d * 10) e = rankOfDecimal d (e + 1) := by
  by_cases hd : d = 0
  · simp [rankOfDecimal, hd]
  have hsize : (((Nat.toDigits 10 (d * 10)).length : Nat) : Int) + e =
      (Nat.toDigits 10 d).length + (e + 1) := by
    rw [length_toDigits_mul_ten (Nat.pos_of_ne_zero hd)]
    omega
  have hrank : (if 0 ≤ e then rankOfFraction (d * 10 * Nat.pow 10 e.toNat) 1
        else rankOfFraction (d * 10) (Nat.pow 10 (-e).toNat)) =
      if 0 ≤ e + 1 then rankOfFraction (d * Nat.pow 10 (e + 1).toNat) 1
        else rankOfFraction d (Nat.pow 10 (-(e + 1)).toNat) := by
    rcases lt_trichotomy e (-1) with he | rfl | he
    · rw [if_neg (by omega), if_neg (by omega)]
      refine rankOfFraction_eq (Nat.pow_pos (by decide)) (Nat.pow_pos (by decide)) ?_
      rw [show (-e).toNat = (-(e + 1)).toNat + 1 by omega]
      simp only [Nat.pow_eq, Nat.pow_succ]
      ring
    · rw [if_neg (by decide), if_pos (by decide)]
      exact rankOfFraction_eq (by decide) (by decide) (by simp)
    · rw [if_pos (by omega), if_pos (by omega), show (e + 1).toNat = e.toNat + 1 by omega]
      simp only [Nat.pow_eq, Nat.pow_succ]
      congr 1
      ring
  simp only [rankOfDecimal, hd, Nat.mul_eq_zero, OfNat.ofNat_ne_zero, or_self, if_false, hsize,
    hrank]

/-- A power of ten among the digits counts as one in the exponent. -/
theorem rankOfDecimal_mul_pow (d k : Nat) (e : Int) :
    rankOfDecimal (d * 10 ^ k) e = rankOfDecimal d (e + k) := by
  induction k generalizing e with
  | zero => simp
  | succ k ih =>
    rw [Nat.pow_succ, ← Nat.mul_assoc, rankOfDecimal_mul_ten, ih]
    congr 1
    push_cast
    ring

/-! ## The exact expansion -/

theorem two_pow_le_ten_pow {n m : Nat} (h : n ≤ 3 * m) : 2 ^ n ≤ 10 ^ m :=
  calc 2 ^ n ≤ 2 ^ (3 * m) := Nat.pow_le_pow_right (by decide) h
    _ = 8 ^ m := Nat.pow_mul 2 3 m
    _ ≤ 10 ^ m := Nat.pow_le_pow_left (by decide) m

theorem mantissa_pos {rank : Nat} (h : 0 < rank) : 0 < mantissa rank := by
  unfold mantissa binade
  split <;> omega

theorem mantissa_lt (rank : Nat) : mantissa rank < 2 ^ 53 := by
  have hmod : rank % binade < binade := Nat.mod_lt _ (by decide)
  unfold mantissa
  split
  · unfold binade at *
    omega
  · unfold binade at *
    omega

theorem scale_ge (rank : Nat) : -1074 ≤ scale rank := by
  unfold scale
  split
  · omega
  · next hlarge =>
    have hdiv : 1 ≤ rank / binade := (Nat.one_le_div_iff (by decide)).2 (by omega)
    omega

theorem scale_le {rank : Nat} (h : rank < infinityRank) : scale rank ≤ 971 := by
  unfold scale
  split
  · omega
  · have hdiv : rank / binade < 2047 := (Nat.div_lt_iff_lt_mul (by decide)).2 h
    omega

/-- A decimal of moderate size is the rank of a fraction. -/
theorem rankOfDecimal_neg {d k : Nat} (hd : 0 < d) (hk : 0 < k) (hhigh : d < 10 ^ (400 + k))
    (hlow : 10 ^ (k - 401) ≤ d) : rankOfDecimal d (-k) = rankOfFraction d (10 ^ k) := by
  have hlen := length_toDigits_le (by omega) hhigh
  have hlen' : k - 400 ≤ (Nat.toDigits 10 d).length := by
    by_contra hshort
    have hdigits : 0 < (Nat.toDigits 10 d).length := Nat.length_toDigits_pos
    have hlt : d < 10 ^ (k - 401) :=
      (Nat.length_toDigits_le_iff (by decide) (by omega)).1 (by omega)
    omega
  unfold rankOfDecimal
  rw [if_neg hd.ne', if_neg (by omega), if_neg (by omega), if_neg (by omega)]
  simp

/-- A whole number of moderate size is the rank of a fraction. -/
theorem rankOfDecimal_whole {d : Nat} (hd : 0 < d) (h : d < 10 ^ 400) :
    rankOfDecimal d 0 = rankOfFraction d 1 := by
  have hlen := length_toDigits_le (by decide) h
  unfold rankOfDecimal
  rw [if_neg hd.ne', if_neg (by omega), if_neg (by omega), if_pos (by omega)]
  simp

/-- A mantissa on a coarse grid is a whole number of moderate size. -/
theorem mul_two_pow_lt {m k : Nat} (hm : m < 2 ^ 53) (hk : k ≤ 971) :
    m * 2 ^ k < 10 ^ 400 := by
  calc m * 2 ^ k < 2 ^ 53 * 2 ^ k := Nat.mul_lt_mul_of_pos_right hm (Nat.pow_pos (by decide))
    _ = 2 ^ (53 + k) := (Nat.pow_add 2 53 k).symm
    _ ≤ 10 ^ 400 := two_pow_le_ten_pow (by omega)

/-- The digits of a mantissa on a fine grid are not many more than its decimal places. -/
theorem mul_five_pow_lt {m : Nat} (hm : m < 2 ^ 53) (k : Nat) : m * 5 ^ k < 10 ^ (400 + k) := by
  calc m * 5 ^ k < 2 ^ 53 * 5 ^ k := Nat.mul_lt_mul_of_pos_right hm (Nat.pow_pos (by decide))
    _ ≤ 10 ^ 400 * 10 ^ k :=
      Nat.mul_le_mul (two_pow_le_ten_pow (by omega)) (Nat.pow_le_pow_left (by decide) k)
    _ = 10 ^ (400 + k) := (pow_add 10 400 k).symm

/-- The digits of a mantissa on a fine grid are not many fewer than its decimal places. -/
theorem ten_pow_le_mul_five_pow {m k : Nat} (hm : 0 < m) (hk : k ≤ 1074) :
    10 ^ (k - 401) ≤ m * 5 ^ k := by
  calc 10 ^ (k - 401) = 2 ^ (k - 401) * 5 ^ (k - 401) := Nat.mul_pow 2 5 (k - 401)
    _ ≤ 2 ^ (2 * (k - (k - 401))) * 5 ^ (k - 401) :=
      Nat.mul_le_mul_right _ (Nat.pow_le_pow_right (by decide) (by omega))
    _ = 4 ^ (k - (k - 401)) * 5 ^ (k - 401) := by rw [Nat.pow_mul]
    _ ≤ 5 ^ (k - (k - 401)) * 5 ^ (k - 401) :=
      Nat.mul_le_mul_right _ (Nat.pow_le_pow_left (by decide) _)
    _ = 5 ^ k := by rw [← Nat.pow_add, Nat.sub_add_cancel (Nat.sub_le k 401)]
    _ ≤ m * 5 ^ k := Nat.le_mul_of_pos_left _ hm

/-- The exact expansion of a finite rank reads back. -/
theorem rankOfDecimal_expansion {rank : Nat} (h : 0 < rank) (hfinite : rank < infinityRank) :
    (rankOfDecimal (Shortest.expansion rank).digits (Shortest.expansion rank).exponent).val =
      rank := by
  have hexact := rankOfFraction_fraction h hfinite
  have hpos := mantissa_pos h
  have hlt := mantissa_lt rank
  have hge := scale_ge rank
  have hle := scale_le hfinite
  simp only [Shortest.expansion, fraction, Nat.pow_eq] at hexact ⊢
  split at hexact
  · next hscale =>
    obtain ⟨k, hk⟩ := Int.eq_ofNat_of_zero_le hscale
    rw [hk] at hexact ⊢
    simp only [Int.natCast_nonneg, if_true, Int.toNat_natCast] at hexact ⊢
    rw [rankOfDecimal_whole (Nat.mul_pos hpos (Nat.pow_pos (by decide)))
      (mul_two_pow_lt hlt (by omega))]
    exact hexact
  · next hscale =>
    obtain ⟨k, hk⟩ : ∃ k : Nat, scale rank = -k := ⟨(-scale rank).toNat, by omega⟩
    rw [hk] at hexact ⊢
    have hk0 : 0 < k := by omega
    have hten : mantissa rank * 5 ^ k * 2 ^ k = mantissa rank * 10 ^ k := by
      rw [show (10 : Nat) = 5 * 2 by decide, Nat.mul_pow, Nat.mul_assoc]
    simp only [neg_neg, Int.toNat_natCast, if_neg (show ¬ (0 : Int) ≤ -k by omega)] at hexact ⊢
    rw [rankOfDecimal_neg (Nat.mul_pos hpos (Nat.pow_pos (by decide))) hk0
        (mul_five_pow_lt hlt k) (ten_pow_le_mul_five_pow hpos (by omega)),
      rankOfFraction_eq (Nat.pow_pos (by decide)) (Nat.pow_pos (by decide)) hten]
    exact hexact

end Double

namespace Shortest

open Double

/-! ## The shortest decimal -/

/-- What is found on a grid reads back. -/
theorem rankOfDecimal_onGrid {rank num den : Nat} {unit : Int} {d : Scaled}
    (h : onGrid rank num den unit = some d) : (rankOfDecimal d.digits d.exponent).val = rank := by
  simp only [onGrid, Option.map_eq_some_iff] at h
  obtain ⟨digits, hfind, rfl⟩ := h
  have hback := List.find?_some hfind
  simpa using hback

/-- Trailing zeros do not count. -/
theorem rankOfDecimal_stripZeros (fuel : Nat) (d : Scaled) :
    rankOfDecimal (stripZeros fuel d).digits (stripZeros fuel d).exponent =
      rankOfDecimal d.digits d.exponent := by
  induction fuel generalizing d with
  | zero => rfl
  | succ fuel ih =>
    rw [stripZeros]
    split
    · next h =>
      rw [ih, ← rankOfDecimal_mul_ten, Nat.div_mul_cancel (Nat.dvd_of_mod_eq_zero h.1)]
    · rfl

/-- The shortest decimal of a finite number reads back. -/
theorem rankOfDecimal_ofRank {rank : Nat} (hfinite : rank < infinityRank) :
    (rankOfDecimal (ofRank rank).digits (ofRank rank).exponent).val = rank := by
  unfold ofRank
  split
  · next h => rw [h]; rfl
  · next h =>
    rw [rankOfDecimal_stripZeros]
    cases hfind : (grids (decimalPoint (fraction rank).1 (fraction rank).2)).findSome?
        (onGrid rank (fraction rank).1 (fraction rank).2) with
    | none => exact rankOfDecimal_expansion (Nat.pos_of_ne_zero h) hfinite
    | some d =>
      obtain ⟨unit, -, hgrid⟩ := List.exists_of_findSome?_eq_some hfind
      exact rankOfDecimal_onGrid hgrid

end Shortest

end Nanoservice.Decimal
