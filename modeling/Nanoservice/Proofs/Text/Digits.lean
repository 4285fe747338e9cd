import Mathlib.Algebra.Group.Nat.Defs
import Nanoservice.Text.Numeral

/-!
# Decimal numerals

The value of a list of ASCII digits, in terms of the standard library's `Nat.ofDigitChars`, its
bound by the number of digits (`valueOfDigits_lt`), which bounds the integers that are read from
texts (`natAbs_lt_of_roundedNumber`), and that the decimal text of a number has the number as its
value (`valueOfDigits_toDigits`). An integer has a decimal text when it has few digits
(`isShortInteger_iff`).
-/

namespace Nanoservice.Text

theorem isAsciiDigit_eq_isDigit (c : Char) : isAsciiDigit c = c.isDigit := by
  simp only [isAsciiDigit, Char.isDigit]
  rfl

theorem asciiValue?_of_isAsciiDigit {c : Char} (h : isAsciiDigit c = true) :
    asciiValue? c = some (c.toNat - 48) := by
  rw [asciiValue?, if_pos (by simpa [isAsciiDigit] using h)]

/-- The value of digits is that of the standard library. -/
theorem valueOfDigits_eq_ofDigitChars {ds : List Char} (h : ∀ d ∈ ds, isAsciiDigit d = true) :
    valueOfDigits (ds.filterMap asciiValue?) = Nat.ofDigitChars 10 ds 0 := by
  have hfold : ∀ n, (ds.filterMap asciiValue?).foldl (fun n d => 10 * n + d) n =
      Nat.ofDigitChars 10 ds n := by
    induction ds with
    | nil => simp
    | cons d ds ih =>
      intro n
      rw [List.filterMap_cons_some (asciiValue?_of_isAsciiDigit (h d List.mem_cons_self)),
        List.foldl_cons, ih fun e he => h e (List.mem_cons_of_mem d he), Nat.ofDigitChars_cons]
      rfl
  exact hfold 0

/-- Digits that follow others move these up by a power of ten. -/
theorem valueOfDigits_append {as bs : List Char} (ha : ∀ d ∈ as, isAsciiDigit d = true)
    (hb : ∀ d ∈ bs, isAsciiDigit d = true) :
    valueOfDigits ((as ++ bs).filterMap asciiValue?) =
      valueOfDigits (as.filterMap asciiValue?) * 10 ^ bs.length +
        valueOfDigits (bs.filterMap asciiValue?) := by
  have hab : ∀ d ∈ as ++ bs, isAsciiDigit d = true :=
    fun d hd => (List.mem_append.1 hd).elim (ha d) (hb d)
  rw [valueOfDigits_eq_ofDigitChars ha, valueOfDigits_eq_ofDigitChars hb,
    valueOfDigits_eq_ofDigitChars hab, Nat.ofDigitChars_append,
    Nat.ofDigitChars_eq_ofDigitChars_zero, Nat.mul_comm]

/-- Zeros in front of digits do not count. -/
theorem valueOfDigits_zeros (k : Nat) (ds : List Char) :
    valueOfDigits ((List.replicate k '0' ++ ds).filterMap asciiValue?) =
      valueOfDigits (ds.filterMap asciiValue?) := by
  induction k with
  | zero => simp
  | succ k ih =>
    rw [List.replicate_succ, List.cons_append,
      List.filterMap_cons_some (asciiValue?_of_isAsciiDigit (by decide)), ← ih]
    rfl

/-- Zeros behind digits move them up. -/
theorem valueOfDigits_append_zeros {ds : List Char} (h : ∀ d ∈ ds, isAsciiDigit d = true)
    (k : Nat) :
    valueOfDigits ((ds ++ List.replicate k '0').filterMap asciiValue?) =
      valueOfDigits (ds.filterMap asciiValue?) * 10 ^ k := by
  have hzeros : ∀ d ∈ List.replicate k '0', isAsciiDigit d = true := by
    intro d hd
    rw [List.eq_of_mem_replicate hd]
    decide
  have hvalue := valueOfDigits_zeros k []
  rw [List.append_nil] at hvalue
  rw [valueOfDigits_append h hzeros, List.length_replicate, hvalue]
  simp [valueOfDigits]

/-- The value of an ASCII digit is below ten. -/
theorem lt_ten_of_asciiValue? {c : Char} {d : Nat} (h : asciiValue? c = some d) : d < 10 := by
  unfold asciiValue? at h
  split at h
  · next hc =>
    have hnine : c.toNat ≤ 57 := hc.2
    rw [← Option.some.inj h]
    omega
  · cases h

/-- Digits behind a number bring it to less than the next number brought up by a power of ten. -/
theorem foldl_digits_lt {ds : List Nat} (h : ∀ d ∈ ds, d < 10) (n : Nat) :
    ds.foldl (fun n d => 10 * n + d) n < (n + 1) * 10 ^ ds.length := by
  induction ds generalizing n with
  | nil => simp
  | cons d ds ih =>
    have hd : d < 10 := h d List.mem_cons_self
    calc ds.foldl (fun n d => 10 * n + d) (10 * n + d)
        < (10 * n + d + 1) * 10 ^ ds.length := ih (fun e he => h e (List.mem_cons_of_mem d he)) _
      _ ≤ (n + 1) * 10 * 10 ^ ds.length := Nat.mul_le_mul_right _ (by omega)
      _ = (n + 1) * 10 ^ (d :: ds).length := by
        rw [List.length_cons, Nat.pow_succ, Nat.mul_assoc, Nat.mul_comm 10]

/-- A number of `k` digits is below the `k`-th power of ten. -/
theorem valueOfDigits_lt {ds : List Nat} (h : ∀ d ∈ ds, d < 10) :
    valueOfDigits ds < 10 ^ ds.length := by
  have hlt := foldl_digits_lt h 0
  rwa [Nat.zero_add, Nat.one_mul] at hlt

/-- The digits among `k` characters stand for a number below the `k`-th power of ten. -/
theorem valueOfDigits_filterMap_lt (cs : List Char) :
    valueOfDigits (cs.filterMap asciiValue?) < 10 ^ cs.length := by
  have hdigits : ∀ d ∈ cs.filterMap asciiValue?, d < 10 := by
    intro d hd
    obtain ⟨c, -, hc⟩ := List.mem_filterMap.1 hd
    exact lt_ten_of_asciiValue? hc
  exact Nat.lt_of_lt_of_le (valueOfDigits_lt hdigits)
    (Nat.pow_le_pow_right (by decide) (List.length_filterMap_le _ _))

/-! ## Digits at the front of a text -/

/-- A digit in front of a run is one more digit of a run that is one character longer. -/
theorem digitRun_cons_spec {cs : List Char} {ds es : List Nat} {d : Nat} (hd : d < 10)
    (hes : d :: es = ds) (h : es.length ≤ cs.length ∧ ∀ e ∈ es, e < 10) (c : Char) :
    ds.length ≤ (c :: cs).length ∧ ∀ e ∈ ds, e < 10 := by
  subst hes
  exact ⟨Nat.succ_le_succ h.1, List.forall_mem_cons.2 ⟨hd, h.2⟩⟩

/-- The digits at the front of a text are no more than its characters, and each is below ten. -/
theorem digitRun_spec {cs rest : List Char} {ds : List Nat}
    (h : digitRun asciiValue? cs = some (ds, rest)) :
    ds.length ≤ cs.length ∧ ∀ d ∈ ds, d < 10 := by
  revert h
  fun_induction digitRun asciiValue? cs generalizing ds rest with
  | case1 => simp
  | case2 => simp
  | case3 c d hc =>
    intro h
    rw [Option.some.injEq, Prod.mk.injEq] at h
    exact digitRun_cons_spec (lt_ten_of_asciiValue? hc) h.1 (by simp) c
  | case4 c d hc more ih =>
    intro h
    obtain ⟨⟨es, tail⟩, hmore, hes⟩ := Option.map_eq_some_iff.1 h
    obtain ⟨hlen, hlt⟩ := ih hmore
    have hlonger : es.length ≤ ('_' :: more).length := Nat.le_succ_of_le hlen
    exact digitRun_cons_spec (lt_ten_of_asciiValue? hc) (Prod.mk.inj hes).1 ⟨hlonger, hlt⟩ c
  | case5 c d hc e more _ _ ih =>
    intro h
    obtain ⟨⟨es, tail⟩, hmore, hes⟩ := Option.map_eq_some_iff.1 h
    exact digitRun_cons_spec (lt_ten_of_asciiValue? hc) (Prod.mk.inj hes).1 (ih hmore) c
  | case6 c d hc e more _ _ =>
    intro h
    rw [Option.some.injEq, Prod.mk.injEq] at h
    exact digitRun_cons_spec (lt_ten_of_asciiValue? hc) h.1 (by simp) c

theorem natAbs_signedInt (negative : Bool) (n : Nat) : (signedInt negative n).natAbs = n := by
  cases negative <;> simp [signedInt]

theorem length_takeSign_le (cs : List Char) : (takeSign cs).2.length ≤ cs.length := by
  unfold takeSign
  split <;> simp

/-! ## Integers with a decimal text -/

theorem isShortInteger_iff {n : Int} :
    isShortInteger n = true ↔ n.natAbs < 10 ^ maxIntegerDigits := by
  rw [isShortInteger, decide_eq_true_iff, Nat.pow_eq]

/-- An integer of a machine word has few digits. -/
theorem natAbs_lt_of_word {n : Int} (h : n.natAbs < 10 ^ 19) :
    n.natAbs < 10 ^ maxIntegerDigits :=
  Nat.lt_of_lt_of_le h (Nat.pow_le_pow_right (by decide) (by decide))

/-- An integer that a text spells has at most as many digits as it may have. -/
theorem natAbs_lt_of_roundedNumber {s : String} {n : Int} (h : roundedNumber s = .ok n) :
    n.natAbs < 10 ^ maxIntegerDigits := by
  unfold roundedNumber at h
  dsimp only at h
  split at h
  · cases h
  · next hshort =>
    split at h
    · cases h
    · next ds rest hrun =>
      obtain ⟨hlen, hlt⟩ := digitRun_spec hrun
      split at h
      · cases h
        rw [natAbs_signedInt]
        have hsign := length_takeSign_le (trimChars isSpace s.toList)
        exact Nat.lt_of_lt_of_le (valueOfDigits_lt hlt)
          (Nat.pow_le_pow_right (by decide) (by omega))
      · cases h

/-! ## The decimal text of a number -/

theorem isAsciiDigit_of_mem_toDigits {n : Nat} {d : Char} (h : d ∈ Nat.toDigits 10 n) :
    isAsciiDigit d = true := by
  rw [isAsciiDigit_eq_isDigit]
  exact Nat.isDigit_of_mem_toDigits (by decide) (by decide) h

/-- The decimal text of a number has the number as its value. -/
@[simp] theorem valueOfDigits_toDigits (n : Nat) :
    valueOfDigits ((Nat.toDigits 10 n).filterMap asciiValue?) = n := by
  rw [valueOfDigits_eq_ofDigitChars fun d => isAsciiDigit_of_mem_toDigits,
    Nat.ofDigitChars_ten_toDigits]

/-- The decimal texts of different integers are different. -/
theorem intChars_injective : Function.Injective intChars := by
  have hvalue (n : Nat) : valueOfDigits ((Nat.toDigits 10 n).filterMap asciiValue?) = n :=
    valueOfDigits_toDigits n
  have hminus (n m : Nat) : '-' :: Nat.toDigits 10 n ≠ Nat.toDigits 10 m := by
    intro h
    have hdigit : isAsciiDigit '-' = true :=
      isAsciiDigit_of_mem_toDigits (h ▸ List.mem_cons_self)
    cases hdigit
  intro n m h
  unfold intChars at h
  split at h <;> split at h
  · have habs := congrArg valueOfDigits (congrArg (List.filterMap asciiValue?) (List.cons.inj h).2)
    rw [hvalue, hvalue] at habs
    omega
  · exact (hminus _ _ h).elim
  · exact (hminus _ _ h.symm).elim
  · have habs := congrArg valueOfDigits (congrArg (List.filterMap asciiValue?) h)
    rw [hvalue, hvalue] at habs
    omega

/-- The decimal text of a positive number starts with another digit than zero. -/
theorem head?_toDigits_ne_zero {n : Nat} (h : 0 < n) : (Nat.toDigits 10 n).head? ≠ some '0' := by
  induction n using Nat.strongRecOn with
  | ind n ih =>
    by_cases hn : n < 10
    · rw [Nat.toDigits_of_lt_base hn]
      have : n = 1 ∨ n = 2 ∨ n = 3 ∨ n = 4 ∨ n = 5 ∨ n = 6 ∨ n = 7 ∨ n = 8 ∨ n = 9 := by omega
      rcases this with rfl | rfl | rfl | rfl | rfl | rfl | rfl | rfl | rfl <;> decide
    · have hhead := ih (n / 10) (by omega) (by omega)
      rw [Nat.toDigits_of_base_le (by decide) (by omega)]
      cases hds : Nat.toDigits 10 (n / 10) with
      | nil => exact absurd hds Nat.toDigits_ne_nil
      | cons d ds => simpa [hds] using hhead

end Nanoservice.Text
