import Mathlib
import PatchReview.Number.Rounding

/-!
# What is rounded to one

A share below one has its last binary digit at the place -53 or after it (`lastDigit_le`), and exactly there
if it is at least one half (`lastDigit_of_half_le`). So it is rounded to one only if it lacks no more than
half of that digit, and a half goes to one, which is even there (`nearestBinary_eq_one_iff`).
-/

namespace PatchReview.Number

/-! ## Powers of two -/

theorem powerOfTwo_eq (e : Int) : powerOfTwo e = (2 : Rat) ^ e := by
  rw [powerOfTwo]
  split
  · rename_i he
    obtain ⟨n, rfl⟩ := Int.eq_ofNat_of_zero_le he
    simp
  · rename_i he
    obtain ⟨n, hn⟩ := Int.eq_ofNat_of_zero_le (Int.neg_nonneg_of_nonpos (Int.not_le.1 he).le)
    obtain rfl : e = -(n : Int) := by omega
    simp

/-! ## The last digit -/

section

variable {q : Rat}

/-- A positive number is the quotient of natural numbers that it is written with. -/
theorem eq_natAbs_div_den (h : 0 < q) : q = (q.num.natAbs : Rat) / (q.den : Rat) := by
  have hnum : ((q.num.natAbs : Int) : Rat) = (q.num : Rat) := by
    rw [Int.natAbs_of_nonneg (Rat.num_nonneg.2 h.le)]
  rw [← Int.cast_natCast, hnum, Rat.num_div_den]

theorem log2_natAbs_num_le (h : 0 < q) (h' : q < 1) : Nat.log2 q.num.natAbs ≤ Nat.log2 q.den := by
  have hden : (0 : Rat) < q.den := Nat.cast_pos.2 q.den_pos
  have hlt : (q.num.natAbs : Rat) < q.den := by
    rw [eq_natAbs_div_den h, div_lt_one hden] at h'
    exact h'
  rw [Nat.log2_eq_log_two, Nat.log2_eq_log_two]
  exact Nat.log_mono_right (Nat.cast_lt.1 hlt).le

theorem log2_den_le (h : 1 / 2 ≤ q) : Nat.log2 q.den ≤ Nat.log2 q.num.natAbs + 1 := by
  have hpos : 0 < q := lt_of_lt_of_le (by norm_num) h
  have hden : (0 : Rat) < q.den := Nat.cast_pos.2 q.den_pos
  have hnum : q.num.natAbs ≠ 0 := Int.natAbs_ne_zero.2 (Rat.num_pos.2 hpos).ne'
  have hle : q.den ≤ q.num.natAbs * 2 := by
    rw [eq_natAbs_div_den hpos, div_le_div_iff₀ two_pos hden, one_mul] at h
    exact_mod_cast h
  rw [Nat.log2_eq_log_two, Nat.log2_eq_log_two, ← Nat.log_mul_base one_lt_two hnum]
  exact Nat.log_mono_right hle

theorem lastDigit_le (h : 0 < q) (h' : q < 1) : lastDigit q ≤ -53 := by
  have hlog := log2_natAbs_num_le h h'
  rw [lastDigit]
  by_cases hguess : (Nat.log2 q.num.natAbs : Int) - Nat.log2 q.den - 52 = -52
  · have hbelow : q < powerOfTwo ((Nat.log2 q.num.natAbs : Int) - Nat.log2 q.den - 52 + 52) := by
      rw [hguess, powerOfTwo_eq]
      simpa using h'
    rw [if_pos hbelow]
    omega
  · split <;> omega

theorem lastDigit_of_half_le (h : 1 / 2 ≤ q) (h' : q < 1) : lastDigit q = -53 := by
  have hpos : 0 < q := lt_of_lt_of_le (by norm_num) h
  refine le_antisymm (lastDigit_le hpos h') ?_
  have hlog := log2_den_le h
  rw [lastDigit]
  by_cases hguess : (Nat.log2 q.num.natAbs : Int) - Nat.log2 q.den - 52 = -53
  · have habove : ¬q < powerOfTwo ((Nat.log2 q.num.natAbs : Int) - Nat.log2 q.den - 52 + 52) := by
      rw [hguess, powerOfTwo_eq, not_lt]
      simpa using h
    rw [if_neg habove]
    omega
  · split <;> omega

/-! ## Rounding to one -/

/-- A number is rounded to an even one exactly if they are no more than one half apart. -/
theorem nearestInt_eq_iff_of_even {n : Int} (hn : n % 2 = 0) :
    nearestInt q = n ↔ (n : Rat) ≤ q + 1 / 2 ∧ q ≤ n + 1 / 2 := by
  have hlow : (q.floor : Rat) ≤ q := Int.floor_le q
  have hhigh : q < q.floor + 1 := Int.lt_floor_add_one q
  -- which whole numbers lie below others shows in the bounds of their fractions
  have hbelow : (n : Rat) < q.floor + 1 → n ≤ q.floor := fun h =>
    Int.lt_add_one_iff.1 (by exact_mod_cast h)
  have habove : (q.floor : Rat) < n + 1 → q.floor ≤ n := fun h =>
    Int.lt_add_one_iff.1 (by exact_mod_cast h)
  rw [nearestInt]
  by_cases hless : q - q.floor < 1 / 2
  · rw [if_pos hless]
    constructor
    · intro heq
      rw [← heq]
      constructor <;> linarith
    · rintro ⟨h, h'⟩
      exact le_antisymm (habove (by linarith)) (hbelow (by linarith))
  · rw [if_neg hless]
    by_cases hmore : 1 / 2 < q - q.floor
    · rw [if_pos hmore]
      constructor
      · intro heq
        rw [← heq, Int.cast_add, Int.cast_one]
        constructor <;> linarith
      · rintro ⟨h, h'⟩
        have hlast : q.floor < n := by exact_mod_cast (by linarith : (q.floor : Rat) < n)
        have hnext : n < q.floor + 2 := by exact_mod_cast (by linarith : (n : Rat) < q.floor + 2)
        omega
    · rw [if_neg hmore]
      have hhalf : q - q.floor = 1 / 2 := le_antisymm (not_lt.1 hmore) (not_lt.1 hless)
      -- of the two neighbours the even one is taken
      have hnear : (n : Rat) ≤ q + 1 / 2 ∧ q ≤ n + 1 / 2 ↔ n ≤ q.floor + 1 ∧ q.floor ≤ n := by
        rw [← Int.cast_le (R := Rat), ← Int.cast_le (R := Rat), Int.cast_add, Int.cast_one]
        constructor
        · rintro ⟨h, h'⟩
          constructor <;> linarith
        · rintro ⟨h, h'⟩
          constructor <;> linarith
      rw [hnear]
      split <;> omega

/-- A share below one is rounded to one exactly if it lacks no more than half of its last digit. -/
theorem nearestBinary_eq_one_iff_lastDigit (h : 0 < q) (h' : q < 1) :
    nearestBinary q = 1 ↔ 1 - q ≤ 2 ^ lastDigit q / 2 := by
  have hunit : (0 : Rat) < 2 ^ lastDigit q := by positivity
  have hlast := lastDigit_le h h'
  -- one is a whole number of units, and an even one
  obtain ⟨n, hn⟩ := Int.eq_ofNat_of_zero_le (by omega : 0 ≤ -lastDigit q - 1)
  have hones : ((2 * 2 ^ n : Int) : Rat) = 1 / 2 ^ lastDigit q := by
    rw [show lastDigit q = -((n + 1 : Nat) : Int) by push_cast; omega, zpow_neg, zpow_natCast]
    push_cast
    rw [one_div, inv_inv, pow_succ']
  rw [nearestBinary, if_neg h.ne', if_neg (not_lt.2 h.le), powerOfTwo_eq]
  show (nearestInt (q / 2 ^ lastDigit q) : Rat) * 2 ^ lastDigit q = 1 ↔ _
  rw [← eq_div_iff hunit.ne', ← hones, Int.cast_inj, nearestInt_eq_iff_of_even (by omega), hones,
    div_add' _ _ _ hunit.ne', div_add' _ _ _ hunit.ne', div_le_div_iff_of_pos_right hunit,
    div_le_div_iff_of_pos_right hunit]
  constructor
  · rintro ⟨hle, -⟩
    linarith
  · intro hle
    constructor <;> linarith

/-- **A share is rounded to one exactly if it lacks no more than half of the digit at the place -53.** -/
theorem nearestBinary_eq_one_iff (h : 0 < q) (h' : q ≤ 1) :
    nearestBinary q = 1 ↔ 1 - q ≤ 1 / 2 ^ 54 := by
  rcases h'.lt_or_eq with hlt | rfl
  · rw [nearestBinary_eq_one_iff_lastDigit h hlt]
    by_cases hhalf : 1 / 2 ≤ q
    · rw [lastDigit_of_half_le hhalf hlt]
      norm_num
    · -- a share below one half lacks too much, whatever its last digit
      have hunit : (2 : Rat) ^ lastDigit q < 1 / 2 :=
        (zpow_le_zpow_right₀ one_le_two (lastDigit_le h hlt)).trans_lt (by norm_num)
      have htiny : (1 : Rat) / 2 ^ 54 < 1 / 2 := by norm_num
      refine iff_of_false ?_ ?_
      all_goals
        intro hle
        linarith
  · refine iff_of_true (by decide +kernel) ?_
    norm_num

end

end PatchReview.Number
