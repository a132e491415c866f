import Mathlib.Data.Int.Log
import Mathlib.Data.Rat.Floor

/-!
# Floats

A float of the source is the rational number that it stands for, and an operation on floats is the
exact operation followed by `roundDouble`, the nearest number that a double can hold. `Exact` says of
a number that it is such a number, so that an operation with this result loses nothing.

* `roundDouble_le` — rounding does not go beyond a natural number that a double can hold;
* `round_le` — nor does `round()` of the float afterwards;
* `abs_roundDouble_sub_le` — rounding changes a number by half a unit in the last place at most;
* `OnGrid.exact` — on a grid of powers of two nothing is rounded that is not too large for the grid.
-/

namespace Scap.Py

/-- `round(x)`: the nearest integer, the even one of two that are as near. -/
def roundHalfEven (x : ℚ) : Int :=
  let floor := ⌊x⌋
  if x - floor < 1 / 2 then floor
  else if 1 / 2 < x - floor then floor + 1
  else if floor % 2 = 0 then floor else floor + 1

/-- The float next to a number that is not too large for one. -/
def roundDouble (x : ℚ) : ℚ :=
  let unit : ℚ := 2 ^ max (Int.log 2 |x| - 52) (-1074)
  roundHalfEven (x / unit) * unit

/-- From here on an integer is too large for a float. -/
def floatLimit : Int := 2 ^ 1024 - 2 ^ 970

/-- `float(n)`. -/
def toDouble (n : Int) : Option ℚ := if floatLimit ≤ |n| then none else some (roundDouble n)

/-- A double can hold the number: it is rounded to itself. -/
def Exact (x : ℚ) : Prop := roundDouble x = x

instance (x : ℚ) : Decidable (Exact x) := inferInstanceAs (Decidable (_ = _))

/-! ## Bounds -/

variable {x : ℚ} {n : Nat}

/-- Rounding to an integer does not go beyond an integer. -/
theorem roundHalfEven_le {m : Int} (h : x ≤ m) : roundHalfEven x ≤ m := by
  have hfloor : ⌊x⌋ ≤ m := Int.floor_le_iff.mpr (by linarith)
  -- one more than the floor is only taken when the floor is not the number itself
  have hnext (hfrac : ⌊x⌋ < x) : ⌊x⌋ + 1 ≤ m := by
    have hlt : (⌊x⌋ : ℚ) < m := hfrac.trans_le h
    exact Int.add_one_le_of_lt (by exact_mod_cast hlt)
  unfold roundHalfEven
  dsimp only
  split
  · exact hfloor
  · next hhalf =>
    have hfrac : (⌊x⌋ : ℚ) < x := by linarith
    split
    · exact hnext hfrac
    · split
      · exact hfloor
      · exact hnext hfrac

theorem roundHalfEven_nonneg (h : 0 ≤ x) : 0 ≤ roundHalfEven x := by
  have hfloor : 0 ≤ ⌊x⌋ := Int.floor_nonneg.mpr h
  unfold roundHalfEven
  dsimp only
  split
  · exact hfloor
  · split
    · omega
    · split
      · exact hfloor
      · omega

/-- Below `2 ^ 53` the natural numbers are floats, and rounding does not go beyond them. -/
theorem roundDouble_le (h0 : 0 ≤ x) (h : x ≤ n) (hn : n < 2 ^ 53) :
    0 ≤ roundDouble x ∧ roundDouble x ≤ n := by
  obtain ⟨k, hk⟩ : ∃ k : Nat, max (Int.log 2 |x| - 52) (-1074) = -(k : Int) := by
    have hlog : Int.log 2 |x| < 53 := by
      rcases h0.eq_or_lt with rfl | hpos
      · simp
      · apply (Int.lt_zpow_iff_log_lt (by norm_num) (abs_pos.mpr hpos.ne')).mp
        rw [abs_of_pos hpos]
        exact h.trans_lt (by exact_mod_cast hn)
    exact ⟨(-max (Int.log 2 |x| - 52) (-1074)).toNat, by omega⟩
  -- the number is a whole number of units
  have hunit : (0 : ℚ) < 2 ^ (-(k : Int)) := zpow_pos (by norm_num) _
  have hscaled : x / 2 ^ (-(k : Int)) ≤ ((n * 2 ^ k : Nat) : Int) := by
    rw [zpow_neg, zpow_natCast, div_inv_eq_mul]
    push_cast
    exact mul_le_mul_of_nonneg_right h (by positivity)
  unfold roundDouble
  dsimp only
  rw [hk]
  constructor
  · have hnonneg := roundHalfEven_nonneg (div_nonneg h0 hunit.le)
    exact mul_nonneg (by exact_mod_cast hnonneg) hunit.le
  · have hle : (roundHalfEven (x / 2 ^ (-(k : Int))) : ℚ) ≤ (n * 2 ^ k : Nat) := by
      exact_mod_cast roundHalfEven_le hscaled
    calc (roundHalfEven (x / 2 ^ (-(k : Int))) : ℚ) * 2 ^ (-(k : Int))
        ≤ (n * 2 ^ k : Nat) * 2 ^ (-(k : Int)) := mul_le_mul_of_nonneg_right hle hunit.le
      _ = n := by
          rw [zpow_neg, zpow_natCast]
          push_cast
          field_simp

/-- `round` of a float between zero and such a number stays between them. -/
theorem round_le (h0 : 0 ≤ x) (h : x ≤ n) (hn : n < 2 ^ 53) :
    (roundHalfEven (roundDouble x)).toNat ≤ n := by
  have hle : roundHalfEven (roundDouble x) ≤ (n : Int) :=
    roundHalfEven_le (by exact_mod_cast (roundDouble_le h0 h hn).2)
  omega

/-! ## Errors -/

/-- The nearest integer is not farther than one half. -/
theorem abs_roundHalfEven_sub_le (x : ℚ) : |roundHalfEven x - x| ≤ 1 / 2 := by
  have hfloor : (⌊x⌋ : ℚ) ≤ x := Int.floor_le x
  have hnext : x < ⌊x⌋ + 1 := Int.lt_floor_add_one x
  rw [abs_le]
  unfold roundHalfEven
  dsimp only
  split
  · constructor <;> linarith
  · split
    · push_cast
      constructor <;> linarith
    · split
      · constructor <;> linarith
      · push_cast
        constructor <;> linarith

/-- Below `2 ^ n` the unit in the last place is `2 ^ (n - 53)` at most. -/
theorem abs_roundDouble_sub_le {n : Int} (h : |x| < 2 ^ n) (hn : -1021 ≤ n) :
    |roundDouble x - x| ≤ 2 ^ (n - 54) := by
  rcases eq_or_ne x 0 with rfl | hx
  · have hzero : roundDouble 0 = 0 := by simp [roundDouble, roundHalfEven]
    rw [hzero, sub_self, abs_zero]
    exact (zpow_pos (by norm_num) _).le
  have hlog : Int.log 2 |x| < n :=
    (Int.lt_zpow_iff_log_lt (by norm_num) (abs_pos.mpr hx)).mp h
  unfold roundDouble
  dsimp only
  have hle : max (Int.log 2 |x| - 52) (-1074) ≤ n - 53 := by omega
  generalize max (Int.log 2 |x| - 52) (-1074) = u at hle ⊢
  have hunit : (0 : ℚ) < 2 ^ u := zpow_pos (by norm_num) _
  have herror : (roundHalfEven (x / 2 ^ u) : ℚ) * 2 ^ u - x =
      (roundHalfEven (x / 2 ^ u) - x / 2 ^ u) * 2 ^ u := by field_simp
  calc |(roundHalfEven (x / 2 ^ u) : ℚ) * 2 ^ u - x|
      = |(roundHalfEven (x / 2 ^ u) : ℚ) - x / 2 ^ u| * 2 ^ u := by
        rw [herror, abs_mul, abs_of_pos hunit]
    _ ≤ 1 / 2 * 2 ^ (n - 53) :=
        mul_le_mul (abs_roundHalfEven_sub_le _) (zpow_le_zpow_right₀ (by norm_num) hle) hunit.le
          (by norm_num)
    _ = 2 ^ (n - 54) := by
        rw [show n - 53 = n - 54 + 1 by ring, zpow_add_one₀ (by norm_num)]
        ring

/-! ## Grids

The doubles between two powers of two lie on a grid. Sums and differences of numbers of a grid stay
on it, so they are only rounded where they outgrow it. -/

/-- A whole number of steps of `2 ^ e`. -/
def OnGrid (e : Int) (x : ℚ) : Prop := ∃ k : Int, x = k * 2 ^ e

variable {e : Int} {y : ℚ}

theorem OnGrid.add (hx : OnGrid e x) (hy : OnGrid e y) : OnGrid e (x + y) := by
  obtain ⟨k, rfl⟩ := hx
  obtain ⟨m, rfl⟩ := hy
  exact ⟨k + m, by push_cast; ring⟩

theorem OnGrid.sub (hx : OnGrid e x) (hy : OnGrid e y) : OnGrid e (x - y) := by
  obtain ⟨k, rfl⟩ := hx
  obtain ⟨m, rfl⟩ := hy
  exact ⟨k - m, by push_cast; ring⟩

/-- The integers lie on every grid that is fine enough. -/
theorem onGrid_intCast (he : e ≤ 0) (n : Int) : OnGrid e n := by
  obtain ⟨k, rfl⟩ : ∃ k : Nat, e = -(k : Int) := ⟨(-e).toNat, by omega⟩
  refine ⟨n * 2 ^ k, ?_⟩
  rw [zpow_neg, zpow_natCast]
  push_cast
  field_simp

theorem roundHalfEven_intCast (n : Int) : roundHalfEven n = n := by
  simp [roundHalfEven]

/-- **A number of the grid is a double unless it needs more than 53 bits.** The unit in the last
place is then no larger than the step of the grid. -/
theorem OnGrid.exact (h : OnGrid e x) (hlt : |x| < 2 ^ (53 + e)) (he : -1074 ≤ e) : Exact x := by
  obtain ⟨k, rfl⟩ := h
  rcases eq_or_ne k 0 with rfl | hk
  · simp [Exact, roundDouble, roundHalfEven]
  have hx : |(k : ℚ) * 2 ^ e| ≠ 0 := by simp [hk, zpow_ne_zero]
  have hlog : Int.log 2 |(k : ℚ) * 2 ^ e| < 53 + e :=
    (Int.lt_zpow_iff_log_lt (by norm_num) (lt_of_le_of_ne (abs_nonneg _) hx.symm)).mp hlt
  unfold Exact roundDouble
  dsimp only
  obtain ⟨n, hn⟩ : ∃ n : Nat, e = max (Int.log 2 |(k : ℚ) * 2 ^ e| - 52) (-1074) + n :=
    ⟨(e - max (Int.log 2 |(k : ℚ) * 2 ^ e| - 52) (-1074)).toNat, by omega⟩
  generalize max (Int.log 2 |(k : ℚ) * 2 ^ e| - 52) (-1074) = u at hn ⊢
  have hunit : (2 : ℚ) ^ u ≠ 0 := zpow_ne_zero _ (by norm_num)
  have hsteps : (k : ℚ) * 2 ^ e = ((k * 2 ^ n : Int) : ℚ) * 2 ^ u := by
    rw [hn, zpow_add₀ (by norm_num), zpow_natCast]
    push_cast
    ring
  rw [hsteps, mul_div_cancel_right₀ _ hunit, roundHalfEven_intCast]

end Scap.Py
