import Mathlib.Data.Rat.Floor
import OpenDaqModules.Library.Rounding

-- Numbers as a `double` holds them, as long as their exponents are in range.
namespace Binary64

open Rounding

variable {x y : ℚ}

def round (x : ℚ) : ℚ :=
  if x < 0 then -significant 2 53 (-x) else significant 2 53 x

theorem round_of_nonneg (h : 0 ≤ x) : round x = significant 2 53 x :=
  if_neg h.not_gt

@[simp]
theorem round_zero : round 0 = 0 := by
  rw [round_of_nonneg le_rfl, significant_zero]

theorem round_nonneg (h : 0 ≤ x) : 0 ≤ round x := by
  rcases h.eq_or_lt with rfl | hpos
  case inl => rw [round_zero]
  case inr =>
    rw [round_of_nonneg h]
    exact (significant_pos (by decide) (by decide) hpos).le

theorem round_mono (hx : 0 ≤ x) (hxy : x ≤ y) : round x ≤ round y := by
  rcases hx.eq_or_lt with rfl | hpos
  case inl =>
    rw [round_zero]
    exact round_nonneg hxy
  case inr =>
    rw [round_of_nonneg hx, round_of_nonneg (hx.trans hxy)]
    exact significant_mono (by decide) (by decide) hpos hxy

theorem round_eq_self {d : ℕ} {e : ℤ} (hd : d < 2 ^ 53) (hx : x = d * 2 ^ e) : round x = x := by
  have hnonneg : 0 ≤ x := by
    rw [hx]
    exact mul_nonneg (Nat.cast_nonneg d) (zpow_nonneg (by norm_num) e)
  rw [round_of_nonneg hnonneg]
  exact significant_eq_self (by decide) (by decide) hd hx

theorem round_natCast {n : ℕ} (h : n < 2 ^ 53) : round n = n :=
  round_eq_self (e := 0) h (by rw [zpow_zero, mul_one])

theorem abs_sub_round_le (hx : 0 ≤ x) : |x - round x| ≤ x / 2 ^ 53 := by
  rcases hx.eq_or_lt with rfl | hpos
  case inl => simp
  case inr =>
    have hhalf := abs_sub_significant_le_half (p := 53) (x := x) (by decide : 1 < 2)
    have hplace := lastPlace_mul_le (p := 53) (by decide : 1 < 2) hpos
    rw [round_of_nonneg hx]
    push_cast at hplace
    linarith

end Binary64
