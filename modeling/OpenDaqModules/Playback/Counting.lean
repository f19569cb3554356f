import Mathlib.Tactic.FieldSimp
import Mathlib.Tactic.GCongr
import Mathlib.Tactic.Linarith
import Mathlib.Tactic.Ring
import OpenDaqModules.Playback.Collect

namespace PlaybackDevice.Channel

variable [Platform] {c : Channel} {elapsed elapsed' : ℤ} {rate : UInt64}

-- The double product reaches no integer that the exact product does not reach, and each integer that
-- the exact product is greater than.
def Precise (elapsed : ℤ) (rate : UInt64) : Prop :=
  ∀ k : ℕ, (k ≤ periods elapsed rate → k * 1000000 ≤ elapsed * rate.toNat) ∧
    (k * 1000000 < elapsed * rate.toNat → k ≤ periods elapsed rate)

-- The samples of so many microseconds.
def count (elapsed : ℤ) (rate : UInt64) : ℕ :=
  ⌊periods elapsed rate⌋₊

theorem Precise.count_bounds (h : Precise elapsed rate) (hnonneg : 0 ≤ periods elapsed rate) :
    count elapsed rate * 1000000 ≤ elapsed * rate.toNat ∧
      elapsed * rate.toNat ≤ (count elapsed rate + 1) * 1000000 := by
  refine ⟨(h _).left (Nat.floor_le hnonneg), ?_⟩
  by_contra hlt
  have hreached := (h (count elapsed rate + 1)).right (by push_cast; omega)
  push_cast at hreached
  exact hreached.not_gt (Nat.lt_floor_add_one _)

omit [Platform] in
theorem seconds_nonneg (h : 0 ≤ elapsed) : 0 ≤ Binary64.round (Binary64.round elapsed / 1000000) :=
  Binary64.round_nonneg (div_nonneg (Binary64.round_nonneg (by exact_mod_cast h)) (by norm_num))

omit [Platform] in
theorem rate_nonneg : 0 ≤ Binary64.round rate.toNat :=
  Binary64.round_nonneg (Nat.cast_nonneg _)

variable (hround : Platform.Rounds)
include hround

theorem periods_eq : periods elapsed rate = Binary64.round
    (Binary64.round (Binary64.round elapsed / 1000000) * Binary64.round rate.toNat) := by
  rw [periods, hround, hround, hround, hround]

theorem periods_nonneg (h : 0 ≤ elapsed) : 0 ≤ periods elapsed rate := by
  rw [periods_eq hround]
  exact Binary64.round_nonneg (mul_nonneg (seconds_nonneg h) rate_nonneg)

theorem periods_mono (h : 0 ≤ elapsed) (hle : elapsed ≤ elapsed') :
    periods elapsed rate ≤ periods elapsed' rate := by
  have hnonneg : (0 : ℚ) ≤ elapsed := by exact_mod_cast h
  have hmicroseconds : Binary64.round elapsed ≤ Binary64.round elapsed' :=
    Binary64.round_mono hnonneg (by exact_mod_cast hle)
  have hseconds : Binary64.round (Binary64.round elapsed / 1000000) ≤
      Binary64.round (Binary64.round elapsed' / 1000000) := by
    refine Binary64.round_mono ?_ (by gcongr)
    exact div_nonneg (Binary64.round_nonneg hnonneg) (by norm_num)
  rw [periods_eq hround, periods_eq hround]
  refine Binary64.round_mono (mul_nonneg (seconds_nonneg h) rate_nonneg) ?_
  exact mul_le_mul_of_nonneg_right hseconds rate_nonneg

theorem count_mono (h : 0 ≤ elapsed) (hle : elapsed ≤ elapsed') :
    count elapsed rate ≤ count elapsed' rate :=
  Nat.floor_le_floor (periods_mono hround h hle)

-- Two operations round where the operands are represented exactly.
theorem abs_sub_periods_le (h : 0 ≤ elapsed) (helapsed : elapsed < 2 ^ 53)
    (hrate : rate.toNat < 2 ^ 53) :
    |elapsed * rate.toNat / 1000000 - periods elapsed rate| ≤
      elapsed * rate.toNat / 1000000 * (2 / 2 ^ 53 + 1 / 2 ^ 106) := by
  obtain ⟨n, rfl⟩ := Int.eq_ofNat_of_zero_le h
  have hn : n < 2 ^ 53 := by exact_mod_cast helapsed
  rw [periods_eq hround, Int.cast_natCast, Binary64.round_natCast hn, Binary64.round_natCast hrate]
  have hquotient := Binary64.abs_sub_round_le (x := n / 1000000) (by positivity)
  have hseconds : 0 ≤ Binary64.round (n / 1000000 : ℚ) := Binary64.round_nonneg (by positivity)
  generalize Binary64.round (n / 1000000 : ℚ) = seconds at hquotient hseconds ⊢
  have hproduct := Binary64.abs_sub_round_le (x := seconds * rate.toNat) (by positivity)
  generalize Binary64.round (seconds * rate.toNat) = product at hproduct ⊢
  have hfirst : |(n : ℚ) * rate.toNat / 1000000 - seconds * rate.toNat| ≤
      n * rate.toNat / 1000000 / 2 ^ 53 := by
    have hfactor : (n : ℚ) * rate.toNat / 1000000 - seconds * rate.toNat =
        (n / 1000000 - seconds) * rate.toNat := by ring
    rw [hfactor, abs_mul, abs_of_nonneg (Nat.cast_nonneg (α := ℚ) rate.toNat)]
    calc |(n : ℚ) / 1000000 - seconds| * rate.toNat
        ≤ n / 1000000 / 2 ^ 53 * rate.toNat :=
          mul_le_mul_of_nonneg_right hquotient (Nat.cast_nonneg _)
      _ = n * rate.toNat / 1000000 / 2 ^ 53 := by ring
  rw [abs_le] at hfirst hproduct ⊢
  constructor <;> linarith

-- The rate and the microseconds of a second may have a factor in common.
theorem precise_of_lt {factor r unit : ℕ} (h : 0 ≤ elapsed) (hrate : rate.toNat = factor * r)
    (hunit : factor * unit = 1000000) (helapsed : elapsed < 2 ^ 53) (hfits : rate.toNat < 2 ^ 53)
    (hproduct : elapsed * r < 2 ^ 52) : Precise elapsed rate := by
  have hfactor : 0 < factor := Nat.pos_of_mul_pos_right (by omega : 0 < factor * unit)
  have hunit0 : (0 : ℚ) < unit := by
    exact_mod_cast Nat.pos_of_mul_pos_left (by omega : 0 < factor * unit)
  have hexact : (elapsed * rate.toNat / 1000000 : ℚ) = (elapsed * r : ℤ) / unit := by
    have hfactor0 : (factor : ℚ) ≠ 0 := by exact_mod_cast hfactor.ne'
    have hmillion : (1000000 : ℚ) = factor * unit := by exact_mod_cast hunit.symm
    rw [hrate, hmillion]
    push_cast
    field_simp
  have herror := abs_sub_periods_le hround h helapsed hfits
  rw [hexact] at herror
  have hsmall : ((elapsed * r : ℤ) / unit : ℚ) * (2 / 2 ^ 53 + 1 / 2 ^ 106) < 1 / unit := by
    have hle : ((elapsed * r : ℤ) : ℚ) ≤ 2 ^ 52 - 1 := by exact_mod_cast Int.le_sub_one_of_lt hproduct
    rw [div_mul_eq_mul_div, div_lt_div_iff_of_pos_right hunit0]
    linarith
  have hscaled : ∀ k : ℕ, (k * 1000000 : ℤ) = factor * (k * unit) := by
    intro k
    have hmillion : (1000000 : ℤ) = factor * unit := by exact_mod_cast hunit.symm
    rw [hmillion]
    ring
  have hscaled' : elapsed * rate.toNat = factor * (elapsed * r) := by
    rw [hrate]
    push_cast
    ring
  have hfraction : ∀ k : ℕ, ((k * unit : ℤ) : ℚ) / unit = k := by
    intro k
    push_cast
    field_simp
  rw [abs_le] at herror
  refine fun k => ⟨fun hreached => ?_, fun hpassed => ?_⟩
  case refine_1 =>
    rw [hscaled, hscaled']
    refine mul_le_mul_of_nonneg_left ?_ (Int.natCast_nonneg factor)
    by_contra hnot
    have hnext : ((elapsed * r + 1 : ℤ) : ℚ) / unit ≤ k := by
      rw [← hfraction k]
      gcongr
      omega
    push_cast at hnext herror hsmall
    rw [add_div] at hnext
    linarith
  case refine_2 =>
    rw [hscaled, hscaled'] at hpassed
    have hlt : (k * unit : ℤ) + 1 ≤ elapsed * r :=
      Int.add_one_le_of_lt (lt_of_mul_lt_mul_left hpassed (Int.natCast_nonneg factor))
    have hnext : (k : ℚ) + 1 / unit ≤ ((elapsed * r : ℤ) : ℚ) / unit := by
      rw [← hfraction k, ← add_div]
      gcongr
      exact_mod_cast hlt
    linarith

end PlaybackDevice.Channel
