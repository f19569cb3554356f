import Mathlib.Algebra.Order.Round
import Mathlib.Data.Int.Log
import Mathlib.Tactic.Linarith
import Mathlib.Tactic.Ring

-- Rounding to integers and to numbers with so many significant digits.
namespace Rounding

variable {K : Type} [Field K] [LinearOrder K] [FloorRing K]
variable {b p d : ℕ} {x : K} {m e : ℤ}

-- The nearest integer, and the even one of two that are equally near.
def nearest (x : K) : ℤ :=
  if Int.fract x < 1 / 2 ∨ Int.fract x = 1 / 2 ∧ ⌊x⌋ % 2 = 0 then ⌊x⌋ else ⌊x⌋ + 1

theorem nearest_cases (x : K) : nearest x = ⌊x⌋ ∧ Int.fract x ≤ 1 / 2 ∨
    nearest x = ⌊x⌋ + 1 ∧ 1 / 2 ≤ Int.fract x := by
  rw [nearest]
  split
  case isTrue h =>
    refine .inl ⟨rfl, ?_⟩
    cases h
    case inl hlt => exact hlt.le
    case inr heq => exact heq.left.le
  case isFalse h =>
    refine .inr ⟨rfl, ?_⟩
    rw [not_or] at h
    exact not_lt.mp h.left

theorem le_nearest (h : m ≤ x) : m ≤ nearest x := by
  have hfloor : m ≤ ⌊x⌋ := Int.le_floor.mpr h
  rcases nearest_cases x with ⟨hnearest, -⟩ | ⟨hnearest, -⟩
  all_goals omega

theorem nearest_le (h : x < m) : nearest x ≤ m := by
  have hfloor : ⌊x⌋ < m := Int.floor_lt.mpr h
  rcases nearest_cases x with ⟨hnearest, -⟩ | ⟨hnearest, -⟩
  all_goals omega

variable [IsStrictOrderedRing K]

-- No other integer is nearer.
theorem abs_sub_nearest_le (x : K) (m : ℤ) : |x - nearest x| ≤ |x - m| := by
  have hsplit : (⌊x⌋ : K) + Int.fract x = x := Int.floor_add_fract x
  have hnonneg : 0 ≤ Int.fract x := Int.fract_nonneg x
  have hlt : Int.fract x < 1 := Int.fract_lt_one x
  have hside : (m : K) ≤ ⌊x⌋ ∨ (⌊x⌋ : K) + 1 ≤ m := by
    rcases le_or_gt m ⌊x⌋ with hle | hgt
    case inl => exact .inl (by exact_mod_cast hle)
    case inr => exact .inr (by exact_mod_cast hgt)
  rcases nearest_cases x with ⟨hnearest, hhalf⟩ | ⟨hnearest, hhalf⟩
  case inl =>
    have habs : |x - (⌊x⌋ : K)| = Int.fract x := by
      rw [← Int.fract, abs_of_nonneg hnonneg]
    rw [hnearest, habs, le_abs]
    exact hside.imp (fun hm => by linarith) (fun hm => by linarith)
  case inr =>
    have habs : |x - ((⌊x⌋ + 1 : ℤ) : K)| = 1 - Int.fract x := by
      push_cast
      rw [abs_of_nonpos (by linarith)]
      linarith
    rw [hnearest, habs, le_abs]
    exact hside.imp (fun hm => by linarith) (fun hm => by linarith)

theorem abs_sub_nearest_le_half (x : K) : |x - nearest x| ≤ 1 / 2 := by
  have hsplit : (⌊x⌋ : K) + Int.fract x = x := Int.floor_add_fract x
  have hnonneg : 0 ≤ Int.fract x := Int.fract_nonneg x
  have hlt : Int.fract x < 1 := Int.fract_lt_one x
  rcases nearest_cases x with ⟨hnearest, hhalf⟩ | ⟨hnearest, hhalf⟩
  all_goals
    rw [hnearest, abs_le]
    push_cast
    constructor <;> linarith

-- The weight of the last of `p` significant digits.
def lastPlace (b p : ℕ) (x : K) : K :=
  (b : K) ^ (Int.log b x - (p - 1 : ℕ))

-- The number rounded to `p` significant digits.
def significant (b p : ℕ) (x : K) : K :=
  nearest (x / lastPlace b p x) * lastPlace b p x

theorem lastPlace_pos (hb : 1 < b) : 0 < lastPlace b p x :=
  zpow_pos (by exact_mod_cast Nat.zero_lt_of_lt hb) _

-- As a multiple of its last place a number has `p` digits, and may be rounded up to one more.
theorem nearest_div_lastPlace (hb : 1 < b) (hp : 0 < p) (hx : 0 < x) :
    (b ^ (p - 1) : ℤ) ≤ nearest (x / lastPlace b p x) ∧
      nearest (x / lastPlace b p x) ≤ (b ^ p : ℤ) := by
  have hb0 : (b : K) ≠ 0 := by exact_mod_cast (Nat.zero_lt_of_lt hb).ne'
  have hscale : ∀ n : ℕ, ((b ^ n : ℤ) : K) * lastPlace b p x =
      (b : K) ^ (Int.log b x + n - (p - 1 : ℕ)) := by
    intro n
    rw [lastPlace]
    push_cast
    rw [← zpow_natCast, ← zpow_add₀ hb0]
    congr 1
    ring
  constructor
  case left =>
    refine le_nearest ((le_div_iff₀ (lastPlace_pos hb)).mpr ?_)
    rw [hscale, add_sub_cancel_right]
    exact Int.zpow_log_le_self hb hx
  case right =>
    refine nearest_le ((div_lt_iff₀ (lastPlace_pos hb)).mpr ?_)
    have hexp : Int.log b x + p - (p - 1 : ℕ) = Int.log b x + 1 := by omega
    rw [hscale, hexp]
    exact Int.lt_zpow_succ_log_self hb x

-- A rounded number has no more digits than it is rounded to.
theorem significant_digits (hb : 1 < b) (hp : 0 < p) (hx : 0 < x) :
    ∃ d < b ^ p, ∃ e : ℤ, significant b p x = (d : ℕ) * (b : K) ^ e := by
  obtain ⟨hlow, hhigh⟩ := nearest_div_lastPlace hb hp hx
  obtain ⟨n, hn⟩ := Int.eq_ofNat_of_zero_le (le_trans (by positivity) hlow)
  rw [significant, hn]
  rw [hn] at hhigh
  have hhigh : n ≤ b ^ p := by exact_mod_cast hhigh
  rcases hhigh.lt_or_eq with hlt | heq
  case inl => exact ⟨n, hlt, Int.log b x - (p - 1 : ℕ), by rw [lastPlace]; push_cast; rfl⟩
  case inr =>
    have hb0 : (b : K) ≠ 0 := by exact_mod_cast (Nat.zero_lt_of_lt hb).ne'
    refine ⟨1, Nat.one_lt_pow hp.ne' hb, Int.log b x - (p - 1 : ℕ) + p, ?_⟩
    rw [lastPlace, zpow_add₀ hb0, zpow_natCast, heq]
    push_cast
    ring

theorem abs_sub_significant_le_of_multiple (hb : 1 < b) (m : ℤ) :
    |x - significant b p x| ≤ |x - m * lastPlace b p x| := by
  have hpos : 0 < lastPlace b p x := lastPlace_pos hb
  have hscale : ∀ n : ℤ, |x - n * lastPlace b p x| = |x / lastPlace b p x - n| * lastPlace b p x := by
    intro n
    rw [← abs_of_pos hpos, ← abs_mul, abs_of_pos hpos, sub_mul, div_mul_cancel₀ _ hpos.ne']
  rw [significant, hscale, hscale]
  exact mul_le_mul_of_nonneg_right (abs_sub_nearest_le _ m) hpos.le

-- No other number with so few digits is nearer.
theorem abs_sub_significant_le (hb : 1 < b) (hp : 0 < p) (hx : 0 < x) (hd : d < b ^ p) (e : ℤ) :
    |x - significant b p x| ≤ |x - d * (b : K) ^ e| := by
  have hb0 : (b : K) ≠ 0 := by exact_mod_cast (Nat.zero_lt_of_lt hb).ne'
  have hb1 : (1 : K) < b := by exact_mod_cast hb
  rcases le_or_gt (Int.log b x - (p - 1 : ℕ)) e with hle | hgt
  case inl =>
    -- No digit of the other number is beyond the last place.
    obtain ⟨n, hn⟩ := Int.eq_ofNat_of_zero_le (sub_nonneg.mpr hle)
    have hmultiple : (d : K) * (b : K) ^ e = (d * b ^ n : ℤ) * lastPlace b p x := by
      have he : e = n + (Int.log b x - (p - 1 : ℕ)) := by omega
      rw [he, zpow_add₀ hb0, zpow_natCast, lastPlace]
      push_cast
      ring
    rw [hmultiple]
    exact abs_sub_significant_le_of_multiple hb _
  case inr =>
    -- The other number is below the power of the base under `x`, itself a multiple of the last place.
    have hpower : ((b : K) ^ Int.log b x) = (b ^ (p - 1) : ℤ) * lastPlace b p x := by
      rw [lastPlace]
      push_cast
      rw [← zpow_natCast, ← zpow_add₀ hb0]
      congr 1
      omega
    have hunder : (b : K) ^ Int.log b x ≤ x := Int.zpow_log_le_self hb hx
    have hother : (d : K) * (b : K) ^ e ≤ (b : K) ^ Int.log b x := by
      have hdigits : (d : K) ≤ (b : K) ^ p := by exact_mod_cast hd.le
      have hexp : (p : ℤ) + e ≤ Int.log b x := by omega
      have hweight : 0 ≤ (b : K) ^ e := (zpow_pos (by linarith) _).le
      calc (d : K) * (b : K) ^ e
          ≤ (b : K) ^ p * (b : K) ^ e := mul_le_mul_of_nonneg_right hdigits hweight
        _ = (b : K) ^ ((p : ℤ) + e) := by rw [zpow_add₀ hb0, zpow_natCast]
        _ ≤ (b : K) ^ Int.log b x := zpow_le_zpow_right₀ hb1.le hexp
    calc |x - significant b p x|
        ≤ |x - (b : K) ^ Int.log b x| := hpower ▸ abs_sub_significant_le_of_multiple hb _
      _ = x - (b : K) ^ Int.log b x := abs_of_nonneg (by linarith)
      _ ≤ x - d * (b : K) ^ e := by linarith
      _ ≤ |x - d * (b : K) ^ e| := le_abs_self _

-- The error is at most half a unit of the last place.
theorem abs_sub_significant_le_half (hb : 1 < b) :
    |x - significant b p x| ≤ lastPlace b p x / 2 := by
  have hpos : 0 < lastPlace b p x := lastPlace_pos hb
  have hscale : x - significant b p x =
      (x / lastPlace b p x - nearest (x / lastPlace b p x)) * lastPlace b p x := by
    rw [significant, sub_mul, div_mul_cancel₀ _ hpos.ne']
  calc |x - significant b p x|
      = |x / lastPlace b p x - nearest (x / lastPlace b p x)| * lastPlace b p x := by
        rw [hscale, abs_mul, abs_of_pos hpos]
    _ ≤ 1 / 2 * lastPlace b p x :=
        mul_le_mul_of_nonneg_right (abs_sub_nearest_le_half _) hpos.le
    _ = lastPlace b p x / 2 := by ring

theorem lastPlace_mul_le (hb : 1 < b) (hx : 0 < x) : lastPlace b p x * (b : K) ^ (p - 1) ≤ x := by
  have hb0 : (b : K) ≠ 0 := by exact_mod_cast (Nat.zero_lt_of_lt hb).ne'
  rw [lastPlace, ← zpow_natCast, ← zpow_add₀ hb0, sub_add_cancel]
  exact Int.zpow_log_le_self hb hx

theorem significant_zero : significant b p (0 : K) = 0 := by
  rw [significant, zero_div]
  simp [nearest]

-- A number that has no more digits is kept.
theorem significant_eq_self (hb : 1 < b) (hp : 0 < p) (hd : d < b ^ p)
    (hx : x = d * (b : K) ^ e) : significant b p x = x := by
  rcases Nat.eq_zero_or_pos d with rfl | hpos
  case inl =>
    rw [hx, Nat.cast_zero, zero_mul, significant_zero]
  case inr =>
    have hpositive : 0 < x := by
      rw [hx]
      exact mul_pos (by exact_mod_cast hpos) (zpow_pos (by exact_mod_cast Nat.zero_lt_of_lt hb) _)
    have hle := abs_sub_significant_le hb hp hpositive hd e
    rw [← hx, sub_self, abs_zero] at hle
    exact (sub_eq_zero.mp (abs_nonpos_iff.mp hle)).symm

theorem significant_pos (hb : 1 < b) (hp : 0 < p) (hx : 0 < x) : 0 < significant b p x := by
  refine mul_pos ?_ (lastPlace_pos hb)
  have hlow := (nearest_div_lastPlace hb hp hx).left
  have hpower : (0 : ℤ) < (b ^ (p - 1) : ℤ) := by
    exact_mod_cast Nat.pow_pos (Nat.zero_lt_of_lt hb)
  exact_mod_cast hpower.trans_le hlow

-- The nearer one of two numbers is on the same side of the middle.
theorem add_le_two_mul_of_nearer {y z : K} (hlt : y < z) (h : |x - z| ≤ |x - y|) :
    y + z ≤ 2 * x := by
  rcases abs_cases (x - z) with hz | hz <;> rcases abs_cases (x - y) with hy | hy
  all_goals linarith

theorem two_mul_le_add_of_nearer {y z : K} (hlt : y < z) (h : |x - y| ≤ |x - z|) :
    2 * x ≤ y + z := by
  rcases abs_cases (x - z) with hz | hz <;> rcases abs_cases (x - y) with hy | hy
  all_goals linarith

-- Were the order reversed, both numbers would be in the middle of the two results.
theorem significant_mono (hb : 1 < b) (hp : 0 < p) {y : K} (hx : 0 < x) (hxy : x ≤ y) :
    significant b p x ≤ significant b p y := by
  obtain ⟨d, hd, e, hdigits⟩ := significant_digits hb hp hx
  obtain ⟨d', hd', e', hdigits'⟩ := significant_digits hb hp (hx.trans_le hxy)
  have hnearer := abs_sub_significant_le hb hp hx hd' e'
  have hnearer' := abs_sub_significant_le hb hp (hx.trans_le hxy) hd e
  rw [← hdigits'] at hnearer
  rw [← hdigits] at hnearer'
  by_contra hreversed
  have hlow := add_le_two_mul_of_nearer (not_le.mp hreversed) hnearer
  have hhigh := two_mul_le_add_of_nearer (not_le.mp hreversed) hnearer'
  obtain rfl : x = y := by linarith
  exact hreversed le_rfl

end Rounding
