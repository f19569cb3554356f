import OpenDaqModules.Library.Scientific
import OpenDaqModules.Recorder.Metadata
import OpenDaqModules.Recorder.Sie.DecoderElement

open Sie Xml

namespace Host.Exact

theorem toInt_exponent {exponent : ℤ} : Decimal.toInt ((if exponent < 0 then str "-" else str "+") ++
    Decimal.padded 2 exponent.natAbs) = exponent := by
  have hsigned : ∀ digits, Decimal.toInt (str "-" ++ digits) = -Decimal.toNat digits ∧
      Decimal.toInt (str "+" ++ digits) = Decimal.toNat digits := fun _ => ⟨rfl, rfl⟩
  split
  case isTrue hneg =>
    rw [(hsigned _).left, Decimal.toNat_padded]
    omega
  case isFalse hpos =>
    rw [(hsigned _).right, Decimal.toNat_padded]
    omega

theorem toRat_millionths {q : ℚ} {n : ℕ} {text : Bytes} (hq : 0 < q) :
    Decimal.toRat (millionths q n ++ str "e" ++ text) = n / 10 ^ 6 * 10 ^ Decimal.toInt text := by
  have hsplit : n / 10 ^ 6 * 10 ^ 6 + n % 10 ^ 6 = n := by omega
  rw [millionths, if_neg hq.le.not_gt, List.nil_append]
  exact (Decimal.toRat_of_digits (Nat.mod_lt _ (by decide)) (by decide)).trans (by rw [hsplit])

theorem normalized_value {digits : ℕ} {exponent : ℤ} :
    let normalized := if digits = 10 ^ 7 then (10 ^ 6, exponent + 1) else (digits, exponent)
    (normalized.1 / 10 ^ 6 * 10 ^ normalized.2 : ℚ) = digits * 10 ^ (exponent - (7 - 1 : ℕ)) := by
  intro normalized
  have hlast : (10 : ℚ) ^ (exponent - (7 - 1 : ℕ)) = 10 ^ exponent / 10 ^ 6 := by
    rw [zpow_sub₀ (by norm_num)]
    norm_num
  rw [hlast]
  by_cases hcarry : digits = 10 ^ 7
  case pos =>
    simp only [normalized, if_pos hcarry]
    rw [hcarry, zpow_add₀ (by norm_num)]
    push_cast
    ring
  case neg =>
    simp only [normalized, if_neg hcarry]
    ring

-- Seven significant digits are written of a number.
theorem toRat_scientific {q : ℚ} (hq : 0 < q) :
    Decimal.toRat (scientific q) = Rounding.significant 10 7 q := by
  have hscaled : |q| / 10 ^ Int.log 10 |q| * 10 ^ 6 = q / Rounding.lastPlace 10 7 q := by
    rw [abs_of_pos hq, Rounding.lastPlace, zpow_sub₀ (by norm_num)]
    norm_num
    ring
  obtain ⟨hlow, -⟩ := Rounding.nearest_div_lastPlace (b := 10) (p := 7) (by decide) (by decide) hq
  obtain ⟨digits, hdigits⟩ := Int.eq_ofNat_of_zero_le (le_trans (by norm_num) hlow)
  rw [scientific, hscaled, Rounding.significant, hdigits, abs_of_pos hq]
  dsimp only
  rw [List.append_assoc, toRat_millionths hq, toInt_exponent, Int.toNat_natCast]
  exact normalized_value

end Host.Exact

namespace AdvancedRecorder

-- A reader that applies the transform to a time is off by less than a tick.
def Accurate (transform : Element) (tick : ℚ) : Prop :=
  ∃ scale offset : ℚ,
    (transform.attribute? (str "scale")).map Decimal.toRat = some scale ∧
    (transform.attribute? (str "offset")).map Decimal.toRat = some offset ∧
    ∀ t : ℤ, |t| < 2 ^ 63 → |t * scale + offset - t * tick| < tick

section

variable {descriptor : DataDescriptor} {resolution : Ratio} {scale tick : ℚ}

theorem Ratio.toRat_pos (hn : 0 < resolution.numerator.toInt) (hd : 0 < resolution.denominator.toInt) :
    0 < resolution.toRat :=
  div_pos (by exact_mod_cast hn) (by exact_mod_cast hd)

-- The error grows with the time, and is largest at the last one.
theorem error_lt_iff : (∀ t : ℤ, |t| < 2 ^ 63 → |t * scale + 0 - t * tick| < tick) ↔
    |tick - scale| * (2 ^ 63 - 1) < tick := by
  have herror : ∀ t : ℤ, |t * scale + 0 - t * tick| = |tick - scale| * |(t : ℚ)| := by
    intro t
    rw [← abs_mul, ← abs_neg]
    congr 1
    ring
  constructor
  case mp =>
    intro h
    have hlast := h (2 ^ 63 - 1) (by norm_num)
    rw [herror] at hlast
    norm_num at hlast ⊢
    exact hlast
  case mpr =>
    intro h t ht
    have hle : |(t : ℚ)| ≤ 2 ^ 63 - 1 := by
      have hint : |t| ≤ 2 ^ 63 - 1 := by omega
      exact_mod_cast hint
    rw [herror]
    exact lt_of_le_of_lt (mul_le_mul_of_nonneg_left hle (abs_nonneg _)) h

theorem tickResolutionToTransform_attributes
    (hresolution : descriptor.tickResolution = some resolution) (htick : 0 < resolution.toRat) :
    let _ := Host.exact
    ((tickResolutionToTransform descriptor).attribute? (str "scale")).map Decimal.toRat =
        some (Rounding.significant 10 7 resolution.toRat) ∧
      ((tickResolutionToTransform descriptor).attribute? (str "offset")).map Decimal.toRat =
        some 0 := by
  intro _
  rw [tickResolutionToTransform, hresolution]
  exact ⟨congrArg some (Host.Exact.toRat_scientific htick), congrArg some (by decide +kernel)⟩

theorem tickResolutionToTransform_accurate_iff
    (hresolution : descriptor.tickResolution = some resolution)
    (hn : 0 < resolution.numerator.toInt) (hd : 0 < resolution.denominator.toInt) :
    let _ := Host.exact
    Accurate (tickResolutionToTransform descriptor) resolution.toRat ↔
      ∃ d < 10 ^ 7, ∃ e : ℤ,
        |resolution.toRat - (d : ℕ) * 10 ^ e| * (2 ^ 63 - 1) < resolution.toRat := by
  intro _
  have htick : 0 < resolution.toRat := Ratio.toRat_pos hn hd
  obtain ⟨hscale, hoffset⟩ := tickResolutionToTransform_attributes hresolution htick
  have haccurate : Accurate (tickResolutionToTransform descriptor) resolution.toRat ↔
      |resolution.toRat - Rounding.significant 10 7 resolution.toRat| * (2 ^ 63 - 1) <
        resolution.toRat := by
    rw [← error_lt_iff]
    constructor
    case mp =>
      rintro ⟨_, _, hs, ho, herror⟩
      cases hscale.symm.trans hs
      cases hoffset.symm.trans ho
      exact herror
    case mpr => exact fun herror => ⟨_, _, hscale, hoffset, herror⟩
  rw [haccurate]
  constructor
  case mp =>
    intro h
    obtain ⟨d, hlt, e, heq⟩ :=
      Rounding.significant_digits (b := 10) (p := 7) (by decide) (by decide) htick
    refine ⟨d, hlt, e, ?_⟩
    rw [heq] at h
    exact h
  case mpr =>
    rintro ⟨d, hlt, e, h⟩
    have hnearest :=
      Rounding.abs_sub_significant_le (b := 10) (p := 7) (by decide) (by decide) htick hlt e
    exact lt_of_le_of_lt (mul_le_mul_of_nonneg_right hnearest (by norm_num)) h

theorem tickResolutionToTransform_accurate_iff_microseconds :
    let _ := Host.exact
    let descriptor : DataDescriptor := {
      name           := str "time"
      sampleType     := .int64
      tickResolution := some { numerator := 1, denominator := 1000000 } }
    Accurate (tickResolutionToTransform descriptor) (1 / 1000000) := by
  intro _ descriptor
  have htick : Ratio.toRat { numerator := 1, denominator := 1000000 } = 1 / 1000000 := by
    decide +kernel
  have hresolution : descriptor.tickResolution = some { numerator := 1, denominator := 1000000 } := rfl
  have hiff := tickResolutionToTransform_accurate_iff hresolution (by decide) (by decide)
  rw [htick] at hiff
  exact hiff.mpr ⟨1, by decide, -6, by norm_num⟩

-- The ticks of a clock of 44.1 kHz are recorded 134 ticks off after a thousand million of them.
theorem not_accurate_audio :
    let _ := Host.exact
    let descriptor : DataDescriptor := {
      name           := str "time"
      sampleType     := .int64
      tickResolution := some { numerator := 1, denominator := 44100 } }
    ¬Accurate (tickResolutionToTransform descriptor) (1 / 44100) := by
  intro _ descriptor haccurate
  obtain ⟨scale, offset, hscale, hoffset, herror⟩ := haccurate
  have hwritten : ((tickResolutionToTransform descriptor).attribute? (str "scale")).map
      Decimal.toRat = some (2267574 / 10 ^ 11) := by decide +kernel
  have hzero : ((tickResolutionToTransform descriptor).attribute? (str "offset")).map
      Decimal.toRat = some 0 := by decide +kernel
  cases hwritten.symm.trans hscale
  cases hzero.symm.trans hoffset
  have hlater := herror (10 ^ 9) (by norm_num)
  norm_num [abs_lt] at hlater

end

end AdvancedRecorder
