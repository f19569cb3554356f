import Mathlib.Algebra.Field.Rat
import Mathlib.Data.Nat.Digits.Lemmas
import Mathlib.Tactic.FieldSimp
import OpenDaqModules.Library.Decimal

-- Decimal numbers with a point and an exponent, in ASCII.
namespace Decimal

variable {width n whole fraction : ℕ} {b : UInt8} {text as bs : Bytes}

-- At least `width` digits.
def padded (width n : ℕ) : Bytes :=
  List.replicate (width - (ofNat n).length) 0x30 ++ ofNat n

-- The integer that digits with or without a sign stand for.
def toInt : Bytes → ℤ
  | 0x2d :: digits => -toNat digits
  | 0x2b :: digits => toNat digits
  | digits         => toNat digits

-- The number that digits with a point among them and an exponent of ten stand for.
def toRat (text : Bytes) : ℚ :=
  let mantissa := text.takeWhile (· ≠ 0x65)
  let whole := mantissa.takeWhile (· ≠ 0x2e)
  let fraction := (mantissa.dropWhile (· ≠ 0x2e)).tail
  let exponent := toInt (text.dropWhile (· ≠ 0x65)).tail
  toInt (whole ++ fraction) / 10 ^ fraction.length * 10 ^ exponent

theorem toNat_append : toNat (as ++ bs) = toNat as * 10 ^ bs.length + toNat bs := by
  rw [toNat, List.reverse_append, List.map_append, Nat.ofDigits_append, List.length_map,
    List.length_reverse, toNat, toNat]
  ring

theorem toNat_padded : toNat (padded width n) = n := by
  have hzeros : toNat (List.replicate (width - (ofNat n).length) 0x30) = 0 := by
    rw [toNat, List.reverse_replicate, List.map_replicate]
    exact Nat.ofDigits_replicate_zero
  rw [padded, toNat_append, hzeros, toNat_ofNat, Nat.zero_mul, Nat.zero_add]

theorem ofNat_length_le (hn : n < 10 ^ width) (hw : 0 < width) : (ofNat n).length ≤ width := by
  rw [ofNat]
  split
  case isTrue => exact hw
  case isFalse =>
    rw [List.length_reverse, List.length_map]
    exact (Nat.digits_length_le_iff (by decide) n).mpr hn

theorem padded_length (hn : n < 10 ^ width) (hw : 0 < width) : (padded width n).length = width := by
  have hle : (ofNat n).length ≤ width := ofNat_length_le hn hw
  rw [padded, List.length_append, List.length_replicate]
  omega

theorem mem_padded (h : b ∈ padded width n) : 48 ≤ b.toNat ∧ b.toNat ≤ 57 := by
  rw [padded, List.mem_append, List.mem_replicate] at h
  cases h
  case inl hzero =>
    rw [hzero.right]
    decide
  case inr hdigit => exact mem_ofNat hdigit

theorem ne_of_digit (h : 48 ≤ b.toNat ∧ b.toNat ≤ 57) : b ≠ 0x2e ∧ b ≠ 0x65 := by
  constructor
  all_goals
    rintro rfl
    exact absurd h (by decide)

theorem toInt_of_digits (h : ∀ b ∈ text, 48 ≤ b.toNat) : toInt text = toNat text := by
  unfold toInt
  split
  case h_1 => exact absurd (h _ List.mem_cons_self) (by decide)
  case h_2 => exact absurd (h _ List.mem_cons_self) (by decide)
  case h_3 => rfl

theorem toRat_of_parts (ha : ∀ b ∈ as, b ≠ 0x2e ∧ b ≠ 0x65) (hb : ∀ b ∈ bs, b ≠ 0x65) :
    toRat (as ++ [0x2e] ++ bs ++ [0x65] ++ text) =
      toInt (as ++ bs) / 10 ^ bs.length * 10 ^ toInt text := by
  have hpoint : ∀ b ∈ as, (decide (b ≠ 0x2e)) = true :=
    fun b hb => decide_eq_true (ha b hb).left
  have hletter : ∀ b ∈ as ++ [0x2e] ++ bs, (decide (b ≠ 0x65)) = true := by
    intro b hmem
    rw [List.mem_append, List.mem_append, List.mem_singleton] at hmem
    obtain (hmem | rfl) | hmem := hmem
    · exact decide_eq_true (ha b hmem).right
    · decide
    · exact decide_eq_true (hb b hmem)
  have hmantissa : (as ++ [0x2e] ++ bs ++ [0x65] ++ text).takeWhile (· ≠ 0x65) =
      as ++ [0x2e] ++ bs := by
    rw [List.append_assoc, List.takeWhile_append_of_pos hletter]
    simp
  have hexponent : ((as ++ [0x2e] ++ bs ++ [0x65] ++ text).dropWhile (· ≠ 0x65)).tail = text := by
    rw [List.append_assoc, List.dropWhile_append_of_pos hletter]
    simp
  have hwhole : (as ++ [0x2e] ++ bs).takeWhile (· ≠ 0x2e) = as := by
    rw [List.append_assoc, List.takeWhile_append_of_pos hpoint]
    simp
  have hfraction : ((as ++ [0x2e] ++ bs).dropWhile (· ≠ 0x2e)).tail = bs := by
    rw [List.append_assoc, List.dropWhile_append_of_pos hpoint]
    simp
  rw [toRat, hmantissa, hexponent, hwhole, hfraction]

-- The digits of a number are read as that number.
theorem toRat_of_digits (hf : fraction < 10 ^ width) (hw : 0 < width) :
    toRat (ofNat whole ++ [0x2e] ++ padded width fraction ++ [0x65] ++ text) =
      (whole * 10 ^ width + fraction : ℕ) / 10 ^ width * 10 ^ toInt text := by
  have hdigits : toInt (ofNat whole ++ padded width fraction) =
      (whole * 10 ^ width + fraction : ℕ) := by
    rw [toInt_of_digits, toNat_append, toNat_ofNat, toNat_padded, padded_length hf hw]
    intro b hb
    rw [List.mem_append] at hb
    exact hb.elim (fun hb => (mem_ofNat hb).left) (fun hb => (mem_padded hb).left)
  rw [toRat_of_parts (fun b hb => ne_of_digit (mem_ofNat hb))
    (fun b hb => (ne_of_digit (mem_padded hb)).right), hdigits, padded_length hf hw]
  push_cast
  rfl

end Decimal
