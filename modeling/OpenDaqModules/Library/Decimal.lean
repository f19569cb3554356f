import Mathlib.Data.Nat.Digits.Defs
import OpenDaqModules.Library.Endian

-- The decimal digits of numbers, in ASCII.
namespace Decimal

def ofNat (n : ℕ) : Bytes :=
  if n = 0 then [0x30] else ((Nat.digits 10 n).map (fun d => UInt8.ofNat (48 + d))).reverse

def ofInt : ℤ → Bytes
  | .ofNat n   => ofNat n
  | .negSucc n => 0x2d :: ofNat (n + 1)

-- The number that a list of digits stands for.
def toNat (digits : Bytes) : ℕ :=
  Nat.ofDigits 10 (digits.reverse.map (fun b => b.toNat - 48))

variable {n m : ℕ}

theorem ofNat_ne_nil : ofNat n ≠ [] := by
  by_cases hn : n = 0
  case pos => simp [ofNat, hn]
  case neg => simp [ofNat, hn, Nat.digits_ne_nil_iff_ne_zero]

theorem mem_ofNat (h : b ∈ ofNat n) : 48 ≤ b.toNat ∧ b.toNat ≤ 57 := by
  by_cases hn : n = 0
  case pos =>
    rw [ofNat, if_pos hn] at h
    cases List.mem_singleton.mp h
    decide
  case neg =>
    rw [ofNat, if_neg hn, List.mem_reverse] at h
    obtain ⟨d, hd, rfl⟩ := List.mem_map.mp h
    have hlt : d < 10 := Nat.digits_lt_base (by decide) hd
    rw [UInt8.toNat_ofNat', Nat.mod_eq_of_lt (by omega)]
    omega

theorem toNat_ofNat : toNat (ofNat n) = n := by
  by_cases hn : n = 0
  case pos => simp [ofNat, toNat, hn]
  case neg =>
    have hdigits : ∀ d ∈ Nat.digits 10 n, (UInt8.ofNat (48 + d)).toNat - 48 = d := by
      intro d hd
      have hlt : d < 10 := Nat.digits_lt_base (by decide) hd
      rw [UInt8.toNat_ofNat', Nat.mod_eq_of_lt (by omega)]
      omega
    have hmap : (Nat.digits 10 n).map (fun d => (UInt8.ofNat (48 + d)).toNat - 48) =
        Nat.digits 10 n := by
      exact (List.map_congr_left hdigits).trans (List.map_id _)
    simp only [toNat, ofNat, if_neg hn, List.reverse_reverse, List.map_map]
    exact (congrArg _ hmap).trans (Nat.ofDigits_digits 10 n)

theorem ofNat_injective : Function.Injective ofNat := by
  intro n m h
  rw [← toNat_ofNat (n := n), h, toNat_ofNat]

end Decimal
