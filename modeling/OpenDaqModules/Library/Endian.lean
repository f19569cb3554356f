import Mathlib.Algebra.Order.Ring.Nat
import Mathlib.Tactic.Ring

abbrev Bytes := List UInt8

-- The byte order of the fixed-width integers of a data format.
inductive Endian
  | big
  | little
  deriving DecidableEq, Repr

namespace Endian

def leBytes : ℕ → ℕ → Bytes
  | 0, _         => []
  | width + 1, n => UInt8.ofNat n :: leBytes width (n / 256)

def leNat : Bytes → ℕ
  | []      => 0
  | b :: bs => b.toNat + 256 * leNat bs

def toBytes (e : Endian) (width n : ℕ) : Bytes :=
  match e with
  | big    => (leBytes width n).reverse
  | little => leBytes width n

def toNat (e : Endian) (bs : Bytes) : ℕ :=
  match e with
  | big    => leNat bs.reverse
  | little => leNat bs

variable {e : Endian} {width n : ℕ}

theorem leBytes_length : (leBytes width n).length = width := by
  induction width generalizing n
  case zero    => rfl
  case succ ih => simp [leBytes, ih]

theorem leNat_leBytes : leNat (leBytes width n) = n % 256 ^ width := by
  induction width generalizing n
  case zero    => simp [leBytes, leNat, Nat.mod_one]
  case succ width ih =>
    calc leNat (leBytes (width + 1) n)
      _ = n % 256 + 256 * (n / 256 % 256 ^ width) := by simp [leBytes, leNat, ih]
      _ = n % (256 * 256 ^ width)                 := Nat.mod_mul.symm
      _ = n % 256 ^ (width + 1)                   := by rw [pow_succ']

theorem leNat_lt (bs : Bytes) : leNat bs < 256 ^ bs.length := by
  induction bs
  case nil       => simp [leNat]
  case cons b bs ih =>
    have hb := b.toNat_lt
    rw [leNat, List.length_cons, pow_succ']
    omega

@[simp]
theorem toBytes_length : (e.toBytes width n).length = width := by
  cases e <;> simp [toBytes, leBytes_length]

theorem toNat_toBytes : e.toNat (e.toBytes width n) = n % 256 ^ width := by
  cases e <;> simp [toBytes, toNat, leNat_leBytes]

theorem toNat_toBytes_of_lt (h : n < 256 ^ width) : e.toNat (e.toBytes width n) = n := by
  rw [toNat_toBytes, Nat.mod_eq_of_lt h]

theorem toNat_singleton {b : UInt8} : e.toNat [b] = b.toNat := by
  cases e <;> simp [toNat, leNat]

theorem toNat_lt (e : Endian) (bs : Bytes) : e.toNat bs < 256 ^ bs.length := by
  cases e
  case big    => exact bs.length_reverse ▸ leNat_lt bs.reverse
  case little => exact leNat_lt bs

def ofUInt32 (e : Endian) (n : UInt32) : Bytes :=
  e.toBytes 4 n.toNat

def ofUInt64 (e : Endian) (n : UInt64) : Bytes :=
  e.toBytes 8 n.toNat

@[simp]
theorem ofUInt32_length {n : UInt32} : (e.ofUInt32 n).length = 4 :=
  toBytes_length

@[simp]
theorem ofUInt64_length {n : UInt64} : (e.ofUInt64 n).length = 8 :=
  toBytes_length

@[simp]
theorem toNat_ofUInt32 {n : UInt32} : e.toNat (e.ofUInt32 n) = n.toNat :=
  toNat_toBytes_of_lt n.toNat_lt

@[simp]
theorem toNat_ofUInt64 {n : UInt64} : e.toNat (e.ofUInt64 n) = n.toNat :=
  toNat_toBytes_of_lt n.toNat_lt

end Endian
