import Mathlib.Data.Rat.Floor
import OpenDaqModules.Library.Rounding
import OpenDaqModules.Library.Scientific
import OpenDaqModules.Recorder.Sie.Format

-- What the recorder gets from the machine and from the C++ library: the native byte order, and
-- `double` with its conversions to text.
class Host where
  endian     : Endian
  Double     : Type
  ofInt      : ℤ → Double
  ofBits     : UInt64 → Double
  div        : Double → Double → Double
  fixed      : Double → Bytes
  scientific : Double → Bytes

namespace Host

open Sie

def nativeEndian [Host] : Bytes :=
  match endian with
  | .big    => str "big"
  | .little => str "little"

namespace Exact

def ofBits (bits : UInt64) : ℚ :=
  let sign : ℚ := if bits.toNat / 2 ^ 63 = 1 then -1 else 1
  let exponent : ℕ := bits.toNat / 2 ^ 52 % 2 ^ 11
  let fraction : ℕ := bits.toNat % 2 ^ 52
  if exponent = 0 then sign * fraction / 2 ^ 1074
  else sign * (2 ^ 52 + fraction) * 2 ^ exponent / 2 ^ 1075

-- A sign, and `n` millionths.
def millionths (q : ℚ) (n : ℕ) : Bytes :=
  (if q < 0 then str "-" else []) ++ Decimal.ofNat (n / 10 ^ 6) ++ str "." ++
    Decimal.padded 6 (n % 10 ^ 6)

def fixed (q : ℚ) : Bytes :=
  millionths q (Rounding.nearest (|q| * 10 ^ 6)).toNat

def scientific (q : ℚ) : Bytes :=
  let exponent := Int.log 10 |q|
  let digits := (Rounding.nearest (|q| / 10 ^ exponent * 10 ^ 6)).toNat
  let (digits, exponent) := if digits = 10 ^ 7 then (10 ^ 6, exponent + 1) else (digits, exponent)
  millionths q digits ++ str "e" ++ (if exponent < 0 then str "-" else str "+") ++
    Decimal.padded 2 exponent.natAbs

end Exact

-- A little-endian machine whose arithmetic does not round.
abbrev exact : Host where
  endian     := .little
  Double     := ℚ
  ofInt      := Int.cast
  ofBits     := Exact.ofBits
  div        := (· / ·)
  fixed      := Exact.fixed
  scientific := Exact.scientific

example : Exact.scientific (1 / 1000) = str "1.000000e-03" := by decide +kernel
example : Exact.fixed (-1 / 128) = str "-0.007812" := by decide +kernel

end Host
