import Mathlib.Algebra.Order.Ring.Rat
import OpenDaqModules.Library.Binary64
import OpenDaqModules.Library.Decimal
import OpenDaqModules.Recorder.Sie.Format

namespace PlaybackDevice

inductive Error
  | invalidArgument
  | outOfRange
  | invalidParameter
  | duplicateItem
  | notFound
  | notAssigned
  -- Nothing is known of a process after undefined behaviour.
  | undefinedBehaviour
  deriving DecidableEq

-- What the channel gets from the C++ library, `double` and its conversion from text, and from
-- openDAQ, which refuses some ratios and some identifiers of components. What an operation on
-- numbers keeps of its result is `round`.
class Platform where
  round        : ℚ → ℚ
  Double       : Type
  ofNat        : ℕ → Double
  add          : Double → Double → Double
  sub          : Double → Double → Double
  stod         : Bytes → Except Error Double
  acceptsRatio : Int64 → Int64 → Bool
  acceptsId    : Bytes → Bool

-- What `std::getline` extracts in turn: after a delimiter at the very end there is nothing left.
def splitString (deliminator : UInt8) (string : Bytes) : List Bytes :=
  let items := string.splitOn deliminator
  if items.getLast? = some [] then items.dropLast else items

def isSpace (b : UInt8) : Bool :=
  b == 0x20 || (0x09 ≤ b && b ≤ 0x0d)

def isDigit (b : UInt8) : Bool :=
  0x30 ≤ b && b ≤ 0x39

-- Leading space is skipped, and so is everything after the digits.
def stoi (string : Bytes) : Except Error Int32 := do
  let string := string.dropWhile isSpace
  let sign := if string.head? ∈ [some 0x2b, some 0x2d] then 1 else 0
  let digits := (string.drop sign).takeWhile isDigit
  if digits.isEmpty then throw .invalidArgument
  let value : ℤ := if string.head? = some 0x2d then -Decimal.toNat digits else Decimal.toNat digits
  if value < -2 ^ 31 ∨ 2 ^ 31 ≤ value then throw .outOfRange
  return Int32.ofInt value

namespace Platform

-- Arithmetic that does not round.
def Exact [Platform] : Prop :=
  ∀ x, Platform.round x = x

-- The arithmetic of `double`.
def Rounds [Platform] : Prop :=
  ∀ x, Platform.round x = Binary64.round x

-- Exact arithmetic, and numbers without fraction or exponent in the files.
abbrev exact : Platform where
  round        := id
  Double       := ℚ
  ofNat        := Nat.cast
  add          := (· + ·)
  sub          := (· - ·)
  stod         := fun string => (stoi string).map fun value => value.toInt
  acceptsRatio := fun _ denominator => denominator != 0
  acceptsId    := fun localId => !localId.isEmpty

abbrev binary64 : Platform where
  round        := Binary64.round
  Double       := ℚ
  ofNat        := fun n => Binary64.round n
  add          := fun x y => Binary64.round (x + y)
  sub          := fun x y => Binary64.round (x - y)
  stod         := fun string => (stoi string).map fun value => value.toInt
  acceptsRatio := fun _ denominator => denominator != 0
  acceptsId    := fun localId => !localId.isEmpty

end Platform

open Sie in
example : splitString 0x2c (str "a,,b,") = [str "a", [], str "b"] := by decide +kernel

open Sie in
example : stoi (str " -12;") = .ok (-12) := by rfl

end PlaybackDevice
