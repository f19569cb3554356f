import OpenDaqModules.Library.Pace
import OpenDaqModules.Playback.Counting
import OpenDaqModules.Playback.Integers

namespace PlaybackDevice

open EStateM
open Platform (Double)
open Sie (str)

-- The seconds from one sample to the next under the rule of a time signal.
def TimeDescriptor.period (descriptor : TimeDescriptor) : ℚ :=
  descriptor.delta.toInt * descriptor.tickResolution.toRat

theorem toInt_toInt64 (x : UInt64) :
    x.toInt64.toInt = if x.toNat < 2 ^ 63 then (x.toNat : ℤ) else x.toNat - 2 ^ 64 := by
  have hcond : x.toInt64.toInt =
      if 2 * x.toNat < 2 ^ 64 then (x.toNat : ℤ) else x.toNat - (2 ^ 64 : ℕ) :=
    BitVec.toInt_eq_toNat_cond _
  rw [hcond]
  norm_num
  split
  case isTrue => rw [if_pos (by omega)]
  case isFalse => rw [if_neg (by omega)]

namespace Channel

variable [Platform] {c d : Channel} {rate : UInt64}

section Unpunctual

variable (hround : Platform.Rounds)
include hround

end Unpunctual

end Channel

end PlaybackDevice
