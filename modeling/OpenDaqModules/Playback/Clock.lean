import OpenDaqModules.Playback.Channel

namespace PlaybackDevice

open AdvancedRecorder (Ratio)

-- What a device knows of the time. Readings of its clocks are counts of microseconds, as the
-- conversions of the source leave them.
structure Clock where
  startTime                          : ℤ
  microSecondsFromEpochToDeviceStart : ℤ
  tickResolution                     : Ratio

namespace Clock

-- The steady clock and the system clock are read one after the other.
def initClock (steadyTime systemTime : ℤ) : Clock where
  startTime                          := steadyTime
  microSecondsFromEpochToDeviceStart := systemTime
  tickResolution                     := ⟨1, 1000000000⟩

def getMicroSecondsSinceDeviceStart (clock : Clock) (steadyTime : ℤ) : ℤ :=
  steadyTime - clock.startTime

def onGetTicksSinceOrigin (clock : Clock) (steadyTime : ℤ) : UInt64 :=
  UInt64.ofInt (clock.microSecondsFromEpochToDeviceStart +
    clock.getMicroSecondsSinceDeviceStart steadyTime)

end Clock
end PlaybackDevice
