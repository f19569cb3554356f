import OpenDaqModules.Library.Exec
import OpenDaqModules.Playback.Platform

namespace PlaybackDevice

open EStateM

-- `std::chrono::milliseconds`.
def milli (count : UInt64) : ℤ :=
  count.toInt64.toInt

-- When the channels are collected, how long that takes, and the AcquisitionLoopTime in force before.
structure Collection where
  start       : ℤ
  duration    : ℕ
  acqLoopTime : UInt64

-- The thread of the loop on a clock of milliseconds, with the collections that it has made, the last
-- one first. What a collection does is up to `PlaybackDeviceImpl.acqLoop`.
structure AcqThread where
  acqLoopTime   : UInt64
  loopTime      : ℤ
  startLoopTime : ℤ
  lockTime      : ℕ
  now           : ℤ
  collections   : List Collection := []

namespace AcqThread

-- Before the first turn the thread gets the lock.
def start (acqLoopTime : UInt64) (now : ℤ) (lockTime : ℕ) : AcqThread where
  acqLoopTime
  loopTime      := milli acqLoopTime
  startLoopTime := now
  lockTime
  now           := now + lockTime

def waitTime (t : AcqThread) : ℤ :=
  let loopDuration := t.now - t.startLoopTime
  if loopDuration ≥ t.loopTime then 0 else t.loopTime - loopDuration

-- A turn of the loop. The wait lasts exactly as long as it is meant to.
def turn (duration : ℕ) (t : AcqThread) : AcqThread where
  __            := t
  startLoopTime := t.now
  now           := t.now + t.waitTime + duration
  collections   := ⟨t.now + t.waitTime, duration, t.acqLoopTime⟩ :: t.collections

def updateAcqLoopTime (loopTime : Int64) (t : AcqThread) : AcqThread where
  __          := t
  acqLoopTime := loopTime.toUInt64

inductive Event
  | write (loopTime : Int64)
  | turn (duration : ℕ)

def Event.step : Event → EStateM Error AcqThread Unit
  | .write loopTime => modify (updateAcqLoopTime loopTime)
  | .turn duration  => modify (AcqThread.turn duration)

end AcqThread
end PlaybackDevice
