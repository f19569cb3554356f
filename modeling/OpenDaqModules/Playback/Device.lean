import OpenDaqModules.Playback.Channel

namespace PlaybackDevice

open EStateM
open Platform (Double)

variable [Platform]

-- What a cycle of the acquisition loop makes of a channel.
structure Cycle where
  active : Bool
  sent   : Option (Sent Double)

-- A channel of a device with the cycles it has seen, the last one first.
structure DeviceChannel where
  channel : Channel
  cycles  : List Cycle := []

-- Of a device its channels and its times, which are counts of microseconds.
structure PlaybackDeviceImpl where
  microSecondsFromEpochToDeviceStart : Int64
  channels                           : List DeviceChannel := []
  lastCollectTime                    : ℤ := 0

namespace PlaybackDeviceImpl

abbrev Action :=
  EStateM Error PlaybackDeviceImpl

-- The constructor of the channel. From the device it gets the start of its own clock.
def createChannel (d : PlaybackDeviceImpl) (microSecondsSinceDeviceStart : ℤ) :
    Except Error DeviceChannel :=
  let channel : Channel := {
    startTime                        := microSecondsSinceDeviceStart
    microSecondsFromEpochToStartTime := d.microSecondsFromEpochToDeviceStart }
  match Channel.initProperties.run channel with
  | .ok _ channel => .ok { channel }
  | .error e _    => .error e

def createAndAddChannels (microSecondsSinceDeviceStart : ℤ) : ℕ → Action Unit
  | 0     => return
  | n + 1 => do
    let d ← get
    let ch ← MonadExcept.ofExcept (d.createChannel microSecondsSinceDeviceStart)
    set { d with channels := d.channels ++ [ch] }
    createAndAddChannels microSecondsSinceDeviceStart n

def updateNumberOfChannels (num : ℕ) (microSecondsSinceDeviceStart : ℤ) : Action Unit := do
  modify fun d => { d with channels := d.channels.take num }
  let d ← get
  createAndAddChannels microSecondsSinceDeviceStart (num - d.channels.length)

def collectChannel (curTime : ℤ) (active : Bool) (ch : DeviceChannel) : Except Error DeviceChannel :=
  match (Channel.collectSamples curTime active).run ch.channel with
  | .ok sent channel => .ok ⟨channel, ⟨active, sent⟩ :: ch.cycles⟩
  | .error e _       => .error e

def collectChannels (curTime : ℤ) (active : ℕ → Bool) :
    List DeviceChannel → Except Error (List DeviceChannel)
  | []        => return []
  | ch :: chs => do
    let ch ← collectChannel curTime (active 0) ch
    let chs ← collectChannels curTime (fun i => active (i + 1)) chs
    return ch :: chs

-- One turn of the loop. Whether a value signal is active is set from outside. An exception ends the
-- process.
def acqLoop (curTime : ℤ) (active : ℕ → Bool) : Action Unit := do
  let d ← get
  let channels ← MonadExcept.ofExcept (collectChannels curTime active d.channels)
  set { d with channels, lastCollectTime := curTime }

inductive Event
  | write (num : ℕ) (time : ℤ)
  | cycle (time : ℤ) (active : ℕ → Bool)

def Event.time : Event → ℤ
  | .write _ time => time
  | .cycle time _ => time

def Event.step : Event → Action Unit
  | .write num time    => updateNumberOfChannels num time
  | .cycle time active => acqLoop time active

end PlaybackDeviceImpl
end PlaybackDevice
