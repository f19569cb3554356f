import OpenDaqModules.Devices.Packets

namespace Mtig710Device

open Devices EStateM
open AdvancedRecorder (DataDescriptor)
open Sie (str)

structure Mtig710ChannelImpl where
  outputDescriptor : Option DataDescriptor := none
  sent             : List DataPacket       := []

namespace Mtig710ChannelImpl

-- The limits of the range are -1 and 1.
def configure (c : Mtig710ChannelImpl) : Mtig710ChannelImpl where
  __               := c
  outputDescriptor := some {
    name       := str "Channel"
    sampleType := .float64
    valueRange := some ⟨.float 0xbff0000000000000, .float 0x3ff0000000000000⟩ }

-- The copy takes a sample to be as large as a `float`.
def addData (domainPacket : DomainPacket) (data : Bytes) (sampleCount : ℕ) (memory : Memory)
    (sending : Except Exception Unit) : EStateM Exception Mtig710ChannelImpl Unit := do
  let c ← get
  let dataPacket := DataPacketWithDomain domainPacket c.outputDescriptor sampleCount memory
  let rawData ← MonadExcept.ofExcept (memcpy dataPacket.rawData data (sampleCount * 4))
  MonadExcept.ofExcept sending
  set { c with sent := c.sent ++ [{ dataPacket with rawData }] }

end Mtig710ChannelImpl

structure Mtig710DeviceImpl where
  samplesCaptured : Int64                 := 0
  timeDescriptor  : Option DataDescriptor := none
  channel         : Mtig710ChannelImpl    := {}

namespace Mtig710DeviceImpl

abbrev Action :=
  EStateM Exception Mtig710DeviceImpl

-- What is thrown is thrown again.
def addData (data : Bytes) (sampleCount : ℕ) (memory : Memory) (sending : Except Exception Unit) :
    Action Unit :=
  tryCatch (do
    let d ← get
    let domainPacket : DomainPacket := ⟨d.timeDescriptor, sampleCount, d.samplesCaptured⟩
    zoom (·.channel) (fun channel d => { d with channel })
      (Mtig710ChannelImpl.addData domainPacket data sampleCount memory sending)
    modify fun d => { d with samplesCaptured := d.samplesCaptured + Int64.ofNat sampleCount })
    throw

def configure : Action Unit := do
  modify fun d => { d with channel := d.channel.configure }
  modify fun d => { d with timeDescriptor := some Devices.timeDescriptor }

def start : Action Unit :=
  configure

def create : Mtig710DeviceImpl :=
  (start.run {}).state

-- The caller has as much data as the copy reads. How sending them ends is up to the environment.
structure Call where
  data        : Bytes
  sampleCount : ℕ
  sending     : Except Exception Unit := .ok ()
  enough      : sampleCount * 4 ≤ data.length := by decide

def Call.succeeds (call : Call) : Bool :=
  call.sending.isOk

-- A call, and the memory that its packet is made of.
def step (e : Call × Memory) : Action Unit :=
  addData e.1.data e.1.sampleCount e.2 e.1.sending

end Mtig710DeviceImpl
end Mtig710Device
