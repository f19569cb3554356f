import OpenDaqModules.Library.Exec
import OpenDaqModules.Recorder.Samples

-- The packets of openDAQ that the devices send.
namespace Devices

open AdvancedRecorder (DataDescriptor DataRule Ratio)
open Sie (str)

inductive Exception
  -- Of `std::thread`.
  | systemError
  -- Of openDAQ.
  | other
  -- Nothing is known of a process after undefined behaviour.
  | undefinedBehaviour
  deriving DecidableEq

structure DomainPacket where
  dataDescriptor : Option DataDescriptor
  sampleCount    : ℕ
  offset         : Int64

structure DataPacket where
  dataDescriptor : Option DataDescriptor
  domainPacket   : DomainPacket
  sampleCount    : ℕ
  rawData        : Bytes

-- The time signals of both devices.
def timeDescriptor : DataDescriptor where
  name           := str "Time"
  sampleType     := .int64
  rule           := some ⟨.linear, some [(str "delta", .integer 1), (str "start", .integer 0)]⟩
  unit           := some (str "second")
  tickResolution := some ⟨1, 10000⟩

-- What memory holds before it is written to.
abbrev Memory :=
  ℕ → UInt8

def allocate (memory : Memory) (size : ℕ) : Bytes :=
  (List.range size).map memory

def memcpy (dest src : Bytes) (count : ℕ) : Except Exception Bytes :=
  if src.length < count ∨ dest.length < count then .error .undefinedBehaviour
  else .ok (src.take count ++ dest.drop count)

def DataPacketWithDomain (domainPacket : DomainPacket) (descriptor : Option DataDescriptor)
    (sampleCount : ℕ) (memory : Memory) : DataPacket where
  dataDescriptor := descriptor
  domainPacket
  sampleCount
  rawData        := allocate memory (sampleCount * (descriptor.map (·.sampleType.size)).getD 0)

-- One sample of any size.
def BinaryDataPacket (domainPacket : DomainPacket) (descriptor : Option DataDescriptor)
    (sampleMemSize : ℕ) (memory : Memory) : DataPacket where
  dataDescriptor := descriptor
  domainPacket
  sampleCount    := 1
  rawData        := allocate memory sampleMemSize

@[simp]
theorem length_allocate {memory : Memory} {size : ℕ} : (allocate memory size).length = size := by
  rw [allocate, List.length_map, List.length_range]

end Devices
