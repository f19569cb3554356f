import OpenDaqModules.Recorder.Metadata
import OpenDaqModules.Recorder.Sie.Writer

namespace AdvancedRecorder

open Sie Xml

-- The number of a sample type in openDAQ's enumeration.
def SampleType.toNat : SampleType → ℕ :=
  SampleType.ctorIdx

def unsupportedSampleType (type : SampleType) : Error :=
  .invalidParameter s!"Unsupported openDAQ sample type {type.toNat}"

def openDaqSampleTypeToSieDataType : SampleType → Except Error Bytes
  | .float32 => .ok (str "sequential_float32")
  | .float64 => .ok (str "sequential_float64")
  | .uint8   => .ok (str "sequential_uint8")
  | .int8    => .ok (str "sequential_int8")
  | .uint16  => .ok (str "sequential_uint16")
  | .int16   => .ok (str "sequential_int16")
  | .uint32  => .ok (str "sequential_uint32")
  | .int32   => .ok (str "sequential_int32")
  | .uint64  => .ok (str "sequential_uint64")
  | .int64   => .ok (str "sequential_int64")
  | type     => .error (unsupportedSampleType type)

def openDaqSampleTypeToSieDataFormat : SampleType → Except Error Bytes
  | .float32 | .float64                   => .ok (str "float")
  | .uint8 | .uint16 | .uint32 | .uint64  => .ok (str "uint")
  | .int8 | .int16 | .int32 | .int64      => .ok (str "int")
  | type                                  => .error (unsupportedSampleType type)

def openDaqSampleTypeToSieBits : SampleType → Except Error UInt32
  | .float32          => .ok 32
  | .float64          => .ok 64
  | .uint8 | .int8    => .ok 8
  | .uint16 | .int16  => .ok 16
  | .uint32 | .int32  => .ok 32
  | .uint64 | .int64  => .ok 64
  | type              => .error (unsupportedSampleType type)

structure ScalarLinearSignalHandler where
  group : UInt32

namespace ScalarLinearSignalHandler

def supports (valueDescriptor domainDescriptor : Option DataDescriptor) : Except Error Bool := do
  let domainRule := (← assigned domainDescriptor).rule
  if domainRule.map DataRule.type ≠ some .linear then
    return false
  let valueRule := (← assigned valueDescriptor).rule
  if valueRule.map DataRule.type ≠ some .explicit then
    return false
  let type := (← assigned valueDescriptor).sampleType
  if type ∉ [.float32, .float64, .uint8, .int8, .uint16, .int16, .uint32, .int32, .uint64, .int64] then
    return false
  let dimensions := (← assigned valueDescriptor).dimensions
  if 0 < (dimensions.getD []).length then
    return false
  return true

variable [Host]

def decoderElement (decoderId : UInt32) (start delta : Int64) (type : Bytes) (bits : UInt32) :
    Element :=
  let loop := ({ name := str "loop" } : Element)
    |>.addAttribute (str "var") (str "v0")
    |>.addAttribute (str "start") (str "\x7b$offset + " ++ Decimal.ofInt start.toInt ++ str "\x7d")
    |>.addAttribute (str "increment") (Decimal.ofInt delta.toInt)
    |>.addChild (read (str "v1") type bits)
    |>.addChild sample
  decoder decoderId
    |>.addChild (read (str "offset") (str "int") 64)
    |>.addChild loop

def valueDimension (decoderId : UInt32) (valueDescriptor : DataDescriptor) : Element :=
  let dim1 := dimension 1
    |>.addChild (data decoderId 1)
  let dim1 :=
    match valueDescriptor.unit with
    | some unit => dim1.addChild (units unit)
    | none      => dim1
  match valueDescriptor.valueRange with
  | some range => dim1
    |>.addChild (tag (str "FS_Min") (Host.fixed range.lowValue.toDouble))
    |>.addChild (tag (str "FS_Max") (Host.fixed range.highValue.toDouble))
  | none       => dim1

def sampleRate (domainDescriptor : DataDescriptor) (delta : Int64) : Host.Double :=
  let resolution :=
    match domainDescriptor.tickResolution with
    | some tickResolution => tickResolution.toDouble
    | none                => Host.ofInt 1
  Host.div (Host.div (Host.ofInt 1) resolution) (Host.ofInt delta.toInt)

-- The elements that declare a channel of the group: its decoder, and its test.
def elements (group decoderId channelId testId : UInt32) (uuid : Bytes) (signal : Signal)
    (valueDescriptor domainDescriptor : Option DataDescriptor) : Except Error (List Element) := do
  let (start, delta) ← getLinearRuleStartDelta (← assigned domainDescriptor)
  let (type, bits) ← sampleTypeToSieReadType (← assigned valueDescriptor).sampleType
  let value ← assigned valueDescriptor
  let domain ← assigned domainDescriptor
  let channel := channel channelId group value.name
    |>.addChild (tag (str "core:uuid") uuid)
    |>.addChild (tag (str "data_type") (← openDaqSampleTypeToSieDataType value.sampleType))
    |>.addChild (tag (str "somat:data_format") (← openDaqSampleTypeToSieDataFormat value.sampleType))
    |>.addChild (tag (str "core:description") signal.description)
    |>.addChild (tag (str "somat:input_channel") signal.globalId)
    |>.addChild (tag (str "core:sample_rate") (Host.fixed (sampleRate domain delta)))
    |>.addChild (tag (str "somat:data_bits")
      (Decimal.ofNat (← openDaqSampleTypeToSieBits value.sampleType).toNat))
    |>.addChild (tag (str "core:schema") (str "somat:sequential"))
    |>.addChild (timeDimension decoderId domain)
    |>.addChild (valueDimension decoderId value)
  return [decoderElement decoderId start delta type bits, (test testId).addChild channel]

variable [Crc32]

def create (testId : UInt32) (signal : Signal)
    (valueDescriptor domainDescriptor : Option DataDescriptor) :
    EStateM Error Writer ScalarLinearSignalHandler := do
  let group ← Writer.allocateGroup
  let decoderId ← Writer.allocateDecoder
  let uuid := (← get).uuids (← get).nextChannelId
  let channelId ← Writer.allocateChannel
  let elements ← MonadExcept.ofExcept <|
    elements group decoderId channelId testId uuid signal valueDescriptor domainDescriptor
  Writer.writeMetadata (Element.serializeAll 1 elements)
  return { group }

def onDataPacketReceived (handler : ScalarLinearSignalHandler) (packet : DataPacket) :
    EStateM Error Writer Unit := do
  let some domainPacket := packet.domainPacket | return
  let some offset := domainPacket.offset | return
  Writer.writeBlock handler.group [Host.endian.ofUInt64 offset.toUInt64, packet.rawData]

end ScalarLinearSignalHandler
end AdvancedRecorder
