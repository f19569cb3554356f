import OpenDaqModules.Recorder.Metadata
import OpenDaqModules.Recorder.Sie.Writer

namespace AdvancedRecorder

open Sie Xml

-- The size of a packed `opendaq_can_message`.
def OPENDAQ_CAN_MESSAGE : ℕ :=
  4 + 1 + 64

structure CanSignalHandler where
  group : UInt32

namespace CanSignalHandler

def supports (valueDescriptor domainDescriptor : Option DataDescriptor) : Except Error Bool := do
  let domainRule := (← assigned domainDescriptor).rule
  if domainRule.map DataRule.type ≠ some .explicit then
    return false
  let valueRule := (← assigned valueDescriptor).rule
  if valueRule.map DataRule.type ≠ some .explicit then
    return false
  let type := (← assigned valueDescriptor).sampleType
  if type ≠ .struct then
    return false
  return true

-- The number of octets of a field that is read without an interpretation.
def rawOctets? (field : StructField) : Option UInt64 :=
  match field.dimensions with
  | some [dimension] =>
    if (field.sampleType = .int8 ∨ field.sampleType = .uint8) ∧ dimension.ruleType = .linear then
      some dimension.size
    else none
  | _ => none

variable [Host]

def readField (dimIndex : UInt32) (field : StructField) : Except Error Element := do
  let var := str "v" ++ Decimal.ofNat dimIndex.toNat
  match rawOctets? field with
  | some octets => return readRaw var octets
  | none        =>
    let (fieldType, size) ← sampleTypeToSieReadType field.sampleType
    return read var fieldType size

def fieldDimension (decoderId dimIndex : UInt32) (field : StructField) : Element :=
  dimension dimIndex
    |>.addChild (tag (str "openDAQ:fieldName") field.name)
    |>.addChild (data decoderId dimIndex)

-- The dimensions of the fields, and how each of them is read.
def fieldElements (decoderId dimIndex : UInt32) :
    List StructField → Except Error (List (Element × Element))
  | []              => return []
  | field :: fields => do
    let dim := fieldDimension decoderId dimIndex field
    let readElement ← readField dimIndex field
    let later ← fieldElements decoderId (dimIndex + 1) fields
    return (dim, readElement) :: later

def loopElement (type : Bytes) (bits : UInt32) (fields : List Element) : Element :=
  let bytes := bits.toNat / 8
  let width := Decimal.ofNat bytes
  let loop := ({ name := str "loop" } : Element)
    |>.addAttribute (str "var") (str "i")
    |>.addAttribute (str "start") (str "0")
    |>.addAttribute (str "end") (str "\x7b$n\x7d")
    |>.addChild (read (str "v0") type bits)
    |>.addChild (seek (str "start")
      (str "\x7b" ++ Decimal.ofNat 4 ++ str " + (" ++ width ++ str " * $n) + (69 * $i)\x7d"))
  fields.foldl Element.addChild loop
    |>.addChild sample
    |>.addChild (seek (str "start")
      (str "\x7b" ++ Decimal.ofNat (4 + bytes) ++ str " + (" ++ width ++ str " * $i)\x7d"))

-- The elements that declare a channel of the group: its decoder, and its test.
def elements (group decoderId channelId testId : UInt32)
    (valueDescriptor domainDescriptor : Option DataDescriptor) : Except Error (List Element) := do
  let domain ← assigned domainDescriptor
  let value ← assigned valueDescriptor
  let channel := channel channelId group value.name
    |>.addChild (tag (str "core:description") (str "Raw CAN messages"))
    |>.addChild (tag (str "data_type") (str "message_can"))
    |>.addChild (tag (str "somat:datamode_type") (str "message_log"))
    |>.addChild (tag (str "core:schema") (str "somat:message"))
    |>.addChild (timeDimension decoderId domain)
  let (type, bits) ← sampleTypeToSieReadType domain.sampleType
  let fields ← fieldElements decoderId 1 value.structFields
  let test := (test testId).addChild ((fields.map Prod.fst).foldl Element.addChild channel)
  let decoder := decoder decoderId
    |>.addChild (read (str "n") (str "uint") 32)
    |>.addChild (loopElement type bits (fields.map Prod.snd))
  return [decoder, test]

variable [Crc32]

def create (testId : UInt32) (valueDescriptor domainDescriptor : Option DataDescriptor) :
    EStateM Error Writer CanSignalHandler := do
  let group ← Writer.allocateGroup
  let decoderId ← Writer.allocateDecoder
  let channelId ← Writer.allocateChannel
  let elements ← MonadExcept.ofExcept <|
    elements group decoderId channelId testId valueDescriptor domainDescriptor
  Writer.writeMetadata (Element.serializeAll 1 elements)
  return { group }

def onDataPacketReceived (handler : CanSignalHandler) (packet : DataPacket) :
    EStateM Error Writer Unit := do
  let some domainPacket := packet.domainPacket | return
  -- The count is narrowed to 32 bits, after a check that no count fails.
  if packet.sampleCount > 0xFFFFFFFFFFFFFFFF then
    return
  let N := packet.sampleCount.toUInt32
  if packet.rawData.length < N.toNat * OPENDAQ_CAN_MESSAGE then
    return
  if domainPacket.rawData.length < N.toNat * 8 then
    return
  Writer.writeBlock handler.group [Host.endian.ofUInt32 N, domainPacket.rawData, packet.rawData]

end CanSignalHandler
end AdvancedRecorder
