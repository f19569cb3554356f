import Mathlib.Algebra.Field.Rat
import OpenDaqModules.Recorder.Sie.Format

-- The part of openDAQ's signals, descriptors and packets that the recorder looks at.
namespace AdvancedRecorder

inductive SampleType
  | invalid
  | float32
  | float64
  | uint8
  | int8
  | uint16
  | int16
  | uint32
  | int32
  | uint64
  | int64
  | rangeInt64
  | complexFloat32
  | complexFloat64
  | binary
  | string
  | struct
  | null
  deriving DecidableEq, Repr

inductive DataRuleType
  | other
  | linear
  | constant
  | explicit
  deriving DecidableEq, Repr

inductive DimensionRuleType
  | other
  | linear
  | logarithmic
  | list
  deriving DecidableEq, Repr

inductive Number
  | int (value : Int64)
  | float (bits : UInt64)
  deriving DecidableEq, Repr

-- A parameter of a rule may be any object, and not every object converts to an integer.
inductive Parameter
  | integer (value : Int64)
  | inconvertible (value : Bytes)
  deriving DecidableEq, Repr

structure DataRule where
  type       : DataRuleType
  parameters : Option (List (Bytes × Parameter))
  deriving DecidableEq

structure Dimension where
  ruleType : DimensionRuleType
  size     : UInt64
  deriving DecidableEq

structure Ratio where
  numerator   : Int64
  denominator : Int64
  deriving DecidableEq

def Ratio.toRat (r : Ratio) : ℚ :=
  r.numerator.toInt / r.denominator.toInt

structure Range where
  lowValue  : Number
  highValue : Number
  deriving DecidableEq

structure Scaling where
  inputSampleType  : SampleType
  outputSampleType : SampleType
  deriving DecidableEq

-- What is read of the descriptor of a field of a struct.
structure StructField where
  name       : Bytes
  sampleType : SampleType
  dimensions : Option (List Dimension)
  deriving DecidableEq

-- Of a unit only the name is read. What only a comparison of descriptors looks at is in `rest`.
structure DataDescriptor where
  name           : Bytes
  sampleType     : SampleType
  rule           : Option DataRule          := none
  dimensions     : Option (List Dimension)  := none
  structFields   : List StructField         := []
  unit           : Option Bytes             := none
  valueRange     : Option Range             := none
  tickResolution : Option Ratio             := none
  postScaling    : Option Scaling           := none
  rest           : Bytes                    := []
  deriving DecidableEq

structure DomainPacket where
  dataDescriptor : Option DataDescriptor
  offset         : Option Int64
  rawData        : Bytes

structure DataPacket where
  dataDescriptor : Option DataDescriptor
  domainPacket   : Option DomainPacket
  sampleCount    : UInt64
  rawData        : Bytes

inductive Packet
  | data (packet : DataPacket)
  | event

structure Signal where
  globalId    : Bytes
  description : Bytes
  deriving DecidableEq

end AdvancedRecorder
