import OpenDaqModules.Recorder.Descriptor
import OpenDaqModules.Recorder.Sie.File
import OpenDaqModules.Recorder.Sie.Xml

namespace AdvancedRecorder

open Sie

-- A method of a smart pointer throws unless an object is assigned to it.
def assigned (pointer : Option α) : Except Error α :=
  match pointer with
  | some object => .ok object
  | none        => .error .notAssigned

def Number.toDouble [Host] : Number → Host.Double
  | .int value  => Host.ofInt value.toInt
  | .float bits => Host.ofBits bits

def Ratio.toDouble [Host] (r : Ratio) : Host.Double :=
  Host.div (Host.ofInt r.numerator.toInt) (Host.ofInt r.denominator.toInt)

def Parameter.toInt64 : Parameter → Except Error Int64
  | .integer value   => .ok value
  | .inconvertible _ => .error .conversionFailed

def getOrDefault (parameters : List (Bytes × Parameter)) (key : Bytes) (default : Int64) : Parameter :=
  (parameters.lookup key).getD (.integer default)

def tickResolutionToTransform [Host] (descriptor : DataDescriptor) : Xml.Element :=
  let scale :=
    match descriptor.tickResolution with
    | some resolution => resolution.toDouble
    | none            => Host.ofInt 1
  transform scale (Host.ofInt 0)

def getLinearRuleStartDelta (descriptor : DataDescriptor) : Except Error (Int64 × Int64) := do
  let some rule := descriptor.rule
    | throw (.invalidParameter "Descriptor is not linear-rule")
  let some parameters := rule.parameters
    | throw (.invalidParameter "Descriptor is missing required linear-rule parameters")
  let start ← (getOrDefault parameters (str "start") 0).toInt64
  let delta ← (getOrDefault parameters (str "delta") 1).toInt64
  return (start, delta)

def sampleTypeToSieReadType : SampleType → Except Error (Bytes × UInt32)
  | .float32 => .ok (str "float", 32)
  | .float64 => .ok (str "float", 64)
  | .uint8   => .ok (str "uint", 8)
  | .int8    => .ok (str "int", 8)
  | .uint16  => .ok (str "uint", 16)
  | .int16   => .ok (str "int", 16)
  | .uint32  => .ok (str "uint", 32)
  | .int32   => .ok (str "int", 32)
  | .uint64  => .ok (str "uint", 64)
  | .int64   => .ok (str "int", 64)
  | _        =>
    .error (.invalidParameter "Sample type is not a scalar and has no SIE read type equivalent")

-- The dimension of the domain, which both kinds of channels have.
def timeDimension [Host] (decoderId : UInt32) (domainDescriptor : DataDescriptor) : Xml.Element :=
  let dim0 := dimension 0
    |>.addChild (tickResolutionToTransform domainDescriptor)
    |>.addChild (data decoderId 0)
  match domainDescriptor.unit with
  | some unit => dim0.addChild (units unit)
  | none      => dim0

end AdvancedRecorder
