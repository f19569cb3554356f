import OpenDaqModules.Library.Exec
import OpenDaqModules.Playback.Platform
import OpenDaqModules.Recorder.Descriptor

namespace PlaybackDevice

open AdvancedRecorder (Ratio)
open Platform (Double)
open Sie (str)

structure ValueUnit where
  symbol   : Bytes
  id       : Int64
  name     : Bytes
  quantity : Bytes
  deriving DecidableEq

structure ValueDescriptor where
  unit : ValueUnit
  name : Bytes
  deriving DecidableEq

-- The rule is linear and starts at 0.
structure TimeDescriptor where
  tickResolution : Ratio
  delta          : Int64
  name           : Bytes
  deriving DecidableEq

structure SignalConfig (Descriptor : Type) where
  localId    : Bytes
  descriptor : Option Descriptor := none
  deriving DecidableEq

structure DomainPacket where
  descriptor  : Option TimeDescriptor
  sampleCount : UInt64
  offset      : Int64
  deriving DecidableEq

structure DataPacket (Double : Type) where
  descriptor   : Option ValueDescriptor
  domainPacket : DomainPacket
  sampleCount  : UInt64
  rawData      : List Double
  deriving DecidableEq

-- What one call of `collectSamples` sends, on the value signal and on the time signal. Of the two
-- packets the first may be null.
structure Sent (Double : Type) where
  dataPacket   : Option (DataPacket Double)
  domainPacket : DomainPacket
  deriving DecidableEq

inductive DataSource
  | array
  | file
  deriving DecidableEq

-- Times are counts of microseconds. Of the signal folder only the identifiers are kept.
structure Channel [Platform] where
  startTime                       : ℤ
  microSecondsFromEpochToStartTime : Int64
  lastCollectTime                 : ℤ := 0
  filePath                        : Bytes := []
  dataSource                      : DataSource := .array
  samplesGenerated                : UInt64 := 0
  deltaT                          : UInt64 := 1000
  sampleRate                      : UInt64 := 10
  resolution                      : Ratio := ⟨1, 1000000⟩
  lastValue                       : Double := Platform.ofNat 0
  zeroOffset                      : Double := Platform.ofNat 0
  timeSignalName                  : Bytes := str "AI1Time"
  valueSignalName                 : Bytes := str "AI1"
  valueUnit                       : ValueUnit := ⟨str "n/a", -1, str "not defined", str "n/a"⟩
  valueSignal                     : Option (SignalConfig ValueDescriptor) := none
  timeSignal                      : Option (SignalConfig TimeDescriptor) := none
  signals                         : List Bytes := []
  fileDataBuffer                  : List Double := []
  valueArrayBuffer                : List Double := []
  dataBuffer                      : List Double := []
  dataBufferIndex                 : ℕ := 0

namespace Channel

variable [Platform] {Descriptor : Type}

abbrev Action :=
  EStateM Error Channel

-- Signals

def createAndAddSignal (localId : Bytes) : Action (SignalConfig Descriptor) := do
  let c ← get
  if ¬Platform.acceptsId localId then throw .invalidParameter
  else if localId ∈ c.signals then throw .duplicateItem
  else
    set { c with signals := c.signals ++ [localId] }
    return { localId }

def removeSignal : Option (SignalConfig Descriptor) → Action Unit
  | none        => throw .notAssigned
  | some signal => do
    let c ← get
    if signal.localId ∉ c.signals then throw .notFound
    else set { c with signals := c.signals.erase signal.localId }

def valueDescriptor (c : Channel) : ValueDescriptor where
  unit := c.valueUnit
  name := c.valueSignalName

def timeDescriptor (c : Channel) : TimeDescriptor where
  tickResolution := c.resolution
  delta          := c.deltaT.toInt64
  name           := c.timeSignalName

def buildSignalDescriptors (c : Channel) : Channel where
  __          := c
  valueSignal := c.valueSignal.map ({ · with descriptor := c.valueDescriptor })
  timeSignal  := c.timeSignal.map ({ · with descriptor := c.timeDescriptor })

def createSignals : Action Unit := do
  let valueSignal ← createAndAddSignal (← get).valueSignalName
  modify ({ · with valueSignal := some valueSignal })
  let timeSignal ← createAndAddSignal (← get).timeSignalName
  modify ({ · with timeSignal := some timeSignal })
  modify buildSignalDescriptors

def releaseSignals (c : Channel) : Channel where
  __          := c
  valueSignal := none
  timeSignal  := none

def removeChannelSignals : Action Unit := do
  let c ← get
  if c.valueSignal.isSome then
    removeSignal c.valueSignal
    removeSignal c.timeSignal
    modify releaseSignals

-- Data sources

def applyDataSource (c : Channel) : Channel :=
  let c := { c with dataBuffer := [] }
  match c.dataSource with
  | .array =>
    if c.valueArrayBuffer.isEmpty then c
    else { c with dataBuffer := c.valueArrayBuffer, dataBufferIndex := 0 }
  | .file  =>
    if c.fileDataBuffer.isEmpty then c
    else { c with dataBuffer := c.fileDataBuffer, dataBufferIndex := 0 }

-- The integer arithmetic of the source: signed operands are converted to unsigned ones.
def fileRate (c : Channel) : UInt64 :=
  c.resolution.denominator.toUInt64 / c.deltaT * c.resolution.numerator.toUInt64

def replaceMetaData : Action Unit := do
  let c ← get
  if c.dataBuffer.isEmpty then return
  else if c.deltaT = 0 then throw .undefinedBehaviour
  else
    set { c with sampleRate := c.fileRate }
    createSignals

def dataSourceChanged : Action Unit := do
  removeChannelSignals
  modify applyDataSource
  replaceMetaData

def valueDataArrayChanged (valueArray : List Double) : Action Unit := do
  modify ({ · with valueArrayBuffer := valueArray })
  dataSourceChanged

-- Playback

-- The sample periods in so many microseconds. Each of the four operations rounds.
def periods (elapsed : ℤ) (sampleRate : UInt64) : ℚ :=
  let seconds := Platform.round (Platform.round elapsed / 1000000)
  Platform.round (seconds * Platform.round sampleRate.toNat)

-- They are truncated, and the cast is undefined where the result does not fit.
def getSamplesSinceStart (c : Channel) (time : ℤ) : Except Error UInt64 :=
  let periods := periods (time - c.startTime) c.sampleRate
  let samples := periods.num.tdiv periods.den
  if 0 ≤ samples ∧ samples < 2 ^ 64 then .ok (UInt64.ofNat samples.toNat)
  else .error .undefinedBehaviour

-- The loop of `generateSamples`: what is written, and where it leaves `dataBufferIndex`.
def playBuffer (dataBuffer : List Double) (zeroOffset : Double) :
    ℕ → ℕ → Except Error (List Double × ℕ)
  | 0, dataBufferIndex              => .ok ([], dataBufferIndex)
  | newSamples + 1, dataBufferIndex => do
    let some item := dataBuffer[dataBufferIndex]? | throw .undefinedBehaviour
    let dataBufferIndex := if dataBufferIndex + 1 ≥ dataBuffer.length then 0 else dataBufferIndex + 1
    let (buffer, dataBufferIndex) ← playBuffer dataBuffer zeroOffset newSamples dataBufferIndex
    return (Platform.add item zeroOffset :: buffer, dataBufferIndex)

def generateSamples (curTime : Int64) (newSamples : UInt64) : Action (Sent Double) := do
  let c ← get
  let some timeSignal := c.timeSignal | throw .notAssigned
  let domainPacket := ⟨timeSignal.descriptor, newSamples, curTime⟩
  if c.dataBuffer.isEmpty then return ⟨none, domainPacket⟩
  let some valueSignal := c.valueSignal | throw .notAssigned
  let (buffer, dataBufferIndex) ←
    MonadExcept.ofExcept (playBuffer c.dataBuffer c.zeroOffset newSamples.toNat c.dataBufferIndex)
  let lastValue := buffer.head?.elim c.lastValue (Platform.sub · c.zeroOffset)
  set { c with dataBufferIndex, lastValue }
  return ⟨some ⟨valueSignal.descriptor, domainPacket, newSamples, buffer⟩, domainPacket⟩

def sendSamples (newSamples : UInt64) (active : Bool) : Action (Option (Sent Double)) := do
  let c ← get
  if c.valueSignal.isSome && active then
    let packetTime := c.samplesGenerated * c.deltaT + c.microSecondsFromEpochToStartTime.toUInt64
    let sent ← generateSamples packetTime.toInt64 newSamples
    return some sent
  else return none

def collectNewSamples (samplesSinceStart : UInt64) (active : Bool) :
    Action (Option (Sent Double)) := do
  let c ← get
  let newSamples := samplesSinceStart - c.samplesGenerated
  if newSamples > 0 then
    let sent ← sendSamples newSamples active
    modify ({ · with samplesGenerated := samplesSinceStart })
    return sent
  else return none

-- Whether the value signal is active is set from outside.
def collectSamples (curTime : ℤ) (active : Bool) : Action (Option (Sent Double)) := do
  let c ← get
  let samplesSinceStart ← MonadExcept.ofExcept (c.getSamplesSinceStart curTime)
  let sent ← collectNewSamples samplesSinceStart active
  modify ({ · with lastCollectTime := curTime })
  return sent

def zero (targetValue : Double) : Action Unit :=
  modify fun c => { c with zeroOffset := Platform.sub targetValue c.lastValue }

-- Construction

def valueArrayDefault : List Double :=
  [1, 2, 3, 4, 5].map Platform.ofNat

def initProperties : Action Unit := do
  valueDataArrayChanged valueArrayDefault
  dataSourceChanged

end Channel
end PlaybackDevice
