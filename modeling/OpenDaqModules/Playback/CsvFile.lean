import OpenDaqModules.Playback.Channel

namespace PlaybackDevice

open Platform (Double)
open Sie (str)

def RESOLUTION_STR : Bytes :=
  str "resolution"

def DELTAT_STR : Bytes :=
  str "delta"

def UNIT_STR : Bytes :=
  str "unit"

-- What follows the name and the equals sign, if the item has that name.
def metaValue? (name metaData : Bytes) : Option Bytes :=
  if (name ++ str "=").isPrefixOf metaData then some (metaData.drop (name.length + 1)) else none

namespace Channel

variable [Platform]

def readResolution (resolution : Bytes) : Action Unit :=
  match splitString 0x2f resolution with
  | numerator :: denominator :: _ => do
    let numerator ← MonadExcept.ofExcept (stoi numerator)
    let denominator ← MonadExcept.ofExcept (stoi denominator)
    unless Platform.acceptsRatio numerator.toInt64 denominator.toInt64 do throw .invalidParameter
    modify ({ · with resolution := ⟨numerator.toInt64, denominator.toInt64⟩ })
  | _ => return

def readDeltaT (delta : Bytes) : Action Unit := do
  let delta ← MonadExcept.ofExcept (stoi delta)
  modify ({ · with deltaT := delta.toInt64.toUInt64 })

def readUnit (unit : Bytes) : Action Unit :=
  match splitString 0x2e unit with
  | symbol :: id :: name :: quantity :: _ => do
    let id ← MonadExcept.ofExcept (stoi id)
    modify ({ · with valueUnit := ⟨symbol, id.toInt64, name, quantity⟩ })
  | _ => return

def readMetaData (cellCounter : ℕ) (metaData : Bytes) : Action Unit := do
  if cellCounter = 0 then
    if let some resolution := metaValue? RESOLUTION_STR metaData then readResolution resolution
    else if let some delta := metaValue? DELTAT_STR metaData then readDeltaT delta
  else if cellCounter = 1 then
    if let some unit := metaValue? UNIT_STR metaData then readUnit unit

def readCell (lineCounter cellCounter : ℕ) (cell : Bytes) : Action Unit := do
  if lineCounter = 0 then
    if cellCounter = 0 then modify ({ · with timeSignalName := cell })
    else modify ({ · with valueSignalName := cell })
  else if lineCounter = 1 then
    (splitString 0x3b cell).forM (readMetaData cellCounter)
  else if cellCounter = 1 then
    let value ← MonadExcept.ofExcept (Platform.stod cell)
    modify fun c => { c with fileDataBuffer := c.fileDataBuffer ++ [value] }

def readLine (lineCounter : ℕ) (line : Bytes) : Action Unit :=
  (splitString 0x2c line).zipIdx.forM fun cell => readCell lineCounter cell.2 cell.1

-- A file that cannot be opened has no contents.
def openCSVSignal (file : Option Bytes) : Action Unit := do
  let some contents := file | return
  modify ({ · with fileDataBuffer := [] })
  (splitString 0x0a contents).zipIdx.forM fun line => readLine line.2 line.1

def readFile (filePath : Bytes) (file : Option Bytes) : Action Unit := do
  modify ({ · with filePath })
  if (str ".csv").isSuffixOf filePath then openCSVSignal file

def filePathChanged (filePath : Bytes) (file : Option Bytes) : Action Unit := do
  readFile filePath file
  dataSourceChanged

end Channel

-- Writes of properties. With a path comes what can be read there.
inductive Write [Platform]
  | dataSource (source : DataSource)
  | filePath (path : Bytes) (file : Option Bytes)
  | valueArray (values : List Double)

inductive Event [Platform]
  | write (property : Write)
  | zero (targetValue : Double)
  | collect (curTime : ℤ) (active : Bool)

open Channel

variable [Platform]

def Write.handle : Write → Action Unit
  | .dataSource source  => do
    modify ({ · with dataSource := source })
    dataSourceChanged
  | .filePath path file => filePathChanged path file
  | .valueArray values  => valueDataArrayChanged values

-- What the handlers do before the data source is applied.
def Write.prepare : Write → Action Unit
  | .dataSource source  => modify ({ · with dataSource := source })
  | .filePath path file => readFile path file
  | .valueArray values  => modify ({ · with valueArrayBuffer := values })

theorem Write.handle_eq {w : Write} : w.handle = w.prepare >>= fun _ => dataSourceChanged := by
  cases w <;> rfl

def Event.step : Event → Action Unit
  | .write property         => property.handle
  | .zero targetValue       => Channel.zero targetValue
  | .collect curTime active => do
    let _ ← collectSamples curTime active

end PlaybackDevice
