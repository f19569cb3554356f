import OpenDaqModules.Library.Updates
import OpenDaqModules.Playback.CsvFile

namespace PlaybackDevice

open EStateM
open Platform (Double)

-- What a cell of a file, or an item in it, says about the channel that plays the file.
inductive Entry [Platform]
  | timeSignalName (name : Bytes)
  | valueSignalName (name : Bytes)
  | resolution (resolution : AdvancedRecorder.Ratio)
  | deltaT (deltaT : UInt64)
  | valueUnit (valueUnit : ValueUnit)
  | sample (value : Double)

variable [Platform] {c : Channel} {contents : Bytes}

namespace Entry

def put : Entry → Channel → Channel
  | .timeSignalName name, c  => { c with timeSignalName := name }
  | .valueSignalName name, c => { c with valueSignalName := name }
  | .resolution ratio, c     => { c with resolution := ratio }
  | .deltaT delta, c         => { c with deltaT := delta }
  | .valueUnit unit, c       => { c with valueUnit := unit }
  | .sample value, c         => { c with fileDataBuffer := c.fileDataBuffer ++ [value] }

def timeSignalName? : Entry → Option Bytes
  | .timeSignalName name => some name
  | _                    => none

def valueSignalName? : Entry → Option Bytes
  | .valueSignalName name => some name
  | _                     => none

def resolution? : Entry → Option AdvancedRecorder.Ratio
  | .resolution ratio => some ratio
  | _                 => none

def deltaT? : Entry → Option UInt64
  | .deltaT delta => some delta
  | _             => none

def valueUnit? : Entry → Option ValueUnit
  | .valueUnit unit => some unit
  | _               => none

def sample? : Entry → Option Double
  | .sample value => some value
  | _             => none

end Entry

-- The entries of a file in the order in which they are read. One that cannot be converted is an
-- error.
namespace CsvFile

abbrev Entries :=
  List (Except Error Entry)

def resolutionEntries (resolution : Bytes) : Entries :=
  match splitString 0x2f resolution with
  | numerator :: denominator :: _ =>
    [do
      let numerator ← stoi numerator
      let denominator ← stoi denominator
      if Platform.acceptsRatio numerator.toInt64 denominator.toInt64 then
        return .resolution ⟨numerator.toInt64, denominator.toInt64⟩
      else throw .invalidParameter]
  | _ => []

def deltaEntries (delta : Bytes) : Entries :=
  [do
    let delta ← stoi delta
    return .deltaT delta.toInt64.toUInt64]

def unitEntries (unit : Bytes) : Entries :=
  match splitString 0x2e unit with
  | symbol :: id :: name :: quantity :: _ =>
    [do
      let id ← stoi id
      return .valueUnit ⟨symbol, id.toInt64, name, quantity⟩]
  | _ => []

def metaDataEntries (cellCounter : ℕ) (metaData : Bytes) : Entries :=
  if cellCounter = 0 then
    match metaValue? RESOLUTION_STR metaData, metaValue? DELTAT_STR metaData with
    | some resolution, _ => resolutionEntries resolution
    | none, some delta   => deltaEntries delta
    | none, none         => []
  else if cellCounter = 1 then
    match metaValue? UNIT_STR metaData with
    | some unit => unitEntries unit
    | none      => []
  else []

def cellEntries (lineCounter cellCounter : ℕ) (cell : Bytes) : Entries :=
  if lineCounter = 0 then
    [.ok (if cellCounter = 0 then .timeSignalName cell else .valueSignalName cell)]
  else if lineCounter = 1 then (splitString 0x3b cell).flatMap (metaDataEntries cellCounter)
  else if cellCounter = 1 then
    [do
      let value ← Platform.stod cell
      return .sample value]
  else []

def entries (contents : Bytes) : Entries :=
  (splitString 0x0a contents).zipIdx.flatMap fun line =>
    (splitString 0x2c line.1).zipIdx.flatMap fun cell => cellEntries line.2 cell.2 cell.1

end CsvFile

-- The reader of the file makes one update after the other.
namespace Channel

open CsvFile Updates

theorem readResolution_eq {resolution : Bytes} :
    readResolution resolution = perform Entry.put (resolutionEntries resolution) := by
  unfold readResolution resolutionEntries
  rcases splitString 0x2f resolution with _ | ⟨numerator, _ | ⟨denominator, rest⟩⟩
  case nil => rfl
  case cons.nil => rfl
  case cons.cons =>
    dsimp only
    cases stoi numerator
    case error => rfl
    case ok numerator =>
      cases stoi denominator
      case error => rfl
      case ok denominator =>
        change _ = perform Entry.put
          [if Platform.acceptsRatio numerator.toInt64 denominator.toInt64 then _ else _]
        cases haccepts : Platform.acceptsRatio numerator.toInt64 denominator.toInt64
        all_goals
          simp only [ofExcept_ok, pure_bind, haccepts]
          rfl

theorem readDeltaT_eq {delta : Bytes} :
    readDeltaT delta = perform Entry.put (deltaEntries delta) := by
  unfold readDeltaT deltaEntries
  cases stoi delta <;> rfl

theorem readUnit_eq {unit : Bytes} : readUnit unit = perform Entry.put (unitEntries unit) := by
  unfold readUnit unitEntries
  rcases splitString 0x2e unit with _ | ⟨symbol, _ | ⟨id, _ | ⟨name, _ | ⟨quantity, rest⟩⟩⟩⟩
  case cons.cons.cons.cons =>
    dsimp only
    cases stoi id <;> rfl
  all_goals rfl

theorem readMetaData_eq {cellCounter : ℕ} {metaData : Bytes} :
    readMetaData cellCounter metaData = perform Entry.put (metaDataEntries cellCounter metaData) := by
  unfold readMetaData metaDataEntries
  split
  case isTrue =>
    cases metaValue? RESOLUTION_STR metaData
    case some => exact readResolution_eq
    case none =>
      cases metaValue? DELTAT_STR metaData
      case some => exact readDeltaT_eq
      case none => rfl
  case isFalse =>
    split
    case isTrue =>
      cases metaValue? UNIT_STR metaData
      case some => exact readUnit_eq
      case none => rfl
    case isFalse => rfl

theorem readCell_eq {lineCounter cellCounter : ℕ} {cell : Bytes} :
    readCell lineCounter cellCounter cell =
      perform Entry.put (cellEntries lineCounter cellCounter cell) := by
  unfold readCell cellEntries
  split
  case isTrue => split <;> rfl
  case isFalse =>
    split
    case isTrue =>
      rw [perform_flatMap]
      exact congrArg _ (funext fun _ => readMetaData_eq)
    case isFalse =>
      split
      case isTrue => cases Platform.stod cell <;> rfl
      case isFalse => rfl

theorem readLine_eq {lineCounter : ℕ} {line : Bytes} :
    readLine lineCounter line = perform Entry.put
      ((splitString 0x2c line).zipIdx.flatMap fun cell => cellEntries lineCounter cell.2 cell.1) := by
  rw [perform_flatMap]
  exact congrArg _ (funext fun _ => readCell_eq)

theorem openCSVSignal_run : (openCSVSignal (some contents)).run c =
    (perform Entry.put (entries contents)).run { c with fileDataBuffer := [] } := by
  have hlines : ((splitString 0x0a contents).zipIdx.forM fun line => readLine line.2 line.1) =
      perform Entry.put (entries contents) := by
    rw [entries, perform_flatMap]
    exact congrArg _ (funext fun _ => readLine_eq)
  rw [← hlines]
  rfl

end Channel

end PlaybackDevice
