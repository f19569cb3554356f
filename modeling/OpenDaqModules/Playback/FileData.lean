import OpenDaqModules.Playback.Entries
import OpenDaqModules.Playback.Steps

namespace PlaybackDevice

open CsvFile EStateM Updates
open Platform (Double)
open Sie (str)

-- The data and the metadata that come from a file.
structure FileData [Platform] where
  fileDataBuffer  : List Double
  timeSignalName  : Bytes
  valueSignalName : Bytes
  resolution      : AdvancedRecorder.Ratio
  deltaT          : UInt64
  valueUnit       : ValueUnit

variable [Platform] {c d : Channel} {es : List Entry} {path contents : Bytes}

-- What the entries of a file leave of it. The samples are those of the file alone.
def FileData.after (f : FileData) (es : List Entry) : FileData where
  fileDataBuffer  := es.filterMap Entry.sample?
  timeSignalName  := (es.filterMap Entry.timeSignalName?).getLast?.getD f.timeSignalName
  valueSignalName := (es.filterMap Entry.valueSignalName?).getLast?.getD f.valueSignalName
  resolution      := (es.filterMap Entry.resolution?).getLast?.getD f.resolution
  deltaT          := (es.filterMap Entry.deltaT?).getLast?.getD f.deltaT
  valueUnit       := (es.filterMap Entry.valueUnit?).getLast?.getD f.valueUnit

namespace Channel

def fileData (c : Channel) : FileData where
  fileDataBuffer  := c.fileDataBuffer
  timeSignalName  := c.timeSignalName
  valueSignalName := c.valueSignalName
  resolution      := c.resolution
  deltaT          := c.deltaT
  valueUnit       := c.valueUnit

theorem made_put_fileData :
    (made Entry.put es { c with fileDataBuffer := [] }).fileData = c.fileData.after es := by
  let start : Channel := { c with fileDataBuffer := [] }
  have hsamples : (made Entry.put es start).fileDataBuffer = [] ++ es.filterMap Entry.sample? :=
    get_made_append fun e _ => by cases e <;> simp [Entry.put, Entry.sample?]
  have htime : (made Entry.put es start).timeSignalName =
      (es.filterMap Entry.timeSignalName?).getLast?.getD start.timeSignalName :=
    get_made fun e _ => by cases e <;> rfl
  have hvalue : (made Entry.put es start).valueSignalName =
      (es.filterMap Entry.valueSignalName?).getLast?.getD start.valueSignalName :=
    get_made fun e _ => by cases e <;> rfl
  have hresolution : (made Entry.put es start).resolution =
      (es.filterMap Entry.resolution?).getLast?.getD start.resolution :=
    get_made fun e _ => by cases e <;> rfl
  have hdelta : (made Entry.put es start).deltaT =
      (es.filterMap Entry.deltaT?).getLast?.getD start.deltaT :=
    get_made fun e _ => by cases e <;> rfl
  have hunit : (made Entry.put es start).valueUnit =
      (es.filterMap Entry.valueUnit?).getLast?.getD start.valueUnit :=
    get_made fun e _ => by cases e <;> rfl
  rw [List.nil_append] at hsamples
  change FileData.mk _ _ _ _ _ _ = FileData.mk _ _ _ _ _ _
  rw [hsamples, htime, hvalue, hresolution, hdelta, hunit]
  rfl

-- Applying a data source does not change what has been read.
def SameFileData (c d : Channel) : Prop :=
  d.fileData = c.fileData

instance : Std.Refl SameFileData :=
  ⟨fun _ => rfl⟩

instance : IsTrans Channel SameFileData :=
  ⟨fun _ _ _ h h' => h'.trans h⟩

theorem SameFileData.of_signals (h : SameButSignals c d) : SameFileData c d := by
  obtain ⟨_, _, _, rfl⟩ := h
  rfl

theorem replaceMetaData_keepsFileData : Keeps SameFileData replaceMetaData := by
  intro c
  rw [replaceMetaData_run]
  split
  case isTrue => rfl
  case isFalse =>
    split
    case isTrue => rfl
    case isFalse =>
      have hcreated := SameFileData.of_signals (createSignals_keeps { c with sampleRate := c.fileRate })
      exact hcreated

theorem dataSourceChanged_keepsFileData : Keeps SameFileData dataSourceChanged := by
  refine Keeps.bind (.mono (fun _ _ => .of_signals) removeChannelSignals_keeps) fun _ => ?_
  refine Keeps.bind (Keeps.modify fun _ => ?_) fun _ => replaceMetaData_keepsFileData
  rw [applyDataSource_eq]
  rfl

theorem SameFileData.of_played (h : Played c d) : SameFileData c d := by
  obtain ⟨_, _, rfl⟩ := h
  rfl

theorem initProperties_keepsFileData : Keeps SameFileData initProperties := by
  refine Keeps.bind ?_ fun _ => dataSourceChanged_keepsFileData
  exact Keeps.bind (Keeps.modify fun _ => rfl) fun _ => dataSourceChanged_keepsFileData

end Channel

-- What is left of a file that has been written, whether it could be read to its end or not.
theorem Write.filePath_fileData (hpath : (str ".csv").isSuffixOf path) :
    ((Write.filePath path (some contents)).handle.run c).state.fileData =
      c.fileData.after (taken (entries contents)) := by
  let opened : Channel := { c with filePath := path }
  have hread : ((Channel.openCSVSignal (some contents)).run opened).state.fileData =
      c.fileData.after (taken (entries contents)) := by
    rw [Channel.openCSVSignal_run, perform_state]
    exact Channel.made_put_fileData (c := opened)
  rw [← prepare_filePath_run hpath] at hread
  cases hprepare : (Write.filePath path (some contents)).prepare.run c
  case error e d =>
    rw [hprepare] at hread
    rw [handle_run_error hprepare]
    exact hread
  case ok _ d =>
    rw [hprepare] at hread
    rw [handle_run_ok hprepare]
    exact (Channel.dataSourceChanged_keepsFileData d).trans hread

end PlaybackDevice
