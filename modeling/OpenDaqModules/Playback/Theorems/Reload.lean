import OpenDaqModules.Playback.Cells

namespace PlaybackDevice

open CsvFile EStateM Updates
open Platform (Double)
open Sie (str)

variable [Platform] {c d : Channel} {f g : FileData} {path contents : Bytes}

-- Where the file says nothing, what was there before is the same.
structure FileData.SameUnsaid (contents : Bytes) (f g : FileData) : Prop where
  timeSignalName  : timeSignalName? contents = none → f.timeSignalName = g.timeSignalName
  valueSignalName : valueSignalName? contents = none → f.valueSignalName = g.valueSignalName
  resolution      : resolution? contents = none → f.resolution = g.resolution
  deltaT          : delta? contents = none → f.deltaT = g.deltaT
  valueUnit       : valueUnit? contents = none → f.valueUnit = g.valueUnit

theorem FileData.reading_eq_iff :
    f.reading contents = g.reading contents ↔ SameUnsaid contents f g := by
  constructor
  case mp =>
    intro h
    obtain ⟨-, htime, hvalue, hresolution, hdelta, hunit⟩ := FileData.mk.inj h
    rw [getD_eq_getD_iff] at htime hvalue hresolution hdelta hunit
    rw [Option.map_eq_none_iff] at hdelta
    exact ⟨htime, hvalue, hresolution, hdelta, hunit⟩
  case mpr =>
    rintro ⟨htime, hvalue, hresolution, hdelta, hunit⟩
    rw [← Option.map_eq_none_iff (f := fun delta => delta.toInt64.toUInt64)] at hdelta
    rw [reading, reading, getD_eq_getD_iff.mpr htime, getD_eq_getD_iff.mpr hvalue,
      getD_eq_getD_iff.mpr hresolution, getD_eq_getD_iff.mpr hdelta, getD_eq_getD_iff.mpr hunit]

-- The data of a channel that has never read a file.
def FileData.initial : FileData :=
  Channel.fileData { startTime := 0, microSecondsFromEpochToStartTime := 0 }

theorem Write.filePath_reading (hpath : (str ".csv").isSuffixOf path)
    (hread : ((Channel.openCSVSignal (some contents)).run c).Returns) :
    ((Write.filePath path (some contents)).handle.run c).state.fileData =
      c.fileData.reading contents := by
  rw [Channel.openCSVSignal_run, perform_returns_iff] at hread
  rw [filePath_fileData hpath, taken_eq_filterMap hread]
  exact FileData.after_converted

-- Whatever has happened to two channels, a file that is read to its end makes their data the same
-- if and only if it overwrites everything in which they differ.
theorem forgets_iff (hpath : (str ".csv").isSuffixOf path)
    (hread : ((Channel.openCSVSignal (some contents)).run c).Returns) :
    let loaded : Channel → FileData := fun c =>
      ((Write.filePath path (some contents)).handle.run c).state.fileData
    (loaded c = loaded d ↔ FileData.SameUnsaid contents c.fileData d.fileData) ∧
      (loaded c = FileData.initial.reading contents ↔
        FileData.SameUnsaid contents c.fileData FileData.initial) := by
  intro loaded
  have hread' : ((Channel.openCSVSignal (some contents)).run d).Returns := by
    rw [Channel.openCSVSignal_run, perform_returns_iff] at hread ⊢
    exact hread
  have hc : loaded c = c.fileData.reading contents := Write.filePath_reading hpath hread
  have hd : loaded d = d.fileData.reading contents := Write.filePath_reading hpath hread'
  rw [hc, hd]
  exact ⟨FileData.reading_eq_iff, FileData.reading_eq_iff⟩

omit [Platform] in
theorem forgets_iff_complete_file :
    let _ := Platform.exact
    let new : Channel := { startTime := 0, microSecondsFromEpochToStartTime := 0 }
    let file := str "T,V\nresolution=1/1000;delta=5,unit=V.1.volts.voltage\n0,3"
    let earlier := str "A,B\nresolution=1/10;delta=7,unit=A.2.amperes.current\n0,9\n1,9"
    let load : Bytes → Event := fun contents => .write (.filePath (str "a.csv") (some contents))
    (Exec.run Event.step [load earlier, load file] new).fileData =
      (Exec.run Event.step [load file] new).fileData := by
  intro _ new file earlier load
  have hread : ((Channel.openCSVSignal (some file)).run (Exec.run Event.step [load earlier] new)).Returns
      := by decide +kernel
  refine (forgets_iff (by decide +kernel) hread).left.mpr ?_
  constructor <;> exact fun hsilent => absurd hsilent (by decide +kernel)

-- The unit of a file stays in force for the next one, and so do its rate and its names.
omit [Platform] in
theorem not_forgets_unit :
    let _ := Platform.exact
    let new : Channel := { startTime := 0, microSecondsFromEpochToStartTime := 0 }
    let file := str "T,V\n,\n0,3"
    let earlier := str "A,B\nresolution=1/10;delta=7,unit=A.2.amperes.current\n0,9\n1,9"
    let load : Bytes → Event := fun contents => .write (.filePath (str "a.csv") (some contents))
    ((Channel.openCSVSignal (some file)).run (Exec.run Event.step [load earlier] new)).Returns ∧
      (Exec.run Event.step [load earlier, load file] new).fileData ≠
        (Exec.run Event.step [load file] new).fileData := by
  intro _ new file earlier load
  refine ⟨by decide +kernel, fun hsame => ?_⟩
  exact absurd (congrArg FileData.valueUnit hsame) (by decide +kernel)

end PlaybackDevice
