import OpenDaqModules.Playback.Entries
import OpenDaqModules.Playback.FileData
import OpenDaqModules.Playback.Steps

namespace PlaybackDevice

open CsvFile EStateM Updates
open Platform (Double)
open Sie (str)

variable [Platform] {c d : Channel} {es : List Entry} {path contents : Bytes} {file : Option Bytes}

-- The samples in the entries are these, and the last that they say of any other member is this.
structure FileData.Repeats (f : FileData) (es : List Entry) : Prop where
  samples         : es.filterMap Entry.sample? = f.fileDataBuffer
  timeSignalName  : ∀ name ∈ (es.filterMap Entry.timeSignalName?).getLast?, name = f.timeSignalName
  valueSignalName : ∀ name ∈ (es.filterMap Entry.valueSignalName?).getLast?, name = f.valueSignalName
  resolution      : ∀ ratio ∈ (es.filterMap Entry.resolution?).getLast?, ratio = f.resolution
  deltaT          : ∀ delta ∈ (es.filterMap Entry.deltaT?).getLast?, delta = f.deltaT
  valueUnit       : ∀ unit ∈ (es.filterMap Entry.valueUnit?).getLast?, unit = f.valueUnit

theorem FileData.after_eq_iff {f : FileData} : f.after es = f ↔ f.Repeats es := by
  constructor
  case mp =>
    intro h
    obtain ⟨hs, ht, hv, hr, hd, hu⟩ := FileData.mk.inj h
    exact ⟨hs, getD_eq_iff.mp ht, getD_eq_iff.mp hv, getD_eq_iff.mp hr, getD_eq_iff.mp hd,
      getD_eq_iff.mp hu⟩
  case mpr =>
    intro h
    rw [after, h.samples, getD_eq_iff.mpr h.timeSignalName, getD_eq_iff.mpr h.valueSignalName,
      getD_eq_iff.mpr h.resolution, getD_eq_iff.mpr h.deltaT, getD_eq_iff.mpr h.valueUnit]

namespace Channel

def withFileData (c : Channel) (f : FileData) : Channel where
  __              := c
  fileDataBuffer  := f.fileDataBuffer
  timeSignalName  := f.timeSignalName
  valueSignalName := f.valueSignalName
  resolution      := f.resolution
  deltaT          := f.deltaT
  valueUnit       := f.valueUnit

theorem made_put : made Entry.put es c = c.withFileData (made Entry.put es c).fileData := by
  induction es generalizing c
  case nil => rfl
  case cons e es ih =>
    have hput : ∀ f, (e.put c).withFileData f = c.withFileData f := by cases e <;> exact fun _ => rfl
    rw [made_cons, ih, hput]
    rfl

end Channel

-- The file cannot be opened, or something in it cannot be converted.
def Incomplete (c : Channel) (path : Bytes) (file : Option Bytes) : Prop :=
  ∀ contents, file = some contents →
    ∃ e d, (Channel.openCSVSignal (some contents)).run { c with filePath := path } = .error e d

-- The write of the path leaves what came from files as it was. Where it throws, it leaves
-- everything as it was but the path.
structure Unharmed (c : Channel) (path : Bytes) (file : Option Bytes) : Prop where
  data : ((Write.filePath path file).handle.run c).state.fileData = c.fileData
  rest : ∀ contents, file = some contents →
    ((Write.filePath path file).handle.run c).state = { c with filePath := path }

theorem filePath_state (hpath : (str ".csv").isSuffixOf path)
    (h : Incomplete c path (some contents)) :
    ((Write.filePath path (some contents)).handle.run c).state =
      made Entry.put (taken (entries contents)) { c with filePath := path, fileDataBuffer := [] } := by
  obtain ⟨e, d, hrun⟩ := h contents rfl
  rw [Write.handle_run_error ((Write.prepare_filePath_run hpath).trans hrun)]
  rw [Channel.openCSVSignal_run] at hrun
  rw [← perform_state, hrun]

-- The state after the exception is made of what was read, which may be what was there.
theorem unharmed_iff (hpath : (str ".csv").isSuffixOf path) (h : Incomplete c path file) :
    Unharmed c path file ↔
      ∀ contents, file = some contents → c.fileData.Repeats (taken (entries contents)) := by
  cases file
  case none =>
    refine iff_of_true ⟨?_, fun _ hsome => nomatch hsome⟩ fun _ hsome => nomatch hsome
    have hread : (Write.filePath path none).prepare.run c = .ok () { c with filePath := path } :=
      Write.prepare_filePath_run hpath
    rw [Write.handle_run_ok hread]
    exact Channel.dataSourceChanged_keepsFileData { c with filePath := path }
  case some contents =>
    have hstate := filePath_state hpath h
    let opened : Channel := { c with filePath := path }
    let read := made Entry.put (taken (entries contents)) { opened with fileDataBuffer := [] }
    have hdata : read.fileData = c.fileData ↔ c.fileData.Repeats (taken (entries contents)) := by
      rw [← FileData.after_eq_iff]
      exact Iff.of_eq (congrArg (· = c.fileData) (Channel.made_put_fileData (c := opened)))
    constructor
    case mp =>
      rintro ⟨hsame, -⟩ _ ⟨⟩
      rw [hstate] at hsame
      exact hdata.mp hsame
    case mpr =>
      intro hrepeats
      have hsame := hdata.mpr (hrepeats contents rfl)
      refine ⟨?_, ?_⟩
      case refine_1 =>
        rw [hstate]
        exact hsame
      case refine_2 =>
        rintro _ ⟨⟩
        rw [hstate, Channel.made_put]
        exact congrArg (Channel.withFileData { opened with fileDataBuffer := [] }) hsame

omit [Platform] in
theorem unharmed_iff_same_names :
    let _ := Platform.exact
    let c : Channel := { startTime := 0, microSecondsFromEpochToStartTime := 0 }
    Unharmed c (str "a.csv") (some (str "AI1Time,AI1\n\n0,x")) := by
  intro _ c
  have hiff := unharmed_iff (c := c) (show (str ".csv").isSuffixOf (str "a.csv") by decide +kernel)
    (show Incomplete c (str "a.csv") (some (str "AI1Time,AI1\n\n0,x")) by
      rintro _ ⟨⟩
      exact ⟨_, _, rfl⟩)
  have htaken : taken (entries (str "AI1Time,AI1\n\n0,x")) =
      [.timeSignalName (str "AI1Time"), .valueSignalName (str "AI1")] := rfl
  refine hiff.mpr ?_
  rintro _ ⟨⟩
  rw [htaken]
  constructor
  case samples => rfl
  case timeSignalName => exact fun _ hname => (Option.some.inj hname).symm
  case valueSignalName => exact fun _ hname => (Option.some.inj hname).symm
  all_goals exact fun _ hnone => nomatch hnone

-- The samples are lost, and what is being played is timed by a file that cannot be read.
omit [Platform] in
theorem not_unharmed_partial :
    let _ := Platform.exact
    let c : Channel := {
      startTime                        := 0
      microSecondsFromEpochToStartTime := 0
      fileDataBuffer                   := [1, 2].map Platform.ofNat }
    let contents := str "AI1Time,AI1\ndelta=5;resolution=x/1\n0,3"
    Incomplete c (str "a.csv") (some contents) ∧ ¬Unharmed c (str "a.csv") (some contents) := by
  intro _ c contents
  have hincomplete : Incomplete c (str "a.csv") (some contents) := by
    rintro _ ⟨⟩
    exact ⟨_, _, rfl⟩
  refine ⟨hincomplete, fun hunharmed => ?_⟩
  have hdata := hunharmed.data
  rw [filePath_state (by decide +kernel) hincomplete] at hdata
  exact absurd (congrArg FileData.deltaT hdata) (by decide +kernel)

end PlaybackDevice
