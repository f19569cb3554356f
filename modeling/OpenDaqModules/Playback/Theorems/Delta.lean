import OpenDaqModules.Playback.Cells
import OpenDaqModules.Playback.Theorems.NewSamples
import OpenDaqModules.Playback.Theorems.Pace

namespace PlaybackDevice

open CsvFile EStateM Updates
open Platform (Double)
open Sie (str)

abbrev Error.Defined (error : Error) : Prop :=
  error ≠ .undefinedBehaviour

namespace Channel

variable [Platform] {c : Channel} {Descriptor : Type}

-- Of the errors of a data source only the division is undefined.

theorem removeSignal_defined {signal : Option (SignalConfig Descriptor)} :
    Raises Error.Defined (removeSignal signal) := by
  cases signal
  case none => exact Raises.throw (by decide)
  case some signal =>
    refine Raises.bind Raises.get fun c => Raises.ite (fun _ => ?_) fun _ => Raises.set
    exact Raises.throw (by decide)

theorem removeChannelSignals_defined : Raises Error.Defined removeChannelSignals := by
  refine Raises.bind Raises.get fun c => Raises.ite (fun _ => ?_) fun _ => Raises.pure
  refine Raises.bind removeSignal_defined fun _ => ?_
  exact Raises.bind removeSignal_defined fun _ => Raises.modify

theorem createAndAddSignal_defined {localId : Bytes} :
    Raises Error.Defined (createAndAddSignal localId : Action (SignalConfig Descriptor)) := by
  refine Raises.bind Raises.get fun c => Raises.ite (fun _ => ?_) fun _ => ?_
  case refine_1 => exact Raises.throw (by decide)
  case refine_2 =>
    refine Raises.ite (fun _ => ?_) fun _ => Raises.bind Raises.set fun _ => Raises.pure
    exact Raises.throw (by decide)

theorem createSignals_defined : Raises Error.Defined createSignals := by
  refine Raises.bind Raises.get fun c => Raises.bind createAndAddSignal_defined fun _ => ?_
  refine Raises.bind Raises.modify fun _ => Raises.bind Raises.get fun _ => ?_
  refine Raises.bind createAndAddSignal_defined fun _ => ?_
  exact Raises.bind Raises.modify fun _ => Raises.modify

-- Whichever data source of the channel is applied, nothing is divided by zero.
theorem dataSourceChanged_defined (hdelta : c.deltaT ≠ 0) {d : Channel} :
    dataSourceChanged.run c ≠ .error .undefinedBehaviour d := by
  intro h
  rw [dataSourceChanged, run_bind] at h
  have hkeeps := SameFileData.of_signals (removeChannelSignals_keeps c)
  cases hremove : removeChannelSignals.run c
  case error error a =>
    rw [hremove] at h
    cases h
    exact removeChannelSignals_defined c _ _ hremove rfl
  case ok _ a =>
    rw [hremove] at h hkeeps
    have hdelta' : a.applyDataSource.deltaT ≠ 0 := by
      rw [applyDataSource_eq]
      exact (congrArg FileData.deltaT hkeeps).trans_ne hdelta
    simp only [run_bind, run_modify, replaceMetaData_run, if_neg hdelta'] at h
    split at h
    case isTrue => cases h
    case isFalse => exact createSignals_defined _ _ _ h rfl

end Channel

variable [Platform] {c : Channel} {e : Event} {events : List Event} {path contents : Bytes}
variable {startTime : ℤ} {base : Int64}

-- The number in the last delta item that a write takes from its file.
def Event.delta? : Event → Option ℤ
  | .write (.filePath path (some contents)) =>
    if (str ".csv").isSuffixOf path then
      ((taken (entries contents)).filterMap Entry.deltaT?).getLast?.map fun delta => delta.toInt64.toInt
    else none
  | _ => none

-- The last number that was in a file, or else the default.
def given (events : List Event) : ℤ :=
  (events.filterMap Event.delta?).getLast?.getD 1000

-- In a file that is read to its end it is the number that the file has by lines and columns.
theorem Event.delta?_of_returns (hpath : (str ".csv").isSuffixOf path)
    (hread : ((Channel.openCSVSignal (some contents)).run c).Returns) :
    (Event.write (.filePath path (some contents))).delta? =
      (CsvFile.delta? contents).map Int32.toInt := by
  rw [Channel.openCSVSignal_run, perform_returns_iff] at hread
  have hnumber : ∀ delta : Int32, delta.toInt64.toUInt64.toInt64.toInt = delta.toInt := by
    intro delta
    rw [Int64.toInt64_toUInt64, Int32.toInt_toInt64]
  rw [Event.delta?, if_pos hpath, taken_eq_filterMap hread]
  change ((converted (entries contents)).filterMap Entry.deltaT?).getLast?.map _ = _
  rw [filterMap_deltaT?, ← List.map_filterMap, List.getLast?_map, Option.map_map, CsvFile.delta?]
  exact congrArg (Option.map · _) (funext hnumber)

theorem Write.handle_deltaT {w : Write} {d : Channel} (h : w.prepare.run c = .ok () d) :
    (w.handle.run c).state.deltaT = d.deltaT := by
  rw [handle_run_ok h]
  exact congrArg FileData.deltaT (Channel.dataSourceChanged_keepsFileData d)

theorem Write.filePath_deltaT (hpath : (str ".csv").isSuffixOf path) :
    ((Write.filePath path (some contents)).handle.run c).state.deltaT =
      ((taken (entries contents)).filterMap Entry.deltaT?).getLast?.getD c.deltaT :=
  congrArg FileData.deltaT (filePath_fileData hpath)

theorem Event.deltaT_step : (e.step.run c).state.deltaT.toInt64.toInt =
    e.delta?.getD c.deltaT.toInt64.toInt := by
  cases e
  case zero => rfl
  case collect time active =>
    rw [collect_state]
    obtain hsame | ⟨n, -, hsame⟩ := Channel.collectSamples_state (c := c) time active
    all_goals exact congrArg (fun delta : UInt64 => delta.toInt64.toInt) hsame.deltaT_eq
  case write w =>
    change (w.handle.run c).state.deltaT.toInt64.toInt = _
    cases w
    case dataSource source => rw [Write.handle_deltaT rfl]; rfl
    case valueArray values => rw [Write.handle_deltaT rfl]; rfl
    case filePath path file =>
      cases file
      case none =>
        rw [Write.handle_deltaT (Write.prepare_filePath_run_of_unread fun _ => rfl)]
        rfl
      case some contents =>
        rw [Event.delta?]
        split
        case isTrue hpath =>
          rw [Write.filePath_deltaT hpath]
          cases ((taken (entries contents)).filterMap Entry.deltaT?).getLast? <;> rfl
        case isFalse hpath =>
          rw [Write.handle_deltaT (Write.prepare_filePath_run_of_unread fun h => absurd h hpath)]
          rfl

theorem deltaT_run : (Exec.run Event.step events c).deltaT.toInt64.toInt =
    (events.filterMap Event.delta?).getLast?.getD c.deltaT.toInt64.toInt := by
  induction events generalizing c
  case nil => rfl
  case cons e events ih =>
    rw [Exec.run_cons, ih, Event.deltaT_step, List.filterMap_cons]
    cases e.delta?
    case none => rfl
    case some delta => simp [List.getLast?_cons]

-- The distance that the samples of the channel have is the number in the file, and whatever else the
-- channel holds, the rate for such a distance is defined.
structure Channel.RateSound (c : Channel) (number : ℤ) : Prop where
  stored   : (c.deltaT.toNat : ℤ) = number
  positive : 1 ≤ number
  defined  : ∀ d d' : Channel, d.deltaT = c.deltaT →
    dataSourceChanged.run d ≠ .error .undefinedBehaviour d'

theorem Channel.rateSound_iff_one_le {number : ℤ} (h : c.deltaT.toInt64.toInt = number) :
    c.RateSound number ↔ 1 ≤ number := by
  refine ⟨RateSound.positive, fun hpositive => ?_⟩
  have hstored : (c.deltaT.toNat : ℤ) = number := by
    rw [toInt_toInt64] at h
    split at h
    case isTrue => exact h
    case isFalse =>
      have hlt := c.deltaT.toNat_lt
      omega
  refine ⟨hstored, hpositive, fun d d' hsame => dataSourceChanged_defined ?_⟩
  rw [hsame]
  rintro hzero
  rw [hzero] at hstored
  exact absurd hstored (by simp; omega)

theorem deltaT_of_initProperties
    (h : Channel.initProperties.run { startTime, microSecondsFromEpochToStartTime := base } =
      .ok () c) : c.deltaT = 1000 := by
  have hkeeps := Channel.initProperties_keepsFileData
    { startTime, microSecondsFromEpochToStartTime := base }
  rw [h] at hkeeps
  exact congrArg FileData.deltaT hkeeps

-- In the runs from a new channel, each file that is read has its distance stored and a rate that is
-- defined if and only if no file has a distance below one.
theorem rateSound_iff
    (hcreate : Channel.initProperties.run { startTime, microSecondsFromEpochToStartTime := base } =
      .ok () c) :
    (∀ run, run <+: events → (Exec.run Event.step run c).RateSound (given run)) ↔
      ∀ e ∈ events, ∀ delta ∈ e.delta?, 1 ≤ delta := by
  have hnumber : ∀ run, (Exec.run Event.step run c).deltaT.toInt64.toInt = given run := by
    intro run
    rw [deltaT_run, deltaT_of_initProperties hcreate, given]
    rfl
  simp only [Channel.rateSound_iff_one_le (hnumber _)]
  constructor
  case mp =>
    intro h e he delta hdelta
    obtain ⟨before, later, rfl⟩ := List.append_of_mem he
    have hgiven := h (before ++ [e]) ⟨later, by simp⟩
    rw [given, List.filterMap_append, List.filterMap_cons, Option.mem_def.mp hdelta] at hgiven
    simpa using hgiven
  case mpr =>
    intro h run hrun
    rw [given]
    cases hlast : (run.filterMap Event.delta?).getLast?
    case none => decide
    case some delta =>
      obtain ⟨e, he, hdelta⟩ := List.mem_filterMap.mp (List.mem_of_getLast? hlast)
      exact h e (hrun.subset he) delta hdelta

omit [Platform] in
theorem rateSound_iff_trailing_text :
    let _ := Platform.exact
    let new : Channel := { startTime := 0, microSecondsFromEpochToStartTime := 0 }
    let file := str "T,V\ndelta= 20 ticks;resolution=1/1000,\n0,3"
    let events := [.write (.filePath (str "a.csv") (some file)), .write (.dataSource .file)]
    ∀ run, run <+: events →
      (Exec.run Event.step run (Channel.initProperties.run new).state).RateSound (given run) := by
  intro _ new file events
  obtain ⟨⟨⟩, hcreate⟩ := Result.returns_iff.mp
    (by decide +kernel : (Channel.initProperties.run new).Returns)
  exact (rateSound_iff hcreate).mpr (by decide +kernel)

-- A distance of zero is stored as it is, and the samples that are being played divide by it. A
-- negative one is stored as a positive one.
omit [Platform] in
theorem not_rateSound_zero :
    let _ := Platform.exact
    let new : Channel := { startTime := 0, microSecondsFromEpochToStartTime := 0 }
    let c := (Channel.initProperties.run new).state
    let zero := str "T,V\ndelta=0,\n0,3"
    let negative := str "T,V\ndelta=-5,\n0,3"
    let load : Bytes → Event := fun file => .write (.filePath (str "a.csv") (some file))
    (Channel.initProperties.run new).Returns ∧
      (∀ file ∈ [zero, negative], ((Channel.openCSVSignal (some file)).run c).Returns ∧
        ¬(Exec.run Event.step [load file] c).RateSound (given [load file])) ∧
      ∃ d, (load zero).step.run c = .error .undefinedBehaviour d := by
  intro _ new c zero negative load
  refine ⟨by decide +kernel, fun file hfile => ?_, ⟨_, rfl⟩⟩
  simp only [List.mem_cons, List.not_mem_nil, or_false] at hfile
  obtain rfl | rfl := hfile
  case inl => exact ⟨by decide +kernel, fun h => absurd h.positive (by decide +kernel)⟩
  case inr => exact ⟨by decide +kernel, fun h => absurd h.positive (by decide +kernel)⟩

end PlaybackDevice
