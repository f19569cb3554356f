import OpenDaqModules.Playback.Collect

namespace PlaybackDevice

open EStateM

variable [Platform] {c d : Channel} {w : Write}

-- What a channel plays stays as it is, and what it has counted.
structure Untouched (c d : Channel) : Prop where
  startTime_eq        : d.startTime = c.startTime
  lastCollectTime_eq  : d.lastCollectTime = c.lastCollectTime
  samplesGenerated_eq : d.samplesGenerated = c.samplesGenerated
  sampleRate_eq       : d.sampleRate = c.sampleRate
  valueSignal_eq      : d.valueSignal = c.valueSignal
  timeSignal_eq       : d.timeSignal = c.timeSignal
  signals_eq          : d.signals = c.signals
  dataBuffer_eq       : d.dataBuffer = c.dataBuffer
  dataBufferIndex_eq  : d.dataBufferIndex = c.dataBufferIndex

namespace Untouched

theorem refl : Untouched c c := by
  constructor <;> rfl

instance : Std.Refl Untouched :=
  ⟨fun _ => refl⟩

instance : IsTrans Channel Untouched where
  trans _ _ _ h h' := {
    startTime_eq        := h'.startTime_eq.trans h.startTime_eq
    lastCollectTime_eq  := h'.lastCollectTime_eq.trans h.lastCollectTime_eq
    samplesGenerated_eq := h'.samplesGenerated_eq.trans h.samplesGenerated_eq
    sampleRate_eq       := h'.sampleRate_eq.trans h.sampleRate_eq
    valueSignal_eq      := h'.valueSignal_eq.trans h.valueSignal_eq
    timeSignal_eq       := h'.timeSignal_eq.trans h.timeSignal_eq
    signals_eq          := h'.signals_eq.trans h.signals_eq
    dataBuffer_eq       := h'.dataBuffer_eq.trans h.dataBuffer_eq
    dataBufferIndex_eq  := h'.dataBufferIndex_eq.trans h.dataBufferIndex_eq
  }

theorem ready (h : Untouched c d) (hc : c.Ready) : d.Ready := by
  cases hc
  case empty hvalue htime hsignals hbuffer =>
    refine .empty ?_ ?_ ?_ ?_
    · rw [h.valueSignal_eq, hvalue]
    · rw [h.timeSignal_eq, htime]
    · rw [h.signals_eq, hsignals]
    · rw [h.dataBuffer_eq, hbuffer]
  case loaded value time hvalue htime hsignals hindex =>
    refine .loaded value time ?_ ?_ ?_ ?_
    · rw [h.valueSignal_eq, hvalue]
    · rw [h.timeSignal_eq, htime]
    · rw [h.signals_eq, hsignals]
    · rwa [h.dataBuffer_eq, h.dataBufferIndex_eq]

end Untouched

namespace Channel

theorem readResolution_keeps {resolution : Bytes} : Keeps Untouched (readResolution resolution) := by
  unfold readResolution
  split
  case h_2 => exact Keeps.pure
  case h_1 =>
    refine Keeps.bind Keeps.ofExcept fun _ => Keeps.bind Keeps.ofExcept fun _ => ?_
    refine Keeps.ite (fun _ => ?_) fun _ => Keeps.bind Keeps.throw fun _ => ?_
    all_goals exact Keeps.modify fun _ => by constructor <;> rfl

theorem readDeltaT_keeps {delta : Bytes} : Keeps Untouched (readDeltaT delta) :=
  Keeps.bind Keeps.ofExcept fun _ => Keeps.modify fun _ => by constructor <;> rfl

theorem readUnit_keeps {unit : Bytes} : Keeps Untouched (readUnit unit) := by
  unfold readUnit
  split
  case h_1 => exact Keeps.bind Keeps.ofExcept fun _ => Keeps.modify fun _ => by constructor <;> rfl
  case h_2 => exact Keeps.pure

theorem readMetaData_keeps {cellCounter : ℕ} {metaData : Bytes} :
    Keeps Untouched (readMetaData cellCounter metaData) := by
  unfold readMetaData
  refine Keeps.ite (fun _ => ?_) fun _ => Keeps.ite (fun _ => ?_) fun _ => Keeps.pure
  case refine_1 =>
    cases metaValue? RESOLUTION_STR metaData
    case some => exact readResolution_keeps
    case none =>
      cases metaValue? DELTAT_STR metaData
      case some => exact readDeltaT_keeps
      case none => exact Keeps.pure
  case refine_2 =>
    cases metaValue? UNIT_STR metaData
    case some => exact readUnit_keeps
    case none => exact Keeps.pure

theorem readCell_keeps {lineCounter cellCounter : ℕ} {cell : Bytes} :
    Keeps Untouched (readCell lineCounter cellCounter cell) := by
  unfold readCell
  refine Keeps.ite (fun _ => Keeps.ite (fun _ => ?_) fun _ => ?_) fun _ =>
    Keeps.ite (fun _ => ?_) fun _ => Keeps.ite (fun _ => ?_) fun _ => Keeps.pure
  case refine_1 => exact Keeps.modify fun _ => by constructor <;> rfl
  case refine_2 => exact Keeps.modify fun _ => by constructor <;> rfl
  case refine_3 => exact Keeps.forM fun _ _ => readMetaData_keeps
  case refine_4 =>
    exact Keeps.bind Keeps.ofExcept fun _ => Keeps.modify fun _ => by constructor <;> rfl

theorem openCSVSignal_keeps {file : Option Bytes} : Keeps Untouched (openCSVSignal file) := by
  cases file
  case none => exact Keeps.pure
  case some contents =>
    refine Keeps.bind (Keeps.modify fun _ => by constructor <;> rfl) fun _ => ?_
    exact Keeps.forM fun _ _ => Keeps.forM fun _ _ => readCell_keeps

end Channel

theorem Write.prepare_keeps : Keeps Untouched w.prepare := by
  cases w
  case dataSource => exact Keeps.modify fun _ => by constructor <;> rfl
  case valueArray => exact Keeps.modify fun _ => by constructor <;> rfl
  case filePath path file =>
    refine Keeps.bind (Keeps.modify fun _ => by constructor <;> rfl) fun _ => ?_
    exact Keeps.ite (fun _ => Channel.openCSVSignal_keeps) fun _ => Keeps.pure

theorem Write.prepare_filePath_run {path : Bytes} {file : Option Bytes}
    (hpath : (Sie.str ".csv").isSuffixOf path) : (Write.filePath path file).prepare.run c =
      (Channel.openCSVSignal file).run { c with filePath := path } := by
  change (Channel.readFile path file).run c = _
  rw [Channel.readFile, run_bind, run_modify, if_pos hpath]

-- Without a reader for the file, or without the file, only the path changes.
theorem Write.prepare_filePath_run_of_unread {path : Bytes} {file : Option Bytes}
    (h : (Sie.str ".csv").isSuffixOf path → file = none) :
    (Write.filePath path file).prepare.run c = .ok () { c with filePath := path } := by
  by_cases hpath : (Sie.str ".csv").isSuffixOf path
  case pos =>
    rw [prepare_filePath_run hpath, h hpath]
    rfl
  case neg =>
    change (Channel.readFile path file).run c = _
    rw [Channel.readFile, run_bind, run_modify, if_neg hpath]
    rfl

theorem Write.handle_run_ok (h : w.prepare.run c = .ok () d) :
    w.handle.run c = Channel.dataSourceChanged.run d := by
  rw [handle_eq, run_bind, h]

theorem Write.handle_run_error {error : Error} (h : w.prepare.run c = .error error d) :
    w.handle.run c = .error error d := by
  rw [handle_eq, run_bind, h]

theorem Write.prepare_untouched : Untouched c (w.prepare.run c).state :=
  w.prepare_keeps c

theorem Event.collect_state {curTime : ℤ} {active : Bool} :
    ((Event.collect curTime active).step.run c).state =
      ((Channel.collectSamples curTime active).run c).state := by
  change ((Channel.collectSamples curTime active >>= fun _ => pure ()).run c).state = _
  rw [run_bind]
  cases (Channel.collectSamples curTime active).run c <;> rfl

end PlaybackDevice
