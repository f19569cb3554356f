import OpenDaqModules.Playback.CsvFile

namespace PlaybackDevice.Channel

open EStateM
open Platform (Double)

variable [Platform] {c d : Channel} {Descriptor : Type}

-- The buffer that the selected data source provides.
def sourceBuffer (c : Channel) : List Double :=
  match c.dataSource with
  | .array => c.valueArrayBuffer
  | .file  => c.fileDataBuffer

-- The names are accepted, and neither is taken when its signal is created.
def CanCreateSignals (c : Channel) : Prop :=
  (Platform.acceptsId c.valueSignalName ∧ c.valueSignalName ∉ c.signals) ∧
    Platform.acceptsId c.timeSignalName ∧ c.timeSignalName ∉ c.signals ++ [c.valueSignalName]

-- The names are accepted, and there are two of them.
def Named (c : Channel) : Prop :=
  Platform.acceptsId c.valueSignalName ∧ Platform.acceptsId c.timeSignalName ∧
    c.valueSignalName ≠ c.timeSignalName

-- The signals in the folder are those that the channel refers to, and there are signals exactly
-- while there is something to play.
inductive Ready (c : Channel) : Prop
  | empty (hvalue : c.valueSignal = none) (htime : c.timeSignal = none) (hsignals : c.signals = [])
    (hbuffer : c.dataBuffer = [])
  | loaded (value : SignalConfig ValueDescriptor) (time : SignalConfig TimeDescriptor)
    (hvalue : c.valueSignal = some value) (htime : c.timeSignal = some time)
    (hsignals : c.signals = [value.localId, time.localId])
    (hindex : c.dataBufferIndex < c.dataBuffer.length)

-- The state without signals.
def bare (c : Channel) : Channel where
  __      := c.releaseSignals
  signals := []

-- The state in which the signals are created, with nothing changed but what is played.
def swapped (c : Channel) : Channel where
  __              := c
  valueSignal     := none
  timeSignal      := none
  signals         := []
  dataBuffer      := c.sourceBuffer
  dataBufferIndex := if c.sourceBuffer = [] then c.dataBufferIndex else 0

-- The state after that, when nothing was thrown.
def equipped (c : Channel) : Channel where
  __          := c
  valueSignal := some ⟨c.valueSignalName, c.valueDescriptor⟩
  timeSignal  := some ⟨c.timeSignalName, c.timeDescriptor⟩
  signals     := c.signals ++ [c.valueSignalName] ++ [c.timeSignalName]

theorem canCreateSignals_iff (h : c.signals = []) : c.CanCreateSignals ↔ c.Named := by
  simp only [CanCreateSignals, Named, h, List.not_mem_nil, not_false_eq_true, and_true,
    List.nil_append, List.mem_singleton, ne_comm, ne_eq]

theorem applyDataSource_eq : c.applyDataSource =
    { c with
      dataBuffer      := c.sourceBuffer
      dataBufferIndex := if c.sourceBuffer = [] then c.dataBufferIndex else 0 } := by
  cases hsource : c.dataSource
  case array =>
    cases hbuffer : c.valueArrayBuffer <;> simp [applyDataSource, sourceBuffer, hsource, hbuffer]
  case file =>
    cases hbuffer : c.fileDataBuffer <;> simp [applyDataSource, sourceBuffer, hsource, hbuffer]

-- Creating and removing signals changes nothing else.
def SameButSignals (c d : Channel) : Prop :=
  ∃ valueSignal timeSignal signals, d = { c with valueSignal, timeSignal, signals }

instance : Std.Refl SameButSignals :=
  ⟨fun c => ⟨c.valueSignal, c.timeSignal, c.signals, rfl⟩⟩

instance : IsTrans Channel SameButSignals where
  trans := by
    rintro _ _ _ ⟨_, _, _, rfl⟩ ⟨valueSignal, timeSignal, signals, rfl⟩
    exact ⟨valueSignal, timeSignal, signals, rfl⟩

theorem removeSignal_keeps {signal : Option (SignalConfig Descriptor)} :
    Keeps SameButSignals (removeSignal signal) := by
  cases signal
  case none => exact Keeps.throw
  case some signal =>
    refine Keeps.get_bind fun c => ?_
    rw [run_ite]
    split
    case isTrue  => exact refl_of SameButSignals c
    case isFalse => exact ⟨_, _, _, rfl⟩

theorem removeChannelSignals_keeps : Keeps SameButSignals removeChannelSignals := by
  refine Keeps.bind Keeps.get fun _ => Keeps.ite (fun _ => ?_) fun _ => Keeps.pure
  refine Keeps.bind removeSignal_keeps fun _ => Keeps.bind removeSignal_keeps fun _ => ?_
  exact Keeps.modify fun _ => ⟨_, _, _, rfl⟩

theorem createAndAddSignal_keeps {localId : Bytes} :
    Keeps SameButSignals (createAndAddSignal localId : Action (SignalConfig Descriptor)) := by
  refine Keeps.get_bind fun c => ?_
  rw [run_ite, run_ite]
  split
  case isTrue => exact refl_of SameButSignals c
  case isFalse =>
    split
    case isTrue  => exact refl_of SameButSignals c
    case isFalse => exact ⟨_, _, _, rfl⟩

theorem createSignals_keeps : Keeps SameButSignals createSignals := by
  refine Keeps.bind Keeps.get fun _ => Keeps.bind createAndAddSignal_keeps fun _ => ?_
  refine Keeps.bind (Keeps.modify fun _ => ⟨_, _, _, rfl⟩) fun _ => ?_
  refine Keeps.bind Keeps.get fun _ => Keeps.bind createAndAddSignal_keeps fun _ => ?_
  refine Keeps.bind (Keeps.modify fun _ => ⟨_, _, _, rfl⟩) fun _ => ?_
  exact Keeps.modify fun _ => ⟨_, _, _, rfl⟩

theorem Ready.removeChannelSignals_run (h : c.Ready) : removeChannelSignals.run c = .ok () c.bare := by
  cases h
  case empty hvalue htime hsignals hbuffer =>
    cases c
    cases hvalue
    cases htime
    cases hsignals
    rfl
  case loaded value time hvalue htime hsignals hindex =>
    cases c
    cases hvalue
    cases htime
    cases hsignals
    simp [removeChannelSignals, removeSignal, run_bind, releaseSignals, bare]

theorem createAndAddSignal_run {localId : Bytes} (hid : Platform.acceptsId localId)
    (hnew : localId ∉ c.signals) :
    (createAndAddSignal localId : Action (SignalConfig Descriptor)).run c =
      .ok { localId } { c with signals := c.signals ++ [localId] } := by
  simp only [createAndAddSignal, run_bind, run_get, hid, hnew, not_true_eq_false, if_false]
  rfl

theorem createAndAddSignal_run_error (Descriptor : Type) {localId : Bytes}
    (h : ¬(Platform.acceptsId localId ∧ localId ∉ c.signals)) :
    ∃ e, (createAndAddSignal localId : Action (SignalConfig Descriptor)).run c = .error e c := by
  by_cases hid : Platform.acceptsId localId
  case neg =>
    refine ⟨.invalidParameter, ?_⟩
    simp only [createAndAddSignal, run_bind, run_get, hid]
    rfl
  case pos =>
    have hold : localId ∈ c.signals := by simpa [hid] using h
    refine ⟨.duplicateItem, ?_⟩
    simp only [createAndAddSignal, run_bind, run_get, hid, hold, not_true_eq_false, if_false, if_true]
    rfl

theorem createSignals_run (h : c.CanCreateSignals) : createSignals.run c = .ok () c.equipped := by
  obtain ⟨⟨hvalue, hnew⟩, htime, hnew'⟩ := h
  simp only [createSignals, run_bind, run_get, run_modify]
  rw [createAndAddSignal_run hvalue hnew]
  dsimp only
  rw [createAndAddSignal_run htime hnew']
  rfl

-- Where a signal cannot be created the time signal remains what it was.
theorem createSignals_run_error (h : ¬c.CanCreateSignals) : ∃ e d,
    createSignals.run c = .error e d ∧ d.timeSignal = c.timeSignal ∧ d.dataBuffer = c.dataBuffer := by
  by_cases hvalue : Platform.acceptsId c.valueSignalName ∧ c.valueSignalName ∉ c.signals
  case neg =>
    obtain ⟨e, he⟩ := createAndAddSignal_run_error ValueDescriptor hvalue
    refine ⟨e, c, ?_, rfl, rfl⟩
    simp only [createSignals, run_bind, run_get, he]
  case pos =>
    have htime : ¬(Platform.acceptsId c.timeSignalName ∧
        c.timeSignalName ∉ c.signals ++ [c.valueSignalName]) := fun htime => h ⟨hvalue, htime⟩
    let created : Channel := { c with
      valueSignal := some ⟨c.valueSignalName, none⟩
      signals     := c.signals ++ [c.valueSignalName] }
    obtain ⟨e, he⟩ := createAndAddSignal_run_error TimeDescriptor (c := created) htime
    refine ⟨e, created, ?_, rfl, rfl⟩
    simp only [createSignals, run_bind, run_get, run_modify]
    rw [createAndAddSignal_run hvalue.left hvalue.right]
    dsimp only
    rw [he]

theorem of_createSignals (h : createSignals.run c = .ok () d) : d = c.equipped := by
  by_cases hcan : c.CanCreateSignals
  case pos =>
    rw [createSignals_run hcan] at h
    cases h
    rfl
  case neg =>
    obtain ⟨e, d', herror, -⟩ := createSignals_run_error hcan
    rw [herror] at h
    cases h

theorem replaceMetaData_run : replaceMetaData.run c =
    if c.dataBuffer = [] then .ok () c
    else if c.deltaT = 0 then .error .undefinedBehaviour c
    else createSignals.run { c with sampleRate := c.fileRate } := by
  simp only [replaceMetaData, run_bind, run_get, run_ite, List.isEmpty_iff]
  rfl

theorem Ready.dataSourceChanged_run (h : c.Ready) : dataSourceChanged.run c =
    if c.sourceBuffer = [] then .ok () c.swapped
    else if c.deltaT = 0 then .error .undefinedBehaviour c.swapped
    else createSignals.run { c.swapped with sampleRate := c.fileRate } := by
  simp only [dataSourceChanged, run_bind, h.removeChannelSignals_run, run_modify]
  rw [applyDataSource_eq, replaceMetaData_run]
  rfl

theorem Ready.dataSourceChanged_run_equipped (h : c.Ready) (hnamed : c.Named)
    (hbuffer : c.sourceBuffer ≠ []) (hdelta : c.deltaT ≠ 0) :
    dataSourceChanged.run c = .ok () (equipped { c.swapped with sampleRate := c.fileRate }) := by
  rw [h.dataSourceChanged_run, if_neg hbuffer, if_neg hdelta]
  exact createSignals_run ((canCreateSignals_iff rfl).mpr hnamed)

-- The constructor applies the data source twice.
theorem of_initProperties {startTime : ℤ} {base : Int64}
    (h : initProperties.run { startTime, microSecondsFromEpochToStartTime := base } = .ok () d) :
    ∃ c, dataSourceChanged.run {
        startTime
        microSecondsFromEpochToStartTime := base
        valueArrayBuffer                 := valueArrayDefault
      } = .ok () c ∧ dataSourceChanged.run c = .ok () d := by
  rw [initProperties, run_bind] at h
  split at h
  case h_1 c hfirst => exact ⟨c, hfirst, h⟩
  case h_2 => cases h

-- Once a data source with something to play is in place, its rate and its signals are too.
theorem equipped_of_dataSourceChanged (h : dataSourceChanged.run c = .ok () d)
    (hbuffer : d.dataBuffer ≠ []) : ∃ a : Channel, a.dataBufferIndex = 0 ∧
      d = equipped { a with sampleRate := a.fileRate } := by
  simp only [dataSourceChanged, run_bind, run_modify] at h
  cases hremove : removeChannelSignals.run c
  case error e a =>
    rw [hremove] at h
    cases h
  case ok _ a =>
    rw [hremove] at h
    simp only [replaceMetaData_run] at h
    by_cases hempty : a.applyDataSource.dataBuffer = []
    case pos =>
      rw [if_pos hempty] at h
      cases h
      exact absurd hempty hbuffer
    case neg =>
      rw [if_neg hempty] at h
      by_cases hdelta : a.applyDataSource.deltaT = 0
      case pos =>
        rw [if_pos hdelta] at h
        cases h
      case neg =>
        rw [if_neg hdelta] at h
        refine ⟨a.applyDataSource, ?_, of_createSignals h⟩
        rw [applyDataSource_eq] at hempty ⊢
        exact if_neg hempty

theorem of_dataSourceChanged (h : dataSourceChanged.run c = .ok () d) (hbuffer : d.dataBuffer ≠ []) :
    d.valueSignal = some ⟨d.valueSignalName, d.valueDescriptor⟩ ∧
      d.timeSignal = some ⟨d.timeSignalName, d.timeDescriptor⟩ ∧ d.dataBufferIndex = 0 := by
  obtain ⟨a, hindex, rfl⟩ := equipped_of_dataSourceChanged h hbuffer
  exact ⟨rfl, rfl, hindex⟩

end PlaybackDevice.Channel
