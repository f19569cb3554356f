import OpenDaqModules.Devices.Camera

namespace CameraDevice.CameraDeviceImpl

open EStateM Devices

variable {d : CameraDeviceImpl} {cameras : List ℕ} {events : List Event}

-- One thread runs for each video channel. The others have been joined.
structure Running (cameras : List ℕ) (d : CameraDeviceImpl) : Prop where
  started  : d.started = true
  quitFlag : d.quitFlag = false
  channels : d.videoChannels.map (·.cameraIndex) = cameras
  threads  : (d.threads.filter (·.joinable)).map (·.videoChannel) = d.videoChannels

structure Stopped (d : CameraDeviceImpl) : Prop where
  started  : d.started = false
  quitFlag : d.quitFlag = true
  threads  : ∀ t ∈ d.threads, t.joins = 1

-- That a thread is joined again shows in the exception.
structure Stops (d : CameraDeviceImpl) : Prop where
  returns : (stop.run d).Returns
  stopped : (stop.run d).state.Stopped

def Event.Correct (cameras : List ℕ) : Event → CameraDeviceImpl → Prop
  | .start, d => (CameraDeviceImpl.start.run d).Returns ∧
    (CameraDeviceImpl.start.run d).state.Running cameras
  | .stop, d => d.Stops
  | .propertyChanged sampleRate, d => d.Stops ∧
    ((CameraDeviceImpl.propertyChanged sampleRate).run d).Returns ∧
    ((CameraDeviceImpl.propertyChanged sampleRate).run d).state.Running cameras

-- The destructor makes the last call.
def Lifecycle (cameras : List ℕ) (events : List Event) : Prop :=
  (create cameras).Running cameras ∧
    Exec.Along Event.step (Event.Correct cameras) (events ++ [.stop]) (create cameras)

section Runs

theorem foldl_configure (elements : List VideoChannelInfo) :
    ∃ channels, elements.foldl (fun d element => { d with
      channels := d.channels.modify element.channel CameraChannelImpl.configure }) d =
        { d with channels } := by
  induction elements generalizing d
  case nil => exact ⟨d.channels, rfl⟩
  case cons element elements ih =>
    obtain ⟨channels, h⟩ := ih
    exact ⟨channels, h⟩

theorem foldl_createCameraChannels (cameras : List ℕ) : ∃ channels videoChannels,
    cameras.foldl (fun d cameraIndex => { d with
      videoChannels := d.videoChannels ++ [⟨cameraIndex, d.channels.length⟩]
      channels      := d.channels ++ [{}] }) d =
        { d with channels, videoChannels := d.videoChannels ++ videoChannels } ∧
      videoChannels.map (·.cameraIndex) = cameras := by
  induction cameras generalizing d
  case nil => exact ⟨d.channels, [], by simp⟩
  case cons camera cameras ih =>
    obtain ⟨channels, videoChannels, h, hcameras⟩ := ih (d := { d with
      videoChannels := d.videoChannels ++ [⟨camera, d.channels.length⟩]
      channels      := d.channels ++ [{}] })
    refine ⟨channels, ⟨camera, d.channels.length⟩ :: videoChannels, ?_, congrArg (camera :: ·) hcameras⟩
    rw [List.foldl_cons, h]
    simp

theorem createCameraChannels_run (cameras : List ℕ) : ∃ channels videoChannels,
    (createCameraChannels cameras).run d =
      .ok () { d with channels, videoChannels := d.videoChannels ++ videoChannels } ∧
      videoChannels.map (·.cameraIndex) = cameras := by
  obtain ⟨channels, videoChannels, h, hcameras⟩ := foldl_createCameraChannels (d := d) cameras
  refine ⟨channels, videoChannels, ?_, hcameras⟩
  rw [createCameraChannels, List.forM_eq_forM, forM_modify_run, h]

theorem configure_run : ∃ channels, configure.run d = .ok () { d with
    channels, timeDescriptor := some Devices.timeDescriptor } := by
  obtain ⟨channels, h⟩ := foldl_configure (d := d) d.videoChannels
  refine ⟨channels, ?_⟩
  simp [configure, forM_modify_run, h]

theorem start_run_started (h : d.started = true) : start.run d = .ok () d := by
  simp [start, h]

theorem start_run (hstarted : d.started = false) (hrate : d.sampleRate ≠ 0) :
    ∃ channels, start.run d = .ok () { d with
      channels
      timeDescriptor := some Devices.timeDescriptor
      quitFlag       := false
      threads        := d.threads ++ d.videoChannels.map fun element =>
        ⟨element, 1000 / d.sampleRate.toNat, 0⟩
      started        := true } := by
  obtain ⟨channels, h⟩ := configure_run (d := d)
  refine ⟨channels, ?_⟩
  simp [start, hstarted, h, intervalTime, hrate]

theorem start_throws (hstarted : d.started = false) (hrate : d.sampleRate = 0) :
    ¬(start.run d).Returns := by
  obtain ⟨channels, h⟩ := configure_run (d := d)
  simp [start, hstarted, h, intervalTime, hrate]
  exact Result.not_returns_error

-- The induction is on the threads that are still to be joined.
theorem join_run {joined rest : List Thread} (h : d.threads = joined ++ rest)
    (hrest : ∀ t ∈ rest, t.joins = 0) :
    (forM (List.range' joined.length rest.length) join).run d =
      .ok () { d with threads := joined ++ rest.map fun t => { t with joins := 1 } } := by
  induction rest generalizing d joined
  case nil => simp [← h]
  case cons t rest ih =>
    have ht : t.joins = 0 := hrest t List.mem_cons_self
    have hget : d.threads[joined.length]? = some t := by
      rw [h, List.getElem?_append_right le_rfl, Nat.sub_self]
      rfl
    have hset : d.threads.set joined.length { t with joins := 1 } =
        (joined ++ [{ t with joins := 1 }]) ++ rest := by
      rw [h, List.set_append_right _ _ le_rfl, Nat.sub_self, List.append_assoc]
      rfl
    have hjoin : (join joined.length).run d =
        .ok () { d with threads := (joined ++ [{ t with joins := 1 }]) ++ rest } := by
      simp [join, hget, ht, Thread.joinable, hset]
    have hnext := ih (d := { d with threads := (joined ++ [{ t with joins := 1 }]) ++ rest }) rfl
      fun t' ht' => hrest t' (List.mem_cons_of_mem t ht')
    rw [List.length_append] at hnext
    rw [List.length_cons, List.range'_succ, List.forM_cons, run_bind, hjoin]
    simpa using hnext

theorem stop_run_stopped (h : d.started = false) : stop.run d = .ok () d := by
  simp [stop, h]

theorem stop_run (hstarted : d.started = true) (hthreads : ∀ t ∈ d.threads, t.joins = 0) :
    stop.run d = .ok () { d with
      quitFlag := true
      threads  := d.threads.map fun t => { t with joins := 1 }
      started  := false } := by
  have hjoin : (forM (List.range d.threads.length) join).run { d with quitFlag := true } =
      .ok () { d with
        quitFlag := true
        threads  := d.threads.map fun t => { t with joins := 1 } } := by
    rw [List.range_eq_range']
    exact join_run (d := { d with quitFlag := true }) (List.nil_append d.threads).symm hthreads
  simp only [hstarted] at hjoin
  simp [stop, hstarted, hjoin]

theorem stop_throws {t : Thread} {rest : List Thread} (hstarted : d.started = true)
    (h : d.threads = t :: rest) (ht : t.joins ≠ 0) : ¬(stop.run d).Returns := by
  have hjoin : (join 0).run { d with quitFlag := true } = .error .systemError { d with
      quitFlag := true
      threads  := { t with joins := t.joins + 1 } :: rest } := by
    simp [join, h, Thread.joinable, ht]
  simp only [hstarted, h] at hjoin
  simp [stop, hstarted, h, List.range_succ_eq_map, hjoin]

theorem propertyChanged_run (sampleRate : Int64) {d' : CameraDeviceImpl}
    (h : stop.run d = .ok () d') : (propertyChanged sampleRate).run d =
      start.run { d' with sampleRate := sampleRate.toUInt64.toUInt32 } := by
  simp [propertyChanged, readProperties, h]

end Runs

-- There has been one thread for each video channel, and there can be others.
structure Equipped (cameras : List ℕ) (d : CameraDeviceImpl) : Prop where
  channels     : d.videoChannels.map (·.cameraIndex) = cameras
  videoThreads : d.threads.map (·.videoChannel) = d.videoChannels
  sampleRate   : d.sampleRate ≠ 0

-- None of the threads has been joined.
structure Begun (cameras : List ℕ) (d : CameraDeviceImpl) : Prop extends Equipped cameras d where
  started  : d.started = true
  quitFlag : d.quitFlag = false
  joins    : ∀ t ∈ d.threads, t.joins = 0

structure Ended (cameras : List ℕ) (d : CameraDeviceImpl) : Prop extends Stopped d, Equipped cameras d

-- The list of threads still has those that the last stop has joined.
structure Reused (d : CameraDeviceImpl) : Prop where
  started : d.started = true
  joined  : ∃ t rest, d.threads = t :: rest ∧ t.joins ≠ 0

namespace Begun

theorem create : (create cameras).Begun cameras := by
  obtain ⟨channels, videoChannels, hchannels, hcameras⟩ :=
    createCameraChannels_run (d := { sampleRate := 10 }) cameras
  have hrate : (10 : UInt32) ≠ 0 := by decide
  obtain ⟨channels', hstart⟩ :=
    CameraDeviceImpl.start_run (d := { sampleRate := 10, channels, videoChannels }) rfl hrate
  have hrun : (construct cameras).run {} = start.run { sampleRate := 10, channels, videoChannels } := by
    have hread : (readProperties 10).run {} = .ok () { sampleRate := 10 } := rfl
    simp [construct, hread, hchannels]
  rw [CameraDeviceImpl.create, hrun, hstart]
  refine ⟨⟨hcameras, ?_, hrate⟩, rfl, rfl, ?_⟩
  all_goals simp [Function.comp_def]

variable (h : d.Begun cameras)
include h

theorem running : d.Running cameras where
  started  := h.started
  quitFlag := h.quitFlag
  channels := h.channels
  threads  := by
    rw [List.filter_eq_self.mpr, h.videoThreads]
    intro t ht
    exact decide_eq_true (h.joins t ht)

theorem stop_run : ∃ d', stop.run d = .ok () d' ∧ d'.Ended cameras := by
  refine ⟨_, CameraDeviceImpl.stop_run h.started h.joins, ⟨rfl, rfl, ?_⟩, h.channels, ?_, h.sampleRate⟩
  case refine_1 =>
    intro t ht
    obtain ⟨_, _, rfl⟩ := List.mem_map.mp ht
    rfl
  case refine_2 =>
    rw [List.map_map]
    exact h.videoThreads

end Begun

namespace Ended

variable (h : d.Ended cameras)
include h

theorem start_run (hcameras : cameras = []) : ∃ d', start.run d = .ok () d' ∧ d'.Begun cameras := by
  obtain ⟨channels, hrun⟩ := CameraDeviceImpl.start_run h.started h.sampleRate
  have hvideo : d.videoChannels = [] := by
    rw [← List.map_eq_nil_iff, h.channels, hcameras]
  have hthreads : d.threads = [] := by
    rw [← List.map_eq_nil_iff, h.videoThreads, hvideo]
  refine ⟨_, hrun, ⟨h.channels, ?_, h.sampleRate⟩, rfl, rfl, ?_⟩
  all_goals simp [hthreads, hvideo]

theorem reused (hcameras : cameras ≠ []) {d' : CameraDeviceImpl} (hrun : start.run d = .ok () d') :
    d'.Reused := by
  obtain ⟨channels, hrun'⟩ := CameraDeviceImpl.start_run h.started h.sampleRate
  rw [hrun'] at hrun
  cases hrun
  cases hthreads : d.threads
  case nil =>
    have hvideo : d.videoChannels = [] := by
      rw [← h.videoThreads, hthreads]
      rfl
    refine absurd ?_ hcameras
    rw [← h.channels, hvideo]
    rfl
  case cons t rest =>
    have ht : t.joins = 1 := h.threads t (by simp [hthreads])
    refine ⟨rfl, t, _, rfl, ?_⟩
    rw [ht]
    exact one_ne_zero

theorem stop_run : stop.run d = .ok () d :=
  stop_run_stopped h.started

theorem readProperties {sampleRate : UInt32} (hrate : sampleRate ≠ 0) :
    Ended cameras { d with sampleRate } :=
  ⟨⟨h.started, h.quitFlag, h.threads⟩, h.channels, h.videoThreads, hrate⟩

end Ended

namespace Reused

variable (h : d.Reused)
include h

theorem not_stops : ¬d.Stops := by
  obtain ⟨t, rest, hthreads, ht⟩ := h.joined
  intro hstops
  exact stop_throws h.started hthreads ht hstops.returns

-- Only a start goes well, and it does nothing.
theorem not_along : ¬Exec.Along Event.step (Event.Correct cameras) (events ++ [.stop]) d := by
  induction events
  case nil => exact fun hcorrect => h.not_stops hcorrect.left
  case cons e events ih =>
    rintro ⟨hcorrect, halong⟩
    cases e
    case start =>
      change Exec.Along _ _ _ (start.run d).state at halong
      rw [start_run_started h.started] at halong
      exact ih halong
    case stop                       => exact h.not_stops hcorrect
    case propertyChanged sampleRate => exact h.not_stops hcorrect.left

end Reused

section Phases

variable {d' : CameraDeviceImpl}

theorem stops_of_run (h : stop.run d = .ok () d') (hended : d'.Ended cameras) : d.Stops where
  returns := by rw [h]; trivial
  stopped := by rw [h]; exact hended.toStopped

theorem stop_run_of_phase (h : d.Begun cameras ∨ d.Ended cameras) :
    ∃ d', stop.run d = .ok () d' ∧ d'.Ended cameras := by
  cases h
  case inl h => exact h.stop_run
  case inr h => exact ⟨d, h.stop_run, h⟩

theorem start_run_of_phase (h : d.Begun [] ∨ d.Ended []) :
    ∃ d', start.run d = .ok () d' ∧ d'.Begun [] := by
  cases h
  case inl h => exact ⟨d, start_run_started h.started, h⟩
  case inr h => exact h.start_run rfl

theorem correct_start (hrun : start.run d = .ok () d') (h : d'.Begun cameras) :
    Event.start.Correct cameras d := by
  rw [Event.Correct, hrun]
  exact ⟨trivial, h.running⟩

end Phases

-- Without a camera there is no thread.
theorem along_nil (h : d.Begun [] ∨ d.Ended []) :
    Exec.Along Event.step (Event.Correct []) (events ++ [.stop]) d ↔
      ∀ sampleRate, .propertyChanged sampleRate ∈ events → sampleRate.toUInt64.toUInt32 ≠ 0 := by
  induction events generalizing d
  case nil =>
    obtain ⟨d', hstop, hended⟩ := stop_run_of_phase h
    exact iff_of_true ⟨stops_of_run hstop hended, trivial⟩ nofun
  case cons e events ih =>
    rw [List.cons_append, Exec.Along]
    cases e
    case start =>
      obtain ⟨d', hstart, hbegun⟩ := start_run_of_phase h
      have hih := ih (.inl hbegun)
      simp [Event.step, hstart, hih, correct_start hstart hbegun]
    case stop =>
      obtain ⟨d', hstop, hended⟩ := stop_run_of_phase h
      have hih := ih (.inr hended)
      simp [Event.step, hstop, hih, Event.Correct, stops_of_run hstop hended]
    case propertyChanged sampleRate =>
      obtain ⟨d', hstop, hended⟩ := stop_run_of_phase h
      have hchanged := propertyChanged_run sampleRate hstop
      by_cases hrate : sampleRate.toUInt64.toUInt32 = 0
      case pos =>
        have hthrows : ¬((propertyChanged sampleRate).run d).Returns := by
          rw [hchanged]
          exact start_throws hended.started hrate
        refine iff_of_false (fun halong => hthrows halong.left.right.left) fun hrates => ?_
        exact hrates sampleRate List.mem_cons_self hrate
      case neg =>
        obtain ⟨d'', hstart, hbegun⟩ := (hended.readProperties hrate).start_run rfl
        rw [hstart] at hchanged
        have hih := ih (.inl hbegun)
        simp [Event.step, hchanged, hih, Event.Correct, stops_of_run hstop hended, hbegun.running, hrate]

theorem not_along_propertyChanged {sampleRate : Int64} (hcameras : cameras ≠ [])
    (h : d.Begun cameras ∨ d.Ended cameras) :
    ¬Exec.Along Event.step (Event.Correct cameras) (.propertyChanged sampleRate :: (events ++ [.stop]))
      d := by
  rintro ⟨hcorrect, halong⟩
  obtain ⟨d', hstop, hended⟩ := stop_run_of_phase h
  have hreturns := hcorrect.right.left
  obtain ⟨⟨⟩, hrun⟩ := Result.returns_iff.mp hreturns
  rw [propertyChanged_run sampleRate hstop] at hreturns
  have hrate : sampleRate.toUInt64.toUInt32 ≠ 0 := fun hrate =>
    start_throws (d := { d' with sampleRate := sampleRate.toUInt64.toUInt32 }) hended.started hrate
      hreturns
  have hreused := (hended.readProperties hrate).reused hcameras
    ((propertyChanged_run sampleRate hstop).symm.trans hrun)
  exact hreused.not_along halong

-- Once the threads have been joined, no call may start others.
theorem Ended.along_iff (hcameras : cameras ≠ []) (h : d.Ended cameras) :
    Exec.Along Event.step (Event.Correct cameras) (events ++ [.stop]) d ↔
      ∀ e ∈ events, e = .stop := by
  induction events
  case nil => exact iff_of_true ⟨stops_of_run h.stop_run h, trivial⟩ nofun
  case cons e events ih =>
    rw [List.cons_append, Exec.Along, List.forall_mem_cons]
    cases e
    case start =>
      refine iff_of_false ?_ fun h => Event.noConfusion h.left
      rintro ⟨hcorrect, halong⟩
      obtain ⟨⟨⟩, hrun⟩ := Result.returns_iff.mp hcorrect.left
      exact (h.reused hcameras hrun).not_along halong
    case stop =>
      simp [Event.step, h.stop_run, ih, Event.Correct, stops_of_run h.stop_run h]
    case propertyChanged sampleRate =>
      exact iff_of_false (not_along_propertyChanged hcameras (.inr h)) fun h =>
        Event.noConfusion h.left

-- After a stop the condition on the calls leaves nothing but stops.
theorem forall_eq_stop_iff : (∀ e ∈ events, e = .stop) ↔
    (∀ sampleRate, .propertyChanged sampleRate ∉ Event.stop :: events) ∧
      (Event.stop :: events).Pairwise fun e e' => e = .stop → e' ≠ .start := by
  rw [List.pairwise_cons]
  constructor
  case mp =>
    intro h
    have hstart : ∀ e ∈ events, e ≠ .start := by
      intro e he
      rw [h e he]
      nofun
    refine ⟨fun sampleRate hmem => ?_, fun e he _ => hstart e he, ?_⟩
    case refine_1 =>
      obtain ⟨⟨⟩⟩ | hmem := List.mem_cons.mp hmem
      cases h _ hmem
    case refine_2 => exact List.pairwise_of_forall_mem_list fun _ _ e' he' _ => hstart e' he'
  case mpr =>
    intro ⟨hchanged, hstart, _⟩ e he
    cases e
    case start                      => exact absurd rfl (hstart .start he rfl)
    case stop                       => rfl
    case propertyChanged sampleRate =>
      exact absurd (List.mem_cons_of_mem _ he) (hchanged sampleRate)

theorem Begun.along_iff (hcameras : cameras ≠ []) (h : d.Begun cameras) :
    Exec.Along Event.step (Event.Correct cameras) (events ++ [.stop]) d ↔
      (∀ sampleRate, .propertyChanged sampleRate ∉ events) ∧
        events.Pairwise fun e e' => e = .stop → e' ≠ .start := by
  induction events
  case nil =>
    obtain ⟨d', hstop, hended⟩ := h.stop_run
    exact iff_of_true ⟨stops_of_run hstop hended, trivial⟩ ⟨nofun, .nil⟩
  case cons e events ih =>
    rw [List.cons_append, Exec.Along]
    cases e
    case start =>
      have hstart := start_run_started h.started
      simp [Event.step, hstart, ih, correct_start hstart h]
    case stop =>
      obtain ⟨d', hstop, hended⟩ := h.stop_run
      rw [← forall_eq_stop_iff, ← hended.along_iff hcameras, Event.step, hstop]
      exact and_iff_right (stops_of_run hstop hended)
    case propertyChanged sampleRate =>
      refine iff_of_false (not_along_propertyChanged hcameras (.inl h)) fun hevents => ?_
      exact hevents.left sampleRate List.mem_cons_self

-- Without a camera the calls are correct until there is no period, and otherwise as long as none of
-- them starts threads after others have been joined.
theorem lifecycle_iff (cameras : List ℕ) (events : List Event) : Lifecycle cameras events ↔
    (cameras = [] ∧
      ∀ sampleRate, .propertyChanged sampleRate ∈ events → sampleRate.toUInt64.toUInt32 ≠ 0) ∨
    ((∀ sampleRate, .propertyChanged sampleRate ∉ events) ∧
      events.Pairwise fun e e' => e = .stop → e' ≠ .start) := by
  have hcreate : (create cameras).Begun cameras := Begun.create
  rw [Lifecycle, and_iff_right hcreate.running]
  cases cameras
  case nil =>
    rw [along_nil (.inl hcreate)]
    constructor
    case mp => exact fun h => .inl ⟨rfl, h⟩
    case mpr =>
      rintro (⟨_, h⟩ | ⟨h, _⟩)
      · exact h
      · exact fun sampleRate hmem => absurd hmem (h sampleRate)
  case cons camera cameras =>
    rw [hcreate.along_iff (List.cons_ne_nil camera cameras)]
    exact (or_iff_right fun h => List.cons_ne_nil camera cameras h.left).symm

-- The stop of the destructor joins the thread once more that a change of the property, or a stop, has
-- joined.
theorem not_lifecycle_started_again :
    ¬Lifecycle [0] [.propertyChanged 100] ∧ ¬Lifecycle [0] [.stop, .start] ∧
      ¬(stop.run (Exec.run Event.step [.propertyChanged 100] (create [0]))).Returns := by
  refine ⟨?_, ?_, ?_⟩
  case refine_1 =>
    intro h
    have hreturns := h.right.right.left.returns
    exact absurd hreturns (by decide +kernel)
  case refine_2 =>
    intro h
    have hreturns := h.right.right.right.left.returns
    exact absurd hreturns (by decide +kernel)
  case refine_3 => decide +kernel

end CameraDevice.CameraDeviceImpl
