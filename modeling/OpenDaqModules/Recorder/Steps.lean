import OpenDaqModules.Recorder.Ports

namespace AdvancedRecorder.AdvancedRecorderImpl

open Sie EStateM

variable {r r' : AdvancedRecorderImpl}

-- The recording flag after an event.
def Event.recording : Event → Bool → Bool
  | .startRecording, _      => true
  | .stopRecording, _       => false
  | .activeChanged false, _ => false
  | _, recording            => recording

-- The changes for which an event demands a reconfiguration.
inductive Prepared (r : AdvancedRecorderImpl) : Event → AdvancedRecorderImpl → Prop
  | startRecording : Prepared r .startRecording { r with recordingActive := true }
  | stopRecording : Prepared r .stopRecording { r with recordingActive := false }
  | deactivated : Prepared r (.activeChanged false) { r with active := false, recordingActive := false }
  | writeFilename {name : Bytes} : Prepared r (.writeFilename name) { r with filename := name }
  | connect (hport : r.ports.any (·.id = port)) :
    Prepared r (.connect port signal) (r.setConnection port (some { signal })).portAdded
  | disconnect (hconnection : (r.connection port).isSome) (hcount : count ≤ r.portCount)
    (hfree : ∀ p ∈ (r.setConnection port none).ports.drop count, p.connection = none) :
    Prepared r (.disconnect port) ((r.setConnection port none).portsTrimmed count)

namespace Prepared

variable {e : Event}

-- Neither the recording nor what became of the earlier ones is touched.
structure Unchanged (r r' : AdvancedRecorderImpl) : Prop where
  writer   : r'.writer   = r.writer
  signals  : r'.signals  = r.signals
  writers  : r'.writers  = r.writers
  attempts : r'.attempts = r.attempts
  disk     : r'.disk     = r.disk

theorem unchanged (h : Prepared r e r') : Unchanged r r' := by
  cases h <;> exact ⟨rfl, rfl, rfl, rfl, rfl⟩

theorem recordingActive (h : Prepared r e r') :
    r'.recordingActive = e.recording r.recordingActive := by
  cases h <;> rfl

theorem orderly (h : Prepared r e r') (hr : r.Orderly) : r'.Orderly := by
  cases h
  case connect             => exact hr.connected.portAdded
  case disconnect hcount _ => exact (hr.disconnected _).portsTrimmed hcount
  all_goals exact ⟨hr.names, hr.ids, hr.fresh, hr.drained⟩

end Prepared

-- The writer of a file that was just opened.
def newWriter (schedule : List Outcome) (uuids : ℕ → Bytes) : Writer :=
  { writer := IndexedWriter.create schedule, uuids }

-- The state in which a new writer takes part in the recording.
def publish (w : Writer) (r : AdvancedRecorderImpl) : AdvancedRecorderImpl where
  __ := r
  attempts := r.attempts ++ [r.filename]
  writer   := some r.writers.length
  writers  := r.writers ++ [w]

variable [Crc32]

def closeWriter (w : Writer) : Writer :=
  { w with writer := (IndexedWriter.destroy.run w.writer).state }

def closed (r : AdvancedRecorderImpl) : AdvancedRecorderImpl where
  __ := r
  signals := []
  writer  := none
  writers :=
    match r.writer with
    | none   => r.writers
    | some i => r.writers.modify i closeWriter

-- What a reconfiguration makes of a state.
inductive Reconfigured (r : AdvancedRecorderImpl) : AdvancedRecorderImpl → Prop
  | kept {i : ℕ} (hrec : r.recordingActive = true) (hwriter : r.writer = some i) :
    Reconfigured r (updateSignals i r)
  | failed (hrec : r.recordingActive = true) (hwriter : r.writer = none)
    (hdisk : r.disk r.attempts.length = .failed) :
    Reconfigured r { r with attempts := r.attempts ++ [r.filename] }
  | opened {schedule : List Outcome} {uuids : ℕ → Bytes} {w : Writer}
    (hrec : r.recordingActive = true) (hwriter : r.writer = none)
    (hdisk : r.disk r.attempts.length = .opened schedule uuids)
    (hrun : (Writer.writeMetadata preamble).run (newWriter schedule uuids) = .ok () w) :
    Reconfigured r (updateSignals r.writers.length (publish w r))
  | published {schedule : List Outcome} {uuids : ℕ → Bytes} {e : Error} {w : Writer}
    (hrec : r.recordingActive = true) (hwriter : r.writer = none)
    (hdisk : r.disk r.attempts.length = .opened schedule uuids)
    (hrun : (Writer.writeMetadata preamble).run (newWriter schedule uuids) = .error e w) :
    Reconfigured r (publish w r)
  | closed (hrec : r.recordingActive = false) :
    Reconfigured r (closed r)

omit [Crc32] in
theorem openWriter_run {filename : Bytes} :
    (openWriter filename).run r =
      match r.disk r.attempts.length with
      | .failed                => .error (.system "failed to open file")
          { r with attempts := r.attempts ++ [filename] }
      | .opened schedule uuids => .ok r.writers.length { r with
          attempts := r.attempts ++ [filename]
          writers  := r.writers ++ [newWriter schedule uuids] } := by
  simp only [openWriter, run_bind, run_get, run_set]
  cases r.disk r.attempts.length <;> rfl

omit [Crc32] in
theorem onWriter_run {method : EStateM Error Writer α} {i : ℕ} (h : r.writers[i]? = some w) :
    (onWriter i method).run r =
      match method.run w with
      | .ok a w    => .ok a { r with writers := r.writers.set i w }
      | .error e w => .error e { r with writers := r.writers.set i w } := by
  cases hrun : method.run w
  all_goals
    rw [EStateM.run] at hrun
    simp only [onWriter, EStateM.run, h, hrun]

theorem openedWriter_run (hwriter : r.writer = none)
    (hdisk : r.disk r.attempts.length = .opened schedule uuids) :
    (openedWriter r.filename).run r =
      match (Writer.writeMetadata preamble).run (newWriter schedule uuids) with
      | .ok _ w    => .ok r.writers.length (publish w r)
      | .error e w => .error e (publish w r) := by
  let r' : AdvancedRecorderImpl := { r with
    attempts := r.attempts ++ [r.filename]
    writer   := some r.writers.length
    writers  := r.writers ++ [newWriter schedule uuids] }
  have hr' : r'.writers[r.writers.length]? = some (newWriter schedule uuids) := by simp [r']
  have hpublish : ∀ w, { r' with writers := r'.writers.set r.writers.length w } = publish w r := by
    simp [r', publish]
  have hrun : (openedWriter r.filename).run r =
      (do onWriter r.writers.length (Writer.writeMetadata preamble)
          return r.writers.length).run r' := by
    simp [openedWriter, run_get, run_bind, hwriter, openWriter_run, hdisk, r']
  rw [hrun, run_bind, onWriter_run hr']
  cases (Writer.writeMetadata preamble).run (newWriter schedule uuids) <;> simp [hpublish]

omit [Crc32] in
theorem onWriter_state {method : EStateM Error Writer α} {i : ℕ} :
    ((onWriter i method).run r).state =
      { r with writers := r.writers.modify i fun w => (method.run w).state } := by
  cases hw : r.writers[i]?
  case none =>
    have hlength := List.getElem?_eq_none_iff.mp hw
    simp only [onWriter, EStateM.run, hw, Result.state_error, List.modify_eq_self hlength]
  case some w =>
    obtain ⟨hi, rfl⟩ := List.getElem?_eq_some_iff.mp hw
    rw [onWriter_run hw, List.modify_eq_take_cons_drop hi]
    cases method.run r.writers[i] <;> simp [List.set_eq_take_append_cons_drop, hi]

theorem resetWriter_state : (resetWriter.run { r with signals := [] }).state = closed r := by
  cases hwriter : r.writer
  case none   => simp [resetWriter, closed, hwriter]
  case some i =>
    let destroy : EStateM Error Writer Unit :=
      EStateM.zoom Writer.writer (fun v w => { w with writer := v }) IndexedWriter.destroy
    have hclose : (fun w => (destroy.run w).state) = closeWriter := by
      funext w
      simp [destroy, closeWriter, IndexedWriter.destroy_run]
    simp only [resetWriter, run_bind, run_get, hwriter, run_modify, onWriter_state, closed]
    rw [← hclose]

theorem reconfigured : Reconfigured r (reconfigure.run r).state := by
  cases hrec : r.recordingActive
  case false =>
    have hrun : reconfigure.run r = resetWriter.run { r with signals := [] } := by
      simp [reconfigure, hrec]
    rw [hrun, resetWriter_state]
    exact .closed hrec
  case true =>
    have hrun : reconfigure.run r =
        (do modify (updateSignals (← openedWriter r.filename))).run r := by
      simp [reconfigure, hrec]
    rw [hrun, run_bind]
    cases hwriter : r.writer
    case some i =>
      have : (openedWriter r.filename).run r = .ok i r := by simp [openedWriter, hwriter]
      rw [this]
      exact .kept hrec hwriter
    case none =>
      cases hdisk : r.disk r.attempts.length
      case failed =>
        have : (openedWriter r.filename).run r = .error (.system "failed to open file")
            { r with attempts := r.attempts ++ [r.filename] } := by
          simp [openedWriter, hwriter, openWriter_run, hdisk]
        rw [this]
        exact .failed hrec hwriter hdisk
      case opened schedule uuids =>
        rw [openedWriter_run hwriter hdisk]
        cases hw : (Writer.writeMetadata preamble).run (newWriter schedule uuids)
        case ok    => exact .opened hrec hwriter hdisk hw
        case error => exact .published hrec hwriter hdisk hw

section Packets

variable {port : ℕ} {method : EStateM Error (AdvancedRecorderSignal × Writer) Unit}
  {R : AdvancedRecorderImpl → AdvancedRecorderImpl → Prop}

-- The state in which a method has run on a signal and on its writer.
def withSignal (port writer : ℕ) (x : AdvancedRecorderSignal × Writer) (r : AdvancedRecorderImpl) :
    AdvancedRecorderImpl where
  __ := r
  signals := r.signals.map fun y => if y.1 = port then (port, x.1) else y
  writers := r.writers.set writer x.2

omit [Crc32] in
theorem onSignal_state (hs : r.signals.lookup port = some s) (hw : r.writers[s.writer]? = some w) :
    ((onSignal port method).run r).state =
      r.withSignal port s.writer (method.run (s, w)).state := by
  simp only [onSignal, EStateM.run, hs, hw]
  cases method (s, w) <;> rfl

omit [Crc32] in
-- Without a signal or a writer, nothing happens.
theorem onSignal_cases (port : ℕ) (method : EStateM Error (AdvancedRecorderSignal × Writer) Unit)
    (r : AdvancedRecorderImpl) :
    (∃ s w, r.signals.lookup port = some s ∧ r.writers[s.writer]? = some w ∧
      ((onSignal port method).run r).state =
        r.withSignal port s.writer (method.run (s, w)).state) ∨
    (∀ s, r.signals.lookup port = some s → r.writers[s.writer]? = none) ∧
      ((onSignal port method).run r).state = r := by
  cases hs : r.signals.lookup port
  case none   => exact .inr ⟨(fun _ h => nomatch h), by simp [onSignal, EStateM.run, hs]⟩
  case some s =>
    cases hw : r.writers[s.writer]?
    case none   => exact .inr ⟨fun _ h => by cases h; exact hw, by simp [onSignal, EStateM.run, hs, hw]⟩
    case some w => exact .inl ⟨s, w, rfl, hw, onSignal_state hs hw⟩

omit [Crc32] in
-- A packet concerns the signals and the files only.
theorem onSignal_frame (port : ℕ) (method : EStateM Error (AdvancedRecorderSignal × Writer) Unit)
    (r : AdvancedRecorderImpl) : ((onSignal port method).run r).state = { r with
      signals := ((onSignal port method).run r).state.signals
      writers := ((onSignal port method).run r).state.writers } := by
  cases onSignal_cases port method r
  case inr hcase => rw [hcase.right]
  case inl hcase =>
    obtain ⟨s, w, _, _, hstate⟩ := hcase
    rw [hstate]
    rfl

omit [Crc32] in
theorem onSignal_keeps [Std.Refl R]
    (h : ∀ r s w, r.signals.lookup port = some s → r.writers[s.writer]? = some w →
      R r (r.withSignal port s.writer (method.run (s, w)).state)) :
    Keeps R (onSignal port method) := by
  intro r
  cases onSignal_cases port method r
  case inl hcase =>
    obtain ⟨s, w, hs, hw, hstate⟩ := hcase
    exact hstate ▸ h r s w hs hw
  case inr hcase => exact hcase.right.symm ▸ Std.Refl.refl r

-- A packet is taken out of the queue before anything can go wrong with it.
theorem recordQueue_state [Host] (hr : r.Orderly) (hc : r.connection port = some { signal }) :
    ((recordQueue port signal [packet]).run <|
        r.setConnection port (some { signal, queue := [packet] })).state =
      ((onSignal port (AdvancedRecorderSignal.onPacketReceived packet)).run r).state := by
  have hempty : (r.setConnection port (some { signal, queue := [packet] })).setConnection port
      (some { signal }) = r := by
    rw [setConnection_setConnection, ← hc, hr.setConnection_self]
  simp only [recordQueue, run_bind, run_modify, hempty]
  cases (onSignal port (AdvancedRecorderSignal.onPacketReceived packet)).run r <;> rfl

end Packets

-- The events that have no effect: those of ports which are not there, or which lack a connection.
def Ignored (r : AdvancedRecorderImpl) : Event → Prop
  | .connect port _  => ¬r.ports.any (·.id = port)
  | .disconnect port => r.connection port = none
  | .packet port _   => r.connection port = none
  | _                => False

variable [Host]

-- What an event makes of a state.
inductive Transition (r : AdvancedRecorderImpl) : Event → AdvancedRecorderImpl → Prop
  | reconfigured {e : Event} {r₁ r₂ : AdvancedRecorderImpl} (hprep : Prepared r e r₁)
    (hreconf : Reconfigured r₁ r₂) : Transition r e r₂
  | activated : Transition r (.activeChanged true) { r with active := true }
  | ignored {e : Event} (h : Ignored r e) : Transition r e r
  | packet {port : ℕ} {signal : Signal} {packet : Packet}
    (hconnection : r.connection port = some { signal }) :
    Transition r (.packet port packet)
      ((onSignal port (AdvancedRecorderSignal.onPacketReceived packet)).run r).state

theorem exec_connect_run (h : r.Orderly) (hport : r.ports.any (·.id = port)) :
    (exec (.connect port signal)).run r =
      reconfigure.run (r.setConnection port (some { signal })).portAdded := by
  rw [exec, run_bind, run_get]
  simp only [hport, if_true, run_bind, run_modify, onConnected, addInputPort_run h.connected]

theorem exec_disconnect_run (h : r.Orderly) (hconnection : r.connection port = some c) :
    ∃ count, Trimmed (r.setConnection port none).ports count ∧
      (exec (.disconnect port)).run r =
        reconfigure.run ((r.setConnection port none).portsTrimmed count) := by
  obtain ⟨count, htrimmed, htrim⟩ := trimInputPorts_trimmed (h.disconnected port)
  refine ⟨count, htrimmed, ?_⟩
  simp only [exec, run_bind, run_get, hconnection, Option.isSome_some, if_true, run_modify,
    onDisconnected, htrim]

theorem transition {e : Event} (h : r.Orderly) : Transition r e ((exec e).run r).state := by
  cases e
  case startRecording => exact .reconfigured .startRecording reconfigured
  case stopRecording  => exact .reconfigured .stopRecording reconfigured
  case writeFilename  => exact .reconfigured .writeFilename reconfigured
  case activeChanged active =>
    cases active
    case true  => exact .activated
    case false => exact .reconfigured .deactivated reconfigured
  case connect port signal =>
    by_cases hport : r.ports.any (·.id = port)
    case pos =>
      rw [exec_connect_run h hport]
      exact .reconfigured (.connect hport) reconfigured
    case neg =>
      have hrun : (exec (.connect port signal)).run r = .ok () r := by
        rw [exec, run_bind, run_get]
        simp only [hport]
        rfl
      rw [hrun]
      exact .ignored hport
  case disconnect port =>
    cases hconnection : r.connection port
    case none =>
      have hrun : (exec (.disconnect port)).run r = .ok () r := by
        simp [exec, run_bind, run_get, hconnection]
      rw [hrun]
      exact .ignored hconnection
    case some c =>
      obtain ⟨count, htrimmed, hrun⟩ := exec_disconnect_run h hconnection
      have hcount : count ≤ r.portCount := htrimmed.le.trans (h.disconnected _).length.le
      rw [hrun]
      exact .reconfigured (.disconnect (by simp [hconnection]) hcount htrimmed.removed) reconfigured
  case packet port packet =>
    cases hconnection : r.connection port
    case none =>
      have hrun : (exec (.packet port packet)).run r = .ok () r := by
        simp [exec, run_bind, run_get, hconnection]
      rw [hrun]
      exact .ignored hconnection
    case some c =>
      obtain ⟨signal, queue⟩ := c
      obtain rfl : queue = [] := h.queue_eq hconnection
      have hrun : (exec (.packet port packet)).run r =
          (recordQueue port signal [packet]).run
            (r.setConnection port (some { signal, queue := [packet] })) := by
        have hport := any_id_of_connection hconnection
        simp [exec, run_bind, run_get, hconnection, run_modify, onPacketReceived,
          connection_setConnection hport]
      rw [hrun, recordQueue_state h hconnection]
      exact .packet hconnection

omit [Host] in
theorem Reconfigured.orderly (h : Reconfigured r r') (hr : r.Orderly) : r'.Orderly := by
  cases h <;> exact ⟨hr.names, hr.ids, hr.fresh, hr.drained⟩

theorem Transition.orderly {e : Event} (h : Transition r e r') (hr : r.Orderly) : r'.Orderly := by
  cases h
  case reconfigured r₁ hprep h => exact h.orderly (hprep.orderly hr)
  case activated            => exact ⟨hr.names, hr.ids, hr.fresh, hr.drained⟩
  case ignored              => exact hr
  case packet port signal packet _ =>
    have hkeeps : Keeps (Preserved Orderly)
        (onSignal port (AdvancedRecorderSignal.onPacketReceived packet)) :=
      onSignal_keeps fun _ _ _ _ _ h => ⟨h.names, h.ids, h.fresh, h.drained⟩
    exact hkeeps r hr

-- The state that a sequence of events leads to.
def reached (disk : ℕ → OpenOutcome) (events : List Event) : AdvancedRecorderImpl :=
  Exec.run exec events (create disk)

variable {disk : ℕ → OpenOutcome} {events : List Event} {e : Event}

theorem orderly_reached : (reached disk events).Orderly :=
  Exec.run_invariant orderly_create fun _ _ _ hr => (transition hr).orderly hr

theorem reached_concat :
    reached disk (events ++ [e]) = ((exec e).run (reached disk events)).state :=
  Exec.run_concat

theorem transition_reached :
    Transition (reached disk events) e (reached disk (events ++ [e])) := by
  rw [reached_concat]
  exact transition orderly_reached

end AdvancedRecorder.AdvancedRecorderImpl
