import OpenDaqModules.Recorder.Files
import OpenDaqModules.Recorder.Roles

namespace AdvancedRecorder.AdvancedRecorderImpl

open Sie EStateM

section Lookup

variable {signals : List (ℕ × AdvancedRecorderSignal)} {port : InputPort} {ports : List InputPort}
  {s : AdvancedRecorderSignal} {r : AdvancedRecorderImpl} {p i : ℕ}

theorem lookup_emplaceSignal_of_some (h : signals.lookup p = some s) :
    (emplaceSignal i signals port).lookup p = some s := by
  obtain hsame | ⟨signal, -, hmore⟩ := emplaceSignal_cases i signals port
  case inl => rwa [hsame]
  case inr => rw [hmore, List.lookup_append, h, Option.some_or]

theorem lookup_emplaceSignal_self (h : port.connection.isSome) :
    ((emplaceSignal i signals port).lookup port.id).isSome := by
  have ⟨c, hc⟩ := Option.isSome_iff_exists.mp h
  cases hlookup : signals.lookup port.id
  case some s =>
    rw [lookup_emplaceSignal_of_some hlookup]
    rfl
  case none => simp [emplaceSignal, hc, hlookup, List.lookup_append]

theorem lookup_foldl_emplaceSignal_of_some (h : signals.lookup p = some s) :
    (ports.foldl (emplaceSignal i) signals).lookup p = some s := by
  induction ports generalizing signals
  case nil                => exact h
  case cons port ports ih => exact ih (lookup_emplaceSignal_of_some h)

theorem lookup_foldl_emplaceSignal_self (hport : port ∈ ports) (h : port.connection.isSome) :
    ((ports.foldl (emplaceSignal i) signals).lookup port.id).isSome := by
  induction ports generalizing signals
  case nil => exact nomatch hport
  case cons q ports ih =>
    cases hport
    case tail hport => exact ih hport
    case head =>
      obtain ⟨s, hs⟩ := Option.isSome_iff_exists.mp (lookup_emplaceSignal_self h)
      rw [List.foldl_cons, lookup_foldl_emplaceSignal_of_some hs]
      rfl

theorem lookup_filter {keys : List ℕ} (hp : p ∈ keys) :
    (signals.filter (·.1 ∈ keys)).lookup p = signals.lookup p := by
  induction signals
  case nil => rfl
  case cons x signals ih =>
    obtain ⟨q, s⟩ := x
    by_cases hq : q ∈ keys
    case pos =>
      rw [List.filter_cons_of_pos (by simpa using hq), List.lookup_cons, List.lookup_cons, ih]
    case neg =>
      have hne : p ≠ q := fun h => hq (h ▸ hp)
      rw [List.filter_cons_of_neg (by simpa using hq), List.lookup_cons, ih, beq_eq_false_iff_ne.mpr hne]

theorem exists_port_of_connection (h : (r.connection p).isSome) :
    ∃ port ∈ r.ports, port.id = p ∧ port.connection.isSome := by
  have ⟨c, hc⟩ := Option.isSome_iff_exists.mp h
  have ⟨port, hport, hconnection⟩ := Option.bind_eq_some_iff.mp hc
  exact ⟨port, List.mem_of_find?_eq_some hport, by simpa using List.find?_some hport,
    by simp [hconnection]⟩

-- Every connected port has a signal after a reconfiguration.
theorem lookup_updateSignals (h : (r.connection p).isSome) :
    ((r.updateSignals i).signals.lookup p).isSome := by
  have ⟨port, hport, hid, hconnection⟩ := exists_port_of_connection h
  have hkey : p ∈ r.connectedPorts := by
    exact List.mem_map.mpr ⟨port, List.mem_filter.mpr ⟨hport, hconnection⟩, hid⟩
  rw [updateSignals, lookup_filter hkey, ← hid]
  exact lookup_foldl_emplaceSignal_self hport hconnection

theorem lookup_withSignal {x : AdvancedRecorderSignal × Writer} :
    ((r.withSignal p i x).signals.lookup q).isSome = (r.signals.lookup q).isSome := by
  rw [withSignal]
  induction r.signals
  case nil => rfl
  case cons y ys ih =>
    obtain ⟨p', s⟩ := y
    have hkey : (if p' = p then (p, x.1) else (p', s)) = (p', if p' = p then x.1 else s) := by
      by_cases h : p' = p <;> simp [h]
    rw [List.map_cons, hkey, List.lookup_cons, List.lookup_cons]
    cases q == p'
    case true  => rfl
    case false => exact ih

end Lookup

-- No attempt to open a file has failed, and every file takes everything.
structure Flawless (r : AdvancedRecorderImpl) : Prop where
  opened   : ∀ n < r.attempts.length, r.disk n ≠ .failed
  complete : ∀ w ∈ r.writers, w.file.AllComplete

variable {r r' : AdvancedRecorderImpl} {e : Event} {w : Writer}

theorem Flawless.of_grown (h : Flawless r') (hgrown : Grown r r') : Flawless r where
  opened n hn  := hgrown.disk ▸ h.opened n (hn.trans_le hgrown.attempts.length_le)
  complete w hw := by
    have ⟨i, hi⟩ := List.mem_iff_getElem?.mp hw
    have ⟨w', hw', hg⟩ := hgrown.writers i w hi
    exact (h.complete w' (List.mem_of_getElem? hw')).of_writes hg.writes

theorem Flawless.of_withSignal (h : Flawless (r.withSignal port i x)) (hw : r.writers[i]? = some w) :
    x.2.file.AllComplete := by
  have hi := (List.getElem?_eq_some_iff.mp hw).choose
  exact h.complete x.2 (List.mem_of_getElem? (i := i) (by simp [withSignal, hi]))

variable [Host]

-- The signals of a recorder write to the file of the recording, with the handlers that their last
-- packets ask for.
structure Ready (r : AdvancedRecorderImpl) : Prop where
  valid   : ∀ i ∈ r.writer, i < r.writers.length
  current : ∀ x ∈ r.signals, r.writer = some x.2.writer
  playing : ∀ x ∈ r.signals, x.2.Playing

-- A recorder does what its flag says, and all ports take part in it.
structure Serving (r : AdvancedRecorderImpl) : Prop extends Ready r where
  flag    : r.writer.isSome = r.recordingActive
  present : r.recordingActive = true → ∀ port, (r.connection port).isSome →
    (r.signals.lookup port).isSome

theorem playing_create {signal : Signal} {writer : ℕ} {testId : UInt32} :
    (AdvancedRecorderSignal.create signal writer testId).Playing :=
  rfl

theorem Prepared.ready (h : Prepared r e r') (hr : Ready r) : Ready r' := by
  have hsame := h.unchanged
  exact ⟨hsame.writer ▸ hsame.writers ▸ hr.valid, hsame.writer ▸ hsame.signals ▸ hr.current,
    hsame.signals ▸ hr.playing⟩

-- The signals of a recording stay what they are, and those that join it have not met any packet.
theorem ready_updateSignals (h : Ready r) (hwriter : r.writer = some i) : Ready (r.updateSignals i) := by
  refine ⟨h.valid, fun x hx => ?_, fun x hx => ?_⟩ <;> cases mem_updateSignals hx
  case refine_1.inl hx => exact h.current x hx
  case refine_2.inl hx => exact h.playing x hx
  case refine_1.inr hx =>
    obtain ⟨_, hx⟩ := hx
    exact hx ▸ hwriter
  case refine_2.inr hx =>
    obtain ⟨_, hx⟩ := hx
    exact hx ▸ playing_create

theorem ready_publish (h : Ready r) (hwriter : r.writer = none) : Ready (r.publish w) := by
  have hnil : ∀ x, x ∉ r.signals := by
    intro x hx
    have hsome := h.current x hx
    rw [hwriter] at hsome
    exact nomatch hsome
  refine ⟨fun i hi => ?_, fun x hx => (hnil x hx).elim, h.playing⟩
  cases hi
  simp [publish]

variable [Crc32]

-- What a reconfiguration makes of a state, if nothing fails.
inductive Succeeded (r : AdvancedRecorderImpl) : AdvancedRecorderImpl → Prop
  | kept {i : ℕ} (hrec : r.recordingActive = true) (hwriter : r.writer = some i) :
    Succeeded r (r.updateSignals i)
  | opened {w : Writer} (hrec : r.recordingActive = true) (hwriter : r.writer = none) :
    Succeeded r ((r.publish w).updateSignals r.writers.length)
  | closed (hrec : r.recordingActive = false) : Succeeded r r.closed

omit [Host] in
theorem Reconfigured.succeeded (h : Reconfigured r r') (hflawless : Flawless r') : Succeeded r r' := by
  cases h
  case kept hrec hwriter       => exact .kept hrec hwriter
  case opened hrec hwriter _ _ => exact .opened hrec hwriter
  case closed hrec             => exact .closed hrec
  case failed hdisk            =>
    exact absurd hdisk (hflawless.opened r.attempts.length (by simp))
  case published w _ _ _ hrun  =>
    have hw : w ∈ (r.publish w).writers := by simp [publish]
    exact absurd hrun (Writer.writeBlock_ne_error (hflawless.complete w hw))

theorem Succeeded.serving (h : Succeeded r r') (hr : Ready r) : Serving r' := by
  cases h
  case kept hrec hwriter =>
    exact ⟨ready_updateSignals hr hwriter, by simp [updateSignals, hwriter, hrec],
      fun _ _ hport => lookup_updateSignals hport⟩
  case opened hrec hwriter =>
    exact ⟨ready_updateSignals (ready_publish hr hwriter) rfl, by simp [updateSignals, publish, hrec],
      fun _ _ hport => lookup_updateSignals hport⟩
  case closed hrec =>
    refine ⟨⟨?_, ?_, ?_⟩, ?_, ?_⟩ <;> simp [AdvancedRecorderImpl.closed, hrec]

omit [Crc32] in
-- What a packet does to a signal does not concern the others.
theorem serving_withSignal {x : AdvancedRecorderSignal × Writer} (h : Serving r)
    (hsignal : r.signals.lookup port = some s) (hwriter : x.1.writer = s.writer)
    (hplaying : x.1.Playing) : Serving (r.withSignal port i x) := by
  refine ⟨⟨fun j hj => ?_, fun y hy => ?_, fun y hy => ?_⟩, h.flag, fun hrec q hq => ?_⟩
  case refine_1 =>
    have hlt := h.valid j hj
    rwa [← List.length_set (i := i)] at hlt
  case refine_2 =>
    cases mem_withSignal hy
    case inl hy => exact h.current y hy
    case inr hy =>
      rw [hy, hwriter]
      exact h.current _ (mem_of_lookup hsignal)
  case refine_3 =>
    cases mem_withSignal hy
    case inl hy => exact h.playing y hy
    case inr hy => exact hy ▸ hplaying
  case refine_4 =>
    rw [lookup_withSignal]
    exact h.present hrec q hq

theorem Serving.received {packet : Packet} (h : Serving r)
    (hsignal : r.signals.lookup port = some s)
    (hio : ((AdvancedRecorderSignal.onPacketReceived packet).run (s, w)).state.2.file.AllComplete) :
    Serving (r.withSignal port s.writer
      ((AdvancedRecorderSignal.onPacketReceived packet).run (s, w)).state) := by
  have hplaying := h.playing _ (mem_of_lookup hsignal)
  cases packet
  case event => exact serving_withSignal h hsignal rfl hplaying
  case data packet =>
    have hprepared := AdvancedRecorderSignal.Playing.prepared hplaying
      (AdvancedRecorderSignal.prepared_complete hio)
    have hsame : (AdvancedRecorderSignal.prepared packet s w).1.writer = s.writer := by
      exact AdvancedRecorderSignal.prepared_signal.right.left
    rw [← AdvancedRecorderSignal.run_state_fst] at hprepared hsame
    exact serving_withSignal h hsignal hsame hprepared

theorem Transition.serving (h : Transition r e r') (hr : Serving r) (hflawless : Flawless r') :
    Serving r' := by
  cases h
  case reconfigured hprep h => exact (h.succeeded hflawless).serving (hprep.ready hr.toReady)
  case activated => exact ⟨⟨hr.valid, hr.current, hr.playing⟩, hr.flag, hr.present⟩
  case ignored   => exact hr
  case packet port signal packet hconnection =>
    cases onSignal_cases port (AdvancedRecorderSignal.onPacketReceived packet) r
    case inr hcase => exact hcase.right.symm ▸ hr
    case inl hcase =>
      obtain ⟨s, w, hs, hw, hstate⟩ := hcase
      rw [hstate] at hflawless ⊢
      exact hr.received hs (hflawless.of_withSignal hw)

omit [Crc32] in
theorem serving_create {disk : ℕ → OpenOutcome} : Serving (create disk) := by
  rw [create_eq]
  exact ⟨⟨(fun _ h => nomatch h), (fun _ h => nomatch h), (fun _ h => nomatch h)⟩, rfl,
    (fun h => nomatch h)⟩

theorem serving_reached {disk : ℕ → OpenOutcome} {events : List Event}
    (h : Flawless (reached disk events)) : Serving (reached disk events) := by
  induction events using List.reverseRecOn
  case nil => exact serving_create
  case append_singleton events e ih =>
    have hbefore := h.of_grown (grown_reached (List.prefix_append events [e]))
    exact transition_reached.serving (ih hbefore) h

end AdvancedRecorder.AdvancedRecorderImpl
