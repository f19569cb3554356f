import OpenDaqModules.Recorder.Serving

namespace AdvancedRecorder

open Sie EStateM

namespace AdvancedRecorderImpl

-- The events that should make no difference to the recording of a port's signal.
def Event.isOther (p : ℕ) (recording : Bool) : Event → Bool
  | .connect port _  => port ≠ p
  | .disconnect port => port ≠ p
  | .packet port _   => port ≠ p
  | .writeFilename _ => true
  | .startRecording  => recording
  | _                => false

-- The connection of the port is left alone.
def Event.Spares (p : ℕ) : Event → Prop
  | .connect port _  => port ≠ p
  | .disconnect port => port ≠ p
  | _                => True

-- The run without the events that should make no difference.
def erased (p : ℕ) : Bool → List Event → List Event
  | _, []              => []
  | recording, e :: es =>
    if e.isOther p recording then erased p recording es
    else e :: erased p (e.recording recording) es

variable [Host] [Crc32]

-- The payload of the block of data that the event of a packet for the port makes a handler write.
def recorded (p : ℕ) (e : Event) (r : AdvancedRecorderImpl) : Option Bytes :=
  match e with
  | .packet port _ =>
    if port = p then do
      let (packet, s, w) ← receiver e r
      let (_, args) ← (AdvancedRecorderSignal.prepared packet s w).1.request packet
      return args.flatten
    else none
  | _ => none

def payloads (p : ℕ) : List Event → AdvancedRecorderImpl → List Bytes
  | [], _      => []
  | e :: es, r => (recorded p e r).toList ++ payloads p es ((exec e).run r).state

-- The payload ends up in a block of the file. What comes with it is there to declare a channel or
-- to index the file.
def Writes (payload : Option Bytes) (bs bs' : List Block) : Prop :=
  ∃ pre data post, bs' = bs ++ pre ++ data ++ post ∧ data.map Block.payload = payload.toList ∧
    (∀ b ∈ pre, b.group = groups.METADATA ∨ b.group = groups.INDEX) ∧
    ∀ b ∈ post, b.group = groups.INDEX

-- Every packet for the port is written to the file of the recording.
def Written (disk : ℕ → OpenOutcome) (before events : List Event) (p : ℕ) : Prop :=
  ∀ done packet, done ++ [.packet p (.data packet)] <+: events →
    let r  := reached disk (before ++ done)
    let r' := reached disk (before ++ done ++ [.packet p (.data packet)])
    r.recordingActive = true → ∃ i ∈ r.writer, r'.writer = some i ∧
      Writes (recorded p (.packet p (.data packet)) r) (blocksOf i r) (blocksOf i r')

-- Other signals that come and go do not disturb the recording of the port's signal: what is written
-- for its packets is the same as without them.
structure Undisturbed (disk : ℕ → OpenOutcome) (before events : List Event) (p : ℕ) : Prop where
  payloads : payloads p events (reached disk before) =
    payloads p (erased p (reached disk before).recordingActive events) (reached disk before)
  written  : Written disk before events p
  alone    : Written disk before (erased p (reached disk before).recordingActive events) p
  opened   : ∀ done during, done ++ .startRecording :: during <+: events →
    let r  := reached disk (before ++ done)
    let r' := reached disk (before ++ done ++ .startRecording :: during)
    r.recordingActive = false → (∀ e ∈ during, e.recording true = true) →
      r'.attempts.length = r.attempts.length + 1 ∧ r'.writers.length = r.writers.length + 1
  grown    : ∀ done later, done ++ later <+: events → ∀ (i : ℕ) (w : Writer),
    (reached disk (before ++ done)).writers[i]? = some w → ∃ w' : Writer,
      (reached disk (before ++ done ++ later)).writers[i]? = some w' ∧ w.file.bytes <+: w'.file.bytes

variable {r r' : AdvancedRecorderImpl} {e : Event} {p : ℕ} {disk : ℕ → OpenOutcome}
  {before events : List Event}

omit [Host] in
theorem Reconfigured.same (h : Reconfigured r r') :
    r'.recordingActive = r.recordingActive ∧ r'.ports = r.ports := by
  cases h <;> exact ⟨rfl, rfl⟩

-- The flag is what the events make of it.
theorem Transition.recordingActive_eq (h : Transition r e r') :
    r'.recordingActive = e.recording r.recordingActive := by
  cases h
  case reconfigured hprep h => rw [h.same.left, hprep.recordingActive]
  case activated => rfl
  case ignored h =>
    cases e <;> first | rfl | exact h.elim
  case packet port signal packet _ =>
    rw [onSignal_frame]
    rfl

omit [Crc32] [Host] in
theorem connection_of_ports_eq (h : r'.ports = r.ports) : r'.connection p = r.connection p := by
  rw [AdvancedRecorderImpl.connection, AdvancedRecorderImpl.connection, h]

omit [Crc32] [Host] in
theorem Prepared.connection_eq (h : Prepared r e r') (hspares : e.Spares p) :
    r'.connection p = r.connection p := by
  cases h
  case connect => 
    rw [connection_portAdded]
    exact connection_setConnection_of_ne (Ne.symm hspares)
  case disconnect hfree =>
    rw [connection_portsTrimmed hfree]
    exact connection_setConnection_of_ne (Ne.symm hspares)
  all_goals rfl

-- Ports come and go, but not the one that is in use.
theorem Transition.connection_eq (h : Transition r e r') (hspares : e.Spares p) :
    r'.connection p = r.connection p := by
  cases h
  case reconfigured hprep h =>
    rw [connection_of_ports_eq h.same.right, hprep.connection_eq hspares]
  case activated => rfl
  case ignored   => rfl
  case packet port signal packet _ =>
    rw [onSignal_frame]
    rfl

theorem connection_reached (hspares : ∀ e ∈ events, e.Spares p) :
    (reached disk (before ++ events)).connection p = (reached disk before).connection p := by
  induction events using List.reverseRecOn
  case nil => rw [List.append_nil]
  case append_singleton events e ih =>
    rw [← List.append_assoc, transition_reached.connection_eq (hspares e (by simp))]
    exact ih fun e he => hspares e (List.mem_append_left _ he)

-- The payload that a packet should have, whatever happens elsewhere.
def expected (p : ℕ) (recording : Bool) : Event → Option Bytes
  | .packet port (.data packet) =>
    if recording = true ∧ port = p then
      ((HandlerKind.role packet.dataDescriptor packet.domainDescriptor).bind
        fun kind => kind.segments packet).map List.flatten
    else none
  | _ => none

def allExpected (p : ℕ) : Bool → List Event → List Bytes
  | _, []              => []
  | recording, e :: es =>
    (expected p recording e).toList ++ allExpected p (e.recording recording) es

omit [Crc32] in
theorem expected_of_isOther (h : e.isOther p recording) : expected p recording e = none := by
  cases e
  case packet port packet =>
    cases packet
    case event       => rfl
    case data packet =>
      have hport : port ≠ p := by simpa [Event.isOther] using h
      exact if_neg fun h => hport h.right
  all_goals rfl

omit [Crc32] [Host] in
theorem recording_of_isOther (h : e.isOther p recording) : e.recording recording = recording := by
  cases e
  case startRecording => exact h.symm
  case stopRecording  => exact nomatch h
  case activeChanged  => exact nomatch h
  all_goals rfl

omit [Crc32] in
theorem allExpected_erased {recording : Bool} :
    allExpected p recording (erased p recording events) = allExpected p recording events := by
  induction events generalizing recording
  case nil => rfl
  case cons e es ih =>
    by_cases hother : e.isOther p recording
    case pos =>
      rw [erased, if_pos hother, ih, allExpected, expected_of_isOther hother,
        recording_of_isOther hother]
      rfl
    case neg => rw [erased, if_neg hother, allExpected, allExpected, ih]

omit [Crc32] in
theorem Serving.receiver_eq_some (h : Serving r) (packet : DataPacket)
    (hconnected : (r.connection p).isSome) (hrec : r.recordingActive = true) :
    ∃ s w, receiver (.packet p (.data packet)) r = some (packet, s, w) ∧
      r.writer = some s.writer ∧ r.writers[s.writer]? = some w ∧ s.Playing := by
  have ⟨s, hs⟩ := Option.isSome_iff_exists.mp (h.present hrec p hconnected)
  have hwriter := h.current _ (mem_of_lookup hs)
  have hw := List.getElem?_eq_getElem (h.valid s.writer hwriter)
  exact ⟨s, _, AdvancedRecorderImpl.receiver_eq_some hconnected hs hw, hwriter, hw,
    h.playing _ (mem_of_lookup hs)⟩

omit [Crc32] in
theorem Serving.receiver_eq_none (h : Serving r) (packet : DataPacket)
    (hrec : r.recordingActive = false) : receiver (.packet p (.data packet)) r = none := by
  have hnone : r.writer = none := by simpa [hrec] using h.flag
  have hlookup : r.signals.lookup p = none := by
    apply Option.eq_none_iff_forall_ne_some.mpr
    intro s hs
    have hsome := h.current _ (mem_of_lookup hs)
    exact nomatch hnone.symm.trans hsome
  simp [receiver, hlookup]

-- What is written for a packet of the port depends on nothing but the packet and the flag.
theorem Transition.recorded_eq (h : Transition r e r') (hr : Serving r) (hflawless : Flawless r')
    (hconnected : (r.connection p).isSome) : recorded p e r = expected p r.recordingActive e := by
  cases e
  case packet port packet =>
    by_cases hport : port = p
    case neg =>
      rw [recorded, if_neg hport]
      cases packet <;> simp [expected, hport]
    case pos =>
      subst hport
      rw [recorded, if_pos rfl]
      cases packet
      case event => rfl
      case data packet =>
        cases hrec : r.recordingActive
        case false =>
          rw [hr.receiver_eq_none packet hrec]
          rfl
        case true =>
          have ⟨s, w, hreceiver, _, _, hplaying⟩ := hr.receiver_eq_some packet hconnected hrec
          obtain ⟨_, _, hw, rfl⟩ := h.received hreceiver
          have hio := hflawless.of_withSignal hw
          have hplaying := hplaying.prepared (AdvancedRecorderSignal.prepared_complete hio)
          have hrequest := hplaying.request AdvancedRecorderSignal.knows_prepared
          rw [hreceiver, expected, if_pos ⟨rfl, rfl⟩, ← hrequest, Option.bind_eq_bind, Option.bind_some]
          dsimp only
          cases (AdvancedRecorderSignal.prepared packet s w).1.request packet <;> rfl
  all_goals rfl

theorem payloads_eq_allExpected (hconnected : ((reached disk before).connection p).isSome)
    (hspares : ∀ e ∈ events, e.Spares p) (hflawless : Flawless (reached disk (before ++ events))) :
    payloads p events (reached disk before) =
      allExpected p (reached disk before).recordingActive events := by
  induction events generalizing before
  case nil => rfl
  case cons e es ih =>
    have hsplit : before ++ e :: es = before ++ [e] ++ es := by simp
    rw [hsplit] at hflawless
    have htransition : Transition (reached disk before) e (reached disk (before ++ [e])) := by
      exact transition_reached
    have hafter := hflawless.of_grown (grown_reached (List.prefix_append _ es))
    have hserving := serving_reached (hafter.of_grown htransition.grown)
    rw [payloads, allExpected, htransition.recorded_eq hserving hafter hconnected, ← reached_concat,
      ← htransition.recordingActive_eq]
    congr 1
    refine ih ?_ (fun e he => hspares e (List.mem_cons_of_mem _ he)) hflawless
    rwa [htransition.connection_eq (hspares e List.mem_cons_self)]

theorem Transition.written {packet : DataPacket}
    (h : Transition r (.packet p (.data packet)) r') (hr : Serving r) (hflawless : Flawless r')
    (hconnected : (r.connection p).isSome) (hrec : r.recordingActive = true) :
    ∃ i ∈ r.writer, r'.writer = some i ∧
      Writes (recorded p (.packet p (.data packet)) r) (blocksOf i r) (blocksOf i r') := by
  have ⟨s, w, hreceiver, hwriter, _, _⟩ := hr.receiver_eq_some packet hconnected hrec
  obtain ⟨_, _, hw, rfl⟩ := h.received hreceiver
  have hio := hflawless.of_withSignal hw
  have hreceived := AdvancedRecorderSignal.received hio
  have ⟨pre, hprepared, hpre⟩ := AdvancedRecorderSignal.prepared_blocks packet s w
  refine ⟨s.writer, hwriter, hwriter, ?_⟩
  rw [recorded, if_pos rfl, hreceiver, blocksOf_withSignal hw, if_pos rfl, blocksOf_of_writer hw,
    Option.bind_eq_bind, Option.bind_some]
  dsimp only
  generalize ((AdvancedRecorderSignal.onPacketReceived (.data packet)).run (s, w)).state = x at hreceived
  cases hreceived
  case skipped hrequest =>
    rw [hrequest]
    exact ⟨pre, [], [], by simp [hprepared], rfl, hpre, fun _ h => nomatch h⟩
  case written handler args post w' hhandler hargs hblocks hpost _ =>
    have hrequest : (AdvancedRecorderSignal.prepared packet s w).1.request packet =
        some (handler.group, args) := by
      simp [AdvancedRecorderSignal.request, hhandler, hargs]
    rw [hrequest]
    refine ⟨pre, [⟨handler.group, args.flatten⟩], post, ?_, rfl, hpre, hpost⟩
    rw [hblocks, hprepared, List.append_assoc _ _ post, List.singleton_append]

-- Whether a recording has begun between two states.
def begun (r r' : AdvancedRecorderImpl) : ℕ :=
  if r.recordingActive = false ∧ r'.recordingActive = true then 1 else 0

omit [Crc32] [Host] in
theorem begun_of_eq (h : r'.recordingActive = r.recordingActive) : begun r r' = 0 := by
  apply if_neg
  intro hboth
  rw [h, hboth.left] at hboth
  exact nomatch hboth.right

-- A file is opened if and only if a recording begins.
theorem Transition.opened (h : Transition r e r') (hr : Serving r) (hflawless : Flawless r') :
    r'.attempts.length = r.attempts.length + begun r r' ∧
      r'.writers.length = r.writers.length + begun r r' := by
  cases h
  case activated =>
    have hbegun : begun r { r with active := true } = 0 := begun_of_eq rfl
    rw [hbegun]
    exact ⟨rfl, rfl⟩
  case ignored =>
    have hbegun : begun r r = 0 := begun_of_eq rfl
    rw [hbegun]
    exact ⟨rfl, rfl⟩
  case packet port signal packet _ =>
    rw [begun_of_eq (by rw [onSignal_frame])]
    cases onSignal_cases port (AdvancedRecorderSignal.onPacketReceived packet) r
    case inr hcase =>
      rw [hcase.right]
      exact ⟨rfl, rfl⟩
    case inl hcase =>
      obtain ⟨s, w, _, _, hstate⟩ := hcase
      rw [hstate]
      exact ⟨rfl, List.length_set⟩
  case reconfigured r₁ hprep h =>
    have hsame := hprep.unchanged
    have hflag := hr.flag
    rw [← hsame.writer] at hflag
    rw [← hsame.attempts, ← hsame.writers]
    have h := h.succeeded hflawless
    cases h
    case kept i hrec hwriter =>
      have hbegun : begun r (r₁.updateSignals i) = 0 := by
        refine begun_of_eq (hrec.trans ?_)
        simpa [hwriter] using hflag
      rw [hbegun]
      exact ⟨rfl, rfl⟩
    case opened w hrec hwriter =>
      have hbegun : begun r ((r₁.publish w).updateSignals r₁.writers.length) = 1 := by
        refine if_pos ⟨?_, hrec⟩
        simpa [hwriter] using hflag.symm
      rw [hbegun]
      simp [updateSignals, publish]
    case closed hrec =>
      have hbegun : begun r r₁.closed = 0 := by simp [begun, closed, hrec]
      rw [hbegun, closed]
      cases r₁.writer <;> simp

-- As long as the recording goes on, no other file is opened.
theorem opened_reached {during : List Event}
    (hrec : (reached disk events).recordingActive = false)
    (hflawless : Flawless (reached disk (events ++ .startRecording :: during)))
    (hduring : ∀ e ∈ during, e.recording true = true) :
    (reached disk (events ++ .startRecording :: during)).recordingActive = true ∧
      (reached disk (events ++ .startRecording :: during)).attempts.length =
        (reached disk events).attempts.length + 1 ∧
      (reached disk (events ++ .startRecording :: during)).writers.length =
        (reached disk events).writers.length + 1 := by
  induction during using List.reverseRecOn
  case nil =>
    have htransition : Transition (reached disk events) .startRecording
        (reached disk (events ++ [.startRecording])) := transition_reached
    have hserving := serving_reached (hflawless.of_grown htransition.grown)
    have hafter : (reached disk (events ++ [.startRecording])).recordingActive = true := by
      exact htransition.recordingActive_eq
    have hopened := htransition.opened hserving hflawless
    rw [begun, if_pos ⟨hrec, hafter⟩] at hopened
    exact ⟨hafter, hopened⟩
  case append_singleton during e ih =>
    have hsplit : events ++ .startRecording :: (during ++ [e]) =
        events ++ .startRecording :: during ++ [e] := by simp
    rw [hsplit] at hflawless ⊢
    have htransition : Transition (reached disk (events ++ .startRecording :: during)) e
        (reached disk (events ++ .startRecording :: during ++ [e])) := transition_reached
    have hbefore := hflawless.of_grown htransition.grown
    have ⟨hactive, hattempts, hwriters⟩ := ih hbefore fun e he => hduring e (List.mem_append_left _ he)
    have hafter := htransition.recordingActive_eq
    rw [hactive, hduring e (by simp)] at hafter
    have hopened := htransition.opened (serving_reached hbefore) hflawless
    rw [begun_of_eq (hafter.trans hactive.symm), hattempts, hwriters] at hopened
    exact ⟨hafter, hopened⟩

omit [Crc32] [Host] in
theorem erased_sublist {recording : Bool} : (erased p recording events).Sublist events := by
  induction events generalizing recording
  case nil => exact .refl _
  case cons e es ih =>
    rw [erased]
    split
    case isTrue  => exact .cons e ih
    case isFalse => exact .cons_cons e ih

theorem written_reached (hconnected : ((reached disk before).connection p).isSome)
    (hspares : ∀ e ∈ events, e.Spares p) (hflawless : Flawless (reached disk (before ++ events))) :
    Written disk before events p := by
  intro done packet hdone r r' hrec
  have hprefix : before ++ done ++ [.packet p (.data packet)] <+: before ++ events := by
    rw [List.append_assoc]
    exact (List.prefix_append_right_inj before).mpr hdone
  have hafter : Flawless r' := hflawless.of_grown (grown_reached hprefix)
  have htransition : Transition r (.packet p (.data packet)) r' := transition_reached
  have hserving : Serving r := serving_reached (hafter.of_grown htransition.grown)
  refine htransition.written hserving hafter ?_ hrec
  rw [connection_reached fun e he => hspares e (hdone.subset (List.mem_append_left _ he))]
  exact hconnected

-- Connecting and disconnecting other signals does not disturb a recording.
theorem undisturbed (hconnected : ((reached disk before).connection p).isSome)
    (hspares : ∀ e ∈ events, e.Spares p) (hflawless : Flawless (reached disk (before ++ events)))
    (herased : Flawless (reached disk
      (before ++ erased p (reached disk before).recordingActive events))) :
    Undisturbed disk before events p := by
  have hspares' : ∀ e ∈ erased p (reached disk before).recordingActive events, e.Spares p := by
    exact fun e he => hspares e (erased_sublist.subset he)
  constructor
  case payloads =>
    rw [payloads_eq_allExpected hconnected hspares hflawless,
      payloads_eq_allExpected hconnected hspares' herased, allExpected_erased]
  case written => exact written_reached hconnected hspares hflawless
  case alone   => exact written_reached hconnected hspares' herased
  case opened =>
    intro done during hdone r r' hrec hduring
    have hprefix : before ++ done ++ .startRecording :: during <+: before ++ events := by
      rw [List.append_assoc]
      exact (List.prefix_append_right_inj before).mpr hdone
    exact (opened_reached hrec (hflawless.of_grown (grown_reached hprefix)) hduring).right
  case grown =>
    intro done later _ i w hw
    have ⟨w', hw', hg⟩ := (grown_reached (List.prefix_append (before ++ done) later)).writers i w hw
    exact ⟨w', hw', hg.bytes⟩

omit [Host] [Crc32] in
-- Another signal is connected, recorded, and disconnected in the meantime.
theorem undisturbed_two_signals :
    let _ := Crc32.ieee
    let _ := Host.exact
    let disk (_ : ℕ) : OpenOutcome := .opened [] fun _ => []
    let signal (id : String) : Signal := { globalId := str id, description := [] }
    let before : List Event := [.connect 0 (signal "a")]
    let events : List Event := [.startRecording, .packet 0 (.data samplePacket),
      .connect 1 (signal "b"), .startRecording, .packet 1 (.data samplePacket),
      .writeFilename (str "other.sie"), .disconnect 1, .packet 0 (.data samplePacket), .stopRecording]
    (payloads 0 events (reached disk before)).length = 2 ∧
      (erased 0 (reached disk before).recordingActive events).length = 4 ∧
      Undisturbed disk before events 0 := by
  intro _ _ disk signal before events
  refine ⟨by decide +kernel, by decide +kernel, undisturbed (by decide +kernel) ?_ ?_ ?_⟩
  case refine_1 => simp [events, Event.Spares]
  all_goals
    refine ⟨fun n _ hfailed => ?_, ?_⟩
    · rw [disk_reached] at hfailed
      exact nomatch hfailed
    change ∀ w ∈ AdvancedRecorderImpl.writers _, ∀ v ∈ w.file.writes, v.Complete
    decide +kernel

end AdvancedRecorderImpl
end AdvancedRecorder
