import OpenDaqModules.Recorder.Theorems.Interference
import OpenDaqModules.Recorder.Theorems.Stored

namespace AdvancedRecorder

open Sie EStateM

variable [Host] [Crc32]

namespace AdvancedRecorderSignal

variable {packet : DataPacket} {s : AdvancedRecorderSignal} {w : Writer}

omit [Crc32] in
theorem map_content_reading {kind : HandlerKind} {group : UInt32} :
    (kind.reading group packet).map Reading.content = kind.content packet := by
  cases h : kind.content packet <;> simp [HandlerKind.reading, Reading.content, h]

-- The handler of a signal that plays its role delivers what the descriptors of the packet promise.
theorem Playing.promised_content (h : s.Playing)
    (hio : (AdvancedRecorderSignal.prepared packet s w).2.file.AllComplete) :
    (promised packet s w).map Reading.content =
      (HandlerKind.role packet.dataDescriptor packet.domainDescriptor).bind (·.content packet) := by
  have hplaying := h.prepared hio
  have hknows : (AdvancedRecorderSignal.prepared packet s w).1.Knows packet := knows_prepared
  rw [Playing, ← hknows.left, ← hknows.right] at hplaying
  rw [promised, ← hplaying]
  cases (AdvancedRecorderSignal.prepared packet s w).1.handler
  case none         => rfl
  case some handler => exact map_content_reading

theorem returns_of_complete
    (hio : ((onPacketReceived (.data packet)).run (s, w)).state.2.file.AllComplete) :
    ((onPacketReceived (.data packet)).run (s, w)).Returns := by
  cases hrequest : (prepared packet s w).1.request packet
  case none =>
    rw [onPacketReceived, onDataPacketReceived_run, hrequest]
    trivial
  case some request =>
    rw [(run_of_request hrequest).right] at hio
    exact (run_of_request hrequest).left.mpr (Writer.returns_of_allComplete hio)

end AdvancedRecorderSignal

namespace AdvancedRecorderImpl

variable {disk : ℕ → OpenOutcome} {events : List Event} {r r' : AdvancedRecorderImpl} {e : Event} {i : ℕ}

-- A file that takes everything takes every packet.
theorem Transition.stored_of_faultless (h : Transition r e r') (hfaultless : Faultless r')
    (hconsistent : ∀ x ∈ r.signals, x.2.Consistent) (he : e.WellFormed) :
    stored i e r = delivered i e r := by
  have heffect := h.effect
  cases heffect
  case managed hreceiver _ =>
    rw [stored, delivered, hreceiver]
    rfl
  case received hconnection hsignal hwriter =>
    have hreturns := AdvancedRecorderSignal.returns_of_complete (hfaultless.of_withSignal hwriter).left
    have hstored := AdvancedRecorderSignal.stored_of_returns (hconsistent _ (mem_of_lookup hsignal)) he
      hreturns
    rw [stored, delivered, receiver_eq_some hconnection hsignal hwriter]
    simp only [Option.bind_eq_bind, Option.bind_some, hstored]

theorem allStored_eq (hfaultless : Faultless (reached disk events)) (hevents : ∀ e ∈ events, e.WellFormed) :
    allStored i events (create disk) = allDelivered i events (create disk) := by
  induction events using List.reverseRecOn
  case nil => rfl
  case append_singleton events e ih =>
    have hbefore := hfaultless.of_grown (grown_reached (List.prefix_append events [e]))
    have hstored := transition_reached.stored_of_faultless (i := i) hfaultless consistent_reached
      (hevents e (by simp))
    rw [allStored_concat, allDelivered_concat, ← reached, hstored,
      ih hbefore fun e he => hevents e (List.mem_append_left _ he)]

theorem readings_reached (hfaultless : Faultless (reached disk events))
    (hevents : ∀ e ∈ events, e.WellFormed) :
    readBlocks [] (blocksOf i (reached disk events)) = allDelivered i events (create disk) := by
  rw [readings_eq_allStored hfaultless.numbered hevents, allStored_eq hfaultless hevents]

-- Whoever reads a file finds in it the samples of all packets that were recorded.
theorem readFile_reached (hfaultless : Faultless (reached disk events))
    (hevents : ∀ e ∈ events, e.WellFormed) (i : ℕ)
    (hsize : ∀ b ∈ blocksOf i (reached disk events), b.size < 2 ^ 32) :
    readFile (bytesOf i (reached disk events)) = allDelivered i events (create disk) := by
  rw [← readings_reached hfaultless hevents]
  cases hw : (reached disk events).writers[i]?
  case none =>
    rw [bytesOf, blocksOf, hw]
    rfl
  case some w =>
    have hmem := List.mem_of_getElem? hw
    rw [blocksOf_of_writer hw] at hsize ⊢
    rw [bytesOf, hw]
    refine File.readFile_bytes (framed_reached w hmem |>.encoded) (hfaultless w hmem).left.clean ?_
    exact fun x hx => hsize _ (List.mem_map_of_mem hx)

-- The samples that come from a connected port during the recording of the file.
def heard (i : ℕ) (e : Event) (r : AdvancedRecorderImpl) :
    Option (Bytes × List (List (Option Decoder.Value))) :=
  match e with
  | .packet port (.data packet) =>
    if r.writer = some i ∧ (r.connection port).isSome then
      (HandlerKind.role packet.dataDescriptor packet.domainDescriptor).bind (·.content packet)
    else none
  | _ => none

def allHeard (i : ℕ) : List Event → AdvancedRecorderImpl → List (Bytes × List (List (Option Decoder.Value)))
  | [], _      => []
  | e :: es, r => (heard i e r).toList ++ allHeard i es ((exec e).run r).state

theorem Transition.delivered_content (h : Transition r e r') (hr : Serving r) (hflawless : Flawless r') :
    (delivered i e r).map Reading.content = heard i e r := by
  cases e
  case packet port packet =>
    cases packet
    case event       => rfl
    case data packet =>
      by_cases hheard : r.writer = some i ∧ (r.connection port).isSome
      case pos =>
        obtain ⟨hwriter, hconnected⟩ := hheard
        have hrec : r.recordingActive = true := by rw [← hr.flag, hwriter]; rfl
        obtain ⟨s, w, hreceiver, hs, _, hplaying⟩ := hr.receiver_eq_some packet hconnected hrec
        obtain rfl := Option.some.inj (hs.symm.trans hwriter)
        obtain ⟨_, _, hw, rfl⟩ := h.received hreceiver
        have hio := AdvancedRecorderSignal.prepared_complete (hflawless.of_withSignal hw)
        rw [delivered, hreceiver, heard, if_pos ⟨hwriter, hconnected⟩, ← hplaying.promised_content hio]
        simp
      case neg =>
        have heffect := h.effect
        rw [heard, if_neg hheard, delivered]
        cases heffect
        case managed hreceiver _ => rw [hreceiver]; rfl
        case received s w hwriter hconnected hsignal =>
          have hne : s.writer ≠ i := by
            exact fun h => hheard ⟨h ▸ hr.current _ (mem_of_lookup hsignal), hconnected⟩
          rw [receiver_eq_some hconnected hsignal hwriter]
          simp [hne]
  all_goals rfl

theorem allHeard_concat : allHeard i (events ++ [e]) r =
    allHeard i events r ++ (heard i e (Exec.run exec events r)).toList := by
  induction events generalizing r
  case nil          => simp [allHeard]
  case cons e es ih => simp [allHeard, ih]

theorem contents_delivered (hflawless : Flawless (reached disk events)) :
    (allDelivered i events (create disk)).map Reading.content = allHeard i events (create disk) := by
  induction events using List.reverseRecOn
  case nil => rfl
  case append_singleton events e ih =>
    have hbefore := hflawless.of_grown (grown_reached (List.prefix_append events [e]))
    have hcontent := transition_reached.delivered_content (i := i) (serving_reached hbefore) hflawless
    rw [allDelivered_concat, allHeard_concat, List.map_append, ih hbefore]
    congr 1
    rw [← reached, ← hcontent]
    cases delivered i e (reached disk events) <;> rfl

-- A reader finds in a file what the connected ports delivered during its recording, and he finds it
-- there under the names of their signals and in its order.
theorem contents_reached (hflawless : Flawless (reached disk events))
    (hcount : ∀ w ∈ (reached disk events).writers, w.nextGroup < 2 ^ 32)
    (hevents : ∀ e ∈ events, e.WellFormed) (i : ℕ)
    (hsize : ∀ b ∈ blocksOf i (reached disk events), b.size < 2 ^ 32) :
    (readFile (bytesOf i (reached disk events))).map Reading.content =
      allHeard i events (create disk) := by
  have hfaultless : Faultless (reached disk events) := fun w hw => ⟨hflawless.complete w hw, hcount w hw⟩
  rw [readFile_reached hfaultless hevents i hsize, contents_delivered hflawless]

omit [Host] [Crc32] in
-- Two signals are recorded, and one of them goes on after the recording.
theorem contents_two_signals :
    let _ := Crc32.ieee
    let _ := Host.exact
    let disk (_ : ℕ) : OpenOutcome := .opened [] fun _ => []
    let packet (octet : UInt8) : Packet := .data { samplePacket with rawData := [octet] }
    let events : List Event := [.connect 0 { globalId := str "a", description := [] },
      .connect 1 { globalId := str "b", description := [] }, .packet 0 (packet 6), .startRecording,
      .packet 0 (packet 7), .packet 1 (packet 8), .packet 0 (packet 9), .stopRecording,
      .packet 0 (packet 10)]
    allHeard 0 events (create disk) = [7, 8, 9].map (fun n => (str "value",
        [[some (Decoder.Value.num 5), some (Decoder.Value.num n)]])) ∧
      (readFile (bytesOf 0 (reached disk events))).map Reading.content =
        allHeard 0 events (create disk) := by
  intro _ _ disk packet events
  refine ⟨by decide +kernel, contents_reached ⟨?_, ?_⟩ ?_ ?_ 0 ?_⟩
  case refine_1 =>
    intro n _ hfailed
    rw [disk_reached] at hfailed
    exact nomatch hfailed
  case refine_2 =>
    change ∀ w ∈ AdvancedRecorderImpl.writers _, ∀ v ∈ w.file.writes, v.Complete
    decide +kernel
  case refine_3 => decide +kernel
  case refine_4 =>
    simp only [events, packet, List.forall_mem_cons, wellFormed_samplePacket, List.not_mem_nil,
      false_implies, implies_true, and_true, true_and]
    exact ⟨trivial, trivial, trivial, trivial⟩
  case refine_5 => decide +kernel

end AdvancedRecorderImpl
end AdvancedRecorder
