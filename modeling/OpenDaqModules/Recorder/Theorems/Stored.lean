import OpenDaqModules.Recorder.PacketSamples
import OpenDaqModules.Recorder.Stored
import OpenDaqModules.Recorder.Theorems.Declared

namespace Sie

variable {bs bs' : List Block} {known : List ChannelReader} {group : UInt32}

-- Metadata and indices say nothing about samples.
theorem readBlocks_quiet (hquiet : ∀ b ∈ bs, b.group = groups.METADATA ∨ b.group = groups.INDEX)
    (hknown : ∀ c ∈ known ++ bs.flatMap Block.channelReaders, 2 ≤ c.declaration.group) :
    readBlocks known bs = [] := by
  induction bs generalizing known
  case nil          => rfl
  case cons b bs ih =>
    rw [List.forall_mem_cons] at hquiet
    rw [List.flatMap_cons, ← List.append_assoc] at hknown
    have hlt : b.group.toNat < 2 := by
      cases hquiet.left
      case inl h => rw [h]; decide
      case inr h => rw [h]; decide
    have hnone : known.filter (·.declaration.group = b.group.toNat) = [] := by
      apply List.filter_eq_nil_iff.mpr
      intro c hc
      have hle := hknown c (List.mem_append_left _ (List.mem_append_left _ hc))
      simp only [decide_eq_true_eq]
      omega
    rw [readBlocks, hnone, ih hquiet.right hknown]
    rfl

theorem readBlocks_append_quiet (hquiet : ∀ b ∈ bs', b.group = groups.METADATA ∨ b.group = groups.INDEX)
    (hknown : ∀ c ∈ (bs ++ bs').flatMap Block.channelReaders, 2 ≤ c.declaration.group) :
    readBlocks [] (bs ++ bs') = readBlocks [] bs := by
  rw [List.flatMap_append, ← List.nil_append (bs.flatMap _)] at hknown
  rw [readBlocks_append, readBlocks_quiet hquiet hknown, List.append_nil]

-- The channels of a group come from the blocks that declare it.
theorem filter_channelReaders :
    (bs.flatMap Block.channelReaders).filter (·.declaration.group = group.toNat) =
      (bs.filter (Block.Declares group)).flatMap fun b =>
        b.channelReaders.filter (·.declaration.group = group.toNat) := by
  induction bs
  case nil          => rfl
  case cons b bs ih =>
    rw [List.flatMap_cons, List.filter_append, ih]
    by_cases hdeclares : b.Declares group
    case pos => rw [List.filter_cons_of_pos (by simpa using hdeclares), List.flatMap_cons]
    case neg =>
      have hnil : b.channelReaders.filter (·.declaration.group = group.toNat) = [] := by
        apply List.filter_eq_nil_iff.mpr
        intro c hc hgroup
        exact hdeclares ⟨_, Block.declaration_mem_declarations hc, by simpa using hgroup⟩
      rw [List.filter_cons_of_neg (by simpa using hdeclares), hnil, List.nil_append]

namespace Writer

variable {w : Writer}

-- What the reader of the file makes of its blocks.
def readings (w : Writer) : List Reading :=
  readBlocks [] w.blocks

theorem Tracked.two_le (h : w.Tracked) :
    ∀ c ∈ w.blocks.flatMap Block.channelReaders, 2 ≤ c.declaration.group := by
  intro c hc
  obtain ⟨b, hb, hc⟩ := List.mem_flatMap.mp hc
  have hd : c.declaration ∈ w.declared := by
    exact List.mem_flatMap.mpr ⟨b, hb, Block.declaration_mem_declarations hc⟩
  rw [(h.identifiers _ hd).left]
  exact Nat.le_add_left 2 _

theorem Tracked.readings_quiet (h : w.Tracked) (hblocks : w.blocks = bs ++ bs')
    (hquiet : ∀ b ∈ bs', b.group = groups.METADATA ∨ b.group = groups.INDEX) :
    w.readings = readBlocks [] bs := by
  have hknown := h.two_le
  rw [hblocks] at hknown
  rw [readings, hblocks, readBlocks_append_quiet hquiet hknown]

end Writer
end Sie

namespace AdvancedRecorder

open Sie EStateM

variable [Host] [Crc32]

namespace AdvancedRecorderSignal

variable {packet : DataPacket} {s : AdvancedRecorderSignal} {w : Writer}

-- What a reader should find because of a packet.
def promised (packet : DataPacket) (s : AdvancedRecorderSignal) (w : Writer) : Option Reading := do
  let handler ← (prepared packet s w).1.handler
  handler.kind.reading handler.group packet

omit [Crc32] in
-- The one channel of a handler's group is that of the handler.
theorem Served.filter_channelReaders {handler : SignalHandler} (h : s.Served w) (hw : w.Tracked)
    (hhandler : handler ∈ s.handler) :
    ∃ c, (w.blocks.flatMap Block.channelReaders).filter
        (·.declaration.group = handler.group.toNat) = [c] ∧
      handler.kind.ReadBy handler.group s.lastValueDescriptor s.lastDomainDescriptor c := by
  obtain ⟨b, hb, hbuilt⟩ := h handler hhandler
  obtain ⟨c, hreaders, hc⟩ := HandlerKind.channelReaders_of_builtFrom hbuilt
  obtain ⟨d, hd, hgroup⟩ := hbuilt.declarations
  have hdeclares : b.Declares handler.group := ⟨d, by simp [hd], hgroup⟩
  refine ⟨c, ?_, hc⟩
  rw [Sie.filter_channelReaders, filter_declares_eq_singleton hw.distinct hb hdeclares,
    List.flatMap_singleton, hreaders]
  simp [hc.group_eq]

-- What he finds, as the file may refuse the packet.
def stored (packet : DataPacket) (s : AdvancedRecorderSignal) (w : Writer) : Option Reading := do
  let handler ← (prepared packet s w).1.handler
  let args ← handler.kind.segments packet
  if (prepared packet s w).2.file.outcome (Block.encode ⟨handler.group, args.flatten⟩) = .complete then
    handler.kind.reading handler.group packet
  else none

theorem wellFormed_prepared (hconsistent : s.Consistent)
    (hpacket : ∀ kind, HandlerKind.select packet.dataDescriptor packet.domainDescriptor =
      .ok (some kind) → kind.WellFormed packet) :
    ∀ handler ∈ (prepared packet s w).1.handler, handler.kind.WellFormed packet := by
  have hknows : (prepared packet s w).1.Knows packet := knows_prepared
  intro handler hhandler
  apply hpacket
  rw [hknows.left, hknows.right]
  exact hconsistent.prepared handler hhandler

-- The reader of a file finds the samples of the packets that the file took, and nothing else.
theorem readings_taken (htracked : w.Tracked) (hserved : s.Served w) (hconsistent : s.Consistent)
    (hcount : ((onPacketReceived (.data packet)).run (s, w)).state.2.nextGroup < 2 ^ 32)
    (hpacket : ∀ kind, HandlerKind.select packet.dataDescriptor packet.domainDescriptor =
      .ok (some kind) → kind.WellFormed packet) :
    ((onPacketReceived (.data packet)).run (s, w)).state.2.readings =
      w.readings ++ (stored packet s w).toList := by
  obtain ⟨htracked', hserved', hextended⟩ := taken_extended htracked hserved hcount
  obtain ⟨pre, hprepared, hpre⟩ := prepared_blocks packet s w
  have hreadings : (prepared packet s w).2.readings = w.readings := by
    exact htracked'.readings_quiet hprepared hpre
  have hknows : (prepared packet s w).1.Knows packet := knows_prepared
  have hwellFormed := wellFormed_prepared (w := w) hconsistent hpacket
  have htaken : Taken packet s w ((onPacketReceived (.data packet)).run (s, w)).state := taken
  rw [stored]
  have htracked'' := htracked'.extended hextended
  clear hextended hcount
  generalize ((onPacketReceived (.data packet)).run (s, w)).state = x at *
  cases htaken
  case skipped hrequest =>
    rw [hreadings]
    cases hhandler : (prepared packet s w).1.handler
    case none         => simp
    case some handler =>
      cases hargs : handler.kind.segments packet
      case none => simp [hargs]
      case some => simp [request, hhandler, hargs] at hrequest
  case refused handler args n w' hhandler hargs hout hblocks _ =>
    rw [Writer.readings, hblocks, ← Writer.readings, hreadings]
    simp [hhandler, hargs, hout]
  case taken handler args post w' hhandler hargs hout hblocks hpost _ =>
    obtain ⟨c, hfilter, hc⟩ := hserved'.filter_channelReaders htracked' hhandler
    have hread := hc.reads packet args hknows.left hknows.right (hwellFormed handler hhandler) hargs
    rw [← List.singleton_append, ← List.append_assoc] at hblocks
    rw [htracked''.readings_quiet hblocks fun b hb => .inr (hpost b hb), readBlocks_append,
      List.nil_append, ← Writer.readings, hreadings]
    simp [readBlocks, hfilter, hhandler, hargs, hout, hread]

-- What was handed over by a call that returned is there.
theorem stored_of_returns (hconsistent : s.Consistent)
    (hpacket : ∀ kind, HandlerKind.select packet.dataDescriptor packet.domainDescriptor =
      .ok (some kind) → kind.WellFormed packet)
    (hreturns : ((onPacketReceived (.data packet)).run (s, w)).Returns) :
    stored packet s w = promised packet s w := by
  have hwellFormed := wellFormed_prepared (w := w) hconsistent hpacket
  rw [stored, promised]
  cases hhandler : (prepared packet s w).1.handler
  case none         => rfl
  case some handler =>
    cases hargs : handler.kind.segments packet
    case none =>
      simp [hargs, HandlerKind.reading_eq_none (hwellFormed handler hhandler) hargs]
    case some args =>
      have hrequest : (prepared packet s w).1.request packet = some (handler.group, args) := by
        simp [request, hhandler, hargs]
      have hout := Writer.outcome_of_returns ((run_of_request hrequest).left.mp hreturns)
      simp [hargs, hout]

end AdvancedRecorderSignal

namespace AdvancedRecorderImpl

variable {disk : ℕ → OpenOutcome} {events : List Event} {r r' : AdvancedRecorderImpl} {e : Event} {i : ℕ}

-- What a reader of the file should find because of an event.
def delivered (i : ℕ) (e : Event) (r : AdvancedRecorderImpl) : Option Reading := do
  let (packet, s, w) ← receiver e r
  if s.writer = i then AdvancedRecorderSignal.promised packet s w else none

def allDelivered (i : ℕ) : List Event → AdvancedRecorderImpl → List Reading
  | [], _      => []
  | e :: es, r => (delivered i e r).toList ++ allDelivered i es ((exec e).run r).state

-- The packets are such that their handlers do record them. Scalar values are not scaled from another
-- type, and a packet has as many octets as they take. A packet of structs is as
-- `CanSignalHandler.Fitting` wants it: structs of 69 octets, or a single longer one, fields that are
-- read in one piece, and times of 8 octets.
def Event.WellFormed : Event → Prop
  | .packet _ (.data p) =>
    ∀ kind, HandlerKind.select p.dataDescriptor p.domainDescriptor = .ok (some kind) → kind.WellFormed p
  | _ => True

def bytesOf (i : ℕ) (r : AdvancedRecorderImpl) : Bytes :=
  r.writers[i]?.elim [] (·.file.bytes)

theorem allDelivered_concat : allDelivered i (events ++ [e]) r =
    allDelivered i events r ++ (delivered i e (Exec.run exec events r)).toList := by
  induction events generalizing r
  case nil          => simp [allDelivered]
  case cons e es ih => simp [allDelivered, ih]

omit [Crc32] [Host] in
theorem readings_blocksOf {w : Writer} (hw : r.writers[i]? = some w) :
    readBlocks [] (blocksOf i r) = w.readings := by
  rw [blocksOf_of_writer hw, Writer.readings]

theorem Transition.consistent (h : Transition r e r') (hr : ∀ x ∈ r.signals, x.2.Consistent) :
    ∀ x ∈ r'.signals, x.2.Consistent := by
  have heffect := h.effect
  cases heffect
  case managed hmanaged =>
    intro x hx
    cases hmanaged.signals x hx
    case inl hx   => exact hr x hx
    case inr hnew => exact fun _ hhandler => nomatch hnew.left ▸ hhandler
  case received hsignal hwriter =>
    intro x hx
    cases mem_withSignal hx
    case inl hx => exact hr x hx
    case inr hx =>
      rw [hx, AdvancedRecorderSignal.run_state_fst]
      exact (hr _ (mem_of_lookup hsignal)).prepared

-- The handlers of all signals are of the kind that their last descriptors select.
theorem consistent_reached : ∀ x ∈ (reached disk events).signals, x.2.Consistent := by
  induction events using List.reverseRecOn
  case nil =>
    rw [reached, Exec.run_nil, create_eq]
    intro _ h
    cases h
  case append_singleton events e ih => exact transition_reached.consistent ih

-- What a reader of the file finds because of an event.
def stored (i : ℕ) (e : Event) (r : AdvancedRecorderImpl) : Option Reading := do
  let (packet, s, w) ← receiver e r
  if s.writer = i then AdvancedRecorderSignal.stored packet s w else none

def allStored (i : ℕ) : List Event → AdvancedRecorderImpl → List Reading
  | [], _      => []
  | e :: es, r => (stored i e r).toList ++ allStored i es ((exec e).run r).state

theorem allStored_concat : allStored i (events ++ [e]) r =
    allStored i events r ++ (stored i e (Exec.run exec events r)).toList := by
  induction events generalizing r
  case nil          => simp [allStored]
  case cons e es ih => simp [allStored, ih]

theorem Transition.readings_stored (h : Transition r e r') (hr : Coherent r) (hnumbered : Numbered r')
    (hconsistent : ∀ x ∈ r.signals, x.2.Consistent) (he : e.WellFormed) :
    readBlocks [] (blocksOf i r') = readBlocks [] (blocksOf i r) ++ (stored i e r).toList := by
  have hcoherent := h.coherent_of_numbered hr hnumbered
  have hgrown := h.grown
  have heffect := h.effect
  cases heffect
  case managed hreceiver hmanaged =>
    obtain ⟨bs, hblocks, hbs⟩ := hmanaged.blocksOf_eq hgrown i
    have hquiet : ∀ b ∈ bs, b.group = groups.METADATA ∨ b.group = groups.INDEX := by
      exact fun b hb => (hbs b hb).imp_left fun h => by rw [h]; rfl
    rw [stored, hreceiver]
    cases hw : r'.writers[i]?
    case none =>
      have hnil : blocksOf i r' = [] := by rw [blocksOf, hw]; rfl
      rw [hnil] at hblocks ⊢
      rw [(List.append_eq_nil_iff.mp hblocks.symm).left]
      rfl
    case some w =>
      rw [blocksOf_of_writer hw] at hblocks
      rw [readings_blocksOf hw]
      exact ((hcoherent.tracked w (List.mem_of_getElem? hw)).readings_quiet hblocks hquiet).trans
        (List.append_nil _).symm
  case received port packet s w hconnection hsignal hwriter =>
    rw [stored, receiver_eq_some hconnection hsignal hwriter, blocksOf_withSignal hwriter]
    by_cases hi : i = s.writer
    case neg => simp [hi, Ne.symm hi]
    case pos =>
      subst hi
      have hcount := hnumbered.of_withSignal hwriter
      rw [if_pos rfl, readings_blocksOf hwriter, ← Writer.readings]
      rw [AdvancedRecorderSignal.readings_taken (hr.tracked w (List.mem_of_getElem? hwriter))
        (hr.served_of_lookup hsignal hwriter) (hconsistent _ (mem_of_lookup hsignal)) hcount he]
      simp

theorem readings_eq_allStored (hnumbered : Numbered (reached disk events))
    (hevents : ∀ e ∈ events, e.WellFormed) :
    readBlocks [] (blocksOf i (reached disk events)) = allStored i events (create disk) := by
  induction events using List.reverseRecOn
  case nil =>
    rw [reached, Exec.run_nil, create_eq]
    rfl
  case append_singleton events e ih =>
    have hbefore := hnumbered.of_grown (grown_reached (List.prefix_append events [e]))
    rw [transition_reached.readings_stored (coherent_of_numbered hbefore) hnumbered consistent_reached
      (hevents e (by simp)), ih hbefore fun e he => hevents e (List.mem_append_left _ he),
      allStored_concat]
    rfl

-- A packet is handed to its signal by the call for it, and the call returns if the signal does.
theorem returns_of_exec_packet {port : ℕ} {packet : Packet} {s : AdvancedRecorderSignal} {w : Writer}
    (horderly : r.Orderly) (hconnected : (r.connection port).isSome)
    (hs : r.signals.lookup port = some s) (hw : r.writers[s.writer]? = some w)
    (h : ((exec (.packet port packet)).run r).Returns) :
    ((AdvancedRecorderSignal.onPacketReceived packet).run (s, w)).Returns := by
  obtain ⟨⟨signal, queue⟩, hconnection⟩ := Option.isSome_iff_exists.mp hconnected
  obtain rfl : queue = [] := horderly.queue_eq hconnection
  have hempty : (r.setConnection port (some { signal, queue := [packet] })).setConnection port
      (some { signal }) = r := by
    rw [setConnection_setConnection, ← hconnection, horderly.setConnection_self]
  have hrun : (exec (.packet port packet)).run r =
      (onSignal port (AdvancedRecorderSignal.onPacketReceived packet)).run r := by
    have hport := any_id_of_connection hconnection
    simp [exec, run_bind, run_get, hconnection, run_modify, onPacketReceived,
      connection_setConnection hport, recordQueue, hempty]
  rw [hrun] at h
  simp only [onSignal, EStateM.run, hs, hw] at h ⊢
  cases hmethod : AdvancedRecorderSignal.onPacketReceived packet (s, w)
  case ok    => trivial
  case error =>
    rw [hmethod] at h
    exact h

theorem Transition.stored_eq_delivered (h : Transition r e r') (horderly : r.Orderly)
    (hconsistent : ∀ x ∈ r.signals, x.2.Consistent) (he : e.WellFormed)
    (hreturns : ((exec e).run r).Returns) : stored i e r = delivered i e r := by
  have heffect := h.effect
  cases heffect
  case managed hreceiver _ =>
    rw [stored, delivered, hreceiver]
    rfl
  case received hconnection hsignal hwriter =>
    have hreturns := returns_of_exec_packet horderly hconnection hsignal hwriter hreturns
    have hstored := AdvancedRecorderSignal.stored_of_returns (hconsistent _ (mem_of_lookup hsignal)) he
      hreturns
    rw [stored, delivered, receiver_eq_some hconnection hsignal hwriter]
    simp only [Option.bind_eq_bind, Option.bind_some, hstored]

-- Files may be refused, and writes may fail in any way that is not followed by more data. The reader
-- of a file finds the packets that the file took, whole and in their order, and these are at least
-- the packets that were recorded without an exception.
theorem stored_reached {i : ℕ} (hhalted : ∀ w ∈ (reached disk events).writers[i]?, w.file.Halted)
    (hnumbered : Numbered (reached disk events)) (hevents : ∀ e ∈ events, e.WellFormed)
    (hsize : ∀ w ∈ (reached disk events).writers[i]?, ∀ v ∈ w.file.writes, v.data.length < 2 ^ 32) :
    readFile (bytesOf i (reached disk events)) = allStored i events (create disk) ∧
      ∀ before e after, events = before ++ e :: after →
        ((exec e).run (reached disk before)).Returns →
          stored i e (reached disk before) = delivered i e (reached disk before) := by
  refine ⟨?_, fun before e after hsplit hreturns => ?_⟩
  case refine_1 =>
    rw [← readings_eq_allStored hnumbered hevents]
    cases hw : (reached disk events).writers[i]?
    case none =>
      rw [bytesOf, blocksOf, hw]
      rfl
    case some w =>
      rw [hw] at hhalted hsize
      rw [blocksOf_of_writer hw, bytesOf, hw]
      exact File.readFile_halted (framed_reached w (List.mem_of_getElem? hw)) (hhalted w rfl) (hsize w rfl)
  case refine_2 =>
    exact transition_reached.stored_eq_delivered orderly_reached consistent_reached
      (hevents e (by simp [hsplit])) hreturns

omit [Host] [Crc32] in
theorem wellFormed_samplePacket (port : ℕ) (octet : UInt8) :
    (Event.packet port (.data { samplePacket with rawData := [octet] })).WellFormed := by
  intro kind hkind
  cases kind
  case scalarLinear =>
    intro value hvalue _ _ _ _
    cases hvalue
    exact ⟨nofun, rfl⟩
  case can => exact nomatch hkind

omit [Host] [Crc32] in
-- One packet is refused, another one is recorded, and a third one fills the disk.
theorem stored_disk_full :
    let _ := Crc32.ieee
    let _ := Host.exact
    let disk (_ : ℕ) : OpenOutcome :=
      .opened [.complete, .complete, .fails 0, .complete, .fails 3, .fails 0] fun _ => []
    let packet (octet : UInt8) : Packet := .data { samplePacket with rawData := [octet] }
    let events : List Event := [.connect 0 { globalId := str "a", description := [] },
      .startRecording, .packet 0 (packet 7), .packet 0 (packet 8), .packet 0 (packet 9), .stopRecording]
    (allStored 0 events (create disk)).map Reading.content =
        [(str "value", [[some (Decoder.Value.num 5), some (Decoder.Value.num 8)]])] ∧
      readFile (bytesOf 0 (reached disk events)) = allStored 0 events (create disk) ∧
        ∀ before e after, events = before ++ e :: after →
          ((exec e).run (reached disk before)).Returns →
            stored 0 e (reached disk before) = delivered 0 e (reached disk before) := by
  intro _ _ disk packet events
  refine ⟨by decide +kernel, stored_reached ?_ ?_ ?_ ?_⟩
  case refine_1 =>
    change ∀ w ∈ (_ : Option Writer), w.file.writes.Pairwise fun v w => v.Torn → w.accepted = []
    decide +kernel
  case refine_2 =>
    change ∀ w ∈ AdvancedRecorderImpl.writers _, w.nextGroup < 2 ^ 32
    decide +kernel
  case refine_3 =>
    simp only [events, packet, List.forall_mem_cons, wellFormed_samplePacket, List.not_mem_nil,
      false_implies, implies_true, and_true]
    exact ⟨trivial, trivial, trivial, trivial, trivial, trivial⟩
  case refine_4 => decide +kernel

end AdvancedRecorderImpl
end AdvancedRecorder
