import OpenDaqModules.Recorder.Theorems.RoundTrip

namespace AdvancedRecorder

open Sie EStateM

namespace AdvancedRecorderSignal

variable [Host] [Crc32] {packet : DataPacket} {s : AdvancedRecorderSignal} {w : Writer}

-- A handler is either the one that there was, or it has just been given a group.
theorem group_of_prepared {handler : SignalHandler}
    (hio : (prepared packet s w).2.file.AllComplete)
    (hhandler : handler ∈ (prepared packet s w).1.handler) :
    (prepared packet s w).1 = s ∨
      handler.group = UInt32.ofNat w.nextGroup ∧ w.nextGroup < (prepared packet s w).2.nextGroup := by
  have h := announced hio
  generalize given packet s w = ids, prepared packet s w = x at h hhandler ⊢
  cases h
  case known       => exact .inl rfl
  case unsupported => exact nomatch hhandler
  case undeclared  => exact nomatch hhandler
  case declared hids =>
    cases hhandler
    refine .inr ⟨SignalHandler.group_handler, ?_⟩
    rw [hids.nextGroup]
    exact Nat.lt_succ_self _

theorem group_of_received {handler : SignalHandler}
    (hio : ((onPacketReceived (.data packet)).run (s, w)).state.2.file.AllComplete)
    (hcount : ((onPacketReceived (.data packet)).run (s, w)).state.2.nextGroup < 2 ^ 32)
    (hhandler : handler ∈ (prepared packet s w).1.handler) :
    (prepared packet s w).1 = s ∨ handler.group.toNat = w.nextGroup ∧
      w.nextGroup < ((onPacketReceived (.data packet)).run (s, w)).state.2.nextGroup := by
  apply (group_of_prepared (prepared_complete hio) hhandler).imp_right
  rintro ⟨hgroup, hlt⟩
  rw [← (received hio).sameIdentifiers.nextGroup] at hlt
  exact ⟨by rw [hgroup, UInt32.toNat_ofNat_of_lt' (hlt.trans hcount)], hlt⟩

end AdvancedRecorderSignal

namespace AdvancedRecorderImpl

-- A packet that was recorded, and what the reader of the file finds because of it.
structure Delivery where
  port    : ℕ
  packet  : DataPacket
  reading : Reading

-- Two packets of one channel come from one port, and they have the same descriptors.
def Delivery.SameChannel (x y : Delivery) : Prop :=
  x.port = y.port ∧ x.packet.dataDescriptor = y.packet.dataDescriptor ∧
    x.packet.domainDescriptor = y.packet.domainDescriptor

variable [Host] [Crc32] {disk : ℕ → OpenOutcome} {events : List Event} {r r' : AdvancedRecorderImpl}
  {e : Event} {i : ℕ} {history : List Delivery}

def delivery (i : ℕ) (e : Event) (r : AdvancedRecorderImpl) : Option Delivery :=
  match e with
  | .packet port (.data packet) => (delivered i e r).map fun reading => { port, packet, reading }
  | _                           => none

def deliveries (i : ℕ) : List Event → AdvancedRecorderImpl → List Delivery
  | [], _      => []
  | e :: es, r => (delivery i e r).toList ++ deliveries i es ((exec e).run r).state

-- The groups of a file are given to one signal each, for as long as its descriptors do not change.
structure Owned (i : ℕ) (history : List Delivery) (r : AdvancedRecorderImpl) : Prop where
  past     : ∀ x ∈ history, ∃ w, r.writers[i]? = some w ∧ x.reading.group < w.nextGroup
  distinct : ∀ y ∈ r.signals, ∀ z ∈ r.signals, y.2.writer = i → z.2.writer = i →
    ∀ h ∈ y.2.handler, ∀ h' ∈ z.2.handler, h.group = h'.group → y.1 = z.1
  owner    : ∀ x ∈ history, ∀ y ∈ r.signals, y.2.writer = i → ∀ h ∈ y.2.handler,
    h.group.toNat = x.reading.group → y.1 = x.port ∧
      y.2.lastValueDescriptor = x.packet.dataDescriptor ∧
      y.2.lastDomainDescriptor = x.packet.domainDescriptor

omit [Host] [Crc32] in
theorem Owned.managed (h : Owned i history r) (hmanaged : Managed r r') (hgrown : Grown r r') :
    Owned i history r' := by
  have hold : ∀ y ∈ r'.signals, ∀ h ∈ y.2.handler, y ∈ r.signals := by
    intro y hy handler hhandler
    cases hmanaged.signals y hy
    case inl hy   => exact hy
    case inr hnew => exact nomatch hnew.left ▸ hhandler
  constructor
  case past =>
    intro x hx
    obtain ⟨w, hw, hlt⟩ := h.past x hx
    obtain ⟨w', hw', hg⟩ := hgrown.writers i w hw
    exact ⟨w', hw', hlt.trans_le hg.nextGroup⟩
  case distinct =>
    intro y hy z hz hyi hzi hd hhd hd' hhd'
    exact h.distinct y (hold y hy hd hhd) z (hold z hz hd' hhd') hyi hzi hd hhd hd' hhd'
  case owner =>
    exact fun x hx y hy hyi hd hhd => h.owner x hx y (hold y hy hd hhd) hyi hd hhd

omit [Host] [Crc32] in
theorem mem_withSignal_iff {s : AdvancedRecorderSignal} {x : AdvancedRecorderSignal × Writer}
    {y : ℕ × AdvancedRecorderSignal} (hs : r.signals.lookup port = some s) :
    y ∈ (r.withSignal port i x).signals ↔ y ∈ r.signals ∧ y.1 ≠ port ∨ y = (port, x.1) := by
  simp only [withSignal, List.mem_map]
  constructor
  case mp =>
    rintro ⟨z, hz, rfl⟩
    split
    case isTrue       => exact .inr rfl
    case isFalse hne  => exact .inl ⟨hz, hne⟩
  case mpr =>
    rintro (⟨hy, hne⟩ | rfl)
    · exact ⟨y, hy, if_neg hne⟩
    · exact ⟨_, mem_of_lookup hs, if_pos rfl⟩

omit [Crc32] in
theorem group_lt_of_served {s : AdvancedRecorderSignal} {w : Writer} {handler : SignalHandler}
    (hs : s.Served w) (hw : w.Tracked) (hhandler : handler ∈ s.handler) :
    handler.group.toNat < w.nextGroup := by
  obtain ⟨d, hd, hgroup⟩ := hs.group hhandler
  obtain ⟨hdgroup, _, hchannel⟩ := hw.identifiers d hd
  rw [← hgroup, hdgroup, hw.groups]
  exact Nat.add_lt_add_right hchannel 2

omit [Crc32] in
theorem Coherent.group_lt (h : Coherent r) (hy : y ∈ r.signals) {w : Writer}
    (hw : r.writers[y.2.writer]? = some w) {handler : SignalHandler} (hhandler : handler ∈ y.2.handler) :
    handler.group.toNat < w.nextGroup := by
  obtain ⟨v, hv, hserved⟩ := h.served y hy
  cases Option.some.inj (hv.symm.trans hw)
  exact group_lt_of_served hserved (h.tracked w (List.mem_of_getElem? hw)) hhandler

theorem promised_eq_some {packet : DataPacket} {s : AdvancedRecorderSignal} {w : Writer} {x : Reading}
    (h : AdvancedRecorderSignal.promised packet s w = some x) :
    ∃ handler ∈ (AdvancedRecorderSignal.prepared packet s w).1.handler,
      x.group = handler.group.toNat := by
  obtain ⟨handler, hhandler, hread⟩ := Option.bind_eq_some_iff.mp h
  obtain ⟨_, _, rfl⟩ := Option.map_eq_some_iff.mp hread
  exact ⟨handler, hhandler, rfl⟩

-- What a packet changes for the groups of a file: the signal of its port may get a new one.
structure Handed (i port : ℕ) (packet : DataPacket) (s : AdvancedRecorderSignal) (w : Writer)
    (new : List Delivery) (x : AdvancedRecorderSignal × Writer) : Prop where
  writer  : x.1.writer = s.writer
  grown   : w.nextGroup ≤ x.2.nextGroup
  group   : ∀ handler ∈ x.1.handler, x.1 = s ∨
    handler.group.toNat = w.nextGroup ∧ w.nextGroup < x.2.nextGroup
  knows   : x.1.Knows packet
  new     : ∀ d ∈ new, s.writer = i ∧ d.port = port ∧ d.packet = packet ∧
    ∃ handler ∈ x.1.handler, d.reading.group = handler.group.toNat

theorem handed {packet : DataPacket} {s : AdvancedRecorderSignal} {w : Writer}
    (hconnection : (r.connection port).isSome) (hsignal : r.signals.lookup port = some s)
    (hwriter : r.writers[s.writer]? = some w)
    (hio : ((AdvancedRecorderSignal.onPacketReceived (.data packet)).run (s, w)).state.2.file.AllComplete)
    (hcount : ((AdvancedRecorderSignal.onPacketReceived (.data packet)).run (s, w)).state.2.nextGroup < 2 ^ 32) :
    Handed i port packet s w (delivery i (.packet port (.data packet)) r).toList
      ((AdvancedRecorderSignal.onPacketReceived (.data packet)).run (s, w)).state := by
  constructor
  case writer =>
    rw [AdvancedRecorderSignal.run_state_fst]
    exact AdvancedRecorderSignal.prepared_signal.right.left
  case grown =>
    have hgrown : Writer.Grown w
        ((AdvancedRecorderSignal.onPacketReceived (.data packet)).run (s, w)).state.2 := by
      refine AdvancedRecorderSignal.onPacketReceived_writer (fun w => ?_) (fun _ _ _ => ?_)
      · exact ⟨List.prefix_rfl, Nat.le_succ _, Nat.le_succ _, Nat.le_succ _⟩
      · exact Writer.writeBlock_keeps _
    exact hgrown.nextGroup
  case group =>
    rw [AdvancedRecorderSignal.run_state_fst]
    exact fun handler hhandler => AdvancedRecorderSignal.group_of_received hio hcount hhandler
  case knows =>
    rw [AdvancedRecorderSignal.run_state_fst]
    exact AdvancedRecorderSignal.knows_prepared
  case new =>
    intro d hd
    rw [Option.mem_toList, delivery, delivered, receiver_eq_some hconnection hsignal hwriter] at hd
    obtain ⟨reading, hreading, rfl⟩ := Option.map_eq_some_iff.mp hd
    rw [Option.bind_eq_bind, Option.bind_some, Option.ite_none_right_eq_some] at hreading
    rw [AdvancedRecorderSignal.run_state_fst]
    exact ⟨hreading.left, rfl, rfl, promised_eq_some hreading.right⟩

omit [Crc32] in
theorem Owned.handed {packet : DataPacket} {s : AdvancedRecorderSignal} {w : Writer}
    {new : List Delivery} {x : AdvancedRecorderSignal × Writer} (h : Owned i history r)
    (hr : Coherent r) (hsignal : r.signals.lookup port = some s)
    (hwriter : r.writers[s.writer]? = some w) (hx : Handed i port packet s w new x) :
    Owned i (history ++ new) (r.withSignal port s.writer x) := by
  have hmem := mem_of_lookup hsignal
  have hset : s.writer = i → (r.withSignal port s.writer x).writers[i]? = some x.2 := by
    rintro rfl
    simp [withSignal, (List.getElem?_eq_some_iff.mp hwriter).choose]
  -- Nobody else has the group of the signal.
  have hother : ∀ y ∈ r.signals, y.1 ≠ port → y.2.writer = i → ∀ hd ∈ y.2.handler,
      ∀ handler ∈ x.1.handler, s.writer = i → hd.group ≠ handler.group := by
    intro y hy hne hyi hd hhd handler hhandler hi heq
    cases hx.group handler hhandler
    case inl hsame =>
      exact hne (h.distinct y hy (port, s) hmem hyi hi hd hhd handler (hsame ▸ hhandler) heq)
    case inr hnew =>
      have hlt := hr.group_lt hy (by rw [hyi, ← hi, hwriter]) hhd
      rw [heq, hnew.left] at hlt
      exact lt_irrefl _ hlt
  constructor
  case past =>
    intro d hd
    cases List.mem_append.mp hd
    case inl hd =>
      obtain ⟨v, hv, hlt⟩ := h.past d hd
      by_cases hi : s.writer = i
      case pos =>
        cases Option.some.inj (hwriter.symm.trans (hi ▸ hv))
        exact ⟨x.2, hset hi, hlt.trans_le hx.grown⟩
      case neg => exact ⟨v, by rw [withSignal, List.getElem?_set_ne hi, hv], hlt⟩
    case inr hd =>
      obtain ⟨hi, _, _, handler, hhandler, hgroup⟩ := hx.new d hd
      refine ⟨x.2, hset hi, hgroup ▸ ?_⟩
      cases hx.group handler hhandler
      case inl hsame => exact (hr.group_lt hmem hwriter (hsame ▸ hhandler)).trans_le hx.grown
      case inr hnew  => exact hnew.left ▸ hnew.right
  case distinct =>
    intro y hy z hz hyi hzi hd hhd hd' hhd' heq
    cases (mem_withSignal_iff hsignal).mp hy <;> cases (mem_withSignal_iff hsignal).mp hz
    case inl.inl hy hz => exact h.distinct y hy.left z hz.left hyi hzi hd hhd hd' hhd' heq
    case inr.inr hy hz => rw [hy, hz]
    case inl.inr hy hz =>
      subst hz
      exact absurd heq (hother y hy.left hy.right hyi hd hhd hd' hhd' (hx.writer ▸ hzi))
    case inr.inl hy hz =>
      subst hy
      exact absurd heq.symm (hother z hz.left hz.right hzi hd' hhd' hd hhd (hx.writer ▸ hyi))
  case owner =>
    intro d hd y hy hyi hd' hhd' hgroup
    cases List.mem_append.mp hd <;> cases (mem_withSignal_iff hsignal).mp hy
    case inl.inl hd hy => exact h.owner d hd y hy.left hyi hd' hhd' hgroup
    case inl.inr hd hy =>
      subst hy
      have hi : s.writer = i := hx.writer ▸ hyi
      cases hx.group hd' hhd'
      case inl hsame =>
        have howner := h.owner d hd (port, s) hmem hi hd' (hsame ▸ hhd') hgroup
        rwa [← hsame] at howner
      case inr hnew =>
        obtain ⟨v, hv, hlt⟩ := h.past d hd
        cases Option.some.inj (hwriter.symm.trans (hi ▸ hv))
        exact absurd (hgroup.symm.trans hnew.left) hlt.ne
    case inr.inl hd hy =>
      obtain ⟨hi, _, _, handler, hhandler, hg⟩ := hx.new d hd
      have heq : hd'.group = handler.group := UInt32.toNat_inj.mp (hgroup.trans hg)
      exact absurd heq (hother y hy.left hy.right hyi hd' hhd' handler hhandler hi)
    case inr.inr hd hy =>
      subst hy
      obtain ⟨_, hport, hpacket, _⟩ := hx.new d hd
      rw [hport, hpacket]
      exact ⟨rfl, hx.knows.left.symm, hx.knows.right.symm⟩

theorem Transition.owned (h : Transition r e r') (hr : Owned i history r) (hcoherent : Coherent r)
    (hfaultless : Faultless r') : Owned i (history ++ (delivery i e r).toList) r' := by
  have hgrown := h.grown
  have heffect := h.effect
  cases heffect
  case managed hreceiver hmanaged =>
    have hnone : delivery i e r = none := by
      cases e
      case packet port packet =>
        cases packet
        case event => rfl
        case data  =>
          rw [delivery, delivered, hreceiver]
          rfl
      all_goals rfl
    rw [hnone, Option.toList_none, List.append_nil]
    exact hr.managed hmanaged hgrown
  case received hconnection hsignal hwriter =>
    obtain ⟨hio, hcount⟩ := hfaultless.of_withSignal hwriter
    exact hr.handed hcoherent hsignal hwriter (handed hconnection hsignal hwriter hio hcount)

theorem deliveries_concat : deliveries i (events ++ [e]) r =
    deliveries i events r ++ (delivery i e (Exec.run exec events r)).toList := by
  induction events generalizing r
  case nil          => simp [deliveries]
  case cons e es ih => simp [deliveries, ih]

omit [Host] [Crc32] in
theorem owned_create : Owned i [] ({ disk } : AdvancedRecorderImpl).portAdded :=
  ⟨(fun _ h => nomatch h), (fun _ h => nomatch h), fun _ h => nomatch h⟩

theorem owned_reached (h : Faultless (reached disk events)) :
    Owned i (deliveries i events (create disk)) (reached disk events) := by
  induction events using List.reverseRecOn
  case nil =>
    rw [reached, Exec.run_nil, create_eq]
    exact owned_create
  case append_singleton events e ih =>
    have hbefore := h.of_grown (grown_reached (List.prefix_append events [e]))
    rw [deliveries_concat]
    exact transition_reached.owned (ih hbefore) (coherent_reached hbefore) h

-- The signal that a packet was delivered to has its group and its descriptors afterwards.
theorem Transition.delivery (h : Transition r e r') (hfaultless : Faultless r') {d : Delivery}
    (hd : d ∈ delivery i e r) : ∃ y ∈ r'.signals, y.2.writer = i ∧ y.1 = d.port ∧
      y.2.Knows d.packet ∧ ∃ handler ∈ y.2.handler, handler.group.toNat = d.reading.group := by
  cases e
  case packet port packet =>
    cases packet
    case event       => cases hd
    case data packet =>
      have heffect := h.effect
      cases heffect
      case managed hreceiver _ =>
        rw [AdvancedRecorderImpl.delivery, delivered, hreceiver] at hd
        cases hd
      case received s w hwriter hconnection hsignal =>
        obtain ⟨hio, hcount⟩ := hfaultless.of_withSignal hwriter
        have hhanded := handed (i := i) hconnection hsignal hwriter hio hcount
        obtain ⟨hi, hport, hpacket, handler, hhandler, hgroup⟩ := hhanded.new d (Option.mem_toList.mpr hd)
        refine ⟨_, (mem_withSignal_iff hsignal).mpr (.inr rfl), ?_, hport.symm, ?_, handler, hhandler,
          hgroup.symm⟩
        · exact hhanded.writer.trans hi
        · exact hpacket ▸ hhanded.knows
  all_goals cases hd

theorem pairwise_deliveries (h : Faultless (reached disk events)) :
    (deliveries i events (create disk)).Pairwise fun x y =>
      x.reading.group = y.reading.group → x.SameChannel y := by
  induction events using List.reverseRecOn
  case nil => exact .nil
  case append_singleton events e ih =>
    have hbefore := h.of_grown (grown_reached (List.prefix_append events [e]))
    have howned : Owned i (deliveries i (events ++ [e]) (create disk)) (reached disk (events ++ [e])) := by
      exact owned_reached h
    rw [deliveries_concat] at howned ⊢
    refine List.pairwise_append.mpr ⟨ih hbefore, ?_, fun x hx y hy heq => ?_⟩
    case refine_1 => cases AdvancedRecorderImpl.delivery i e _ <;> simp
    case refine_2 =>
      obtain ⟨z, hz, hzi, hport, hknows, handler, hhandler, hgroup⟩ :=
        transition_reached.delivery h (Option.mem_toList.mp hy)
      obtain ⟨hzport, hvalue, hdomain⟩ := howned.owner x (List.mem_append_left _ hx) z hz hzi handler
        hhandler (hgroup.trans heq.symm)
      exact ⟨hzport.symm.trans hport, hvalue.symm.trans hknows.left.symm,
        hdomain.symm.trans hknows.right.symm⟩

theorem map_reading_deliveries :
    (deliveries i events r).map Delivery.reading = allDelivered i events r := by
  have hdelivery (e : Event) (r : AdvancedRecorderImpl) :
      (AdvancedRecorderImpl.delivery i e r).map Delivery.reading = delivered i e r := by
    cases e
    case packet port packet =>
      cases packet
      case event => rfl
      case data  => simp [AdvancedRecorderImpl.delivery, Option.map_map, Function.comp_def]
    all_goals rfl
  induction events generalizing r
  case nil          => rfl
  case cons e es ih =>
    rw [deliveries, allDelivered, List.map_append, ih, ← hdelivery e r]
    cases AdvancedRecorderImpl.delivery i e r <;> rfl

-- What a file holds under one group comes from one port, and from packets with one pair of
-- descriptors.
theorem separated_reached (hfaultless : Faultless (reached disk events))
    (hevents : ∀ e ∈ events, e.WellFormed) (i : ℕ)
    (hsize : ∀ b ∈ blocksOf i (reached disk events), b.size < 2 ^ 32) :
    readFile (bytesOf i (reached disk events)) =
        (deliveries i events (create disk)).map Delivery.reading ∧
      (deliveries i events (create disk)).Pairwise fun x y =>
        x.reading.group = y.reading.group → x.SameChannel y :=
  ⟨by rw [readFile_reached hfaultless hevents i hsize, map_reading_deliveries],
    pairwise_deliveries hfaultless⟩

omit [Host] [Crc32] in
-- A signal that is connected once more gets another channel.
theorem separated_three_channels :
    let _ := Crc32.ieee
    let _ := Host.exact
    let disk (_ : ℕ) : OpenOutcome := .opened [] fun _ => []
    let packet (octet : UInt8) : Packet := .data { samplePacket with rawData := [octet] }
    let a : Signal := { globalId := str "a", description := [] }
    let events : List Event := [.connect 0 a, .connect 1 { a with globalId := str "b" },
      .startRecording, .packet 0 (packet 7), .packet 1 (packet 8), .packet 0 (packet 9),
      .disconnect 0, .connect 0 a, .packet 0 (packet 10)]
    (deliveries 0 events (create disk)).map (fun x => (x.port, x.reading.group)) =
        [(0, 2), (1, 3), (0, 2), (0, 4)] ∧
      readFile (bytesOf 0 (reached disk events)) =
          (deliveries 0 events (create disk)).map Delivery.reading ∧
        (deliveries 0 events (create disk)).Pairwise fun x y =>
          x.reading.group = y.reading.group → x.SameChannel y := by
  intro _ _ disk packet a events
  refine ⟨by decide +kernel, separated_reached ?_ ?_ 0 (by decide +kernel)⟩
  case refine_1 =>
    change ∀ w ∈ AdvancedRecorderImpl.writers _,
      (∀ v ∈ w.file.writes, v.Complete) ∧ w.nextGroup < 2 ^ 32
    decide +kernel
  case refine_2 =>
    simp only [events, packet, List.forall_mem_cons, wellFormed_samplePacket, List.not_mem_nil,
      false_implies, implies_true, and_true, true_and]
    exact ⟨trivial, trivial, trivial, trivial, trivial⟩

end AdvancedRecorderImpl
end AdvancedRecorder
