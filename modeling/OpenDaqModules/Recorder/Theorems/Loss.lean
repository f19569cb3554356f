import OpenDaqModules.Recorder.Packets

namespace AdvancedRecorder

open Sie Xml EStateM

-- The packets which a scalar-linear handler can record.
def DataPacket.Recordable (packet : DataPacket) : Prop :=
  ScalarLinearSignalHandler.supports packet.dataDescriptor packet.domainDescriptor = .ok true ∧
    ∃ domainPacket ∈ packet.domainPacket, domainPacket.offset.isSome

-- Whether two packets have the same descriptors.
def DataPacket.SameDescriptors (p q : DataPacket) : Prop :=
  p.dataDescriptor = q.dataDescriptor ∧ p.domainDescriptor = q.domainDescriptor

namespace AdvancedRecorderSignal

variable [Host] [Crc32]

-- The packet became a block of the signal's current group. All other blocks which were written
-- together with it are there to declare the group or to index the file.
def Recorded (packet : DataPacket) (x x' : AdvancedRecorderSignal × Writer) : Prop :=
  ∃ handler ∈ x'.1.handler, ∃ offset ∈ packet.domainPacket.bind DomainPacket.offset, ∃ pre post,
    x'.2.blocks = x.2.blocks ++ pre ++
      ⟨handler.group, Host.endian.ofUInt64 offset.toUInt64 ++ packet.rawData⟩ :: post ∧
    (∀ b ∈ pre, b.group = groups.METADATA ∨ b.group = groups.INDEX) ∧
    ∀ b ∈ post, b.group = groups.INDEX

def delivered (packets : List Packet) (x : AdvancedRecorderSignal × Writer) :
    AdvancedRecorderSignal × Writer :=
  Exec.run onPacketReceived packets x

-- No packet that can be recorded is dropped by a call that returns.
def NoSilentLoss (packets : List Packet) (x : AdvancedRecorderSignal × Writer) : Prop :=
  ∀ done packet, done ++ [.data packet] <+: packets → packet.Recordable →
    ((onPacketReceived (.data packet)).run (delivered done x)).Returns →
      Recorded packet (delivered done x) (delivered (done ++ [.data packet]) x)

-- The channel for the packet can be declared, and the declaration gets into the file.
def Declares (packet : DataPacket) (x : AdvancedRecorderSignal × Writer) : Prop :=
  ∃ es, SignalHandler.declaration .scalarLinear x.1.testId x.1.signal packet.dataDescriptor
      packet.domainDescriptor x.2 = .ok es ∧
    ((Writer.writeMetadata (Element.serializeAll 1 es)).run x.2.allocated).Returns

-- The last packet that brought new descriptors has made the signal declare a channel.
def Declared (packets : List Packet) (x : AdvancedRecorderSignal × Writer) : Prop :=
  ∀ before first after, packets = before ++ .data first :: after →
    ¬(delivered before x).1.Knows first → (∀ p, .data p ∈ after → p.SameDescriptors first) →
      Declares first (delivered before x)

variable {s : AdvancedRecorderSignal} {w : Writer} {packet : DataPacket}

omit [Host] [Crc32] in
theorem select_of_recordable (h : packet.Recordable) :
    HandlerKind.select packet.dataDescriptor packet.domainDescriptor = .ok (some .scalarLinear) := by
  rw [HandlerKind.select, h.left]
  rfl

omit [Crc32] in
theorem request_of_recordable {handler : SignalHandler} (hs : s.Consistent) (hknows : s.Knows packet)
    (hrecordable : packet.Recordable) (hhandler : s.handler = some handler) :
    ∃ offset ∈ packet.domainPacket.bind DomainPacket.offset, s.request packet =
      some (handler.group, [Host.endian.ofUInt64 offset.toUInt64, packet.rawData]) := by
  have hselect := hs handler hhandler
  rw [← hknows.left, ← hknows.right, select_of_recordable hrecordable] at hselect
  have hkind : handler.kind = .scalarLinear := by simpa using hselect.symm
  have ⟨_, domainPacket, hdomain, hoffset⟩ := hrecordable
  have ⟨offset, hoffset⟩ := Option.isSome_iff_exists.mp hoffset
  rw [Option.mem_def] at hdomain
  refine ⟨offset, by simp [hdomain, hoffset], ?_⟩
  simp [request, hhandler, HandlerKind.segments, hkind, hdomain, hoffset]

-- A call that returns has recorded the packet if it has left the signal with a handler.
theorem recorded_iff (hs : s.Consistent) (hrecordable : packet.Recordable)
    (hreturns : ((onPacketReceived (.data packet)).run (s, w)).Returns) :
    Recorded packet (s, w) ((onPacketReceived (.data packet)).run (s, w)).state ↔
      (prepared packet s w).1.handler.isSome := by
  cases hhandler : (prepared packet s w).1.handler
  case none =>
    refine iff_of_false (fun ⟨handler, hmem, _⟩ => ?_) (by simp)
    rw [run_state_fst, hhandler] at hmem
    exact nomatch hmem
  case some handler =>
    refine iff_of_true ?_ rfl
    have ⟨offset, hoffset, hrequest⟩ := request_of_recordable hs.prepared knows_prepared
      hrecordable hhandler
    have ⟨hrun, hstate⟩ := run_of_request hrequest
    have ⟨pre, hprepared, hpre⟩ := prepared_blocks packet s w
    have ⟨post, hblocks, hpost⟩ := Writer.writeBlock_blocks <|
      Writer.outcome_of_returns (hrun.mp hreturns)
    refine ⟨handler, ?_, offset, hoffset, pre, post, ?_, hpre, hpost⟩
    · rw [run_state_fst, hhandler, Option.mem_some]
    · rw [hstate, hblocks, hprepared]
      simp

theorem handler_prepared (hknows : ¬s.Knows packet)
    (hselect : HandlerKind.select packet.dataDescriptor packet.domainDescriptor =
      .ok (some .scalarLinear)) :
    (prepared packet s w).1.handler.isSome ↔ Declares packet (s, w) := by
  have h := preparation packet s w
  generalize prepared packet s w = x at h ⊢
  cases h
  case known h         => exact absurd h hknows
  case unsupported _ h => exact absurd hselect (h _)
  case undeclared kind e _ h hdeclared =>
    cases hselect.symm.trans h
    apply iff_of_false (by simp [met])
    intro hdeclares
    obtain ⟨es, hes, _⟩ := hdeclares
    exact absurd (hes.symm.trans hdeclared) (by simp)
  case failed kind es e w' _ h hdeclared hrun =>
    cases hselect.symm.trans h
    apply iff_of_false (by simp [met])
    intro hdeclares
    obtain ⟨es', hes, hreturns⟩ := hdeclares
    rw [hes] at hdeclared
    cases hdeclared
    rw [hrun] at hreturns
    exact hreturns
  case declared kind es w' _ h hdeclared hrun =>
    cases hselect.symm.trans h
    exact iff_of_true rfl ⟨es, hdeclared, by simp [hrun]⟩

section Run

variable {x : AdvancedRecorderSignal × Writer} {packets before after : List Packet}
  {first : DataPacket} {e : Packet}

theorem delivered_concat :
    delivered (packets ++ [e]) x = ((onPacketReceived e).run (delivered packets x)).state :=
  Exec.run_concat

theorem delivered_event : delivered (packets ++ [.event]) x = delivered packets x :=
  delivered_concat

theorem delivered_data : (delivered (packets ++ [.data packet]) x).1 =
    (prepared packet (delivered packets x).1 (delivered packets x).2).1 := by
  rw [delivered_concat]
  exact run_state_fst

-- As long as the descriptors do not change, they are the ones that were seen last.
theorem knows_delivered (h : ∀ p, .data p ∈ after → p.SameDescriptors first) :
    (delivered (before ++ .data first :: after) x).1.Knows first := by
  induction after using List.reverseRecOn
  case nil =>
    rw [delivered_data]
    exact knows_prepared
  case append_singleton after e ih =>
    have ih := ih fun p hp => h p (List.mem_append_left _ hp)
    rw [← List.cons_append, ← List.append_assoc]
    cases e
    case event =>
      rw [delivered_event]
      exact ih
    case data p =>
      have hsame := h p (List.mem_append_right _ List.mem_cons_self)
      have hknows : (delivered (before ++ .data first :: after ++ [.data p]) x).1.Knows p := by
        rw [delivered_data]
        exact knows_prepared
      exact ⟨hsame.left.symm.trans hknows.left, hsame.right.symm.trans hknows.right⟩

omit [Host] [Crc32] in
theorem sameDescriptors_of_knows (hp : s.Knows packet) (hq : s.Knows first) :
    packet.SameDescriptors first :=
  ⟨hp.left.trans hq.left.symm, hp.right.trans hq.right.symm⟩

omit [Host] [Crc32] in
-- A packet in a run is the last one, or it is one of the run before the last one.
theorem eq_or_of_concat_eq {a : Packet} (h : packets ++ [e] = before ++ a :: after) :
    packets = before ∧ e = a ∧ after = [] ∨
      ∃ later, after = later ++ [e] ∧ packets = before ++ a :: later := by
  cases List.eq_nil_or_concat after
  case inl hnil =>
    rw [hnil] at h
    have ⟨hpackets, he⟩ := List.append_singleton_inj.mp h
    exact .inl ⟨hpackets, he, hnil⟩
  case inr hafter =>
    obtain ⟨later, last, rfl⟩ := hafter
    rw [List.concat_eq_append, ← List.cons_append, ← List.append_assoc] at h
    have ⟨hpackets, he⟩ := List.append_singleton_inj.mp h
    exact .inr ⟨later, by rw [he, List.concat_eq_append], hpackets⟩

-- A packet without new descriptors makes no difference.
theorem declared_concat_iff (he : ∀ p, e = .data p → (delivered packets x).1.Knows p) :
    Declared (packets ++ [e]) x ↔ Declared packets x := by
  constructor
  case mp =>
    intro h before first after hsplit hnew hsame
    apply h before first (after ++ [e]) (by simp [hsplit]) hnew
    intro p hp
    cases List.mem_append.mp hp
    case inl hp => exact hsame p hp
    case inr hp =>
      have hknows := he p (List.mem_singleton.mp hp).symm
      rw [hsplit] at hknows
      exact sameDescriptors_of_knows hknows (knows_delivered hsame)
  case mpr =>
    intro h before first after hsplit hnew hsame
    cases eq_or_of_concat_eq hsplit
    case inl hlast =>
      have ⟨hpackets, hfirst, _⟩ := hlast
      exact absurd (hpackets ▸ he first hfirst) hnew
    case inr hlater =>
      obtain ⟨later, rfl, hpackets⟩ := hlater
      exact h before first later hpackets hnew fun p hp => hsame p (List.mem_append_left _ hp)

-- Only the last packet matters if it brings new descriptors.
theorem declared_concat_iff_declares (hnew : ¬(delivered packets x).1.Knows packet) :
    Declared (packets ++ [.data packet]) x ↔ Declares packet (delivered packets x) := by
  constructor
  case mp  => exact fun h => h packets packet [] rfl hnew fun _ h => nomatch h
  case mpr =>
    intro h before first after hsplit _ hsame
    cases eq_or_of_concat_eq hsplit
    case inl hlast =>
      obtain ⟨rfl, hfirst, _⟩ := hlast
      cases hfirst
      exact h
    case inr hlater =>
      obtain ⟨later, rfl, rfl⟩ := hlater
      have hknows : (delivered (before ++ .data first :: later) x).1.Knows first :=
        knows_delivered fun p hp => hsame p (List.mem_append_left _ hp)
      have hpacket := hsame packet (by simp)
      exact absurd ⟨hpacket.left.trans hknows.left, hpacket.right.trans hknows.right⟩ hnew

end Run

variable {packets : List Packet} {signal : Signal} {writer : ℕ} {testId : UInt32}

theorem consistent_delivered : (delivered packets (create signal writer testId, w)).1.Consistent := by
  induction packets using List.reverseRecOn
  case nil => exact fun _ h => nomatch h
  case append_singleton packets e ih =>
    cases e
    case event =>
      rw [delivered_event]
      exact ih
    case data packet =>
      rw [delivered_data]
      exact ih.prepared

-- The signal has a handler for descriptors it knows if it could declare a channel for them.
theorem handler_iff_declared (hsupports : ScalarLinearSignalHandler.supports packet.dataDescriptor
      packet.domainDescriptor = .ok true)
    (hknows : (delivered packets (create signal writer testId, w)).1.Knows packet) :
    (delivered packets (create signal writer testId, w)).1.handler.isSome ↔
      Declared packets (create signal writer testId, w) := by
  induction packets using List.reverseRecOn
  case nil =>
    have hnone : ScalarLinearSignalHandler.supports packet.dataDescriptor packet.domainDescriptor =
        .error .notAssigned := by
      rw [hknows.left, hknows.right]
      rfl
    rw [hnone] at hsupports
    exact nomatch hsupports
  case append_singleton packets e ih =>
    cases e
    case event =>
      rw [declared_concat_iff (e := .event) fun _ h => nomatch h]
      rw [delivered_event] at hknows ⊢
      exact ih hknows
    case data last =>
      by_cases hlast : (delivered packets (create signal writer testId, w)).1.Knows last
      case pos =>
        rw [delivered_data, prepared, if_pos hlast] at hknows ⊢
        rw [declared_concat_iff fun p hp => Packet.data.inj hp ▸ hlast]
        exact ih hknows
      case neg =>
        have hsame : packet.SameDescriptors last := by
          rw [delivered_data] at hknows
          exact sameDescriptors_of_knows hknows knows_prepared
        rw [declared_concat_iff_declares hlast, delivered_data]
        apply handler_prepared hlast
        rw [← hsame.left, ← hsame.right, HandlerKind.select, hsupports]
        rfl

-- A run loses a packet silently if and only if some packet's channel could not be declared when
-- its descriptors were met.
theorem noSilentLoss_iff :
    NoSilentLoss packets (create signal writer testId, w) ↔
      ∀ done packet, done ++ [.data packet] <+: packets → packet.Recordable →
        ((onPacketReceived (.data packet)).run
          (delivered done (create signal writer testId, w))).Returns →
        Declared (done ++ [.data packet]) (create signal writer testId, w) := by
  apply forall₅_congr
  intro done packet _ hrecordable hreturns
  have hknows : (delivered (done ++ [.data packet]) (create signal writer testId, w)).1.Knows packet := by
    rw [delivered_data]
    exact knows_prepared
  rw [← handler_iff_declared hrecordable.left hknows, delivered_data, delivered_concat]
  exact recorded_iff consistent_delivered hrecordable hreturns

-- The declaration of the channel does not get into the file, and no call tells about the packets.
omit [Host] [Crc32] in
theorem not_noSilentLoss_declaration_fails :
    let _ := Crc32.ieee
    let _ := Host.exact
    let w : Writer := { writer := IndexedWriter.create [.fails 0], uuids := fun _ => [] }
    let signal : Signal := { globalId := str "/signal", description := [] }
    ¬NoSilentLoss [.data samplePacket, .data samplePacket] (create signal 0 0, w) := by
  intro _ _ w signal h
  have hreturns : ((onPacketReceived (.data samplePacket)).run
      (delivered [.data samplePacket] (create signal 0 0, w))).Returns := by decide +kernel
  have hnone : (delivered ([.data samplePacket] ++ [.data samplePacket])
      (create signal 0 0, w)).1.handler.isNone := by decide +kernel
  have hrecordable : samplePacket.Recordable := ⟨rfl, _, rfl, rfl⟩
  have ⟨handler, hhandler, _⟩ := h [.data samplePacket] samplePacket List.prefix_rfl hrecordable hreturns
  rw [Option.isNone_iff_eq_none.mp hnone] at hhandler
  exact nomatch hhandler

end AdvancedRecorderSignal
end AdvancedRecorder
