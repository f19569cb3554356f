import OpenDaqModules.Recorder.Channels
import OpenDaqModules.Recorder.Growth

namespace Sie.Writer

-- All channels that the metadata of the file declares.
def declared (w : Writer) : List Declaration :=
  w.blocks.flatMap Block.declarations

-- Every channel of the file was declared with identifiers that were not used before.
structure Tracked (w : Writer) : Prop where
  decoders    : w.nextDecoderId = w.nextChannelId + 2
  groups      : w.nextGroup = w.nextChannelId + 2
  identifiers : ∀ d ∈ w.declared,
    d.group = d.channel + 2 ∧ d.decoder = d.channel + 2 ∧ d.channel < w.nextChannelId
  ordered     : w.declared.Pairwise (·.channel < ·.channel)

-- No identifier was given away, and nothing that declares a channel was written.
structure Extended (w w' : Writer) : Prop extends SameIdentifiers w w' where
  blocks : ∃ bs, w'.blocks = w.blocks ++ bs ∧ ∀ b ∈ bs, b.declarations = []

variable {w w' : Writer}

theorem Extended.declared (h : Extended w w') : w'.declared = w.declared := by
  have ⟨bs, hblocks, hbs⟩ := h.blocks
  rw [Writer.declared, Writer.declared, hblocks, List.flatMap_append,
    List.flatMap_eq_nil_iff.mpr hbs, List.append_nil]

theorem Tracked.extended (h : Tracked w) (hext : Extended w w') : Tracked w' where
  decoders    := by rw [hext.nextDecoderId, hext.nextChannelId, h.decoders]
  groups      := by rw [hext.nextGroup, hext.nextChannelId, h.groups]
  identifiers := by
    rw [hext.declared, hext.nextChannelId]
    exact h.identifiers
  ordered     := by
    rw [hext.declared]
    exact h.ordered

-- The identifiers that the next channel gets.
def identifiers (w : Writer) : Declaration where
  group   := (UInt32.ofNat w.nextGroup).toNat
  decoder := (UInt32.ofNat w.nextDecoderId).toNat
  channel := (UInt32.ofNat w.nextChannelId).toNat

theorem Tracked.identifiers_eq (h : Tracked w) (hcount : w.nextGroup < 2 ^ 32) :
    w.identifiers = ⟨w.nextChannelId + 2, w.nextChannelId + 2, w.nextChannelId⟩ := by
  have hgroups := h.groups
  have hid : ∀ n < 2 ^ 32, (UInt32.ofNat n).toNat = n := fun n hn => UInt32.toNat_ofNat_of_lt' hn
  have hchannel := hid w.nextChannelId (by omega)
  have hgroup := hid (w.nextChannelId + 2) (by omega)
  rw [Writer.identifiers, h.groups, h.decoders, hchannel, hgroup]

-- The identifiers of a channel are used up, whether it gets declared or not.
theorem Tracked.allocated (h : Tracked w) (hcount : w.nextGroup < 2 ^ 32)
    (hids : ids = [] ∨ ids = [w.identifiers]) (hdeclared : w'.declared = w.declared ++ ids)
    (hnext : w'.nextChannelId = w.nextChannelId + 1 ∧ w'.nextDecoderId = w.nextDecoderId + 1 ∧
      w'.nextGroup = w.nextGroup + 1) : Tracked w' := by
  have ⟨hnextChannelId, hnextDecoderId, hnextGroup⟩ := hnext
  have hnew : ∀ d ∈ ids, d = ⟨w.nextChannelId + 2, w.nextChannelId + 2, w.nextChannelId⟩ := by
    intro d hd
    cases hids
    case inl hids => exact nomatch hids ▸ hd
    case inr hids =>
      rw [hids] at hd
      exact (List.mem_singleton.mp hd).trans (h.identifiers_eq hcount)
  constructor
  case decoders    => rw [hnextDecoderId, hnextChannelId, h.decoders]
  case groups      => rw [hnextGroup, hnextChannelId, h.groups]
  case identifiers =>
    rw [hdeclared, hnextChannelId]
    intro d hd
    cases List.mem_append.mp hd
    case inl hd =>
      have ⟨hgroup, hdecoder, hchannel⟩ := h.identifiers d hd
      exact ⟨hgroup, hdecoder, hchannel.trans (Nat.lt_succ_self _)⟩
    case inr hd =>
      cases hnew d hd
      exact ⟨rfl, rfl, Nat.lt_succ_self _⟩
  case ordered =>
    rw [hdeclared, List.pairwise_append]
    refine ⟨h.ordered, ?_, fun d hd d' hd' => ?_⟩
    · cases hids
      case inl hids => exact hids ▸ List.Pairwise.nil
      case inr hids => exact hids ▸ List.pairwise_singleton _ _
    · cases hnew d' hd'
      exact (h.identifiers d hd).right.right

theorem declared_of_blocks (hblocks : w'.blocks = w.blocks ++ b :: post)
    (hpost : ∀ b ∈ post, b.group = groups.INDEX) : w'.declared = w.declared ++ b.declarations := by
  have hindex : post.flatMap Block.declarations = [] := by
    refine List.flatMap_eq_nil_iff.mpr fun b hb => Block.declarations_of_ne ?_
    rw [hpost b hb]
    decide
  rw [declared, declared, hblocks, List.flatMap_append, List.flatMap_cons, hindex, List.append_nil]

end Sie.Writer

namespace AdvancedRecorder

open Sie Xml EStateM

variable [Host]

-- A block that a handler of the group has written to declare its channel.
def BuiltFrom (kind : HandlerKind) (group : UInt32)
    (valueDescriptor domainDescriptor : Option DataDescriptor) (b : Block) : Prop :=
  ∃ decoderId channelId testId uuid signal es,
    kind.elements group decoderId channelId testId uuid signal valueDescriptor domainDescriptor =
      .ok es ∧ b = ⟨groups.METADATA, Element.serializeAll 1 es⟩

theorem BuiltFrom.declarations (h : BuiltFrom kind group valueDescriptor domainDescriptor b) :
    ∃ d, b.declarations = [d] ∧ d.group = group.toNat := by
  obtain ⟨_, _, _, _, _, es, hes, rfl⟩ := h
  exact ⟨_, (HandlerKind.built_of_elements hes).declarations_eq, rfl⟩

namespace AdvancedRecorderSignal

-- The handler of the signal has declared the channel that it is responsible for.
def Served (s : AdvancedRecorderSignal) (w : Writer) : Prop :=
  ∀ handler ∈ s.handler, ∃ b ∈ w.blocks,
    BuiltFrom handler.kind handler.group s.lastValueDescriptor s.lastDomainDescriptor b

variable {packet : DataPacket} {s : AdvancedRecorderSignal} {w w' : Writer}

theorem Served.mono (h : Served s w) (hblocks : w.blocks <+: w'.blocks) : Served s w' := by
  intro handler hhandler
  have ⟨b, hb, hbuilt⟩ := h handler hhandler
  exact ⟨b, hblocks.subset hb, hbuilt⟩

variable [Crc32]

-- The identifiers that a handler is given, if the packet makes the signal get one.
def given (packet : DataPacket) (s : AdvancedRecorderSignal) (w : Writer) : Option Declaration :=
  if s.Knows packet then none
  else (prepared packet s w).1.handler.map fun handler => {
    group   := handler.group.toNat
    decoder := (UInt32.ofNat w.nextDecoderId).toNat
    channel := (UInt32.ofNat w.nextChannelId).toNat }

-- What the preparation for a packet does to a file that takes everything.
inductive Announced (packet : DataPacket) (s : AdvancedRecorderSignal) (w : Writer) :
    Option Declaration → AdvancedRecorderSignal × Writer → Prop
  | known : Announced packet s w none (s, w)
  | unsupported : Announced packet s w none (s.met packet none, w)
  | undeclared : Announced packet s w none (s.met packet none, w.allocated)
  | declared {kind : HandlerKind} {b : Block} {post : List Block} {w' : Writer}
    (hbuilt : BuiltFrom kind (UInt32.ofNat w.nextGroup) packet.dataDescriptor packet.domainDescriptor b)
    (hdeclared : b.declarations = [w.identifiers])
    (hblocks : w'.blocks = w.blocks ++ b :: post) (hpost : ∀ b ∈ post, b.group = groups.INDEX)
    (hids : w.allocated.SameIdentifiers w') :
    Announced packet s w (some w.identifiers)
      (s.met packet (some (kind.handler (UInt32.ofNat w.nextGroup))), w')

theorem announced (hio : (prepared packet s w).2.file.AllComplete) :
    Announced packet s w (given packet s w) (prepared packet s w) := by
  have h := preparation packet s w
  rw [given]
  generalize prepared packet s w = x at h hio ⊢
  cases h
  case known hknows =>
    rw [if_pos hknows]
    exact .known
  case unsupported hknows _ =>
    rw [if_neg hknows]
    exact .unsupported
  case undeclared hknows _ _ =>
    rw [if_neg hknows]
    exact .undeclared
  case failed hrun => exact absurd hrun (Writer.writeBlock_ne_error hio)
  case declared kind es w' hknows _ hdeclared hrun =>
    rw [if_neg hknows]
    have hreturns : ((Writer.writeMetadata (Element.serializeAll 1 es)).run w.allocated).Returns := by
      simp [hrun]
    have ⟨post, hblocks, hpost⟩ := Writer.writeBlock_blocks (Writer.outcome_of_returns hreturns)
    have hids := Writer.writeBlock_identifiers groups.METADATA [Element.serializeAll 1 es] w.allocated
    rw [← Writer.writeMetadata, hrun] at hblocks hids
    simp only [met, Option.map_some, SignalHandler.group_handler]
    rw [List.flatten_singleton] at hblocks
    exact .declared ⟨_, _, _, _, _, es, hdeclared, rfl⟩
      (HandlerKind.built_of_elements hdeclared).declarations_eq hblocks hpost hids

namespace Announced

variable {ids : Option Declaration} {x : AdvancedRecorderSignal × Writer}

omit [Crc32] in
theorem declared_eq (h : Announced packet s w ids x) :
    x.2.declared = w.declared ++ ids.toList := by
  cases h
  case declared hdeclared hblocks hpost _ =>
    rw [Writer.declared_of_blocks hblocks hpost, hdeclared]
    rfl
  all_goals exact (List.append_nil _).symm

omit [Crc32] in
theorem tracked (h : Announced packet s w ids x) (hw : w.Tracked) (hcount : x.2.nextGroup < 2 ^ 32) :
    x.2.Tracked := by
  have hdeclared := h.declared_eq
  cases h
  case known       => exact hw
  case unsupported => exact hw
  case undeclared  =>
    exact hw.allocated (Nat.lt_of_succ_lt hcount) (.inl rfl) hdeclared ⟨rfl, rfl, rfl⟩
  case declared hids =>
    have hlt : w.nextGroup < 2 ^ 32 := by
      rw [hids.nextGroup] at hcount
      exact Nat.lt_of_succ_lt hcount
    exact hw.allocated hlt (.inr rfl) hdeclared
      ⟨hids.nextChannelId, hids.nextDecoderId, hids.nextGroup⟩

omit [Crc32] in
theorem served (h : Announced packet s w ids x) (hs : s.Served w) : x.1.Served x.2 := by
  cases h
  case known       => exact hs
  case unsupported => exact fun _ h => nomatch h
  case undeclared  => exact fun _ h => nomatch h
  case declared kind b post w' hbuilt _ hblocks _ _ =>
    intro handler hhandler
    cases hhandler
    refine ⟨b, by simp [hblocks], ?_⟩
    rw [SignalHandler.kind_handler, SignalHandler.group_handler]
    exact hbuilt

end Announced

-- What a packet does to a file that takes everything: the signal is prepared, and then its handler
-- may write a block.
inductive Received (packet : DataPacket) (s : AdvancedRecorderSignal) (w : Writer) :
    AdvancedRecorderSignal × Writer → Prop
  | skipped (hrequest : (prepared packet s w).1.request packet = none) :
    Received packet s w (prepared packet s w)
  | written {handler : SignalHandler} {args : List Bytes} {post : List Block} {w' : Writer}
    (hhandler : (prepared packet s w).1.handler = some handler)
    (hargs : handler.kind.segments packet = some args)
    (hblocks : w'.blocks = (prepared packet s w).2.blocks ++ ⟨handler.group, args.flatten⟩ :: post)
    (hpost : ∀ b ∈ post, b.group = groups.INDEX)
    (hids : (prepared packet s w).2.SameIdentifiers w') :
    Received packet s w ((prepared packet s w).1, w')

omit [Crc32] in
theorem request_eq_some (h : s.request packet = some (group, args)) :
    ∃ handler ∈ s.handler, handler.group = group ∧ handler.kind.segments packet = some args := by
  have ⟨handler, hhandler, h⟩ := Option.bind_eq_some_iff.mp h
  have ⟨args, hargs, h⟩ := Option.bind_eq_some_iff.mp h
  cases h
  exact ⟨handler, hhandler, rfl, hargs⟩

theorem received (hio : ((onPacketReceived (.data packet)).run (s, w)).state.2.file.AllComplete) :
    Received packet s w ((onPacketReceived (.data packet)).run (s, w)).state := by
  cases hrequest : (prepared packet s w).1.request packet
  case none =>
    rw [onPacketReceived, onDataPacketReceived_run, hrequest]
    exact .skipped hrequest
  case some request =>
    obtain ⟨group, args⟩ := request
    obtain ⟨handler, hhandler, hgroup, hargs⟩ := request_eq_some hrequest
    have hstate := (run_of_request hrequest).right
    have hreturns := Writer.returns_of_allComplete (hstate ▸ hio)
    obtain ⟨post, hblocks, hpost⟩ := Writer.writeBlock_blocks (Writer.outcome_of_returns hreturns)
    have hids := Writer.writeBlock_identifiers group args (prepared packet s w).2
    rw [← Prod.mk.eta (p := EStateM.Result.state _), run_state_fst, hstate]
    exact .written hhandler hargs (hgroup ▸ hblocks) hpost hids

omit [Crc32] in
theorem Served.group {handler : SignalHandler} (h : s.Served w) (hhandler : handler ∈ s.handler) :
    ∃ d ∈ w.declared, d.group = handler.group.toNat := by
  have ⟨b, hb, hbuilt⟩ := h handler hhandler
  have ⟨d, hd, hgroup⟩ := hbuilt.declarations
  exact ⟨d, List.mem_flatMap.mpr ⟨b, hb, by simp [hd]⟩, hgroup⟩

omit [Crc32] in
-- No handler writes to one of the two groups that are reserved.
theorem Served.two_le {handler : SignalHandler} (h : s.Served w) (hw : w.Tracked)
    (hhandler : handler ∈ s.handler) :
    2 ≤ handler.group.toNat := by
  have ⟨d, hd, hgroup⟩ := h.group hhandler
  rw [← hgroup, (hw.identifiers d hd).left]
  exact Nat.le_add_left 2 _

theorem prepared_complete
    (hio : ((onPacketReceived (.data packet)).run (s, w)).state.2.file.AllComplete) :
    (prepared packet s w).2.file.AllComplete := by
  cases hrequest : (prepared packet s w).1.request packet
  case none =>
    rw [onPacketReceived, onDataPacketReceived_run, hrequest] at hio
    exact hio
  case some request =>
    rw [(run_of_request hrequest).right] at hio
    exact hio.of_writes (Writer.writeBlock_keeps _).writes

variable {x : AdvancedRecorderSignal × Writer}

theorem Received.sameIdentifiers (h : Received packet s w x) :
    (prepared packet s w).2.SameIdentifiers x.2 := by
  cases h
  case skipped      => exact ⟨rfl, rfl, rfl⟩
  case written hids => exact hids

theorem Received.extended (h : Received packet s w x) (hw : (prepared packet s w).2.Tracked)
    (hs : (prepared packet s w).1.Served (prepared packet s w).2) :
    (prepared packet s w).2.Extended x.2 := by
  refine ⟨h.sameIdentifiers, ?_⟩
  cases h
  case skipped => exact ⟨[], (List.append_nil _).symm, fun _ h => nomatch h⟩
  case written handler args post w' hhandler _ hblocks hpost _ =>
    refine ⟨_, hblocks, fun b hb => Block.declarations_of_ne fun hgroup => ?_⟩
    cases hb
    case head =>
      have htwo := hs.two_le hw hhandler
      rw [show handler.group = groups.METADATA from hgroup] at htwo
      exact absurd htwo (by decide)
    case tail hb =>
      rw [hpost b hb] at hgroup
      exact absurd hgroup (by decide)

-- The handler of a signal has declared its channel before anything is written for a packet.
theorem received_extended (hw : w.Tracked) (hs : s.Served w)
    (hio : ((onPacketReceived (.data packet)).run (s, w)).state.2.file.AllComplete)
    (hcount : ((onPacketReceived (.data packet)).run (s, w)).state.2.nextGroup < 2 ^ 32) :
    (prepared packet s w).2.Tracked ∧ (prepared packet s w).1.Served (prepared packet s w).2 ∧
      (prepared packet s w).2.Extended ((onPacketReceived (.data packet)).run (s, w)).state.2 := by
  have hannounced := announced (prepared_complete hio)
  have hreceived := received hio
  have hs := hannounced.served hs
  rw [hreceived.sameIdentifiers.nextGroup] at hcount
  have hw := hannounced.tracked hw hcount
  exact ⟨hw, hs, hreceived.extended hw hs⟩

end AdvancedRecorderSignal
end AdvancedRecorder
