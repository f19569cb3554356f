import OpenDaqModules.Recorder.Files
import OpenDaqModules.Recorder.Sie.Halted

-- A recorder whose files do not take everything.
namespace Sie.Writer

variable [Crc32] {w : Writer} {d : Declaration} {es : List Xml.Element}

-- A declaration gets into the file as a whole, or not at all.
theorem declared_writeMetadata (h : Declaration.Built d es) : ∃ ids, (ids = [] ∨ ids = [d]) ∧
    ((writeMetadata (Xml.Element.serializeAll 1 es)).run w).state.declared = w.declared ++ ids := by
  rw [writeMetadata]
  cases hout : w.file.outcome (Block.encode ⟨groups.METADATA, [Xml.Element.serializeAll 1 es].flatten⟩)
  case fails n  =>
    refine ⟨[], .inl rfl, ?_⟩
    rw [declared, (writeBlock_fails hout).right, List.append_nil, declared]
  case complete =>
    obtain ⟨post, hblocks, hpost⟩ := writeBlock_blocks hout
    rw [List.flatten_singleton] at hblocks
    exact ⟨[d], .inr rfl, by rw [declared_of_blocks hblocks hpost, h.declarations_eq]⟩

end Sie.Writer

namespace AdvancedRecorder

open Sie EStateM

variable [Host] [Crc32]

namespace AdvancedRecorderSignal

variable {packet : DataPacket} {s : AdvancedRecorderSignal} {w : Writer}

theorem tracked_prepared (hw : w.Tracked) (hcount : (prepared packet s w).2.nextGroup < 2 ^ 32) :
    (prepared packet s w).2.Tracked := by
  have hmetadata {kind : HandlerKind} {es : List Xml.Element}
      (hdeclared : SignalHandler.declaration kind s.testId s.signal packet.dataDescriptor
        packet.domainDescriptor w = .ok es)
      (hlt : ((Writer.writeMetadata (Xml.Element.serializeAll 1 es)).run w.allocated).state.nextGroup <
        2 ^ 32) :
      ((Writer.writeMetadata (Xml.Element.serializeAll 1 es)).run w.allocated).state.Tracked := by
    obtain ⟨ids, hids, hw'⟩ := Writer.declared_writeMetadata (w := w.allocated)
      (HandlerKind.built_of_elements hdeclared)
    have hsame := Writer.writeBlock_identifiers groups.METADATA [Xml.Element.serializeAll 1 es] w.allocated
    rw [← Writer.writeMetadata] at hsame
    rw [hsame.nextGroup] at hlt
    exact hw.allocated (Nat.lt_of_succ_lt hlt) hids hw'
      ⟨hsame.nextChannelId, hsame.nextDecoderId, hsame.nextGroup⟩
  have h := preparation packet s w
  generalize prepared packet s w = x at h hcount ⊢
  cases h
  case known       => exact hw
  case unsupported => exact hw
  case undeclared  =>
    exact hw.allocated (Nat.lt_of_succ_lt hcount) (.inl rfl) (List.append_nil _).symm ⟨rfl, rfl, rfl⟩
  case failed hdeclared hrun =>
    have hstate := hmetadata hdeclared
    rw [hrun] at hstate
    exact hstate hcount
  case declared hdeclared hrun =>
    have hstate := hmetadata hdeclared
    rw [hrun] at hstate
    exact hstate hcount

theorem served_prepared (hs : s.Served w) : (prepared packet s w).1.Served (prepared packet s w).2 := by
  have h := preparation packet s w
  generalize prepared packet s w = x at h ⊢
  cases h
  case known => exact hs
  case declared kind es w' _ _ hdeclared hrun =>
    have hreturns : ((Writer.writeMetadata (Xml.Element.serializeAll 1 es)).run w.allocated).Returns := by
      simp [hrun]
    obtain ⟨post, hblocks, _⟩ := Writer.writeBlock_blocks (Writer.outcome_of_returns hreturns)
    rw [← Writer.writeMetadata, hrun, Result.state_ok, List.flatten_singleton] at hblocks
    intro handler hhandler
    cases hhandler
    rw [SignalHandler.kind_handler, SignalHandler.group_handler]
    exact ⟨_, by simp [hblocks], _, _, _, _, _, es, hdeclared, rfl⟩
  all_goals
    intro handler hhandler
    cases hhandler

-- What becomes of a packet once the signal is prepared for it.
inductive Taken (packet : DataPacket) (s : AdvancedRecorderSignal) (w : Writer) :
    AdvancedRecorderSignal × Writer → Prop
  | skipped (hrequest : (prepared packet s w).1.request packet = none) :
    Taken packet s w (prepared packet s w)
  | refused {handler : SignalHandler} {args : List Bytes} {n : ℕ} {w' : Writer}
    (hhandler : (prepared packet s w).1.handler = some handler)
    (hargs : handler.kind.segments packet = some args)
    (hout : (prepared packet s w).2.file.outcome (Block.encode ⟨handler.group, args.flatten⟩) = .fails n)
    (hblocks : w'.blocks = (prepared packet s w).2.blocks)
    (hids : (prepared packet s w).2.SameIdentifiers w') : Taken packet s w ((prepared packet s w).1, w')
  | taken {handler : SignalHandler} {args : List Bytes} {post : List Block} {w' : Writer}
    (hhandler : (prepared packet s w).1.handler = some handler)
    (hargs : handler.kind.segments packet = some args)
    (hout : (prepared packet s w).2.file.outcome (Block.encode ⟨handler.group, args.flatten⟩) =
      .complete)
    (hblocks : w'.blocks = (prepared packet s w).2.blocks ++ ⟨handler.group, args.flatten⟩ :: post)
    (hpost : ∀ b ∈ post, b.group = groups.INDEX)
    (hids : (prepared packet s w).2.SameIdentifiers w') : Taken packet s w ((prepared packet s w).1, w')

theorem taken : Taken packet s w ((onPacketReceived (.data packet)).run (s, w)).state := by
  cases hrequest : (prepared packet s w).1.request packet
  case none =>
    rw [onPacketReceived, onDataPacketReceived_run, hrequest]
    exact .skipped hrequest
  case some request =>
    obtain ⟨group, args⟩ := request
    obtain ⟨handler, hhandler, rfl, hargs⟩ := request_eq_some hrequest
    have hids := Writer.writeBlock_identifiers handler.group args (prepared packet s w).2
    rw [← Prod.mk.eta (p := EStateM.Result.state _), run_state_fst, (run_of_request hrequest).right]
    cases hout : (prepared packet s w).2.file.outcome (Block.encode ⟨handler.group, args.flatten⟩)
    case fails n  => exact .refused hhandler hargs hout (Writer.writeBlock_fails hout).right hids
    case complete =>
      obtain ⟨post, hblocks, hpost⟩ := Writer.writeBlock_blocks hout
      exact .taken hhandler hargs hout hblocks hpost hids

namespace Taken

variable {x : AdvancedRecorderSignal × Writer}

theorem sameIdentifiers (h : Taken packet s w x) : (prepared packet s w).2.SameIdentifiers x.2 := by
  cases h
  case skipped      => exact ⟨rfl, rfl, rfl⟩
  case refused hids => exact hids
  case taken hids   => exact hids

theorem extended (h : Taken packet s w x) (hw : (prepared packet s w).2.Tracked)
    (hs : (prepared packet s w).1.Served (prepared packet s w).2) :
    (prepared packet s w).2.Extended x.2 := by
  refine ⟨h.sameIdentifiers, ?_⟩
  cases h
  case skipped            => exact ⟨[], (List.append_nil _).symm, fun _ h => nomatch h⟩
  case refused hblocks _  => exact ⟨[], by rw [hblocks, List.append_nil], fun _ h => nomatch h⟩
  case taken handler args post w' hhandler _ _ hblocks hpost _ =>
    refine ⟨_, hblocks, fun b hb => Block.declarations_of_ne fun hgroup => ?_⟩
    cases hb
    case head =>
      have htwo := hs.two_le hw hhandler
      rw [show handler.group = groups.METADATA from hgroup] at htwo
      exact absurd htwo (by decide)
    case tail hb =>
      rw [hpost b hb] at hgroup
      exact absurd hgroup (by decide)

end Taken

-- Whatever the file takes, it has declared every channel that something is written to.
theorem taken_extended (hw : w.Tracked) (hs : s.Served w)
    (hcount : ((onPacketReceived (.data packet)).run (s, w)).state.2.nextGroup < 2 ^ 32) :
    (prepared packet s w).2.Tracked ∧ (prepared packet s w).1.Served (prepared packet s w).2 ∧
      (prepared packet s w).2.Extended ((onPacketReceived (.data packet)).run (s, w)).state.2 := by
  have htaken : Taken packet s w ((onPacketReceived (.data packet)).run (s, w)).state := taken
  have hserved : (prepared packet s w).1.Served (prepared packet s w).2 := served_prepared hs
  rw [htaken.sameIdentifiers.nextGroup] at hcount
  have htracked := tracked_prepared hw hcount
  exact ⟨htracked, hserved, htaken.extended htracked hserved⟩

end AdvancedRecorderSignal

namespace AdvancedRecorderImpl

variable {disk : ℕ → OpenOutcome} {events : List Event} {r r' : AdvancedRecorderImpl} {e : Event}

-- No counter of identifiers has reached the end of its range.
def Numbered (r : AdvancedRecorderImpl) : Prop :=
  ∀ w ∈ r.writers, w.nextGroup < 2 ^ 32

omit [Host] [Crc32] in
theorem Faultless.numbered (h : Faultless r) : Numbered r :=
  fun w hw => (h w hw).right

omit [Host] [Crc32] in
theorem Numbered.of_grown (h : Numbered r') (hgrown : Grown r r') : Numbered r := by
  intro w hw
  obtain ⟨i, hi⟩ := List.mem_iff_getElem?.mp hw
  obtain ⟨w', hw', hg⟩ := hgrown.writers i w hi
  exact hg.nextGroup.trans_lt (h w' (List.mem_of_getElem? hw'))

omit [Host] [Crc32] in
theorem Numbered.of_withSignal (h : Numbered (r.withSignal port i x)) (hw : r.writers[i]? = some w) :
    x.2.nextGroup < 2 ^ 32 := by
  have hi := (List.getElem?_eq_some_iff.mp hw).choose
  exact h x.2 (List.mem_of_getElem? (i := i) (by simp [withSignal, hi]))

theorem Coherent.taken {packet : DataPacket} {s : AdvancedRecorderSignal} {w : Writer} (h : Coherent r)
    (hsignal : r.signals.lookup port = some s) (hwriter : r.writers[s.writer]? = some w)
    (hx : ((AdvancedRecorderSignal.onPacketReceived (.data packet)).run (s, w)).state = x)
    (hnumbered : Numbered (r.withSignal port s.writer x))
    (hgrown : Grown r (r.withSignal port s.writer x)) : Coherent (r.withSignal port s.writer x) := by
  have hcount := hnumbered.of_withSignal hwriter
  subst hx
  obtain ⟨htracked, hserved, hextended⟩ := AdvancedRecorderSignal.taken_extended
    (h.tracked w (List.mem_of_getElem? hwriter)) (h.served_of_lookup hsignal hwriter) hcount
  obtain ⟨bs, hblocks, _⟩ := hextended.blocks
  refine h.withSignal hwriter ?_ (htracked.extended hextended) ?_ hgrown
  case refine_1 =>
    rw [AdvancedRecorderSignal.run_state_fst, AdvancedRecorderSignal.prepared_signal.right.left]
  case refine_2 =>
    rw [AdvancedRecorderSignal.run_state_fst]
    exact hserved.mono (hblocks ▸ List.prefix_append _ _)

theorem Transition.coherent_of_numbered (h : Transition r e r') (hr : Coherent r)
    (hnumbered : Numbered r') : Coherent r' := by
  have hgrown := h.grown
  have heffect := h.effect
  cases heffect
  case managed h                => exact hr.managed h hgrown
  case received hsignal hwriter => exact hr.taken hsignal hwriter rfl hnumbered hgrown

theorem coherent_of_numbered (h : Numbered (reached disk events)) : Coherent (reached disk events) := by
  induction events using List.reverseRecOn
  case nil => exact coherent_create
  case append_singleton events e ih =>
    have hbefore := h.of_grown (grown_reached (List.prefix_append events [e]))
    exact transition_reached.coherent_of_numbered (ih hbefore) h

section Operated

variable {w w' : Writer}

-- The file of a writer is the work of an indexed writer.
def Operated (w : Writer) : Prop :=
  ∃ schedule ops, w.writer = Exec.run IndexedWriter.exec ops (IndexedWriter.create schedule)

omit [Host] in
theorem Operated.exec (h : Operated w) (op : IndexedWriter.Op)
    (hw' : w'.writer = ((IndexedWriter.exec op).run w.writer).state) : Operated w' := by
  obtain ⟨schedule, ops, hops⟩ := h
  exact ⟨schedule, ops ++ [op], by rw [hw', Exec.run_concat, hops]⟩

omit [Host] in
theorem Operated.writeBlock (h : Operated w) (group : UInt32) (args : List Bytes) :
    Operated ((Writer.writeBlock group args).run w).state :=
  h.exec (.writeBlock group args) (by rw [Writer.writeBlock, zoom_state]; rfl)

omit [Host] in
theorem operated_of_opened (h : Opened w) : Operated w := by
  obtain ⟨schedule, uuids, rfl⟩ := h
  have hnew : Operated (newWriter schedule uuids) := ⟨schedule, [], rfl⟩
  exact hnew.writeBlock groups.METADATA [preamble]

omit [Host] in
theorem Reconfigured.operated (h : Reconfigured r r') (hr : ∀ w ∈ r.writers, Operated w) :
    ∀ w ∈ r'.writers, Operated w := by
  have hpublish : ∀ v, Operated v → ∀ w ∈ (r.publish v).writers, Operated w := by
    intro v hv w hw
    cases List.mem_append.mp hw
    case inl hw => exact hr w hw
    case inr hw => exact List.mem_singleton.mp hw ▸ hv
  cases h
  case kept   => exact hr
  case failed => exact hr
  case opened schedule uuids w _ _ _ hrun =>
    exact hpublish w (operated_of_opened ⟨schedule, uuids, by rw [hrun, Result.state_ok]⟩)
  case published schedule uuids _ w _ _ _ hrun =>
    exact hpublish w (operated_of_opened ⟨schedule, uuids, by rw [hrun, Result.state_error]⟩)
  case closed =>
    intro w' hw'
    obtain ⟨i, hi⟩ := List.mem_iff_getElem?.mp hw'
    rw [AdvancedRecorderImpl.closed] at hi
    cases hwriter : r.writer
    case none   => exact hr w' (by rw [hwriter] at hi; exact List.mem_of_getElem? hi)
    case some j =>
      rw [hwriter] at hi
      simp only [List.getElem?_modify, Option.map_eq_map] at hi
      obtain ⟨w, hw, hw'⟩ := Option.map_eq_some_iff.mp hi
      have hw := hr w (List.mem_of_getElem? hw)
      split at hw'
      case isTrue  => exact hw' ▸ hw.exec .destroy rfl
      case isFalse => exact hw' ▸ hw

theorem operated_received {packet : Packet} {s : AdvancedRecorderSignal} (h : Operated w) :
    Operated ((AdvancedRecorderSignal.onPacketReceived packet).run (s, w)).state.2 := by
  let R (w w' : Writer) := Operated w → Operated w'
  have hrefl : Std.Refl R := ⟨fun _ h => h⟩
  have htrans : IsTrans Writer R := ⟨fun _ _ _ h h' hw => h' (h hw)⟩
  have hkeeps : R w ((AdvancedRecorderSignal.onPacketReceived packet).run (s, w)).state.2 := by
    exact AdvancedRecorderSignal.onPacketReceived_writer (fun _ h => h) fun group args _ h =>
      h.writeBlock group args
  exact hkeeps h

theorem Transition.operated (h : Transition r e r') (hr : ∀ w ∈ r.writers, Operated w) :
    ∀ w ∈ r'.writers, Operated w := by
  cases h
  case reconfigured hprep hreconf => exact hreconf.operated (hprep.unchanged.writers ▸ hr)
  case activated                  => exact hr
  case ignored                    => exact hr
  case packet port signal packet _ =>
    let P (r : AdvancedRecorderImpl) := ∀ w ∈ r.writers, Operated w
    have hkeeps : Keeps (Preserved P)
        (onSignal port (AdvancedRecorderSignal.onPacketReceived packet)) := by
      refine onSignal_keeps fun r s w _ hw hr w' hw' => ?_
      cases List.mem_or_eq_of_mem_set hw'
      case inl hw' => exact hr w' hw'
      case inr hw' => exact hw' ▸ operated_received (hr w (List.mem_of_getElem? hw))
    exact hkeeps r hr

theorem operated_reached : ∀ w ∈ (reached disk events).writers, Operated w := by
  induction events using List.reverseRecOn
  case nil =>
    rw [reached, Exec.run_nil, create_eq]
    intro w hw
    cases hw
  case append_singleton events e ih => exact transition_reached.operated ih

theorem framed_reached : ∀ w ∈ (reached disk events).writers, w.file.Framed := by
  intro w hw
  obtain ⟨schedule, ops, hops⟩ := operated_reached w hw
  rw [Writer.file, hops]
  exact IndexedWriter.framed_run

end Operated

end AdvancedRecorderImpl
end AdvancedRecorder
