import OpenDaqModules.Recorder.Files

namespace Sie

open Declaration

variable {bs : List Block} {b : Block} {group : UInt32}

-- An element of two lists that follow each other is in the first one, or it comes after all of them.
theorem mem_of_append_eq {old new before after : List α} {a : α}
    (h : old ++ new = before ++ a :: after) :
    (∃ later, old = before ++ a :: later) ∨ ∃ pre, before = old ++ pre ∧ new = pre ++ a :: after := by
  cases List.append_eq_append_iff.mp h
  case inl h => exact .inr h
  case inr h =>
    obtain ⟨later, hold, hafter⟩ := h
    cases later
    case nil          => exact .inr ⟨[], by simp [hold], hafter.symm⟩
    case cons b later =>
      cases hafter
      exact .inl ⟨later, hold⟩

theorem filter_declares_eq_nil (h : ∀ d ∈ bs.flatMap Block.declarations, d.group ≠ group.toNat) :
    bs.filter (Block.Declares group) = [] := by
  apply List.filter_eq_nil_iff.mpr
  intro b hb hdeclares
  have ⟨d, hd, hgroup⟩ := of_decide_eq_true hdeclares
  exact h d (List.mem_flatMap.mpr ⟨b, hb, hd⟩) hgroup

-- Where no group is declared twice, a block that declares one is the only one to do so.
theorem filter_declares_eq_singleton
    (hdistinct : (bs.flatMap Block.declarations).Pairwise (·.group ≠ ·.group)) (hb : b ∈ bs)
    (hdeclares : b.Declares group) : bs.filter (Block.Declares group) = [b] := by
  induction bs
  case nil          => exact nomatch hb
  case cons c cs ih =>
    rw [List.flatMap_cons, List.pairwise_append] at hdistinct
    have ⟨_, htail, hcross⟩ := hdistinct
    cases hb
    case head =>
      have ⟨d, hd, hgroup⟩ := hdeclares
      have htail : cs.filter (Block.Declares group) = [] := by
        exact filter_declares_eq_nil fun d' hd' => hgroup ▸ (hcross d hd d' hd').symm
      rw [List.filter_cons_of_pos (by simpa using hdeclares), htail]
    case tail hb =>
      have hnot : ¬c.Declares group := by
        intro ⟨d, hd, hgroup⟩
        have ⟨d', hd', hgroup'⟩ := hdeclares
        exact hcross d hd d' (List.mem_flatMap.mpr ⟨b, hb, hd'⟩) (hgroup.trans hgroup'.symm)
      rw [List.filter_cons_of_neg (by simpa using hnot)]
      exact ih htail hb

theorem Writer.Tracked.distinct (h : Writer.Tracked w) :
    w.declared.Pairwise (·.group ≠ ·.group) := by
  refine h.ordered.imp_of_mem fun {d d'} hd hd' hlt heq => ?_
  rw [(h.identifiers d hd).left, (h.identifiers d' hd').left] at heq
  exact absurd (Nat.add_right_cancel heq) hlt.ne

end Sie

namespace AdvancedRecorder.AdvancedRecorderImpl

open Sie EStateM

variable [Host] [Crc32]

-- The identifiers for a channel of the file that a handler is given because of an event.
def given (i : ℕ) (e : Event) (r : AdvancedRecorderImpl) : Option Declaration := do
  let (packet, s, w) ← receiver e r
  if s.writer = i then s.given packet w else none

def allGiven (i : ℕ) : List Event → AdvancedRecorderImpl → List Declaration
  | [], _      => []
  | e :: es, r => (given i e r).toList ++ allGiven i es ((exec e).run r).state

-- The block at a position of the file was written because of the packet.
def WrittenFor (disk : ℕ → OpenOutcome) (events : List Event) (i position : ℕ) (packet : DataPacket) :
    Prop :=
  ∃ done port later, events = done ++ .packet port (.data packet) :: later ∧
    (blocksOf i (reached disk done)).length ≤ position ∧
    position < (blocksOf i (reached disk (done ++ [.packet port (.data packet)]))).length

-- A block with the data of the packet. Exactly one of the blocks before it declares the group, and
-- that one was built from the descriptors of the packet.
def Recorded (before : List Block) (b : Block) (packet : DataPacket) : Prop :=
  ∃ kind args declaration, HandlerKind.segments kind packet = some args ∧ b.payload = args.flatten ∧
    before.filter (Block.Declares b.group) = [declaration] ∧
    BuiltFrom kind b.group packet.dataDescriptor packet.domainDescriptor declaration

-- The identifiers of a file's channels are all different, and whatever a reader of the file needs
-- to know about a block precedes it.
structure DeclaredBeforeUse (disk : ℕ → OpenOutcome) (events : List Event) (i : ℕ) : Prop where
  distinctGroups   : ((allGiven i events (create disk)).map Declaration.group).Nodup
  distinctDecoders : ((allGiven i events (create disk)).map Declaration.decoder).Nodup
  distinctChannels : ((allGiven i events (create disk)).map Declaration.channel).Nodup
  reserved         : ∀ d ∈ allGiven i events (create disk), d.group ∉ [0, 1] ∧ d.decoder ∉ [0, 1]
  declared         : ∀ before b after, blocksOf i (reached disk events) = before ++ b :: after →
    b.group ≠ groups.METADATA → b.group ≠ groups.INDEX →
      ∃ packet, WrittenFor disk events i before.length packet ∧ Recorded before b packet

variable {disk : ℕ → OpenOutcome} {events : List Event} {i : ℕ} {r r' : AdvancedRecorderImpl} {e : Event}

omit [Host] [Crc32] in
-- Everything but a packet leaves the channels of a file as they are.
theorem Managed.blocksOf_eq (h : Managed r r') (hgrown : Grown r r') (i : ℕ) : ∃ bs,
    blocksOf i r' = blocksOf i r ++ bs ∧ ∀ b ∈ bs, b = preambleBlock ∨ b.group = groups.INDEX := by
  cases hw' : r'.writers[i]?
  case some w' =>
    obtain ⟨w, horigin, hadministered⟩ := h.writers i w' hw'
    have horigin : blocksOf i r = w.blocks := by
      cases horigin
      case inl hw   => exact blocksOf_of_writer hw
      case inr hnew =>
        obtain ⟨hnone, _, _, rfl⟩ := hnew
        rw [blocksOf, hnone]
        rfl
    rw [blocksOf_of_writer hw', horigin]
    exact hadministered.blocks
  case none =>
    have hw : r.writers[i]? = none := by
      cases hw : r.writers[i]?
      case none   => rfl
      case some w =>
        obtain ⟨_, hw, _⟩ := hgrown.writers i w hw
        exact absurd (hw'.symm.trans hw) (by simp)
    exact ⟨[], by simp [blocksOf, hw, hw'], by simp⟩

theorem allGiven_concat :
    allGiven i (events ++ [e]) r = allGiven i events r ++ (given i e (Exec.run exec events r)).toList := by
  induction events generalizing r
  case nil          => simp [allGiven]
  case cons e es ih => simp [allGiven, ih]

-- Whatever a handler is given, it declares in the file at once.
theorem Transition.declared (h : Transition r e r') (hr : Coherent r) (hfaultless : Faultless r')
    (i : ℕ) : (blocksOf i r').flatMap Block.declarations =
      (blocksOf i r).flatMap Block.declarations ++ (given i e r).toList := by
  have hgrown := h.grown
  have heffect := h.effect
  cases heffect
  case managed hreceiver hmanaged =>
    have ⟨bs, hblocks, hbs⟩ := hmanaged.blocksOf_eq hgrown i
    have hnil : bs.flatMap Block.declarations = [] := by
      exact List.flatMap_eq_nil_iff.mpr fun b hb => declarations_of_administered (hbs b hb)
    rw [hblocks, List.flatMap_append, hnil, given, hreceiver]
    rfl
  case received port packet s w hconnection hsignal hwriter =>
    have hgiven : given i (.packet port (.data packet)) r =
        if s.writer = i then s.given packet w else none := by
      rw [given, receiver_eq_some hconnection hsignal hwriter]
      rfl
    rw [blocksOf_withSignal hwriter, hgiven]
    by_cases hi : i = s.writer
    case neg => simp [hi, Ne.symm hi]
    case pos =>
      subst hi
      have ⟨hio, hcount⟩ := hfaultless.of_withSignal hwriter
      have ⟨_, _, hextended⟩ := AdvancedRecorderSignal.received_extended
        (hr.tracked w (List.mem_of_getElem? hwriter)) (hr.served_of_lookup hsignal hwriter) hio hcount
      have hannounced := AdvancedRecorderSignal.announced (AdvancedRecorderSignal.prepared_complete hio)
      rw [if_pos rfl, if_pos rfl, blocksOf_of_writer hwriter]
      exact hextended.declared.trans hannounced.declared_eq

-- What handlers were given for a file is what the file declares.
theorem declared_reached (h : Faultless (reached disk events)) :
    (blocksOf i (reached disk events)).flatMap Block.declarations = allGiven i events (create disk) := by
  induction events using List.reverseRecOn
  case nil =>
    rw [reached, Exec.run_nil, create_eq]
    rfl
  case append_singleton events e ih =>
    have hbefore := h.of_grown (grown_reached (List.prefix_append events [e]))
    rw [transition_reached.declared (coherent_reached hbefore) h, ih hbefore, allGiven_concat]
    rfl

-- The only block for a packet comes after everything that the preparation for it has written.
theorem recorded_of_received (hw : w.Tracked) (hs : s.Served w)
    (hio : ((AdvancedRecorderSignal.onPacketReceived (.data packet)).run (s, w)).state.2.file.AllComplete)
    (hcount : ((AdvancedRecorderSignal.onPacketReceived (.data packet)).run (s, w)).state.2.nextGroup < 2 ^ 32)
    (hblocks : ((AdvancedRecorderSignal.onPacketReceived (.data packet)).run (s, w)).state.2.blocks =
      before ++ b :: after) (hmetadata : b.group ≠ groups.METADATA) (hindex : b.group ≠ groups.INDEX) :
    (∃ later, w.blocks = before ++ b :: later) ∨
      w.blocks.length ≤ before.length ∧ Recorded before b packet := by
  have ⟨htracked, hserved, hextended⟩ := AdvancedRecorderSignal.received_extended hw hs hio hcount
  have hreceived := AdvancedRecorderSignal.received hio
  have ⟨pre, hprepared, hpre⟩ := AdvancedRecorderSignal.prepared_blocks packet s w
  have hold : (∃ later, (AdvancedRecorderSignal.prepared packet s w).2.blocks = before ++ b :: later) →
      ∃ later, w.blocks = before ++ b :: later := by
    intro ⟨later, h⟩
    rw [hprepared] at h
    cases mem_of_append_eq h
    case inl h => exact h
    case inr h =>
      obtain ⟨_, _, hpre'⟩ := h
      exact ((hpre b (by simp [hpre'])).elim hmetadata hindex).elim
  clear hextended hio hcount
  generalize ((AdvancedRecorderSignal.onPacketReceived (.data packet)).run (s, w)).state = x at *
  cases hreceived
  case skipped => exact .inl (hold ⟨after, hblocks⟩)
  case written handler args post w' hhandler hargs hw' hpost _ =>
    rw [hw'] at hblocks
    cases mem_of_append_eq hblocks
    case inl h => exact .inl (hold h)
    case inr h =>
      obtain ⟨between, hbefore, hcons⟩ := h
      cases between
      case cons c between =>
        cases hcons
        exact absurd (hpost b (by simp)) hindex
      case nil =>
        cases hcons
        rw [List.append_nil] at hbefore
        subst hbefore
        have ⟨d, hd, hbuilt⟩ := hserved handler hhandler
        have ⟨declaration, hdeclaration, hgroup⟩ := hbuilt.declarations
        have hdeclares : d.Declares handler.group := ⟨declaration, by simp [hdeclaration], hgroup⟩
        have hknows : (AdvancedRecorderSignal.prepared packet s w).1.Knows packet := by
          exact AdvancedRecorderSignal.knows_prepared
        rw [← hknows.left, ← hknows.right] at hbuilt
        refine .inr ⟨?_, handler.kind, args, d, hargs, rfl, ?_, hbuilt⟩
        · rw [hprepared, List.length_append]
          exact Nat.le_add_right _ _
        · exact filter_declares_eq_singleton htracked.distinct hd hdeclares

theorem Transition.recorded_of_blocksOf (h : Transition r e r') (hr : Coherent r) (hfaultless : Faultless r')
    (hblocks : blocksOf i r' = before ++ b :: after) (hmetadata : b.group ≠ groups.METADATA)
    (hindex : b.group ≠ groups.INDEX) : (∃ later, blocksOf i r = before ++ b :: later) ∨
      ∃ port packet, e = .packet port (.data packet) ∧ (blocksOf i r).length ≤ before.length ∧
        Recorded before b packet := by
  have hgrown := h.grown
  have heffect := h.effect
  cases heffect
  case managed hreceiver hmanaged =>
    have ⟨bs, hbs, hadministered⟩ := hmanaged.blocksOf_eq hgrown i
    rw [hbs] at hblocks
    cases mem_of_append_eq hblocks
    case inl h => exact .inl h
    case inr h =>
      obtain ⟨_, _, rfl⟩ := h
      cases hadministered b (by simp)
      case inl h => exact absurd (congrArg Block.group h) hmetadata
      case inr h => exact absurd h hindex
  case received port packet s w hconnection hsignal hwriter =>
    rw [blocksOf_withSignal hwriter] at hblocks
    split at hblocks
    case isFalse => exact .inl ⟨after, hblocks⟩
    case isTrue hi =>
      subst hi
      have ⟨hio, hcount⟩ := hfaultless.of_withSignal hwriter
      have hrecorded := recorded_of_received (hr.tracked w (List.mem_of_getElem? hwriter))
        (hr.served_of_lookup hsignal hwriter) hio hcount hblocks hmetadata hindex
      rw [blocksOf_of_writer hwriter]
      exact hrecorded.imp_right fun h => ⟨port, packet, rfl, h⟩

theorem recorded_reached (h : Faultless (reached disk events))
    (hblocks : blocksOf i (reached disk events) = before ++ b :: after)
    (hmetadata : b.group ≠ groups.METADATA) (hindex : b.group ≠ groups.INDEX) :
    ∃ packet, WrittenFor disk events i before.length packet ∧ Recorded before b packet := by
  induction events using List.reverseRecOn generalizing after
  case nil =>
    have hnil : blocksOf i (reached disk []) = [] := by
      rw [reached, Exec.run_nil, create_eq]
      rfl
    exact absurd (hnil.symm.trans hblocks) (by simp)
  case append_singleton events e ih =>
    have hbefore := h.of_grown (grown_reached (List.prefix_append events [e]))
    have hrecorded := transition_reached.recorded_of_blocksOf (coherent_reached hbefore) h hblocks
      hmetadata hindex
    cases hrecorded
    case inl hold =>
      obtain ⟨later, hold⟩ := hold
      obtain ⟨packet, ⟨done, port, rest, rfl, hwritten⟩, hrecorded⟩ := ih hbefore hold
      exact ⟨packet, ⟨done, port, rest ++ [e], by simp, hwritten⟩, hrecorded⟩
    case inr hnew =>
      obtain ⟨port, packet, rfl, hlength, hrecorded⟩ := hnew
      refine ⟨packet, ⟨events, port, [], rfl, hlength, ?_⟩, hrecorded⟩
      simp [hblocks]

theorem tracked_reached (h : Faultless (reached disk events)) (i : ℕ) :
    ∃ w : Writer, w.Tracked ∧ w.declared = allGiven i events (create disk) := by
  rw [← declared_reached h]
  cases hw : (reached disk events).writers[i]?
  case none   => exact ⟨newWriter [] fun _ => [], tracked_newWriter, by simp [blocksOf, hw]; rfl⟩
  case some w =>
    rw [blocksOf_of_writer hw]
    exact ⟨w, (coherent_reached h).tracked w (List.mem_of_getElem? hw), rfl⟩

-- Every block that was recorded is preceded by the declaration of its channel.
theorem declaredBeforeUse (h : Faultless (reached disk events)) (i : ℕ) :
    DeclaredBeforeUse disk events i := by
  have ⟨w, htracked, hdeclared⟩ := tracked_reached h i
  have hids := htracked.identifiers
  have hordered := htracked.ordered
  rw [hdeclared] at hids hordered
  have hdistinct : ∀ f : Declaration → ℕ, (∃ k, ∀ d ∈ allGiven i events (create disk), f d = d.channel + k) →
      ((allGiven i events (create disk)).map f).Nodup := by
    intro f ⟨k, hf⟩
    refine List.pairwise_map.mpr (hordered.imp_of_mem fun {d d'} hd hd' hlt => ?_)
    rw [hf d hd, hf d' hd']
    exact (Nat.add_lt_add_right hlt k).ne
  constructor
  case distinctGroups   => exact hdistinct _ ⟨2, fun d hd => (hids d hd).left⟩
  case distinctDecoders => exact hdistinct _ ⟨2, fun d hd => (hids d hd).right.left⟩
  case distinctChannels => exact hdistinct _ ⟨0, fun d _ => rfl⟩
  case reserved =>
    intro d hd
    have ⟨hgroup, hdecoder, _⟩ := hids d hd
    simp [hgroup, hdecoder]
  case declared =>
    exact fun before b after hblocks hmetadata hindex => recorded_reached h hblocks hmetadata hindex

omit [Host] [Crc32] in
theorem declaredBeforeUse_one_packet :
    let _ := Crc32.ieee
    let _ := Host.exact
    let disk (_ : ℕ) : OpenOutcome := .opened [] fun _ => []
    let signal : Signal := { globalId := str "/signal", description := [] }
    let events : List Event := [.connect 0 signal, .startRecording, .packet 0 (.data samplePacket)]
    (blocksOf 0 (reached disk events)).map Block.group = [groups.METADATA, groups.METADATA, 2] ∧
      DeclaredBeforeUse disk events 0 := by
  intro _ _ disk signal events
  refine ⟨by decide +kernel, declaredBeforeUse ?_ 0⟩
  change ∀ w ∈ (reached disk events).writers, (∀ v ∈ w.file.writes, v.Complete) ∧ _
  decide +kernel

end AdvancedRecorder.AdvancedRecorderImpl
