import OpenDaqModules.Recorder.Identifiers

namespace AdvancedRecorder.AdvancedRecorderImpl

open Sie EStateM

-- No channel was declared, and nothing was recorded.
structure Administered (w w' : Writer) : Prop extends w.SameIdentifiers w' where
  blocks : ∃ bs, w'.blocks = w.blocks ++ bs ∧ ∀ b ∈ bs, b = preambleBlock ∨ b.group = groups.INDEX

-- What a file was before an event: it was there, or it is a new one.
def Origin (i : ℕ) (w : Writer) (r : AdvancedRecorderImpl) : Prop :=
  r.writers[i]? = some w ∨ r.writers[i]? = none ∧ ∃ schedule uuids, w = newWriter schedule uuids

variable {w w' : Writer} {r r' : AdvancedRecorderImpl} {e : Event} {i : ℕ}

theorem administered_refl : Administered w w :=
  ⟨⟨rfl, rfl, rfl⟩, [], (List.append_nil _).symm, fun _ h => nomatch h⟩

theorem preambleBlock_declarations : preambleBlock.declarations = [] := by
  decide +kernel

theorem declarations_of_administered (h : b = preambleBlock ∨ b.group = groups.INDEX) :
    b.declarations = [] := by
  cases h
  case inl hpreamble => rw [hpreamble, preambleBlock_declarations]
  case inr hindex =>
    apply Block.declarations_of_ne
    rw [hindex]
    decide

theorem Administered.extended (h : Administered w w') : w.Extended w' := by
  have ⟨bs, hblocks, hbs⟩ := h.blocks
  exact ⟨h.toSameIdentifiers, bs, hblocks, fun b hb => declarations_of_administered (hbs b hb)⟩

-- The complete blocks of a file, which has none before it is there.
def blocksOf (i : ℕ) (r : AdvancedRecorderImpl) : List Block :=
  r.writers[i]?.elim [] Writer.blocks

theorem blocksOf_of_writer (hw : r.writers[i]? = some w) : blocksOf i r = w.blocks := by
  rw [blocksOf, hw]
  rfl

theorem blocksOf_withSignal (hw : r.writers[j]? = some w) (x : AdvancedRecorderSignal × Writer) :
    blocksOf i (r.withSignal port j x) = if i = j then x.2.blocks else blocksOf i r := by
  have hj := (List.getElem?_eq_some_iff.mp hw).choose
  by_cases hij : i = j
  case pos =>
    subst hij
    simp [blocksOf, withSignal, hj]
  case neg => simp [blocksOf, withSignal, List.getElem?_set_ne (Ne.symm hij), hij]

variable [Crc32]

theorem administered_closeWriter : Administered w (closeWriter w) := by
  have ⟨post, hpost, hindex⟩ := IndexedWriter.flushIndex_blocks (w := w.writer)
  refine ⟨⟨rfl, rfl, rfl⟩, post, ?_, fun b hb => .inr (hindex b hb)⟩
  rw [closeWriter, IndexedWriter.destroy_run]
  exact hpost

theorem Opened.administered (h : Opened w) :
    ∃ schedule uuids, Administered (newWriter schedule uuids) w := by
  obtain ⟨schedule, uuids, rfl⟩ := h
  have hids := Writer.writeBlock_identifiers groups.METADATA [preamble] (newWriter schedule uuids)
  have ⟨bs, hblocks, hbs⟩ := Writer.writeBlock_appends groups.METADATA [preamble]
    (newWriter schedule uuids)
  rw [List.flatten_singleton] at hbs
  exact ⟨schedule, uuids, hids, bs, hblocks, hbs⟩

omit [Crc32] in
-- A port that is connected and has no signal gets one, in the last place.
theorem emplaceSignal_cases (i : ℕ) (signals : List (ℕ × AdvancedRecorderSignal)) (port : InputPort) :
    emplaceSignal i signals port = signals ∨ ∃ signal, signals.lookup port.id = none ∧
      emplaceSignal i signals port =
        signals ++ [(port.id, AdvancedRecorderSignal.create signal i 0)] := by
  rw [emplaceSignal]
  split
  case h_1 => exact .inl rfl
  case h_2 c _ =>
    split
    case isTrue        => exact .inl rfl
    case isFalse hnone => exact .inr ⟨c.signal, Option.not_isSome_iff_eq_none.mp hnone, rfl⟩

omit [Crc32] in
theorem mem_emplaceSignal {signals : List (ℕ × AdvancedRecorderSignal)} {port : InputPort}
    (h : x ∈ emplaceSignal i signals port) :
    x ∈ signals ∨ ∃ signal, x.2 = AdvancedRecorderSignal.create signal i 0 := by
  obtain hsame | ⟨signal, -, hmore⟩ := emplaceSignal_cases i signals port
  case inl => exact .inl (hsame ▸ h)
  case inr =>
    rw [hmore] at h
    apply (List.mem_append.mp h).imp_right
    intro h
    cases List.mem_singleton.mp h
    exact ⟨_, rfl⟩

omit [Crc32] in
theorem mem_foldl_emplaceSignal {signals : List (ℕ × AdvancedRecorderSignal)} {ports : List InputPort}
    (h : x ∈ ports.foldl (emplaceSignal i) signals) :
    x ∈ signals ∨ ∃ signal, x.2 = AdvancedRecorderSignal.create signal i 0 := by
  induction ports generalizing signals
  case nil => exact .inl h
  case cons port ports ih =>
    cases ih h
    case inl h => exact mem_emplaceSignal h
    case inr h => exact .inr h

omit [Crc32] in
-- A signal that appears in a reconfiguration has not met any packet yet.
theorem mem_updateSignals (h : x ∈ (r.updateSignals i).signals) :
    x ∈ r.signals ∨ ∃ signal, x.2 = AdvancedRecorderSignal.create signal i 0 :=
  mem_foldl_emplaceSignal (List.mem_of_mem_filter h)

-- What every event but a packet makes of the files, and of the signals that write to them.
structure Managed (r r' : AdvancedRecorderImpl) : Prop where
  writers : ∀ i w', r'.writers[i]? = some w' → ∃ w, Origin i w r ∧ Administered w w'
  signals : ∀ x ∈ r'.signals, x ∈ r.signals ∨ x.2.handler = none ∧ x.2.writer ∈ r'.writer
  writer  : ∀ i ∈ r'.writer, i ∈ r.writer ∨ i < r'.writers.length

omit [Crc32] in
theorem administered_same (h : r'.writers = r.writers) (i : ℕ) (w' : Writer) :
    r'.writers[i]? = some w' → ∃ w, Origin i w r ∧ Administered w w' :=
  fun hw => ⟨w', .inl (h ▸ hw), administered_refl⟩

theorem administered_publish (h : Opened w) (i : ℕ) (w' : Writer)
    (hw : (r.publish w).writers[i]? = some w') : ∃ w, Origin i w r ∧ Administered w w' := by
  by_cases hi : i < r.writers.length
  case pos =>
    rw [publish, List.getElem?_append_left hi] at hw
    exact ⟨w', .inl hw, administered_refl⟩
  case neg =>
    have hi := Nat.le_of_not_lt hi
    obtain ⟨schedule, uuids, hw'⟩ := h.administered
    rw [opened_of_publish hi hw]
    exact ⟨_, .inr ⟨List.getElem?_eq_none hi, schedule, uuids, rfl⟩, hw'⟩

theorem administered_closed (i : ℕ) (w' : Writer) (hw : r.closed.writers[i]? = some w') :
    ∃ w, Origin i w r ∧ Administered w w' := by
  rw [closed] at hw
  cases hwriter : r.writer
  case none =>
    rw [hwriter] at hw
    exact ⟨w', .inl hw, administered_refl⟩
  case some j =>
    rw [hwriter] at hw
    simp only [List.getElem?_modify, Option.map_eq_map] at hw
    obtain ⟨w, hw, hw'⟩ := Option.map_eq_some_iff.mp hw
    refine ⟨w, .inl hw, ?_⟩
    split at hw'
    case isTrue  => exact hw' ▸ administered_closeWriter
    case isFalse => exact hw' ▸ administered_refl

omit [Crc32] in
theorem Managed.of_unchanged (h : Managed r r') (hwriter : r.writer = r₀.writer)
    (hsignals : r.signals = r₀.signals) (hwriters : r.writers = r₀.writers) : Managed r₀ r' := by
  refine ⟨fun i w' hw => ?_, hsignals ▸ h.signals, hwriter ▸ h.writer⟩
  have ⟨w, horigin, hadministered⟩ := h.writers i w' hw
  exact ⟨w, by rwa [Origin, hwriters] at horigin, hadministered⟩

theorem Reconfigured.managed (h : Reconfigured r r') : Managed r r' := by
  cases h
  case kept i _ hwriter =>
    refine ⟨administered_same rfl, fun x hx => ?_, fun _ h => .inl h⟩
    apply (mem_updateSignals hx).imp_right
    intro hx
    obtain ⟨_, hx⟩ := hx
    rw [hx]
    exact ⟨rfl, hwriter⟩
  case failed => exact ⟨administered_same rfl, fun _ h => .inl h, fun _ h => .inl h⟩
  case opened schedule uuids w _ _ _ hrun =>
    have hopened : Opened w := ⟨schedule, uuids, by rw [hrun, Result.state_ok]⟩
    refine ⟨administered_publish hopened, fun x hx => ?_, fun i hi => ?_⟩
    · apply (mem_updateSignals hx).imp_right
      intro hx
      obtain ⟨_, hx⟩ := hx
      rw [hx]
      exact ⟨rfl, rfl⟩
    · cases hi
      simp [updateSignals, publish]
  case published schedule uuids _ w _ _ _ hrun =>
    have hopened : Opened w := ⟨schedule, uuids, by rw [hrun, Result.state_error]⟩
    refine ⟨administered_publish hopened, fun _ h => .inl h, fun i hi => ?_⟩
    cases hi
    simp [publish]
  case closed =>
    exact ⟨administered_closed, by simp [AdvancedRecorderImpl.closed],
      by simp [AdvancedRecorderImpl.closed]⟩

variable [Host]

-- The signal that an event hands a data packet to, and the writer of that signal.
def receiver (e : Event) (r : AdvancedRecorderImpl) :
    Option (DataPacket × AdvancedRecorderSignal × Writer) := do
  match e with
  | .packet port (.data packet) =>
    let _ ← r.connection port
    let s ← r.signals.lookup port
    let w ← r.writers[s.writer]?
    return (packet, s, w)
  | _ => none

-- What an event makes of the files, and of the signals that write to them.
inductive Effect (r : AdvancedRecorderImpl) : Event → AdvancedRecorderImpl → Prop
  | managed {e : Event} {r' : AdvancedRecorderImpl} (hreceiver : receiver e r = none)
    (h : Managed r r') : Effect r e r'
  | received {port : ℕ} {packet : DataPacket} {s : AdvancedRecorderSignal} {w : Writer}
    (hconnection : (r.connection port).isSome) (hsignal : r.signals.lookup port = some s)
    (hwriter : r.writers[s.writer]? = some w) :
    Effect r (.packet port (.data packet)) (r.withSignal port s.writer
      ((AdvancedRecorderSignal.onPacketReceived (.data packet)).run (s, w)).state)

omit [Crc32] [Host] in
theorem managed_same (hwriters : r'.writers = r.writers) (hsignals : r'.signals = r.signals)
    (hwriter : r'.writer = r.writer) : Managed r r' :=
  ⟨administered_same hwriters, fun _ h => .inl (hsignals ▸ h), fun _ h => .inl (hwriter ▸ h)⟩

instance : Std.Refl Managed where
  refl _ := managed_same rfl rfl rfl

omit [Crc32] [Host] in
theorem mem_withSignal {y : AdvancedRecorderSignal × Writer}
    (h : x ∈ (r.withSignal port i y).signals) : x ∈ r.signals ∨ x = (port, y.1) := by
  have ⟨z, hz, hx⟩ := List.mem_map.mp h
  split at hx
  case isTrue  => exact .inr hx.symm
  case isFalse => exact .inl (hx ▸ hz)

omit [Crc32] [Host] in
theorem mem_of_lookup (h : r.signals.lookup port = some s) : (port, s) ∈ r.signals := by
  have ⟨before, after, hsignals, _⟩ := List.lookup_eq_some_iff.mp h
  simp [hsignals]

omit [Crc32] [Host] in
-- A method that does nothing leaves the files and the signals as they are.
theorem managed_withSignal (hs : r.signals.lookup port = some s) (hw : r.writers[i]? = some w) :
    Managed r (r.withSignal port i (s, w)) := by
  have hwriters : (r.withSignal port i (s, w)).writers = r.writers := by
    obtain ⟨hi, rfl⟩ := List.getElem?_eq_some_iff.mp hw
    exact List.set_getElem_self hi
  refine ⟨administered_same hwriters, fun x hx => .inl ?_, fun _ h => .inl h⟩
  exact (mem_withSignal hx).elim id fun hx => hx ▸ mem_of_lookup hs

omit [Crc32] [Host] in
theorem receiver_eq_some {packet : DataPacket} (hconnection : (r.connection port).isSome)
    (hsignal : r.signals.lookup port = some s) (hwriter : r.writers[s.writer]? = some w) :
    receiver (.packet port (.data packet)) r = some (packet, s, w) := by
  have ⟨c, hc⟩ := Option.isSome_iff_exists.mp hconnection
  simp [receiver, hc, hsignal, hwriter]

omit [Crc32] [Host] in
theorem Prepared.receiver_eq_none (h : Prepared r e r') : receiver e r = none := by
  cases h <;> rfl

omit [Crc32] [Host] in
theorem receiver_eq_none_of_ignored (h : Ignored r e) : receiver e r = none := by
  cases e
  case packet port packet =>
    cases packet
    case data  => simp [receiver, show r.connection port = none from h]
    case event => rfl
  all_goals rfl

theorem Transition.effect (h : Transition r e r') : Effect r e r' := by
  cases h
  case reconfigured r₁ hprep h =>
    have hsame := hprep.unchanged
    refine .managed hprep.receiver_eq_none ?_
    exact h.managed.of_unchanged hsame.writer hsame.signals hsame.writers
  case activated => exact .managed rfl (managed_same rfl rfl rfl)
  case ignored h => exact .managed (receiver_eq_none_of_ignored h) (managed_same rfl rfl rfl)
  case packet port signal packet hconnection =>
    cases packet
    case event =>
      have hkeeps : Keeps Managed (onSignal port (AdvancedRecorderSignal.onPacketReceived .event)) :=
        onSignal_keeps fun _ _ _ hs hw => managed_withSignal hs hw
      exact .managed rfl (hkeeps r)
    case data packet =>
      cases onSignal_cases port (AdvancedRecorderSignal.onPacketReceived (.data packet)) r
      case inl hcase =>
        obtain ⟨s, w, hs, hw, hstate⟩ := hcase
        rw [hstate]
        exact .received (by simp [hconnection]) hs hw
      case inr hcase =>
        obtain ⟨hnone, hstate⟩ := hcase
        rw [hstate]
        refine .managed ?_ (managed_same rfl rfl rfl)
        cases hs : r.signals.lookup port
        case none   => simp [receiver, hs]
        case some s => simp [receiver, hs, hnone s hs]

theorem Transition.received {packet : DataPacket} (h : Transition r e r')
    (hreceiver : receiver e r = some (packet, s, w)) : ∃ port,
      r.signals.lookup port = some s ∧ r.writers[s.writer]? = some w ∧
        r' = r.withSignal port s.writer
          ((AdvancedRecorderSignal.onPacketReceived (.data packet)).run (s, w)).state := by
  have heffect := h.effect
  cases heffect
  case managed hnone _ => exact nomatch hreceiver.symm.trans hnone
  case received port packet' s' w' hconnection hsignal hwriter =>
    rw [receiver_eq_some hconnection hsignal hwriter] at hreceiver
    cases hreceiver
    exact ⟨port, hsignal, hwriter, rfl⟩

-- Every file takes everything, and no counter of identifiers has reached the end of its range.
def Faultless (r : AdvancedRecorderImpl) : Prop :=
  ∀ w ∈ r.writers, w.file.AllComplete ∧ w.nextGroup < 2 ^ 32

omit [Crc32] [Host] in
theorem Faultless.of_grown (h : Faultless r') (hgrown : Grown r r') : Faultless r := by
  intro w hw
  have ⟨i, hi⟩ := List.mem_iff_getElem?.mp hw
  have ⟨w', hw', hg⟩ := hgrown.writers i w hi
  have ⟨hio, hcount⟩ := h w' (List.mem_of_getElem? hw')
  exact ⟨hio.of_writes hg.writes, hg.nextGroup.trans_lt hcount⟩

omit [Crc32] [Host] in
theorem Faultless.of_withSignal (h : Faultless (r.withSignal port i x)) (hw : r.writers[i]? = some w) :
    x.2.file.AllComplete ∧ x.2.nextGroup < 2 ^ 32 := by
  have hi := (List.getElem?_eq_some_iff.mp hw).choose
  exact h x.2 (List.mem_of_getElem? (i := i) (by simp [withSignal, hi]))

-- Between two events, the handlers of all signals have declared their channels.
structure Coherent (r : AdvancedRecorderImpl) : Prop where
  tracked : ∀ w ∈ r.writers, w.Tracked
  served  : ∀ x ∈ r.signals, ∃ w, r.writers[x.2.writer]? = some w ∧ x.2.Served w
  writer  : ∀ i ∈ r.writer, i < r.writers.length

omit [Crc32] [Host] in
theorem tracked_newWriter {schedule : List Outcome} {uuids : ℕ → Bytes} :
    (newWriter schedule uuids).Tracked :=
  ⟨rfl, rfl, (fun _ h => nomatch h), List.Pairwise.nil⟩

omit [Crc32] in
theorem Coherent.managed (h : Coherent r) (hmanaged : Managed r r') (hgrown : Grown r r') :
    Coherent r' := by
  have hwriter : ∀ i ∈ r'.writer, i < r'.writers.length := by
    intro i hi
    cases hmanaged.writer i hi
    case inr hlt => exact hlt
    case inl hi =>
      have ⟨w', hw', _⟩ := hgrown.writers i _ (List.getElem?_eq_getElem (h.writer i hi))
      exact (List.getElem?_eq_some_iff.mp hw').choose
  refine ⟨fun w' hw' => ?_, fun x hx => ?_, hwriter⟩
  · have ⟨i, hi⟩ := List.mem_iff_getElem?.mp hw'
    have ⟨w, horigin, hadministered⟩ := hmanaged.writers i w' hi
    refine Writer.Tracked.extended ?_ hadministered.extended
    cases horigin
    case inl hw  => exact h.tracked w (List.mem_of_getElem? hw)
    case inr hnew =>
      obtain ⟨_, _, _, rfl⟩ := hnew
      exact tracked_newWriter
  · cases hmanaged.signals x hx
    case inl hx =>
      have ⟨w, hw, hserved⟩ := h.served x hx
      have ⟨w', hw', hg⟩ := hgrown.writers _ w hw
      exact ⟨w', hw', hserved.mono hg.blocks⟩
    case inr hnew =>
      refine ⟨_, List.getElem?_eq_getElem (hwriter _ hnew.right), fun handler hhandler => ?_⟩
      rw [hnew.left] at hhandler
      exact nomatch hhandler

omit [Crc32] in
theorem Coherent.served_of_lookup (h : Coherent r) (hsignal : r.signals.lookup port = some s)
    (hwriter : r.writers[s.writer]? = some w) : s.Served w := by
  have ⟨w', hw', hserved⟩ := h.served (port, s) (mem_of_lookup hsignal)
  cases Option.some.inj (hw'.symm.trans hwriter)
  exact hserved

omit [Crc32] in
-- A signal may write to its file, as long as it only writes to channels of the file.
theorem Coherent.withSignal {s : AdvancedRecorderSignal} {x : AdvancedRecorderSignal × Writer}
    (h : Coherent r) (hwriter : r.writers[s.writer]? = some w) (hsame : x.1.writer = s.writer)
    (htracked : x.2.Tracked) (hserved : x.1.Served x.2)
    (hgrown : Grown r (r.withSignal port s.writer x)) : Coherent (r.withSignal port s.writer x) := by
  have hi := (List.getElem?_eq_some_iff.mp hwriter).choose
  have hnew : (r.withSignal port s.writer x).writers[s.writer]? = some x.2 := by
    simp [AdvancedRecorderImpl.withSignal, hi]
  refine ⟨fun w' hw' => ?_, fun y hy => ?_, fun i hi => ?_⟩
  case refine_1 =>
    cases List.mem_or_eq_of_mem_set hw'
    case inl hw' => exact h.tracked w' hw'
    case inr hw' => exact hw' ▸ htracked
  case refine_2 =>
    cases mem_withSignal hy
    case inl hy =>
      obtain ⟨v, hv, hserved⟩ := h.served y hy
      obtain ⟨v', hv', hg⟩ := hgrown.writers _ v hv
      exact ⟨v', hv', hserved.mono hg.blocks⟩
    case inr hy =>
      rw [hy]
      exact ⟨x.2, hsame ▸ hnew, hserved⟩
  case refine_3 =>
    have hlt := h.writer i hi
    rwa [← List.length_set (i := s.writer)] at hlt

theorem Coherent.received {packet : DataPacket} {s : AdvancedRecorderSignal} (h : Coherent r)
    (hsignal : r.signals.lookup port = some s) (hwriter : r.writers[s.writer]? = some w)
    (hx : ((AdvancedRecorderSignal.onPacketReceived (.data packet)).run (s, w)).state = x)
    (hfaultless : Faultless (r.withSignal port s.writer x))
    (hgrown : Grown r (r.withSignal port s.writer x)) : Coherent (r.withSignal port s.writer x) := by
  obtain ⟨hio, hcount⟩ := hfaultless.of_withSignal hwriter
  subst hx
  obtain ⟨htracked, hserved, hextended⟩ := AdvancedRecorderSignal.received_extended
    (h.tracked w (List.mem_of_getElem? hwriter)) (h.served_of_lookup hsignal hwriter) hio hcount
  obtain ⟨bs, hblocks, _⟩ := hextended.blocks
  refine h.withSignal hwriter ?_ (htracked.extended hextended) ?_ hgrown
  case refine_1 =>
    rw [AdvancedRecorderSignal.run_state_fst, AdvancedRecorderSignal.prepared_signal.right.left]
  case refine_2 =>
    rw [AdvancedRecorderSignal.run_state_fst]
    exact hserved.mono (hblocks ▸ List.prefix_append _ _)

theorem Transition.coherent (h : Transition r e r') (hr : Coherent r) (hfaultless : Faultless r') :
    Coherent r' := by
  have hgrown := h.grown
  have heffect := h.effect
  cases heffect
  case managed h => exact hr.managed h hgrown
  case received hsignal hwriter => exact hr.received hsignal hwriter rfl hfaultless hgrown

omit [Crc32] in
theorem coherent_create {disk : ℕ → OpenOutcome} : Coherent (create disk) := by
  rw [create_eq]
  exact ⟨(fun _ h => nomatch h), (fun _ h => nomatch h), (fun _ h => nomatch h)⟩

theorem coherent_reached {disk : ℕ → OpenOutcome} {events : List Event}
    (h : Faultless (reached disk events)) : Coherent (reached disk events) := by
  induction events using List.reverseRecOn
  case nil => exact coherent_create
  case append_singleton events e ih =>
    have hbefore := h.of_grown (grown_reached (List.prefix_append events [e]))
    exact transition_reached.coherent (ih hbefore) h

end AdvancedRecorder.AdvancedRecorderImpl
