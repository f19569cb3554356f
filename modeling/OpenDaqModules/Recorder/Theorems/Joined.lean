import OpenDaqModules.Recorder.Linked
import OpenDaqModules.Recorder.Theorems.Follows
import OpenDaqModules.Recorder.Theorems.Separation

namespace AdvancedRecorder.AdvancedRecorderImpl

open Sie EStateM

variable [Host] [Crc32] {disk : ℕ → OpenOutcome} {before events : List Event}
  {r r' : AdvancedRecorderImpl} {e : Event} {i n p : ℕ} {value domain : Option DataDescriptor}
  {history new : List Delivery}

section Used

-- There are no signals but those of connected ports.
def Used (r : AdvancedRecorderImpl) : Prop :=
  ∀ x ∈ r.signals, (r.connection x.1).isSome

omit [Host] [Crc32] in
theorem used_updateSignals (hports : (r.ports.map InputPort.id).Nodup) : Used (r.updateSignals i) := by
  intro x hx
  have hkey : x.1 ∈ r.connectedPorts := by simpa using List.of_mem_filter hx
  have hconnected := (mem_connectedPorts hports).mp hkey
  rwa [connectedSignal, Option.isSome_map] at hconnected

omit [Host] [Crc32] in
theorem Linked.signals_eq_nil (h : Linked r) (hwriter : r.writer = none) : r.signals = [] := by
  apply List.eq_nil_iff_forall_not_mem.mpr
  intro x hx
  have hsome := h.current x hx
  rw [hwriter] at hsome
  cases hsome

omit [Host] in
theorem Reconfigured.used (h : Reconfigured r r') (hlinked : Linked r)
    (hports : (r.ports.map InputPort.id).Nodup) : Used r' := by
  cases h
  case kept   => exact used_updateSignals hports
  case opened => exact used_updateSignals (r := r.publish _) hports
  case failed _ hwriter _ =>
    intro x hx
    rw [hlinked.signals_eq_nil hwriter] at hx
    cases hx
  case published _ hwriter _ _ =>
    intro x hx
    rw [publish, hlinked.signals_eq_nil hwriter] at hx
    cases hx
  case closed =>
    intro x hx
    cases hx

theorem Transition.used (h : Transition r e r') (hr : Used r) (hlinked : Linked r)
    (horderly : r.Orderly) : Used r' := by
  cases h
  case reconfigured hprep hreconf =>
    have hsame := hprep.unchanged
    exact hreconf.used (hlinked.of_same hsame.writer hsame.writers hsame.signals)
      (hprep.orderly horderly).ids
  case activated => exact hr
  case ignored   => exact hr
  case packet port signal packet _ =>
    cases onSignal_cases port (AdvancedRecorderSignal.onPacketReceived packet) r
    case inr hcase => exact hcase.right.symm ▸ hr
    case inl hcase =>
      obtain ⟨s, w, hs, _, hstate⟩ := hcase
      rw [hstate]
      intro x hx
      cases mem_withSignal hx
      case inl hx => exact hr x hx
      case inr hx =>
        have hconnected : (r.connection port).isSome := hr _ (mem_of_lookup hs)
        rw [hx]
        exact hconnected

theorem used_reached : Used (reached disk events) := by
  induction events using List.reverseRecOn
  case nil =>
    rw [reached, Exec.run_nil, create_eq]
    intro x hx
    cases hx
  case append_singleton events e ih => exact transition_reached.used ih linked_reached orderly_reached

end Used

-- The packets of a port all have these descriptors.
def Event.Steady (p : ℕ) (value domain : Option DataDescriptor) : Event → Prop
  | .packet port (.data d) => port = p → d.dataDescriptor = value ∧ d.domainDescriptor = domain
  | _ => True

-- What a port has delivered to a file since it was connected, when the file had given away `n`
-- groups. As long as the file is recorded, the port has the signal that delivered it.
structure Joined (i p n : ℕ) (value domain : Option DataDescriptor) (history : List Delivery)
    (r : AdvancedRecorderImpl) : Prop where
  fresh : ∀ s, r.signals.lookup p = some s → s.writer = i → ∀ h ∈ s.handler, n ≤ h.group.toNat
  later : ∀ d ∈ history, d.port = p → n ≤ d.reading.group
  same  : ∀ d ∈ history, ∀ d' ∈ history, d.port = p → d'.port = p → d.reading.group = d'.reading.group
  held  : ∀ d ∈ history, d.port = p → i < r.writers.length ∧ (r.writer = some i →
    ∃ s, r.signals.lookup p = some s ∧ s.lastValueDescriptor = value ∧
      s.lastDomainDescriptor = domain ∧ ∃ h ∈ s.handler, h.group.toNat = d.reading.group)

omit [Host] [Crc32] in
-- Nothing else that happens changes the signal of the port.
theorem Joined.frame (h : Joined i p n value domain history r) (hnew : ∀ d ∈ new, d.port ≠ p)
    (hlength : r.writers.length ≤ r'.writers.length)
    (hfresh : ∀ s, r'.signals.lookup p = some s → r.signals.lookup p = some s ∨ s.handler = none)
    (hheld : r'.writer = some i → i < r.writers.length → r.writer = some i ∧
      ∀ s, r.signals.lookup p = some s → r'.signals.lookup p = some s) :
    Joined i p n value domain (history ++ new) r' := by
  have hold : ∀ d ∈ history ++ new, d.port = p → d ∈ history := by
    intro d hd hport
    exact (List.mem_append.mp hd).resolve_right fun hd => hnew d hd hport
  constructor
  case fresh =>
    intro s hs hi handler hhandler
    cases hfresh s hs
    case inl hs    => exact h.fresh s hs hi handler hhandler
    case inr hnone =>
      rw [hnone] at hhandler
      cases hhandler
  case later => exact fun d hd hport => h.later d (hold d hd hport) hport
  case same  =>
    exact fun d hd d' hd' hport hport' =>
      h.same d (hold d hd hport) d' (hold d' hd' hport') hport hport'
  case held  =>
    intro d hd hport
    obtain ⟨hi, hsignal⟩ := h.held d (hold d hd hport) hport
    refine ⟨hi.trans_le hlength, fun hwriter => ?_⟩
    obtain ⟨hwriter, hkept⟩ := hheld hwriter hi
    obtain ⟨s, hs, hrest⟩ := hsignal hwriter
    exact ⟨s, hkept s hs, hrest⟩

section Step

variable {packet : DataPacket} {s : AdvancedRecorderSignal} {w : Writer}
  {x : AdvancedRecorderSignal × Writer}

omit [Host] [Crc32] in
-- A packet with the descriptors of those before finds the handler that they were recorded by.
theorem Joined.handed (h : Joined i p n value domain history r) (hlinked : Linked r)
    (hs : r.signals.lookup p = some s) (hw : r.writers[s.writer]? = some w)
    (hgroups : s.writer = i → n ≤ w.nextGroup) (hx : Handed i p packet s w new x)
    (hsame : s.Knows packet → x.1 = s)
    (hsteady : packet.dataDescriptor = value ∧ packet.domainDescriptor = domain) :
    Joined i p n value domain (history ++ new) (r.withSignal p s.writer x) := by
  have hlookup : (r.withSignal p s.writer x).signals.lookup p = some x.1 := lookup_withSignal_self hs
  have hlength : (r.withSignal p s.writer x).writers.length = r.writers.length := List.length_set
  have hlt := (List.getElem?_eq_some_iff.mp hw).choose
  have hcurrent := hlinked.current _ (mem_of_lookup hs)
  have hfresh : s.writer = i → ∀ handler ∈ x.1.handler, n ≤ handler.group.toNat := by
    intro hi handler hhandler
    cases hx.group handler hhandler
    case inl hxs  => exact h.fresh s hs hi handler (hxs ▸ hhandler)
    case inr hnew => exact hnew.left ▸ hgroups hi
  -- While the file is recorded, the handler stays the one that has delivered.
  have hkept : ∀ d ∈ history, d.port = p → s.writer = i →
      x.1 = s ∧ ∃ handler ∈ s.handler, handler.group.toNat = d.reading.group := by
    intro d hd hport hi
    obtain ⟨_, hsignal⟩ := h.held d hd hport
    obtain ⟨s', hs', hvalue, hdomain, hhandler⟩ := hsignal (hi ▸ hcurrent)
    cases Option.some.inj (hs.symm.trans hs')
    exact ⟨hsame ⟨hsteady.left.trans hvalue.symm, hsteady.right.trans hdomain.symm⟩, hhandler⟩
  have hjoin : ∀ d ∈ history, ∀ d' ∈ new, d.port = p → d.reading.group = d'.reading.group := by
    intro d hd d' hd' hport
    obtain ⟨hi, _, _, handler', hhandler', hgroup'⟩ := hx.new d' hd'
    obtain ⟨hxs, handler, hhandler, hgroup⟩ := hkept d hd hport hi
    rw [hxs] at hhandler'
    cases Option.some.inj (Option.mem_def.mp hhandler |>.symm.trans (Option.mem_def.mp hhandler'))
    exact hgroup.symm.trans hgroup'.symm
  constructor
  case fresh =>
    intro s' hs' hi handler hhandler
    cases Option.some.inj (hlookup.symm.trans hs')
    exact hfresh (hx.writer ▸ hi) handler hhandler
  case later =>
    intro d hd hport
    cases List.mem_append.mp hd
    case inl hd => exact h.later d hd hport
    case inr hd =>
      obtain ⟨hi, _, _, handler, hhandler, hgroup⟩ := hx.new d hd
      exact hgroup ▸ hfresh hi handler hhandler
  case same =>
    intro d hd d' hd' hport hport'
    cases List.mem_append.mp hd <;> cases List.mem_append.mp hd'
    case inl.inl hd hd' => exact h.same d hd d' hd' hport hport'
    case inl.inr hd hd' => exact hjoin d hd d' hd' hport
    case inr.inl hd hd' => exact (hjoin d' hd' d hd hport').symm
    case inr.inr hd hd' =>
      obtain ⟨_, _, _, handler, hhandler, hgroup⟩ := hx.new d hd
      obtain ⟨_, _, _, handler', hhandler', hgroup'⟩ := hx.new d' hd'
      cases Option.some.inj (Option.mem_def.mp hhandler |>.symm.trans (Option.mem_def.mp hhandler'))
      exact hgroup.trans hgroup'.symm
  case held =>
    intro d hd hport
    cases List.mem_append.mp hd
    case inl hd =>
      obtain ⟨hi, hsignal⟩ := h.held d hd hport
      refine ⟨hlength ▸ hi, fun hwriter => ?_⟩
      have hsi : s.writer = i := Option.some.inj (hcurrent.symm.trans hwriter)
      obtain ⟨hxs, _⟩ := hkept d hd hport hsi
      obtain ⟨s', hs', hrest⟩ := hsignal hwriter
      cases Option.some.inj (hs.symm.trans hs')
      exact ⟨x.1, hlookup, hxs ▸ hrest⟩
    case inr hd =>
      obtain ⟨hi, _, _, handler, hhandler, hgroup⟩ := hx.new d hd
      refine ⟨hlength ▸ hi ▸ hlt, fun _ => ⟨x.1, hlookup, ?_, ?_, handler, hhandler, hgroup.symm⟩⟩
      · exact hx.knows.left.symm.trans hsteady.left
      · exact hx.knows.right.symm.trans hsteady.right

end Step

omit [Host] in
-- A reconfiguration ends the recording of the file, or it leaves the signals of connected ports alone.
theorem Reconfigured.keeps_signal (h : Reconfigured r r') (hdistinct : Distinct r)
    (hconnected : (r.connectedSignal p).isSome) (hi : i < r.writers.length) (hwriter : r'.writer = some i) :
    r.writer = some i ∧ ∀ s, r.signals.lookup p = some s → r'.signals.lookup p = some s := by
  cases h
  case kept => exact ⟨hwriter, fun s hs => lookup_updateSignals_of_some hdistinct hs hconnected⟩
  case failed _ hnone _ =>
    rw [hnone] at hwriter
    cases hwriter
  case closed => cases hwriter
  case opened =>
    have heq : r.writers.length = i := Option.some.inj hwriter
    exact absurd hi (heq ▸ lt_irrefl _)
  case published =>
    have heq : r.writers.length = i := Option.some.inj hwriter
    exact absurd hi (heq ▸ lt_irrefl _)

theorem delivery_port {d : Delivery} {port : ℕ} {packet : Packet}
    (hd : d ∈ (delivery i (.packet port packet) r).toList) : d.port = port := by
  cases packet
  case event => cases hd
  case data  =>
    obtain ⟨_, _, rfl⟩ := Option.map_eq_some_iff.mp (Option.mem_toList.mp hd)
    rfl

theorem delivery_eq_none {port : ℕ} {packet : Packet}
    (h : ∀ s, r.signals.lookup port = some s → r.writers[s.writer]? = none) :
    delivery i (.packet port packet) r = none := by
  cases packet
  case event => rfl
  case data packet =>
    have hreceiver : receiver (.packet port (.data packet)) r = none := by
      cases hs : r.signals.lookup port
      case none   => simp [receiver, hs]
      case some s => simp [receiver, hs, h s hs]
    rw [delivery, delivered, hreceiver]
    rfl

theorem joined_of_transition (h : Transition r e r') (hr : Joined i p n value domain history r)
    (horderly : r.Orderly) (hdistinct : Distinct r) (hlinked : Linked r) (hfaultless : Faultless r')
    (hgroups : ∀ w, r.writers[i]? = some w → n ≤ w.nextGroup) (hconnected : (r.connection p).isSome)
    (hspares : e.Spares p) (hsteady : e.Steady p value domain) :
    Joined i p n value domain (history ++ (delivery i e r).toList) r' := by
  have hgrown := h.grown
  have hsame (r' : AdvancedRecorderImpl) (hwriter : r'.writer = r.writer)
      (hwriters : r'.writers = r.writers) (hsignals : r'.signals = r.signals) :
      Joined i p n value domain (history ++ []) r' := by
    refine hr.frame (by simp) (hwriters ▸ le_rfl) (fun s hs => .inl (hsignals ▸ hs)) fun hi _ => ?_
    exact ⟨hwriter ▸ hi, fun s hs => hsignals ▸ hs⟩
  cases h
  case activated => exact hsame _ rfl rfl rfl
  case ignored hignored =>
    have hnone : delivery i e r = none := by
      cases e
      case packet port packet =>
        cases packet
        case event => rfl
        case data  =>
          rw [delivery, delivered, receiver_eq_none_of_ignored hignored]
          rfl
      all_goals rfl
    rw [hnone]
    exact hsame _ rfl rfl rfl
  case reconfigured r₁ hprep hreconf =>
    have hnone : delivery i e r = none := by cases hprep <;> rfl
    have hunchanged := hprep.unchanged
    have hdistinct₁ : Distinct r₁ := by
      exact ⟨(hprep.orderly horderly).ids, hunchanged.signals ▸ hdistinct.signals⟩
    have hconnected₁ : (r₁.connectedSignal p).isSome := by
      rw [connectedSignal, Option.isSome_map, hprep.connection_eq hspares]
      exact hconnected
    rw [hnone]
    refine hr.frame (by simp) ?_ ?_ ?_
    case refine_1 =>
      by_contra hlt
      have hlt : r'.writers.length < r.writers.length := Nat.lt_of_not_le hlt
      obtain ⟨_, hw, _⟩ := hgrown.writers _ _ (List.getElem?_eq_getElem hlt)
      exact absurd (List.getElem?_eq_some_iff.mp hw).choose (lt_irrefl _)
    case refine_2 =>
      intro s hs
      cases hreconf.managed.signals _ (mem_of_lookup hs)
      case inl hmem => exact .inl (lookup_of_mem hdistinct.signals (hunchanged.signals ▸ hmem))
      case inr hnew => exact .inr hnew.left
    case refine_3 =>
      intro hwriter hi
      rw [← hunchanged.writer, ← hunchanged.signals]
      exact hreconf.keeps_signal hdistinct₁ hconnected₁ (hunchanged.writers ▸ hi) hwriter
  case packet port signal packet _ =>
    cases onSignal_cases port (AdvancedRecorderSignal.onPacketReceived packet) r
    case inr hcase =>
      rw [hcase.right, delivery_eq_none hcase.left]
      exact hsame _ rfl rfl rfl
    case inl hcase =>
      obtain ⟨s, w, hs, hw, hstate⟩ := hcase
      rw [hstate] at hfaultless ⊢
      by_cases hport : port = p
      case neg =>
        have hlookup : ∀ x, (r.withSignal port s.writer x).signals.lookup p = r.signals.lookup p := by
          exact fun _ => lookup_withSignal_of_ne (Ne.symm hport)
        refine hr.frame (fun d hd => delivery_port hd ▸ hport) (List.length_set).ge ?_ ?_
        · exact fun s' hs' => .inl (hlookup _ ▸ hs')
        · exact fun hwriter _ => ⟨hwriter, fun s' hs' => (hlookup _).trans hs'⟩
      case pos =>
        subst hport
        cases packet
        case event =>
          have hlookup : (r.withSignal port s.writer (s, w)).signals.lookup port = some s :=
            lookup_withSignal_self hs
          have hnone : ∀ d ∈ (delivery i (.packet port .event) r).toList, d.port ≠ port := by
            intro d hd
            cases hd
          refine hr.frame hnone (List.length_set).ge ?_ ?_
          · exact fun s' hs' => .inl (hs.trans (hlookup.symm.trans hs'))
          · exact fun hwriter _ => ⟨hwriter, fun s' hs' => hlookup.trans (hs.symm.trans hs')⟩
        case data packet =>
          obtain ⟨hio, hcount⟩ := hfaultless.of_withSignal hw
          refine hr.handed hlinked hs hw (fun hi => hgroups w (hi ▸ hw))
            (handed hconnected hs hw hio hcount) (fun hknows => ?_) (hsteady rfl)
          rw [AdvancedRecorderSignal.run_state_fst, AdvancedRecorderSignal.prepared, if_pos hknows]

section Run

variable {signal : Signal}

-- The groups that a file has given away.
def groupsOf (i : ℕ) (r : AdvancedRecorderImpl) : ℕ :=
  r.writers[i]?.elim 0 Writer.nextGroup

omit [Host] [Crc32] in
theorem groupsOf_mono (h : Grown r r') : groupsOf i r ≤ groupsOf i r' := by
  rw [groupsOf]
  cases hw : r.writers[i]?
  case none   => exact Nat.zero_le _
  case some w =>
    obtain ⟨w', hw', hg⟩ := h.writers i w hw
    rw [groupsOf, hw']
    exact hg.nextGroup

theorem deliveries_append {events' : List Event} : deliveries i (events ++ events') r =
    deliveries i events r ++ deliveries i events' (Exec.run exec events r) := by
  induction events generalizing r
  case nil          => rfl
  case cons e es ih => simp [deliveries, ih]

theorem joined_run (hfaultless : Faultless (reached disk (before ++ events)))
    (hconnected : ((reached disk before).connection p).isSome)
    (hstart : Joined i p n value domain [] (reached disk before))
    (hgroups : n ≤ groupsOf i (reached disk before)) (hspares : ∀ e ∈ events, e.Spares p)
    (hsteady : ∀ e ∈ events, e.Steady p value domain) :
    Joined i p n value domain (deliveries i events (reached disk before))
      (reached disk (before ++ events)) := by
  induction events using List.reverseRecOn
  case nil =>
    rw [List.append_nil]
    exact hstart
  case append_singleton events e ih =>
    rw [← List.append_assoc] at hfaultless ⊢
    have hspares' : ∀ e ∈ events, e.Spares p := fun e he => hspares e (List.mem_append_left _ he)
    have hbefore := hfaultless.of_grown (grown_reached (List.prefix_append (before ++ events) [e]))
    have hgrown : Grown (reached disk before) (reached disk (before ++ events)) :=
      grown_reached (List.prefix_append before events)
    have hjoined := ih hbefore hspares' fun e he => hsteady e (List.mem_append_left _ he)
    have hrun : Exec.run exec events (reached disk before) = reached disk (before ++ events) := by
      rw [reached, reached, Exec.run_append]
    rw [deliveries_concat, hrun]
    refine joined_of_transition transition_reached hjoined orderly_reached distinct_reached
      linked_reached hfaultless (fun w hw => ?_) ?_ (hspares e (by simp)) (hsteady e (by simp))
    case refine_1 =>
      have hle := hgroups.trans (groupsOf_mono hgrown)
      rwa [groupsOf.eq_1 i (reached disk (before ++ events)), hw] at hle
    case refine_2 =>
      rw [connection_reached hspares']
      exact hconnected

-- A port that was free has no handler for what is connected to it.
theorem joined_connect (hfree : (reached disk before).connection p = none) :
    Joined i p n value domain [] (reached disk (before ++ [.connect p signal])) := by
  refine ⟨fun s hs _ handler hhandler => ?_, by simp, by simp, by simp⟩
  have heffect : Effect (reached disk before) (.connect p signal)
      (reached disk (before ++ [.connect p signal])) := transition_reached.effect
  have hmanaged : Managed (reached disk before) (reached disk (before ++ [.connect p signal])) := by
    generalize reached disk (before ++ [.connect p signal]) = r' at heffect
    cases heffect
    assumption
  cases hmanaged.signals _ (mem_of_lookup hs)
  case inl hold =>
    have hconnected := used_reached _ hold
    rw [hfree] at hconnected
    cases hconnected
  case inr hnew =>
    rw [hnew.left] at hhandler
    cases hhandler

theorem connection_reached_connect (hport : (reached disk before).ports.any (·.id = p)) :
    ((reached disk (before ++ [.connect p signal])).connection p).isSome := by
  have htransition : Transition (reached disk before) (.connect p signal)
      (reached disk (before ++ [.connect p signal])) := transition_reached
  generalize reached disk (before ++ [.connect p signal]) = r' at htransition
  cases htransition
  case ignored hignored => exact absurd hport hignored
  case reconfigured hprep hreconf =>
    cases hprep
    rw [connection_of_ports_eq hreconf.same.right, connection_portAdded, connection_setConnection hport]
    rfl

omit [Host] [Crc32] in
theorem exists_unused (ds : List Delivery) : ∃ group, ∀ d ∈ ds, d.reading.group ≠ group := by
  obtain ⟨group, hgroup⟩ := Infinite.exists_notMem_finset (ds.map fun d => d.reading.group).toFinset
  refine ⟨group, fun d hd heq => hgroup ?_⟩
  rw [List.mem_toFinset, ← heq]
  exact List.mem_map_of_mem hd

-- From its connection on, a port that was free has one channel in a file, and the channel is its own.
theorem joined_reached (hfaultless : Faultless (reached disk (before ++ .connect p signal :: events)))
    (hfree : (reached disk before).connection p = none)
    (hport : (reached disk before).ports.any (·.id = p)) (hspares : ∀ e ∈ events, e.Spares p)
    (hsteady : ∀ e ∈ events, e.Steady p value domain) (i : ℕ) :
    ∃ group, (deliveries i (before ++ .connect p signal :: events) (create disk)).filter
        (·.reading.group = group) =
      (deliveries i events (reached disk (before ++ [.connect p signal]))).filter (·.port = p) := by
  have hsplit : before ++ .connect p signal :: events = (before ++ [.connect p signal]) ++ events := by
    simp
  have hpairwise := pairwise_deliveries (i := i) hfaultless
  rw [hsplit] at hfaultless hpairwise ⊢
  have hbefore : Faultless (reached disk before) := by
    rw [List.append_assoc] at hfaultless
    exact hfaultless.of_grown (grown_reached (List.prefix_append before _))
  have hgrown : Grown (reached disk before) (reached disk (before ++ [.connect p signal])) :=
    grown_reached (List.prefix_append before _)
  have hjoined := joined_run hfaultless (connection_reached_connect hport) (joined_connect hfree)
    (groupsOf_mono (i := i) hgrown) hspares hsteady
  have hearlier : ∀ d ∈ deliveries i (before ++ [.connect p signal]) (create disk),
      d.reading.group < groupsOf i (reached disk before) := by
    intro d hd
    have howned : Owned i (deliveries i before (create disk)) (reached disk before) := owned_reached hbefore
    rw [deliveries_concat] at hd
    obtain ⟨w, hw, hlt⟩ := howned.past d ((List.mem_append.mp hd).resolve_right fun h => nomatch h)
    rw [groupsOf, hw]
    exact hlt
  have hrun : Exec.run exec (before ++ [.connect p signal]) (create disk) =
      reached disk (before ++ [.connect p signal]) := rfl
  rw [deliveries_append, hrun] at hpairwise ⊢
  generalize deliveries i (before ++ [.connect p signal]) (create disk) = earlier at *
  generalize deliveries i events (reached disk (before ++ [.connect p signal])) = during at *
  by_cases hnone : ∀ d ∈ during, d.port ≠ p
  case pos =>
    obtain ⟨group, hgroup⟩ := exists_unused (earlier ++ during)
    refine ⟨group, ?_⟩
    rw [List.filter_eq_nil_iff.mpr (by simpa using hgroup), List.filter_eq_nil_iff.mpr (by simpa using hnone)]
  case neg =>
    obtain ⟨d, hd, hdp⟩ : ∃ d ∈ during, d.port = p := by simpa using hnone
    refine ⟨d.reading.group, ?_⟩
    have hfirst : earlier.filter (·.reading.group = d.reading.group) = [] := by
      apply List.filter_eq_nil_iff.mpr
      intro d' hd' hgroup
      have hlt := hearlier d' hd'
      have hle := hjoined.later d hd hdp
      rw [of_decide_eq_true hgroup] at hlt
      exact absurd hle (Nat.not_le.mpr hlt)
    rw [List.filter_append, hfirst, List.nil_append]
    apply List.filter_congr
    intro d' hd'
    rw [decide_eq_decide]
    constructor
    case mpr => exact fun hport => hjoined.same d' hd' d hd hport hdp
    case mp  =>
      intro hgroup
      have hports : during.Pairwise fun x y => x.reading.group = y.reading.group → x.port = y.port :=
        (List.pairwise_append.mp hpairwise).right.left.imp fun h heq => (h heq).left
      have hsymm : Std.Symm fun x y : Delivery => x.reading.group = y.reading.group → x.port = y.port :=
        ⟨fun x y h heq => (h heq.symm).symm⟩
      exact (hports.forall_of_forall (fun _ _ _ => rfl) hd' hd hgroup).trans hdp

-- What a file hears of a port.
def heardFrom (p i : ℕ) (e : Event) (r : AdvancedRecorderImpl) :
    Option (Bytes × List (List (Option Decoder.Value))) :=
  match e with
  | .packet port _ => if port = p then heard i e r else none
  | _              => none

def allHeardFrom (p i : ℕ) :
    List Event → AdvancedRecorderImpl → List (Bytes × List (List (Option Decoder.Value)))
  | [], _      => []
  | e :: es, r => (heardFrom p i e r).toList ++ allHeardFrom p i es ((exec e).run r).state

theorem Transition.heardFrom_eq (h : Transition r e r') (hr : Serving r) (hflawless : Flawless r') :
    ((AdvancedRecorderImpl.delivery i e r).toList.filter (·.port = p)).map (·.reading.content) =
      (heardFrom p i e r).toList := by
  cases e
  case packet port packet =>
    have hcontent := h.delivered_content (i := i) hr hflawless
    cases packet
    case event =>
      have hnone : heardFrom p i (.packet port .event) r = none := ite_self none
      rw [hnone]
      rfl
    case data packet =>
      rw [heardFrom, AdvancedRecorderImpl.delivery]
      by_cases hport : port = p
      case pos =>
        rw [if_pos hport, ← hcontent]
        cases delivered i (.packet port (.data packet)) r <;> simp [hport]
      case neg =>
        rw [if_neg hport]
        cases delivered i (.packet port (.data packet)) r <;> simp [hport]
  all_goals rfl

theorem map_content_deliveries (hflawless : Flawless (reached disk (before ++ events))) :
    ((deliveries i events (reached disk before)).filter (·.port = p)).map (·.reading.content) =
      allHeardFrom p i events (reached disk before) := by
  induction events generalizing before
  case nil          => rfl
  case cons e es ih =>
    have hsplit : before ++ e :: es = before ++ [e] ++ es := by simp
    rw [hsplit] at hflawless
    have htransition : Transition (reached disk before) e (reached disk (before ++ [e])) := by
      exact transition_reached
    have hafter := hflawless.of_grown (grown_reached (List.prefix_append _ es))
    have hserving := serving_reached (hafter.of_grown htransition.grown)
    rw [deliveries, allHeardFrom, List.filter_append, List.map_append,
      htransition.heardFrom_eq hserving hafter, ← reached_concat, ih hflawless]

-- In every file that a signal with steady descriptors is recorded to, one channel has the samples of
-- the signal, all of them, in their order, and nothing else.
theorem channel_reached
    (hflawless : Flawless (reached disk (before ++ .connect p signal :: events)))
    (hcount : ∀ w ∈ (reached disk (before ++ .connect p signal :: events)).writers,
      w.nextGroup < 2 ^ 32)
    (hevents : ∀ e ∈ before ++ .connect p signal :: events, e.WellFormed)
    (hfree : (reached disk before).connection p = none)
    (hport : (reached disk before).ports.any (·.id = p)) (hspares : ∀ e ∈ events, e.Spares p)
    (hsteady : ∀ e ∈ events, e.Steady p value domain) (i : ℕ)
    (hsize : ∀ b ∈ blocksOf i (reached disk (before ++ .connect p signal :: events)),
      b.size < 2 ^ 32) :
    ∃ group, ((readFile (bytesOf i (reached disk (before ++ .connect p signal :: events)))).filter
        (·.group = group)).map Reading.content =
      allHeardFrom p i events (reached disk (before ++ [.connect p signal])) := by
  have hfaultless : Faultless (reached disk (before ++ .connect p signal :: events)) :=
    fun w hw => ⟨hflawless.complete w hw, hcount w hw⟩
  obtain ⟨group, hgroup⟩ := joined_reached hfaultless hfree hport hspares hsteady i
  obtain ⟨hread, _⟩ := separated_reached hfaultless hevents i hsize
  have hsplit : before ++ .connect p signal :: events = (before ++ [.connect p signal]) ++ events := by
    simp
  refine ⟨group, ?_⟩
  rw [hread, List.filter_map, List.map_map, ← map_content_deliveries (hsplit ▸ hflawless), ← hgroup]
  rfl

end Run

omit [Host] [Crc32] in
-- The signal is recorded beside another one, and its packet after the recording is left out.
theorem channel_two_signals :
    let _ := Crc32.ieee
    let _ := Host.exact
    let disk (_ : ℕ) : OpenOutcome := .opened [] fun _ => []
    let packet (octet : UInt8) : Packet := .data { samplePacket with rawData := [octet] }
    let a : Signal := { globalId := str "a", description := [] }
    let before : List Event := [.connect 0 { a with globalId := str "b" }]
    let events : List Event := [.startRecording, .packet 1 (packet 7), .packet 0 (packet 8),
      .packet 1 (packet 9), .stopRecording, .packet 1 (packet 10)]
    allHeardFrom 1 0 events (reached disk (before ++ [.connect 1 a])) = [7, 9].map (fun n =>
        (str "value", [[some (Decoder.Value.num 5), some (Decoder.Value.num n)]])) ∧
      ∃ group, ((readFile (bytesOf 0 (reached disk (before ++ .connect 1 a :: events)))).filter
          (·.group = group)).map Reading.content =
        allHeardFrom 1 0 events (reached disk (before ++ [.connect 1 a])) := by
  intro _ _ disk packet a before events
  have hsteady : ∀ e ∈ events,
      e.Steady 1 samplePacket.dataDescriptor samplePacket.domainDescriptor := by
    simp [events, packet, Event.Steady, DataPacket.domainDescriptor]
  refine ⟨by decide +kernel, channel_reached ⟨?_, ?_⟩ ?_ ?_ ?_ ?_ ?_ hsteady 0 ?_⟩
  case refine_1 =>
    intro n _ hfailed
    rw [disk_reached] at hfailed
    cases hfailed
  case refine_2 =>
    change ∀ w ∈ AdvancedRecorderImpl.writers _, ∀ v ∈ w.file.writes, v.Complete
    decide +kernel
  case refine_3 => decide +kernel
  case refine_4 =>
    simp only [before, events, packet, List.cons_append, List.nil_append, List.forall_mem_cons,
      wellFormed_samplePacket, List.not_mem_nil, false_implies, implies_true, and_true, true_and]
    exact ⟨trivial, trivial, trivial, trivial⟩
  case refine_5 => decide +kernel
  case refine_6 => decide +kernel
  case refine_7 => simp [events, Event.Spares]
  case refine_8 => decide +kernel

end AdvancedRecorder.AdvancedRecorderImpl
