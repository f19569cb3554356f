import OpenDaqModules.Recorder.Ahead

namespace AdvancedRecorder.Threaded

open AdvancedRecorderImpl Sie EStateM

variable [Crc32] [Host] {disk : ℕ → OpenOutcome} {before since : List Event} {r : AdvancedRecorderImpl}
  {c : Call} {e : Event} {t : Threaded} {h : History}

-- What is yet to be done with the packet of a call.
def awaited (packet : Option Packet) : AdvancedRecorderSignal × Writer → AdvancedRecorderSignal × Writer :=
  match packet with
  | none        => id
  | some packet => received packet

-- While a call is going on, two things can become of its packet until the packet is taken.
inductive Explained (disk : ℕ → OpenOutcome) : Threaded → History → Prop
  | idle {before : List Event} : Explained disk { impl := reached disk before } { before }
  | entered {before : List Event} {c : Call} (hphase : c.phase = .entered) (hheld : c.held = none)
    (hconnected : c.packet.isSome → ((reached disk before).connection c.port).isSome) :
    Explained disk { impl := reached disk before, call := some c } { before }
  | found {before since : List Event} {r : AdvancedRecorderImpl} {c : Call} (hphase : c.phase = .found)
    (hlost : Ahead id c.port r c.held (reached disk (before ++ since)))
    (htaken : ∀ packet ∈ c.packet, Ahead (received packet) c.port r c.held
      (reached disk (before ++ [.packet c.port packet] ++ since))) :
    Explained disk { impl := r, call := some c } { before, since }
  | dequeued {before since : List Event} {r : AdvancedRecorderImpl} {c : Call}
    (hphase : c.phase = .dequeued)
    (hahead : Ahead (awaited c.packet) c.port r c.held (reached disk (before ++ since))) :
    Explained disk { impl := r, call := some c } { before, since }

theorem orderly_of_ahead {f : AdvancedRecorderSignal × Writer → AdvancedRecorderSignal × Writer}
    {port : ℕ} {held : Option Held} {events : List Event}
    (h : Ahead f port r held (reached disk events)) : r.Orderly := by
  have horderly : (reached disk events).Orderly := orderly_reached
  rw [h.frame] at horderly
  exact ⟨horderly.names, horderly.ids, horderly.fresh, horderly.drained⟩

-- What users do while a call is going on.
theorem ahead_control {f : AdvancedRecorderSignal × Writer → AdvancedRecorderSignal × Writer}
    {events : List Event} (h : Ahead f c.port r c.held (reached disk events))
    (he : ∀ port packet, e ≠ .packet port packet)
    (hr' : ((AdvancedRecorderImpl.control (reconfigureShared (c.writer r)) e).run r).state = r') :
    Ahead f c.port r' (c.overtaken e r r').held (reached disk (events ++ [e])) := by
  rw [reached_concat]
  exact h.control (orderly_of_ahead h) he rfl hr'

omit [Crc32] [Host] in
theorem spares_of_not_severed (h : ¬c.Severed e) : e.Spares c.port := by
  cases e
  case connect    => exact h
  case disconnect => exact h
  all_goals trivial

omit [Crc32] [Host] in
theorem packet_overtaken {packet : Packet} {r' : AdvancedRecorderImpl} (hphase : c.phase ≠ .dequeued)
    (h : packet ∈ (c.overtaken e r r').packet) : packet ∈ c.packet ∧ e.Spares c.port := by
  have hpacket : (c.overtaken e r r').packet = if c.Severed e then none else c.packet := by
    rw [Call.overtaken]
    cases hc : c.phase
    case dequeued => exact absurd hc hphase
    all_goals rfl
  rw [hpacket] at h
  split at h
  case isTrue              => cases h
  case isFalse hnotSevered => exact ⟨h, spares_of_not_severed hnotSevered⟩

theorem control_reached_none (he : ∀ port packet, e ≠ .packet port packet) :
    ((AdvancedRecorderImpl.control (reconfigureShared none) e).run (reached disk before)).state =
      reached disk (before ++ [e]) := by
  rw [reconfigureShared_none, control_reconfigure he, reached_concat]

theorem Explained.control (hexplained : Explained disk t h) (he : ∀ port packet, e ≠ .packet port packet) :
    Explained disk (t.control e) (h.happened e t.call) := by
  cases hexplained
  case idle before =>
    have hstate : _ = reached disk (before ++ [e]) := control_reached_none he
    rw [Threaded.control]
    simp only [Option.bind_none, Option.map_none, hstate]
    exact .idle
  case entered before c hphase hheld hconnected =>
    have hhistory : History.happened e (some c) { before } = { before := before ++ [e] } := by
      rw [History.happened, Option.map_some, hphase]
    have hwriter : c.writer (reached disk before) = none := by
      rw [Call.writer, hheld]
      rfl
    have hstate : _ = reached disk (before ++ [e]) := control_reached_none he
    rw [hhistory, Threaded.control]
    simp only [Option.bind_some, Option.map_some, hwriter, hstate]
    refine .entered hphase (by rw [Call.overtaken, hheld]; rfl) fun hpacket => ?_
    obtain ⟨packet, hpacket⟩ := Option.isSome_iff_exists.mp hpacket
    obtain ⟨hpacket, hspares⟩ := packet_overtaken (by rw [hphase]; exact Phase.noConfusion) hpacket
    have hbefore := hconnected (Option.isSome_iff_exists.mpr ⟨packet, hpacket⟩)
    have hconnection : (reached disk (before ++ [e])).connection c.port = _ :=
      transition_reached.connection_eq hspares
    exact hconnection ▸ hbefore
  case found before since r c hphase hlost htaken =>
    have hhistory : History.happened e (some c) { before, since } = { before, since := since ++ [e] } := by
      rw [History.happened, Option.map_some, hphase]
    rw [hhistory]
    refine .found hphase ?_ fun packet hpacket => ?_
    · rw [← List.append_assoc]
      exact ahead_control hlost he rfl
    · obtain ⟨hpacket, _⟩ := packet_overtaken (by rw [hphase]; exact Phase.noConfusion) hpacket
      rw [← List.append_assoc]
      exact ahead_control (htaken packet hpacket) he rfl
  case dequeued before since r c hphase hahead =>
    have hhistory : History.happened e (some c) { before, since } = { before, since := since ++ [e] } := by
      rw [History.happened, Option.map_some, hphase]
    have hpacket : ∀ r', (c.overtaken e r r').packet = c.packet := by
      intro r'
      rw [Call.overtaken, hphase]
    rw [hhistory]
    refine .dequeued hphase ?_
    rw [← List.append_assoc, hpacket]
    exact ahead_control hahead he rfl

theorem Explained.proceed (hexplained : Explained disk { impl := r, call := some c } h) :
    Explained disk (Threaded.proceed c r) (h.proceeded c) := by
  cases hexplained
  case entered before hphase hheld hconnected =>
    have hhistory : History.proceeded c { before } = { before } := by
      rw [History.proceeded, hphase]
    rw [hhistory, Threaded.proceed, hphase]
    refine .found rfl ?_ fun packet hpacket => ?_
    · rw [List.append_nil]
      exact ahead_found_lost distinct_reached linked_reached
    · have hconnection := hconnected (Option.isSome_iff_exists.mpr ⟨packet, hpacket⟩)
      rw [List.append_nil, reached_concat]
      exact ahead_found orderly_reached linked_reached hconnection
  case found before since hphase hlost htaken =>
    rw [Threaded.proceed, hphase]
    cases hpacket : c.packet
    case none =>
      have hhistory : History.proceeded c { before, since } = { before, since } := by
        rw [History.proceeded, hphase, hpacket]
      rw [hhistory]
      refine .dequeued rfl ?_
      exact hlost
    case some packet =>
      have hhistory : History.proceeded c { before, since } =
          { before := before ++ [.packet c.port packet], since } := by
        rw [History.proceeded, hphase, hpacket]
      rw [hhistory]
      refine .dequeued rfl ?_
      exact htaken packet hpacket
  case dequeued before since hphase hahead =>
    rw [Threaded.proceed, hphase]
    cases hpacket : c.packet
    case none =>
      have hhistory : History.proceeded c { before, since } = { before := before ++ since } := by
        rw [History.proceeded, hphase, hpacket]
      rw [hpacket] at hahead
      have hidle : ∀ r', r' = reached disk (before ++ since) →
          Explained disk { impl := r' } { before := before ++ since } := by
        rintro _ rfl
        exact .idle
      obtain ⟨halone, hother⟩ := hahead.released distinct_reached linked_reached
      rw [hhistory]
      cases hheld : c.held
      case none      => exact hidle r (hother (by simp [hheld]))
      case some held =>
        cases held
        case shared  => exact hidle r (hother (by simp [hheld]))
        case alone s => exact hidle _ (halone s hheld)
    case some packet =>
      have hhistory : History.proceeded c { before, since } = { before, since } := by
        rw [History.proceeded, hphase, hpacket]
      rw [hpacket] at hahead
      obtain ⟨r', held, hdeliver, hahead⟩ := Ahead.delivered hahead
      rw [hhistory]
      dsimp only
      rw [hdeliver]
      exact .dequeued hphase hahead

theorem Explained.step (hexplained : Explained disk t h) (a : Action) :
    Explained disk (step a t) (h.add a t) := by
  cases a
  case proceed =>
    obtain ⟨r, call⟩ := t
    cases call
    case none   => exact hexplained
    case some c => exact hexplained.proceed
  case event e =>
    cases e
    case packet port packet =>
      cases hexplained
      case idle before =>
        simp only [step]
        split
        case isTrue hconnected => exact .entered rfl rfl fun _ => hconnected
        case isFalse           => exact .idle
      case entered hphase hheld hconnected => exact .entered hphase hheld hconnected
      case found hphase hlost htaken       => exact .found hphase hlost htaken
      case dequeued hphase hahead          => exact .dequeued hphase hahead
    all_goals exact hexplained.control fun _ _ h => nomatch h

section Order

variable {actions : List Action} {a : Action}

omit [Crc32] [Host] in
theorem observed_concat [Crc32] [Host] : observed disk (actions ++ [a]) =
    (Threaded.step a (observed disk actions).1, (observed disk actions).2.add a (observed disk actions).1) := by
  rw [observed, List.foldl_append]
  rfl

theorem explained_observed : Explained disk (observed disk actions).1 (observed disk actions).2 := by
  induction actions using List.reverseRecOn
  case nil                            =>
    have hidle : Explained disk { impl := reached disk [] } { before := [] } := .idle
    exact hidle
  case append_singleton actions a ih =>
    rw [observed_concat]
    exact ih.step a

-- Nothing of what users do is lost or changes places.
structure Ordered (t : Threaded) (h : History) (events : List Event) : Prop where
  controls : (h.before ++ h.since).filter (!·.isPacket) = events.filter (!·.isPacket)
  since    : h.since.filter (·.isPacket) = []
  packets  : List.Sublist (h.before.filter (·.isPacket) ++ t.waiting) (events.filter (·.isPacket))

omit [Crc32] [Host] in
theorem filter_isPacket_of_ne (he : ∀ port packet, e ≠ .packet port packet) :
    [e].filter (·.isPacket) = [] ∧ [e].filter (!·.isPacket) = [e] := by
  cases e
  case packet port packet => exact absurd rfl (he port packet)
  all_goals exact ⟨rfl, rfl⟩

omit [Host] in
-- A packet may get lost while it waits, but no other takes its place.
theorem waiting_control : List.Sublist (t.control e).waiting t.waiting := by
  obtain ⟨r, call⟩ := t
  cases call
  case none   => exact List.Sublist.refl _
  case some c =>
    rw [Threaded.control]
    simp only [waiting, Option.map_some, Call.overtaken]
    cases c.phase
    case dequeued => exact List.Sublist.refl _
    all_goals
      dsimp only
      split
      case isTrue  => exact List.nil_sublist _
      case isFalse => exact List.Sublist.refl _

theorem Ordered.control {events : List Event} (hordered : Ordered t h events)
    (hexplained : Explained disk t h) (he : ∀ port packet, e ≠ .packet port packet) :
    Ordered (t.control e) (h.happened e t.call) (events ++ [e]) := by
  obtain ⟨hpacket, hcontrol⟩ := filter_isPacket_of_ne he
  have hpackets : List.Sublist (h.before.filter (·.isPacket) ++ (t.control e).waiting)
      ((events ++ [e]).filter (·.isPacket)) := by
    rw [List.filter_append, hpacket, List.append_nil]
    exact (waiting_control.append_left _).trans hordered.packets
  obtain hhistory | ⟨hsince, hhistory⟩ : h.happened e t.call = { h with since := h.since ++ [e] } ∨
      h.since = [] ∧ h.happened e t.call = { h with before := h.before ++ [e] } := by
    cases hexplained
    case idle                     => exact .inr ⟨rfl, rfl⟩
    case entered hphase _ _       => exact .inr ⟨rfl, by rw [History.happened, Option.map_some, hphase]⟩
    case found hphase _ _         => exact .inl (by rw [History.happened, Option.map_some, hphase])
    case dequeued hphase _        => exact .inl (by rw [History.happened, Option.map_some, hphase])
  case inl =>
    rw [hhistory]
    refine ⟨?_, ?_, hpackets⟩
    · rw [← List.append_assoc, List.filter_append, hordered.controls, List.filter_append]
    · rw [List.filter_append, hpacket, hordered.since, List.append_nil]
  case inr =>
    have hcontrols := hordered.controls
    rw [hsince, List.append_nil] at hcontrols
    rw [hhistory]
    refine ⟨?_, hordered.since, ?_⟩
    · simp only [hsince, List.append_nil, List.filter_append, hcontrols]
    · rw [List.filter_append, hpacket, List.append_nil]
      exact hpackets

theorem waiting_deliver {packet : Packet} (hphase : c.phase = .dequeued) :
    (deliver packet c r).waiting = [] := by
  obtain ⟨port, _, phase, held⟩ := c
  obtain rfl : phase = .dequeued := hphase
  cases held
  case none      => rfl
  case some held =>
    cases held
    case shared  => rfl
    case alone s =>
      simp only [deliver]
      split <;> rfl

-- The call has its packet by then, or it has recorded the packet.
theorem waiting_proceed (hphase : c.phase = .dequeued) : (proceed c r).waiting = [] := by
  rw [Threaded.proceed, hphase]
  cases c.packet
  case some packet => exact waiting_deliver hphase
  case none        =>
    dsimp only
    split <;> rfl

theorem Ordered.proceed {events : List Event} (hordered : Ordered { impl := r, call := some c } h events) :
    Ordered (proceed c r) (h.proceeded c) events := by
  obtain ⟨hcontrols, hsince, hpackets⟩ := hordered
  rw [History.proceeded]
  simp only [waiting] at hpackets
  cases hphase : c.phase
  case entered =>
    rw [hphase] at hpackets
    rw [Threaded.proceed, hphase]
    exact ⟨hcontrols, hsince, hpackets⟩
  case found =>
    rw [hphase] at hpackets
    rw [Threaded.proceed, hphase]
    cases hpacket : c.packet
    case none =>
      rw [hpacket] at hpackets
      exact ⟨hcontrols, hsince, hpackets⟩
    case some packet =>
      rw [hpacket] at hpackets
      refine ⟨?_, hsince, ?_⟩
      · simpa [Event.isPacket] using hcontrols
      · simpa [waiting, Event.isPacket] using hpackets
  case dequeued =>
    rw [hphase, List.append_nil] at hpackets
    have hwaiting : (Threaded.proceed c r).waiting = [] := waiting_proceed hphase
    cases c.packet
    case none =>
      refine ⟨?_, rfl, ?_⟩
      · simpa using hcontrols
      · simpa [hwaiting, hsince] using hpackets
    case some packet =>
      refine ⟨hcontrols, hsince, ?_⟩
      simpa [hwaiting] using hpackets

theorem Ordered.step {events : List Event} (hordered : Ordered t h events)
    (hexplained : Explained disk t h) (a : Action) :
    Ordered (step a t) (h.add a t) (events ++ a.event?.toList) := by
  cases a
  case proceed =>
    obtain ⟨r, call⟩ := t
    simp only [Action.event?, Option.toList_none, List.append_nil]
    cases call
    case none   => exact hordered
    case some c => exact hordered.proceed
  case event e =>
    cases e
    case packet port packet =>
      obtain ⟨r, call⟩ := t
      obtain ⟨hcontrols, hsince, hpackets⟩ := hordered
      have hcontrols' : (h.before ++ h.since).filter (!·.isPacket) =
          (events ++ [Event.packet port packet]).filter (!·.isPacket) := by
        rw [List.filter_append events, hcontrols]
        simp [Event.isPacket]
      have hsame : List.Sublist (events.filter (·.isPacket))
          ((events ++ [Event.packet port packet]).filter (·.isPacket)) :=
        (List.sublist_append_left _ _).filter _
      cases call
      case some c => exact ⟨hcontrols', hsince, hpackets.trans hsame⟩
      case none   =>
        simp only [step]
        split
        case isFalse => exact ⟨hcontrols', hsince, hpackets.trans hsame⟩
        case isTrue  =>
          refine ⟨hcontrols', hsince, ?_⟩
          rw [waiting, List.append_nil] at hpackets
          rw [List.filter_append]
          exact hpackets.append (List.Sublist.refl _)
    all_goals exact hordered.control hexplained fun _ _ h => nomatch h

theorem ordered_observed :
    Ordered (observed disk actions).1 (observed disk actions).2 (actions.filterMap Action.event?) := by
  induction actions using List.reverseRecOn
  case nil                            =>
    have hempty : Ordered { impl := create disk } {} [] := ⟨rfl, rfl, List.Sublist.refl _⟩
    exact hempty
  case append_singleton actions a ih =>
    rw [observed_concat, List.filterMap_append]
    have hstep := ih.step explained_observed a
    cases a <;> exact hstep

end Order

section Progress

variable {actions : List Action}

def Action.isProceed : Action → Bool
  | .proceed => true
  | .event _ => false

-- The steps that a call has ahead of itself.
def remaining (t : Threaded) : ℕ :=
  match t.call with
  | none   => 0
  | some c =>
    match c.phase, c.packet with
    | .entered, _       => 4
    | .found, _         => 3
    | .dequeued, some _ => 2
    | .dequeued, none   => 1

omit [Crc32] [Host] in
theorem remaining_pos (hcall : t.call = some c) : 0 < t.remaining := by
  rw [remaining, hcall]
  dsimp only
  split <;> exact Nat.succ_pos _

-- Users do not hold up a call.
theorem remaining_event (hcall : t.call = some c) : (step (.event e) t).remaining = t.remaining := by
  obtain ⟨r, call⟩ := t
  obtain rfl : call = some c := hcall
  have hcontrol : (Threaded.control e { impl := r, call := some c }).remaining =
      remaining { impl := r, call := some c } := by
    rw [Threaded.control]
    simp only [remaining, Option.map_some, Call.overtaken]
    cases c.phase <;> rfl
  cases e
  case packet => rfl
  all_goals exact hcontrol

theorem remaining_deliver {packet : Packet} (hphase : c.phase = .dequeued) :
    (deliver packet c r).remaining = 1 := by
  obtain ⟨port, _, phase, held⟩ := c
  obtain rfl : phase = .dequeued := hphase
  cases held
  case none      => rfl
  case some held =>
    cases held
    case shared  => rfl
    case alone s =>
      simp only [deliver]
      split <;> rfl

theorem remaining_proceed (hcall : t.call = some c) :
    (step .proceed t).remaining + 1 ≤ t.remaining := by
  obtain ⟨r, call⟩ := t
  obtain rfl : call = some c := hcall
  simp only [step, Threaded.proceed]
  cases hphase : c.phase
  case entered  => simp [remaining, hphase]
  case found    => cases hpacket : c.packet <;> simp [remaining, hphase, hpacket]
  case dequeued =>
    cases hpacket : c.packet
    case some packet =>
      have hbefore : remaining { impl := r, call := some c } = 2 := by
        simp only [remaining, hphase, hpacket]
      have hafter : (deliver packet c r).remaining = 1 := remaining_deliver hphase
      dsimp only
      rw [hbefore, hafter]
    case none        =>
      dsimp only
      split <;> simp [remaining, hphase, hpacket]

-- A call needs no more than its own steps to end, whatever users do meanwhile.
theorem exists_idle {more : List Action}
    (hmore : (observed disk actions).1.remaining ≤ (more.filter Action.isProceed).length) :
    ∃ part, part <+: more ∧ (observed disk (actions ++ part)).1.call = none := by
  induction more generalizing actions
  case nil =>
    refine ⟨[], List.prefix_rfl, ?_⟩
    rw [List.append_nil]
    cases hcall : (observed disk actions).1.call
    case none   => rfl
    case some c => exact absurd (remaining_pos hcall) (Nat.not_lt.mpr hmore)
  case cons a more ih =>
    cases hcall : (observed disk actions).1.call
    case none   => exact ⟨[], List.nil_prefix, by rw [List.append_nil, hcall]⟩
    case some c =>
      have hnext : (observed disk (actions ++ [a])).1.remaining ≤
          (more.filter Action.isProceed).length := by
        rw [observed_concat]
        cases a
        case event   => exact (remaining_event hcall).le.trans hmore
        case proceed => exact Nat.le_of_succ_le_succ ((remaining_proceed hcall).trans hmore)
      obtain ⟨part, hpart, hidle⟩ := ih hnext
      rw [List.append_assoc] at hidle
      exact ⟨a :: part, List.cons_prefix_cons.mpr ⟨rfl, hpart⟩, hidle⟩

end Progress

section Files

-- The names under which files were opened, in the order of their writers.
def filenames (r : AdvancedRecorderImpl) : List Bytes :=
  (r.attempts.zipIdx.filter fun x => (r.disk x.2).succeeds).map Prod.fst

def files (r : AdvancedRecorderImpl) : List (Bytes × File) :=
  (filenames r).zip (r.writers.map Writer.file)

-- Every writer has a name.
def Named (r : AdvancedRecorderImpl) : Prop :=
  (filenames r).length = r.writers.length

variable {r' : AdvancedRecorderImpl}

omit [Crc32] [Host] in
theorem filenames_attempted {name : Bytes} (hdisk : r'.disk = r.disk)
    (hattempts : r'.attempts = r.attempts ++ [name]) : filenames r' =
      filenames r ++ if (r.disk r.attempts.length).succeeds then [name] else [] := by
  rw [filenames, hdisk, hattempts, List.zipIdx_append, List.filter_append, List.map_append, filenames]
  cases h : (r.disk r.attempts.length).succeeds <;> simp [h]

omit [Crc32] [Host] in
theorem Named.of_eq (h : Named r) (hdisk : r'.disk = r.disk) (hattempts : r'.attempts = r.attempts)
    (hwriters : r'.writers.length = r.writers.length) : Named r' := by
  rw [Named, filenames, hdisk, hattempts, hwriters]
  exact h

omit [Crc32] [Host] in
theorem Named.publish {schedule : List Outcome} {uuids : ℕ → Bytes} (h : Named r)
    (hdisk : r.disk r.attempts.length = .opened schedule uuids) (w : Writer) : Named (r.publish w) := by
  have hnames : filenames (r.publish w) = filenames r ++
      if (r.disk r.attempts.length).succeeds then [r.filename] else [] := filenames_attempted rfl rfl
  rw [Named] at h ⊢
  rw [hnames, hdisk]
  simpa [OpenOutcome.succeeds, AdvancedRecorderImpl.publish] using h

omit [Host] in
theorem Named.reconfigured (h : Named r) (hreconf : Reconfigured r r') : Named r' := by
  cases hreconf
  case kept => exact h.of_eq rfl rfl rfl
  case failed hdisk =>
    have hnames : filenames { r with attempts := r.attempts ++ [r.filename] } = filenames r ++
        if (r.disk r.attempts.length).succeeds then [r.filename] else [] := filenames_attempted rfl rfl
    rw [Named] at h ⊢
    rw [hnames, hdisk]
    simpa [OpenOutcome.succeeds] using h
  case opened hdisk _    => exact (h.publish hdisk _).of_eq rfl rfl rfl
  case published hdisk _ => exact h.publish hdisk _
  case closed =>
    refine h.of_eq rfl rfl ?_
    rw [AdvancedRecorderImpl.closed]
    cases r.writer <;> simp

theorem Named.transition (h : Named r) (htransition : Transition r e r') : Named r' := by
  cases htransition
  case reconfigured hprep hreconf =>
    have hsame := hprep.unchanged
    exact (h.of_eq hsame.disk hsame.attempts (congrArg List.length hsame.writers)).reconfigured hreconf
  case activated => exact h.of_eq rfl rfl rfl
  case ignored   => exact h
  case packet port signal packet _ =>
    cases onSignal_cases port (AdvancedRecorderSignal.onPacketReceived packet) r
    case inr hcase => rwa [hcase.right]
    case inl hcase =>
      obtain ⟨s, w, _, _, hstate⟩ := hcase
      rw [hstate]
      exact h.of_eq rfl rfl List.length_set

theorem named_reached : Named (reached disk before) := by
  induction before using List.reverseRecOn
  case nil =>
    have hcreate : Named (create disk) := rfl
    exact hcreate
  case append_singleton events e ih => exact ih.transition transition_reached

omit [Crc32] [Host] in
-- Where no name was used twice, a name stands for one file.
theorem lookup_files (h : Named r) (hnodup : (filenames r).Nodup) {x : Bytes × File}
    (hx : x ∈ files r) : (files r).lookup x.1 = some x.2 := by
  have hkeys : (files r).map Prod.fst = filenames r :=
    List.map_fst_zip (by rw [List.length_map, h])
  obtain ⟨earlier, later, hfiles⟩ := List.append_of_mem hx
  rw [← hkeys, hfiles, List.map_append, List.map_cons, List.nodup_middle, List.nodup_cons] at hnodup
  rw [hfiles, List.lookup_eq_some_iff]
  refine ⟨earlier, later, rfl, fun y hy => ?_⟩
  refine bne_iff_ne.mpr fun hsame => hnodup.left ?_
  exact List.mem_append_left _ (hsame ▸ List.mem_map_of_mem hy)

end Files

-- Whatever users do while packets come in, the recorder and its files are what they are if nothing
-- happens at the same time: every packet is recorded where its call looked up the signal. A file is
-- found under its name.
structure Linearized (disk : ℕ → OpenOutcome) (actions : List Action) : Prop where
  state   : (observed disk actions).1.call = none →
    (observed disk actions).1.impl = reached disk (observed disk actions).2.before
  files   : (observed disk actions).1.call = none → Named (observed disk actions).1.impl ∧
    ∀ x ∈ files (observed disk actions).1.impl,
      (Threaded.files (reached disk (observed disk actions).2.before)).lookup x.1 = some x.2
  ordered : Ordered (observed disk actions).1 (observed disk actions).2
    (actions.filterMap Action.event?)
  ends    : ∀ more : List Action, 4 ≤ (more.filter Action.isProceed).length →
    ∃ part, part <+: more ∧ (observed disk (actions ++ part)).1.call = none

theorem impl_observed {actions : List Action} (hidle : (observed disk actions).1.call = none) :
    (observed disk actions).1.impl = reached disk (observed disk actions).2.before := by
  have hexplained : Explained disk (observed disk actions).1 (observed disk actions).2 :=
    explained_observed
  generalize observed disk actions = o at hexplained hidle ⊢
  obtain ⟨t, h⟩ := o
  cases hexplained
  case idle => rfl
  all_goals cases hidle

-- A file that is opened again under its name is emptied, whoever still writes to it.
theorem linearized {actions : List Action}
    (hnames : (filenames (observed disk actions).1.impl).Nodup) : Linearized disk actions where
  state := impl_observed
  files hidle := by
    have hnamed : Named (observed disk actions).1.impl := impl_observed hidle ▸ named_reached
    refine ⟨hnamed, fun x hx => ?_⟩
    rw [← impl_observed hidle]
    exact lookup_files hnamed hnames hx
  ordered := ordered_observed
  ends _ hmore := by
    refine exists_idle (le_trans ?_ hmore)
    rw [remaining]
    split
    case h_1 => exact Nat.zero_le _
    case h_2 => split <;> decide

omit [Crc32] [Host] in
-- One recording is stopped and another one started while a packet of the first one is on its way.
theorem linearized_next_recording :
    let _ := Crc32.ieee
    let _ := Host.exact
    let disk (_ : ℕ) : OpenOutcome := .opened [] fun _ => []
    let actions : List Action := [.event (.writeFilename (str "1.sie")),
      .event (.connect 0 { globalId := str "a", description := [] }), .event .startRecording,
      .event (.packet 0 (.data samplePacket)), .proceed, .proceed, .event .stopRecording,
      .event (.writeFilename (str "2.sie")), .event .startRecording, .proceed, .proceed]
    Linearized disk actions ∧
      (files (observed disk actions).1.impl).map (fun x => (x.1, x.2.blocks.map (·.2.group))) =
        [(str "1.sie", [groups.METADATA, groups.METADATA, 2, groups.INDEX]),
          (str "2.sie", [groups.METADATA])] := by
  intro _ _ disk actions
  exact ⟨linearized (by decide +kernel), by decide +kernel⟩

end AdvancedRecorder.Threaded
