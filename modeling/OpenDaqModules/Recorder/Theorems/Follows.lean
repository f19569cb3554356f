import OpenDaqModules.Recorder.Serving

namespace AdvancedRecorder.AdvancedRecorderImpl

open Sie EStateM

-- The signal that is connected to a port.
def connectedSignal (r : AdvancedRecorderImpl) (port : ℕ) : Option Signal :=
  (r.connection port).map Connection.signal

-- The signals are a map, and the ports are objects.
structure Distinct (r : AdvancedRecorderImpl) : Prop where
  ports   : (r.ports.map InputPort.id).Nodup
  signals : (r.signals.map Prod.fst).Nodup

-- What a reconfiguration should make of the signals of a state, if the ports were connected to the
-- `earlier` signals in the reconfiguration before it.
@[mk_iff]
structure Follows (earlier : ℕ → Option Signal) (r r' : AdvancedRecorderImpl) : Prop where
  unique : (r'.signals.map Prod.fst).Nodup
  keys   : ∀ port, (r'.signals.lookup port).isSome ↔ (r.connectedSignal port).isSome
  holds  : ∀ port s, r'.signals.lookup port = some s → r.connectedSignal port = some s.signal
  kept   : ∀ port s, r.signals.lookup port = some s → (r.connectedSignal port).isSome →
    r.connectedSignal port = earlier port → r'.signals.lookup port = some s

-- No port with a signal is connected to another one.
def Unswapped (r : AdvancedRecorderImpl) : Prop :=
  ∀ port s signal, r.signals.lookup port = some s → r.connectedSignal port = some signal →
    s.signal = signal

section Lookup

variable {signals : List (ℕ × AdvancedRecorderSignal)} {port : InputPort} {ports : List InputPort}
  {s : AdvancedRecorderSignal} {r r' : AdvancedRecorderImpl} {p i : ℕ}

theorem lookup_emplaceSignal_of_none (h : signals.lookup p = none) :
    (emplaceSignal i signals port).lookup p =
      if port.id = p then port.connection.map fun c => AdvancedRecorderSignal.create c.signal i 0
      else none := by
  rw [emplaceSignal]
  cases port.connection
  case none   => simp [h]
  case some c =>
    by_cases hid : port.id = p
    case pos => simp [hid, h, List.lookup_append, AdvancedRecorderSignal.create]
    case neg =>
      have hne : p ≠ port.id := Ne.symm hid
      dsimp only
      split <;> simp [h, hne, List.lookup_append]

theorem lookup_foldl_emplaceSignal_of_not_mem (h : signals.lookup p = none)
    (hp : p ∉ ports.map InputPort.id) : (ports.foldl (emplaceSignal i) signals).lookup p = none := by
  induction ports generalizing signals
  case nil                => exact h
  case cons port ports ih =>
    rw [List.map_cons, List.mem_cons, not_or] at hp
    refine ih ?_ hp.right
    rw [lookup_emplaceSignal_of_none h, if_neg (Ne.symm hp.left)]

-- The first pass makes a signal for every port that is connected and has none.
theorem lookup_foldl_emplaceSignal_of_none (h : signals.lookup p = none)
    (hports : (ports.map InputPort.id).Nodup) :
    (ports.foldl (emplaceSignal i) signals).lookup p =
      ((ports.find? (·.id = p)).bind InputPort.connection).map fun c =>
        AdvancedRecorderSignal.create c.signal i 0 := by
  induction ports generalizing signals
  case nil => exact h
  case cons port ports ih =>
    rw [List.map_cons, List.nodup_cons] at hports
    have hfirst : (emplaceSignal i signals port).lookup p = _ := lookup_emplaceSignal_of_none h
    rw [List.foldl_cons]
    by_cases hid : port.id = p
    case neg =>
      rw [if_neg hid] at hfirst
      rw [ih hfirst hports.right, List.find?_cons_of_neg (by simpa using hid)]
    case pos =>
      rw [if_pos hid] at hfirst
      rw [List.find?_cons_of_pos (by simpa using hid), Option.bind_some]
      cases hconnection : port.connection
      case some c =>
        rw [hconnection] at hfirst
        exact lookup_foldl_emplaceSignal_of_some hfirst
      case none =>
        rw [hconnection] at hfirst
        exact lookup_foldl_emplaceSignal_of_not_mem hfirst (hid ▸ hports.left)

theorem nodup_emplaceSignal (h : (signals.map Prod.fst).Nodup) :
    ((emplaceSignal i signals port).map Prod.fst).Nodup := by
  obtain hsame | ⟨signal, hnone, hmore⟩ := emplaceSignal_cases i signals port
  case inl => rwa [hsame]
  case inr =>
    rw [hmore, List.map_append, List.nodup_append]
    refine ⟨h, by simp, fun a ha b hb hab => ?_⟩
    obtain ⟨x, hx, rfl⟩ := List.mem_map.mp ha
    cases List.mem_singleton.mp hb
    have hsome : (signals.lookup port.id).isSome :=
      List.lookup_isSome_iff.mpr ⟨x, hx, beq_iff_eq.mpr hab.symm⟩
    simp [hnone] at hsome

theorem nodup_foldl_emplaceSignal (h : (signals.map Prod.fst).Nodup) :
    ((ports.foldl (emplaceSignal i) signals).map Prod.fst).Nodup := by
  induction ports generalizing signals
  case nil                => exact h
  case cons port ports ih => exact ih (nodup_emplaceSignal h)

theorem lookup_filter_of_not_mem {keys : List ℕ} (hp : p ∉ keys) :
    (signals.filter (·.1 ∈ keys)).lookup p = none := by
  rw [List.lookup_eq_none_iff]
  intro x hx
  have hkey : x.1 ∈ keys := by simpa using (List.mem_filter.mp hx).right
  have hne : p ≠ x.1 := fun heq => hp (heq ▸ hkey)
  simpa using hne

theorem mem_connectedPorts (hports : (r.ports.map InputPort.id).Nodup) :
    p ∈ r.connectedPorts ↔ (r.connectedSignal p).isSome := by
  rw [connectedSignal, Option.isSome_map]
  constructor
  case mp =>
    intro hp
    obtain ⟨port, hport, rfl⟩ := List.mem_map.mp hp
    obtain ⟨hport, hconnection⟩ := List.mem_filter.mp hport
    rw [connection_of_mem hports hport]
    exact hconnection
  case mpr =>
    intro hp
    obtain ⟨port, hport, hid, hconnection⟩ := exists_port_of_connection hp
    exact List.mem_map.mpr ⟨port, List.mem_filter.mpr ⟨hport, hconnection⟩, hid⟩

variable (h : Distinct r)

include h

theorem lookup_updateSignals_of_not_connected (hp : r.connectedSignal p = none) :
    (r.updateSignals i).signals.lookup p = none := by
  apply lookup_filter_of_not_mem
  intro hmem
  have hsome := (mem_connectedPorts h.ports).mp hmem
  rw [hp] at hsome
  exact Bool.false_ne_true hsome

-- The object that a connected port has is kept.
theorem lookup_updateSignals_of_some (hs : r.signals.lookup p = some s)
    (hp : (r.connectedSignal p).isSome) : (r.updateSignals i).signals.lookup p = some s := by
  rw [updateSignals, lookup_filter ((mem_connectedPorts h.ports).mpr hp)]
  exact lookup_foldl_emplaceSignal_of_some hs

theorem lookup_updateSignals_of_none (hs : r.signals.lookup p = none)
    (hp : r.connectedSignal p = some signal) :
    (r.updateSignals i).signals.lookup p = some (AdvancedRecorderSignal.create signal i 0) := by
  have hsome : (r.connectedSignal p).isSome := hp ▸ rfl
  obtain ⟨c, hc, rfl⟩ := Option.map_eq_some_iff.mp hp
  rw [updateSignals, lookup_filter ((mem_connectedPorts h.ports).mpr hsome),
    lookup_foldl_emplaceSignal_of_none hs h.ports]
  rw [connection] at hc
  rw [hc, Option.map_some]

theorem nodup_updateSignals : ((r.updateSignals i).signals.map Prod.fst).Nodup :=
  (nodup_foldl_emplaceSignal h.signals).sublist (List.filter_sublist.map Prod.fst)

-- A port keeps its object even if it is connected to another signal by now.
theorem follows_updateSignals_iff {earlier : ℕ → Option Signal} :
    Follows earlier r (r.updateSignals i) ↔ Unswapped r := by
  constructor
  case mp =>
    intro hfollows port s signal hs hsignal
    have hlookup := lookup_updateSignals_of_some (i := i) h hs (hsignal ▸ rfl)
    exact Option.some.inj ((hfollows.holds port s hlookup).symm.trans hsignal)
  case mpr =>
    intro hunswapped
    constructor
    case unique => exact nodup_updateSignals h
    case kept   => exact fun port s hs hp _ => lookup_updateSignals_of_some h hs hp
    case keys   =>
      intro port
      cases hsignal : r.connectedSignal port
      case none => simp [lookup_updateSignals_of_not_connected h hsignal]
      case some signal =>
        cases hs : r.signals.lookup port
        case none   => simp [lookup_updateSignals_of_none h hs hsignal]
        case some s => simp [lookup_updateSignals_of_some h hs (hsignal ▸ rfl)]
    case holds  =>
      intro port s hs'
      cases hsignal : r.connectedSignal port
      case none =>
        rw [lookup_updateSignals_of_not_connected h hsignal] at hs'
        exact absurd hs' (by simp)
      case some signal =>
        cases hs : r.signals.lookup port
        case none =>
          rw [lookup_updateSignals_of_none h hs hsignal] at hs'
          cases hs'
          rfl
        case some s₀ =>
          rw [lookup_updateSignals_of_some h hs (hsignal ▸ rfl)] at hs'
          cases hs'
          rw [hunswapped port s signal hs hsignal]

end Lookup

section

variable {r r' : AdvancedRecorderImpl} {e : Event} {disk : ℕ → OpenOutcome} {events : List Event}
  [Crc32]

-- A reconfiguration that returns has a file, and then updates the signals of the same ports.
theorem updated_of_returns (hrec : r.recordingActive = true) (hrun : reconfigure.run r = .ok () r') :
    ∃ (i : ℕ) (r₁ : AdvancedRecorderImpl),
      r' = r₁.updateSignals i ∧ r₁.ports = r.ports ∧ r₁.signals = r.signals := by
  have hopened : reconfigure.run r = (do modify (updateSignals (← openedWriter r.filename))).run r := by
    simp [reconfigure, hrec]
  rw [hopened, run_bind] at hrun
  cases hwriter : r.writer
  case some i =>
    have hkept : (openedWriter r.filename).run r = .ok i r := by simp [openedWriter, hwriter]
    rw [hkept] at hrun
    cases hrun
    exact ⟨i, r, rfl, rfl, rfl⟩
  case none =>
    cases hdisk : r.disk r.attempts.length
    case failed =>
      have hfailed : (openedWriter r.filename).run r = .error (.system "failed to open file")
          { r with attempts := r.attempts ++ [r.filename] } := by
        simp [openedWriter, hwriter, openWriter_run, hdisk]
      rw [hfailed] at hrun
      cases hrun
    case opened schedule uuids =>
      rw [openedWriter_run hwriter hdisk] at hrun
      cases hw : (Writer.writeMetadata preamble).run (newWriter schedule uuids)
      case ok _ w =>
        rw [hw] at hrun
        cases hrun
        exact ⟨_, publish w r, rfl, rfl, rfl⟩
      case error e w =>
        rw [hw] at hrun
        cases hrun

-- The signals follow the connections if and only if no port was connected to another signal while
-- it had one.
theorem reconfigure_follows_iff {earlier : ℕ → Option Signal} (h : Distinct r)
    (hrec : r.recordingActive = true) (hrun : reconfigure.run r = .ok () r') :
    Follows earlier r r' ↔ Unswapped r := by
  obtain ⟨i, r₁, rfl, hports, hsignals⟩ := updated_of_returns hrec hrun
  have hconnected : ∀ port, r₁.connectedSignal port = r.connectedSignal port := by
    intro port
    rw [connectedSignal, connection, hports]
    rfl
  have hdistinct : Distinct r₁ := ⟨hports ▸ h.ports, hsignals ▸ h.signals⟩
  have hsame : Follows earlier r (r₁.updateSignals i) ↔ Follows earlier r₁ (r₁.updateSignals i) := by
    simp only [follows_iff, hconnected, hsignals]
  have hunswapped : Unswapped r ↔ Unswapped r₁ := by simp only [Unswapped, hconnected, hsignals]
  rw [hsame, hunswapped]
  exact follows_updateSignals_iff hdistinct

theorem Reconfigured.distinct (h : Reconfigured r r') (hr : Distinct r) : Distinct r' := by
  cases h
  case kept             => exact ⟨hr.ports, nodup_updateSignals hr⟩
  case failed           => exact ⟨hr.ports, hr.signals⟩
  case opened w _ _ _ _ =>
    have hpublish : Distinct (r.publish w) := ⟨hr.ports, hr.signals⟩
    exact ⟨hr.ports, nodup_updateSignals hpublish⟩
  case published        => exact ⟨hr.ports, hr.signals⟩
  case closed           => exact ⟨hr.ports, List.nodup_nil⟩

variable [Host]

theorem Transition.distinct (h : Transition r e r') (hr : Distinct r) (horderly : r.Orderly) :
    Distinct r' := by
  cases h
  case reconfigured r₁ hprep h =>
    exact h.distinct ⟨(hprep.orderly horderly).ids, hprep.unchanged.signals ▸ hr.signals⟩
  case activated => exact ⟨hr.ports, hr.signals⟩
  case ignored   => exact hr
  case packet port signal packet hconnection =>
    cases onSignal_cases port (AdvancedRecorderSignal.onPacketReceived packet) r
    case inr hcase =>
      rw [hcase.right]
      exact hr
    case inl hcase =>
      obtain ⟨s, w, _, _, hstate⟩ := hcase
      rw [hstate]
      refine ⟨hr.ports, ?_⟩
      have hkeys : Prod.fst ∘ (fun y => if y.1 = port then (port,
          ((AdvancedRecorderSignal.onPacketReceived packet).run (s, w)).state.1) else y) =
            (Prod.fst : ℕ × AdvancedRecorderSignal → ℕ) := by
        funext y
        by_cases hy : y.1 = port <;> simp [hy]
      rw [withSignal, List.map_map, hkeys]
      exact hr.signals

-- The map and the ports are what they should be in all states of all runs.
theorem distinct_reached : Distinct (reached disk events) := by
  induction events using List.reverseRecOn
  case nil =>
    rw [reached, Exec.run_nil, create_eq]
    exact ⟨List.nodup_singleton _, List.nodup_nil⟩
  case append_singleton events e ih => exact transition_reached.distinct ih orderly_reached

end

-- A second signal has been connected since the recording started.
theorem reconfigure_follows_iff_second_signal :
    let _ := Crc32.ieee
    let _ := Host.exact
    let a : Signal := { globalId := str "/a", description := [] }
    let b : Signal := { globalId := str "/b", description := [] }
    let disk : ℕ → OpenOutcome := fun _ => .opened [] fun _ => []
    let earlier : ℕ → Option Signal := fun port => if port = 0 then some a else none
    let r := reached disk [.connect 0 a, .startRecording, .connect 1 b]
    r.recordingActive = true ∧ (reconfigure.run r).Returns ∧
      (Follows earlier r (reconfigure.run r).state ↔ Unswapped r) := by
  intro _ _ a b disk earlier r
  have hrec : r.recordingActive = true := by decide +kernel
  have hreturns : (reconfigure.run r).Returns := by decide +kernel
  obtain ⟨_, hrun⟩ := Result.returns_iff.mp hreturns
  exact ⟨hrec, hreturns, reconfigure_follows_iff distinct_reached hrec hrun⟩

-- The first port was connected to `a` when the recording started, and it is connected to `b` when
-- it gets reconfigured.
theorem not_follows_swapped :
    let _ := Crc32.ieee
    let _ := Host.exact
    let a : Signal := { globalId := str "/a", description := [] }
    let b : Signal := { globalId := str "/b", description := [] }
    let disk : ℕ → OpenOutcome := fun _ => .opened [] fun _ => []
    let earlier : ℕ → Option Signal := fun port => if port = 0 then some a else none
    let r := ((reached disk [.connect 0 a, .startRecording]).setConnection 0 (some { signal := b })).portAdded
    r.recordingActive = true ∧ (reconfigure.run r).Returns ∧
      ¬Follows earlier r (reconfigure.run r).state := by
  intro _ _ a b disk earlier r
  refine ⟨by decide +kernel, by decide +kernel, fun hfollows => ?_⟩
  have hsignal : ((reconfigure.run r).state.signals.lookup 0).map AdvancedRecorderSignal.signal =
      some a := by decide +kernel
  have hconnected : r.connectedSignal 0 = some b := by decide +kernel
  obtain ⟨s, hs, hsignal⟩ := Option.map_eq_some_iff.mp hsignal
  have hholds := hfollows.holds 0 s hs
  rw [hconnected, hsignal] at hholds
  exact absurd hholds (by decide)

end AdvancedRecorder.AdvancedRecorderImpl
