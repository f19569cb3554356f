import OpenDaqModules.Recorder.Steps

namespace AdvancedRecorder.AdvancedRecorderImpl

open Sie EStateM

def LastFree (ports : List InputPort) : Prop :=
  ∀ p, ports.getLast? = some p → p.connection = none

structure PortList (r : AdvancedRecorderImpl) : Prop where
  length : r.ports.length = r.portCount
  pos    : 1 ≤ r.portCount
  name   : ∀ i p, r.ports[i]? = some p → p.name = portName (i + 1)
  unique : (r.ports.map InputPort.name).Nodup
  free   : LastFree r.ports

-- There is one port, or the second-to-last one is connected.
def OneFree (r : AdvancedRecorderImpl) : Prop :=
  r.portCount = 1 ∨ ∃ p, r.ports[r.portCount - 2]? = some p ∧ p.connection.isSome

variable {r r' : AdvancedRecorderImpl} {e : Event} {ps : List InputPort} {port : ℕ}

theorem Orderly.name_eq (h : r.Orderly) (hp : r.ports[i]? = some p) : p.name = portName (i + 1) := by
  have hi := (List.getElem?_eq_some_iff.mp hp).choose
  have hname : (r.ports.map InputPort.name)[i]? = some p.name := by simp [hp]
  rw [h.names] at hname
  rw [h.length] at hi
  simpa [hi, Nat.add_comm, eq_comm] using hname

theorem Orderly.unique (h : r.Orderly) : (r.ports.map InputPort.name).Nodup := by
  rw [h.names]
  have hnodup : (List.range' 1 r.portCount).Nodup := List.nodup_range'
  exact hnodup.map portName_injective

theorem getLast?_setConnection {connection : Option Connection} :
    (r.setConnection port connection).ports.getLast? =
      r.ports.getLast?.map fun p => if p.id = port then { p with connection } else p := by
  rw [setConnection, List.getLast?_map]

theorem LastFree.disconnected (h : LastFree r.ports) : LastFree (r.setConnection port none).ports := by
  intro p hp
  rw [getLast?_setConnection] at hp
  obtain ⟨q, hq, hpq⟩ := Option.map_eq_some_iff.mp hp
  split at hpq
  case isTrue  => exact hpq ▸ rfl
  case isFalse => exact hpq ▸ h q hq

theorem Trimmed.lastFree (h : Trimmed ps count) (hlast : LastFree ps) : LastFree (ps.take count) := by
  intro p hp
  by_cases hcount : count < ps.length
  case neg =>
    rw [List.take_of_length_le (Nat.le_of_not_lt hcount)] at hp
    exact hlast p hp
  case pos =>
    have hpos := h.pos (List.ne_nil_of_length_pos (Nat.zero_lt_of_lt hcount))
    have hlength : (ps.take count).length = count := List.length_take_of_le h.le
    rw [List.getLast?_eq_getElem?, hlength, List.getElem?_take_of_lt (Nat.sub_one_lt_of_lt hpos)] at hp
    exact h.last p hcount hp

-- Only the events of existing ports change the list.
inductive PortStep (r : AdvancedRecorderImpl) : Event → List InputPort → Prop
  | kept {e : Event} (he : ∀ port signal, e = .connect port signal → ¬r.ports.any (·.id = port)) :
    PortStep r e r.ports
  | connected {port : ℕ} {signal : Signal} (hport : r.ports.any (·.id = port)) :
    PortStep r (.connect port signal) (r.setConnection port (some { signal })).portAdded.ports
  | disconnected {port count : ℕ} (h : Trimmed (r.setConnection port none).ports count) :
    PortStep r (.disconnect port) ((r.setConnection port none).ports.take count)

section

variable [Crc32]

theorem Reconfigured.ports (h : Reconfigured r r') : r'.ports = r.ports := by
  cases h <;> rfl

variable [Host]

theorem Transition.ports (h : Transition r e r') (hconnect : ∀ port signal, e ≠ .connect port signal)
    (hdisconnect : ∀ port, e ≠ .disconnect port) : r'.ports = r.ports := by
  cases h
  case reconfigured hprep h =>
    rw [h.ports]
    cases hprep
    case connect    => exact absurd rfl (hconnect _ _)
    case disconnect => exact absurd rfl (hdisconnect _)
    all_goals rfl
  case activated => rfl
  case ignored   => rfl
  case packet    => rw [onSignal_frame]

theorem portStep (h : r.Orderly) : PortStep r e ((exec e).run r).state.ports := by
  cases e
  case connect port signal =>
    by_cases hport : r.ports.any (·.id = port)
    case pos =>
      rw [exec_connect_run h hport, reconfigured.ports]
      exact .connected hport
    case neg =>
      have hsame : ((exec (.connect port signal)).run r).state = r := by
        rw [exec, run_bind, run_get]
        simp only [hport]
        rfl
      rw [hsame]
      refine .kept fun port' signal' he => ?_
      cases he
      exact hport
  case disconnect port =>
    cases hconnection : r.connection port
    case some c =>
      obtain ⟨count, htrimmed, hrun⟩ := exec_disconnect_run h hconnection
      rw [hrun, reconfigured.ports]
      exact .disconnected htrimmed
    case none =>
      have hsame : ((exec (.disconnect port)).run r).state = r := by
        simp [exec, run_bind, run_get, hconnection]
      rw [hsame]
      exact .kept (by simp)
  all_goals
    rw [(transition h).ports (by simp) (by simp)]
    exact .kept (by simp)

variable {disk : ℕ → OpenOutcome} {events done : List Event}

theorem portStep_reached :
    PortStep (reached disk events) e (reached disk (events ++ [e])).ports := by
  rw [reached_concat]
  exact portStep orderly_reached

omit [Crc32] [Host] in
theorem PortStep.lastFree (h : PortStep r e ps) (hr : LastFree r.ports) : LastFree ps := by
  cases h
  case kept           => exact hr
  case disconnected h => exact h.lastFree hr.disconnected
  case connected      =>
    intro p hp
    rw [portAdded, List.getLast?_concat] at hp
    cases hp
    rfl

omit [Crc32] [Host] in
theorem PortStep.ne_nil (h : PortStep r e ps) (hr : r.ports ≠ []) : ps ≠ [] := by
  cases h
  case kept      => exact hr
  case connected => simp [portAdded]
  case disconnected port count h =>
    have hne : (r.setConnection port none).ports ≠ [] := by simpa [setConnection] using hr
    intro hnil
    cases List.take_eq_nil_iff.mp hnil
    case inl hcount => exact (h.pos hne).ne' hcount
    case inr hnil   => exact hne hnil

omit [Crc32] [Host] in
theorem mem_setConnection {connection : Option Connection} (hp : p ∈ r.ports) :
    (if p.id = port then { p with connection } else p) ∈ (r.setConnection port connection).ports :=
  List.mem_map_of_mem hp

omit [Crc32] [Host] in
-- A port that is connected stays, unless it is the one that gets disconnected.
theorem PortStep.keeps (h : PortStep r e ps) (hp : p ∈ r.ports) (hconnected : p.connection.isSome)
    (he : e ≠ .disconnect p.id) :
    ∃ p' ∈ ps, p'.id = p.id ∧ p'.name = p.name ∧ p'.connection.isSome := by
  cases h
  case kept => exact ⟨p, hp, rfl, rfl, hconnected⟩
  case connected port signal hport =>
    refine ⟨_, List.mem_append_left _ (mem_setConnection hp), ?_⟩
    by_cases hid : p.id = port
    case pos => simp [hid]
    case neg => simp [hid, hconnected]
  case disconnected port count h =>
    have hid : p.id ≠ port := fun hid => he (by rw [hid])
    have hmem : (if p.id = port then { p with connection := none } else p) ∈
        (r.setConnection port none).ports := mem_setConnection hp
    rw [if_neg hid, ← List.take_append_drop count (r.setConnection port none).ports] at hmem
    cases List.mem_append.mp hmem
    case inl hmem => exact ⟨p, hmem, rfl, rfl, hconnected⟩
    case inr hmem =>
      rw [h.removed p hmem] at hconnected
      exact absurd hconnected Bool.false_ne_true

theorem lastFree_reached : LastFree (reached disk events).ports := by
  induction events using List.reverseRecOn
  case nil =>
    rw [reached, Exec.run_nil, create_eq]
    intro p hp
    cases hp
    rfl
  case append_singleton events e ih => exact portStep_reached.lastFree ih

theorem ports_ne_nil : (reached disk events).ports ≠ [] := by
  induction events using List.reverseRecOn
  case nil =>
    rw [reached, Exec.run_nil, create_eq]
    exact List.cons_ne_nil _ _
  case append_singleton events e ih => exact portStep_reached.ne_nil ih

theorem portList_reached : PortList (reached disk events) := by
  have h : (reached disk events).Orderly := orderly_reached
  exact ⟨h.length, h.length ▸ List.length_pos_of_ne_nil ports_ne_nil, fun _ _ => h.name_eq, h.unique,
    lastFree_reached⟩

-- The list of ports in a state of a run, and what the next event may do to it.
structure PortsLawful (disk : ℕ → OpenOutcome) (events : List Event) : Prop where
  listed : PortList (reached disk events)
  adds   : ∀ port signal,
    (addInputPort.run ((reached disk events).setConnection port (some { signal }))).Returns
  trims  : ∀ port, let r := (reached disk events).setConnection port none
    ((trimInputPorts r.portCount).run r).Returns
  keeps  : ∀ e, ∀ p ∈ (reached disk events).ports, p.connection.isSome → e ≠ .disconnect p.id →
    ∃ p' ∈ (reached disk (events ++ [e])).ports,
      p'.id = p.id ∧ p'.name = p.name ∧ p'.connection.isSome

theorem portsLawful : PortsLawful disk events := by
  have horderly : (reached disk events).Orderly := orderly_reached
  constructor
  case listed => exact portList_reached
  case keeps  => exact fun e p => portStep_reached.keeps
  case adds   =>
    intro port signal
    rw [addInputPort_run horderly.connected]
    exact trivial
  case trims  =>
    intro port
    obtain ⟨count, _, hrun⟩ := trimInputPorts_trimmed (horderly.disconnected port)
    dsimp only
    rw [hrun]
    exact trivial

omit [Crc32] [Host] in
theorem oneFree_iff (h : r.ports.length = r.portCount) :
    OneFree r ↔ r.ports.length = 1 ∨
      ∃ p, r.ports[r.ports.length - 2]? = some p ∧ p.connection.isSome := by
  rw [OneFree, h]

omit [Crc32] [Host] in
-- After a port was added, the second-to-last one is the one that was the last before.
theorem oneFree_connected_iff (hr : LastFree r.ports) (hne : r.ports ≠ [])
    (hports : r'.ports = (r.setConnection port (some c)).portAdded.ports)
    (hcount : r'.ports.length = r'.portCount) :
    OneFree r' ↔ ∀ p, r.ports.getLast? = some p → p.id = port := by
  have hlength : r'.ports.length = r.ports.length + 1 := by
    rw [hports]
    simp [portAdded, setConnection]
  have hpos := List.length_pos_of_ne_nil hne
  have hlast : r'.ports[r'.ports.length - 2]? =
      r.ports.getLast?.map fun p => if p.id = port then { p with connection := some c } else p := by
    have hindex : r'.ports.length - 2 = (r.setConnection port (some c)).ports.length - 1 := by
      rw [hlength, setConnection, List.length_map]
      omega
    rw [hindex, hports, portAdded, List.getElem?_append_left (by simp [setConnection, hpos]),
      ← List.getLast?_eq_getElem?, getLast?_setConnection]
  rw [oneFree_iff hcount, hlast, List.getLast?_eq_some_getLast hne, Option.map_some]
  have hfree := hr _ (List.getLast?_eq_some_getLast hne)
  constructor
  case mp =>
    intro h p hp
    cases hp
    cases h
    case inl hone => omega
    case inr h    =>
      obtain ⟨p, hp, hconnected⟩ := h
      by_contra hid
      rw [if_neg hid] at hp
      cases hp
      rw [hfree] at hconnected
      exact Bool.false_ne_true hconnected
  case mpr =>
    intro h
    refine .inr ⟨_, rfl, ?_⟩
    rw [if_pos (h _ rfl)]
    rfl

omit [Crc32] [Host] in
theorem Trimmed.oneFree (h : Trimmed ps count) (hne : ps ≠ []) (hlast : LastFree ps)
    (hports : r'.ports = ps.take count) (hcount : r'.ports.length = r'.portCount) : OneFree r' := by
  have hpos := h.pos hne
  have hlength : (ps.take count).length = count := List.length_take_of_le h.le
  rw [oneFree_iff hcount, hports, hlength]
  cases h.ended
  case inl hone => exact .inl (Nat.le_antisymm hone hpos)
  case inr hended =>
    obtain ⟨p, hp, hconnected⟩ := hended
    refine .inr ⟨p, ?_, hconnected⟩
    rw [List.getElem?_take_of_lt (Nat.sub_lt hpos Nat.two_pos)]
    cases hp
    case inr hp => exact hp
    case inl hp =>
      have hfree : p.connection = none := by
        apply h.lastFree hlast p
        rw [List.getLast?_eq_getElem?, hlength, List.getElem?_take_of_lt (Nat.sub_one_lt_of_lt hpos), hp]
      rw [hfree] at hconnected
      exact absurd hconnected Bool.false_ne_true

-- No port but the last one, which is free, is connected in any step of the run.
def ConnectsLast (disk : ℕ → OpenOutcome) (events : List Event) : Prop :=
  ∀ done port signal, done ++ [.connect port signal] <+: events →
    (reached disk done).ports.any (·.id = port) →
    ∀ p, (reached disk done).ports.getLast? = some p → p.id = port

theorem oneFree_step (hr : OneFree (reached disk done))
    (he : ∀ port signal, e = .connect port signal → (reached disk done).ports.any (·.id = port) →
      ∀ p, (reached disk done).ports.getLast? = some p → p.id = port) :
    OneFree (reached disk (done ++ [e])) := by
  have hbefore : PortList (reached disk done) := portList_reached
  have hafter : PortList (reached disk (done ++ [e])) := portList_reached
  have hstep : PortStep (reached disk done) e (reached disk (done ++ [e])).ports := portStep_reached
  generalize hports : (reached disk (done ++ [e])).ports = ps at hstep
  cases hstep
  case kept =>
    rw [oneFree_iff hbefore.length] at hr
    rw [oneFree_iff hafter.length, hports]
    exact hr
  case connected port signal hport =>
    apply (oneFree_connected_iff hbefore.free ports_ne_nil hports hafter.length).mpr
    exact he port signal rfl hport
  case disconnected port count htrimmed =>
    have hne : ((reached disk done).setConnection port none).ports ≠ [] := by
      have hne : (reached disk done).ports ≠ [] := ports_ne_nil
      simpa [setConnection] using hne
    exact htrimmed.oneFree hne hbefore.free.disconnected hports hafter.length

-- There is one free port at the end throughout a run if and only if all connections are made there.
theorem oneFree_reached_iff :
    (∀ done, done <+: events → OneFree (reached disk done)) ↔ ConnectsLast disk events := by
  constructor
  case mp =>
    intro h done port signal hdone hport
    have hbefore : PortList (reached disk done) := portList_reached
    have hafter : PortList (reached disk (done ++ [.connect port signal])) := portList_reached
    have hstep : PortStep (reached disk done) (.connect port signal)
        (reached disk (done ++ [.connect port signal])).ports := portStep_reached
    have hfree := h _ hdone
    generalize hports : (reached disk (done ++ [.connect port signal])).ports = ps at hstep
    cases hstep
    case kept he   => exact absurd hport (he port signal rfl)
    case connected => exact (oneFree_connected_iff hbefore.free ports_ne_nil hports hafter.length).mp hfree
  case mpr =>
    intro h done hdone
    induction done using List.reverseRecOn
    case nil =>
      rw [reached, Exec.run_nil, create_eq]
      exact .inl rfl
    case append_singleton done e ih =>
      apply oneFree_step (ih ((List.prefix_append _ _).trans hdone))
      intro port signal he
      subst he
      exact h done port signal hdone

end

-- The first of two connected ports is left free, and gets connected again.
theorem not_oneFree_reconnected :
    let _ := Crc32.ieee
    let _ := Host.exact
    let signal : Signal := { globalId := [], description := [] }
    ¬∀ done, done <+: [.connect 0 signal, .connect 1 signal, .disconnect 0, .connect 0 signal] →
      OneFree (reached (fun _ => .failed) done) := by
  intro _ _ signal h
  let r := reached (fun _ => .failed)
    [.connect 0 signal, .connect 1 signal, .disconnect 0, .connect 0 signal]
  have hcount : r.portCount = 4 := by decide +kernel
  have hlast : r.ports[2]?.all (·.connection.isNone) = true := by decide +kernel
  cases h _ List.prefix_rfl
  case inl hone => exact absurd (hcount.symm.trans hone) (by decide)
  case inr hfree =>
    obtain ⟨p, hp, hconnected⟩ := hfree
    rw [show (reached _ _).portCount = 4 from hcount] at hp
    rw [show r.ports[2]? = some p from hp, Option.all_some, Option.isNone_iff_eq_none] at hlast
    rw [hlast] at hconnected
    exact Bool.false_ne_true hconnected

end AdvancedRecorder.AdvancedRecorderImpl
