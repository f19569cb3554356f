import Mathlib.Data.List.Nodup
import OpenDaqModules.Recorder.Impl

namespace AdvancedRecorder.AdvancedRecorderImpl

open Sie EStateM

def portName (number : ℕ) : Bytes :=
  str "Value" ++ Decimal.ofNat number

-- The ports are numbered from one on, no two of them are the same object, and no packet is left
-- waiting at one of them.
structure Orderly (r : AdvancedRecorderImpl) : Prop where
  names   : r.ports.map InputPort.name = (List.range' 1 r.portCount).map portName
  ids     : (r.ports.map InputPort.id).Nodup
  fresh   : ∀ p ∈ r.ports, p.id < r.nextPort
  drained : ∀ p ∈ r.ports, ∀ c ∈ p.connection, c.queue = []

def portAdded (r : AdvancedRecorderImpl) : AdvancedRecorderImpl where
  __ := r
  portCount := r.portCount + 1
  ports     := r.ports ++ [{ id := r.nextPort, name := portName (r.portCount + 1) }]
  nextPort  := r.nextPort + 1

def portsTrimmed (count : ℕ) (r : AdvancedRecorderImpl) : AdvancedRecorderImpl where
  __ := r
  portCount := count
  ports     := r.ports.take count

variable {r : AdvancedRecorderImpl} {port : ℕ} {connection : Option Connection}

theorem portName_injective : Function.Injective portName := by
  intro m n h
  exact Decimal.ofNat_injective (List.append_cancel_left h)

-- A connection changes neither the name nor the identity of a port.
theorem setConnection_map {f : InputPort → α} (hf : ∀ p c, f { p with connection := c } = f p) :
    (r.setConnection port connection).ports.map f = r.ports.map f := by
  rw [setConnection, List.map_map]
  apply List.map_congr_left
  intro p _
  rw [Function.comp_apply]
  split
  case isTrue  => exact hf p connection
  case isFalse => rfl

namespace Orderly

theorem length (h : r.Orderly) : r.ports.length = r.portCount := by
  simpa using congrArg List.length h.names

theorem not_any_name (h : r.Orderly) : ¬r.ports.any (·.name = portName (r.portCount + 1)) := by
  intro hany
  have ⟨p, hp, hname⟩ := List.any_eq_true.mp hany
  have hmem : portName (r.portCount + 1) ∈ r.ports.map InputPort.name := by
    exact List.mem_map.mpr ⟨p, hp, by simpa using hname⟩
  rw [h.names] at hmem
  have ⟨n, hn, heq⟩ := List.mem_map.mp hmem
  have := portName_injective heq
  simp only [List.mem_range'_1] at hn
  omega

theorem portAdded (h : r.Orderly) : r.portAdded.Orderly where
  names := by simp [AdvancedRecorderImpl.portAdded, h.names, List.range'_1_concat, Nat.add_comm]
  ids := by
    have hfresh : r.nextPort ∉ r.ports.map InputPort.id := by
      intro hmem
      have ⟨p, hp, hid⟩ := List.mem_map.mp hmem
      exact absurd hid (h.fresh p hp).ne
    simpa [AdvancedRecorderImpl.portAdded, List.nodup_append, h.ids] using hfresh
  fresh p hp := by
    cases List.mem_append.mp hp
    case inl hp => exact (h.fresh p hp).trans (Nat.lt_succ_self _)
    case inr hp =>
      cases List.mem_singleton.mp hp
      exact Nat.lt_succ_self _
  drained p hp := by
    cases List.mem_append.mp hp
    case inl hp => exact h.drained p hp
    case inr hp =>
      cases List.mem_singleton.mp hp
      exact fun _ h => nomatch h

theorem portsTrimmed (h : r.Orderly) (hcount : count ≤ r.portCount) :
    (r.portsTrimmed count).Orderly where
  names := by
    simp only [AdvancedRecorderImpl.portsTrimmed, List.map_take, h.names]
    rw [← List.map_take, List.take_range'_of_length_ge hcount]
  ids := by
    rw [AdvancedRecorderImpl.portsTrimmed, List.map_take]
    exact h.ids.sublist (List.take_sublist _ _)
  fresh p hp   := h.fresh p (List.mem_of_mem_take hp)
  drained p hp := h.drained p (List.mem_of_mem_take hp)

theorem setConnection (h : r.Orderly) (hqueue : ∀ c ∈ connection, c.queue = []) :
    (r.setConnection port connection).Orderly where
  names := (setConnection_map fun _ _ => rfl).trans h.names
  ids   := by
    rw [setConnection_map fun _ _ => rfl]
    exact h.ids
  fresh p hp := by
    have hmem : p.id ∈ (r.setConnection port connection).ports.map InputPort.id := by
      exact List.mem_map_of_mem hp
    rw [setConnection_map fun _ _ => rfl] at hmem
    have ⟨q, hq, hid⟩ := List.mem_map.mp hmem
    exact hid ▸ h.fresh q hq
  drained p hp := by
    have ⟨q, hq, hpq⟩ := List.mem_map.mp hp
    split at hpq
    case isTrue  => exact hpq ▸ hqueue
    case isFalse => exact hpq ▸ h.drained q hq

theorem connected (h : r.Orderly) {signal : Signal} :
    (r.setConnection port (some { signal })).Orderly :=
  h.setConnection (by simp)

theorem disconnected (h : r.Orderly) (port : ℕ) : (r.setConnection port none).Orderly :=
  h.setConnection (by simp)

end Orderly

theorem addInputPort_run (h : r.Orderly) : addInputPort.run r = .ok () r.portAdded := by
  have hname := h.not_any_name
  simp only [addInputPort, createAndAddInputPort, run_bind, run_get, run_modify]
  rw [portName] at hname
  rw [run_ite, if_neg hname]
  rfl

theorem portsTrimmed_self (h : r.Orderly) : r.portsTrimmed r.portCount = r := by
  rw [portsTrimmed, List.take_of_length_le h.length.le]

theorem portsTrimmed_portsTrimmed (hm : m ≤ n) :
    (r.portsTrimmed n).portsTrimmed m = r.portsTrimmed m := by
  simp [portsTrimmed, List.take_take, Nat.min_eq_left hm]

variable {ports : List InputPort} {previous last : InputPort}

theorem Orderly.removeInputPort (h : r.Orderly) (hports : r.ports = ports ++ [last]) :
    AdvancedRecorderImpl.removeInputPort last { r with portCount := ports.length } =
      r.portsTrimmed ports.length := by
  have hids := h.ids
  rw [hports, List.map_append, List.nodup_append] at hids
  have hother : ∀ p ∈ ports, p.id ≠ last.id := by
    exact fun p hp => hids.right.right _ (List.mem_map_of_mem hp) _ (by simp)
  have hfilter : r.ports.filter (·.id ≠ last.id) = ports := by
    rw [hports, List.filter_append, List.filter_eq_self.mpr (by simpa using hother)]
    simp
  simp only [AdvancedRecorderImpl.removeInputPort, AdvancedRecorderImpl.portsTrimmed, hfilter]
  rw [hports, List.take_left]

theorem trimInputPorts_succ_run (h : r.Orderly) (hports : r.ports = ports ++ [previous, last]) :
    (trimInputPorts (ports.length + 2)).run r =
      if last.connection.isSome ∨ previous.connection.isSome then .ok () r
      else (trimInputPorts (ports.length + 1)).run (r.portsTrimmed (ports.length + 1)) := by
  have hlast : getItemAt r.ports (ports.length + 1) = .ok last := by simp [getItemAt, hports]
  have hprevious : getItemAt r.ports ports.length = .ok previous := by simp [getItemAt, hports]
  have hconcat : r.ports = (ports ++ [previous]) ++ [last] := by simp [hports]
  have hremove := h.removeInputPort hconcat
  rw [List.length_append, List.length_singleton] at hremove
  simp only [trimInputPorts, run_bind, run_get, hlast, hprevious, ofExcept_ok, run_pure]
  by_cases hl : last.connection.isSome = true
  case pos => simp [hl]
  by_cases hp : previous.connection.isSome = true
  case pos => simp [hl, hp]
  case neg => simp [hl, hp, hremove]

-- How many ports are left when the loop ends: those behind them are free, and so is then the last
-- of them. It ends where one of the last two is not free, or where there is only one.
structure Trimmed (ports : List InputPort) (count : ℕ) : Prop where
  le      : count ≤ ports.length
  pos     : ports ≠ [] → 0 < count
  removed : ∀ p ∈ ports.drop count, p.connection = none
  last    : ∀ p, count < ports.length → ports[count - 1]? = some p → p.connection = none
  ended   : count ≤ 1 ∨
    ∃ p, (ports[count - 1]? = some p ∨ ports[count - 2]? = some p) ∧ p.connection.isSome

theorem trimmed_of_ended (h : ports.length ≤ 1 ∨ ∃ p,
    (ports[ports.length - 1]? = some p ∨ ports[ports.length - 2]? = some p) ∧ p.connection.isSome) :
    Trimmed ports ports.length where
  le       := le_rfl
  pos hne  := List.length_pos_of_ne_nil hne
  removed  := by simp
  last     := fun _ h => absurd h (lt_irrefl _)
  ended    := h

-- One more port is removed, from a list that ends with two free ones.
theorem Trimmed.append (h : Trimmed (ports ++ [previous]) count) (hprevious : previous.connection = none)
    (hlast : last.connection = none) : Trimmed (ports ++ [previous, last]) count := by
  have hconcat : ports ++ [previous, last] = (ports ++ [previous]) ++ [last] := by simp
  have hlookup : ∀ i < (ports ++ [previous]).length,
      (ports ++ [previous, last])[i]? = (ports ++ [previous])[i]? := by
    intro i hi
    rw [hconcat, List.getElem?_append_left hi]
  have hpos := h.pos (by simp)
  have hle := h.le
  constructor
  case le      => exact hle.trans (by simp)
  case pos     => exact fun _ => hpos
  case removed =>
    rw [hconcat, List.drop_append_of_le_length hle]
    intro p hp
    cases List.mem_append.mp hp
    case inl hp => exact h.removed p hp
    case inr hp =>
      cases List.mem_singleton.mp hp
      exact hlast
  case last    =>
    intro p _ hp
    rw [hlookup _ (by omega)] at hp
    by_cases hcount : count < (ports ++ [previous]).length
    case pos => exact h.last p hcount hp
    case neg =>
      have hlength : count - 1 = ports.length := by
        rw [List.length_append, List.length_singleton] at hcount hle
        omega
      rw [hlength, List.getElem?_concat_length] at hp
      cases hp
      exact hprevious
  case ended   =>
    rw [hlookup _ (by omega), hlookup _ (by omega)]
    exact h.ended

-- The end of the list is cut off port by port.
theorem trimInputPorts_trimmed (h : r.Orderly) : ∃ count, Trimmed r.ports count ∧
    (trimInputPorts r.portCount).run r = .ok () (r.portsTrimmed count) := by
  obtain ⟨n, hn⟩ : ∃ n, n = r.portCount := ⟨_, rfl⟩
  induction n using trimInputPorts.induct generalizing r
  case case2 n hsmall =>
    refine ⟨r.portCount, h.length ▸ trimmed_of_ended (.inl ?_), ?_⟩
    · rw [h.length, ← hn]
      by_contra hlarge
      exact hsmall (n - 2) (by omega)
    · rw [portsTrimmed_self h, ← hn, trimInputPorts.eq_2 n hsmall]
      rfl
  case case1 n ih =>
    have hcount : r.portCount = n + 2 := hn.symm
    have hlength : (r.ports.drop n).length = 2 := by
      rw [List.length_drop, h.length, hcount]
      exact Nat.add_sub_cancel_left n 2
    obtain ⟨previous, last, hdrop⟩ := List.length_eq_two.mp hlength
    have hports : r.ports = r.ports.take n ++ [previous, last] := by
      rw [← hdrop, List.take_append_drop]
    have htake : (r.ports.take n).length = n := by
      rw [List.length_take, h.length, hcount]
      exact Nat.min_eq_left (Nat.le_add_right n 2)
    have hrun := trimInputPorts_succ_run h hports
    rw [htake, ← hcount] at hrun
    rw [hrun]
    split
    case isTrue hended =>
      refine ⟨r.portCount, h.length ▸ trimmed_of_ended (.inr ?_), by rw [portsTrimmed_self h]⟩
      have hlast : r.ports[r.ports.length - 1]? = some last := by
        rw [h.length, hcount, hports]
        simp [htake]
      have hprevious : r.ports[r.ports.length - 2]? = some previous := by
        rw [h.length, hcount, hports]
        simp [htake]
      cases hended
      case inl hconnected => exact ⟨last, .inl hlast, hconnected⟩
      case inr hconnected => exact ⟨previous, .inr hprevious, hconnected⟩
    case isFalse hfree =>
      have hfree := not_or.mp hfree
      have hremaining : (r.portsTrimmed (n + 1)).ports = r.ports.take n ++ [previous] := by
        apply (congrArg (List.take (n + 1)) hports).trans
        rw [List.take_append, htake, List.take_of_length_le (htake.le.trans (Nat.le_succ n))]
        simp
      obtain ⟨count, htrimmed, hrun⟩ := ih (h.portsTrimmed (by omega)) rfl
      rw [hremaining] at htrimmed
      refine ⟨count, ?_, ?_⟩
      · rw [hports]
        exact htrimmed.append (by simpa using hfree.right) (by simpa using hfree.left)
      · have hle : count ≤ n + 1 := by simpa [htake] using htrimmed.le
        rw [← portsTrimmed_portsTrimmed hle]
        exact hrun

theorem connection_portAdded : r.portAdded.connection port = r.connection port := by
  rw [connection, connection, portAdded, List.find?_append]
  cases r.ports.find? (·.id = port)
  case some p => rfl
  case none   => by_cases h : r.nextPort = port <;> simp [h]

theorem connection_portsTrimmed (hfree : ∀ p ∈ r.ports.drop count, p.connection = none) :
    (r.portsTrimmed count).connection port = r.connection port := by
  have hports : r.connection port =
      ((r.ports.take count ++ r.ports.drop count).find? (·.id = port)).bind InputPort.connection := by
    rw [List.take_append_drop, connection]
  rw [hports, connection, portsTrimmed, List.find?_append]
  cases (r.ports.take count).find? (·.id = port)
  case some p => rfl
  case none   =>
    cases hp : (r.ports.drop count).find? (·.id = port)
    case none   => rfl
    case some p => exact (hfree p (List.mem_of_find?_eq_some hp)).symm

theorem connection_setConnection_of_ne {q : ℕ} (hq : q ≠ port) :
    (r.setConnection port connection).connection q = r.connection q := by
  rw [AdvancedRecorderImpl.connection, AdvancedRecorderImpl.connection, setConnection]
  induction r.ports
  case nil          => rfl
  case cons p ps ih =>
    rw [List.map_cons, List.find?_cons, List.find?_cons]
    by_cases hp : p.id = port <;> by_cases hpq : p.id = q <;> simp_all

theorem connection_setConnection (hport : r.ports.any (·.id = port)) :
    (r.setConnection port connection).connection port = connection := by
  rw [AdvancedRecorderImpl.connection, setConnection]
  revert hport
  induction r.ports
  case nil          => exact fun h => nomatch h
  case cons p ps ih =>
    intro hport
    by_cases hp : p.id = port
    case pos => simp [hp]
    case neg => simpa [hp] using ih (by simpa [hp] using hport)

theorem any_id_of_connection (h : r.connection port = some c) : r.ports.any (·.id = port) := by
  have ⟨p, hp, _⟩ := Option.bind_eq_some_iff.mp h
  have hid := List.find?_some hp
  exact List.any_eq_true.mpr ⟨p, List.mem_of_find?_eq_some hp, hid⟩

theorem connection_of_mem (hids : (r.ports.map InputPort.id).Nodup) {p : InputPort} (hp : p ∈ r.ports) :
    r.connection p.id = p.connection := by
  have ⟨q, hq⟩ : ∃ q, r.ports.find? (·.id = p.id) = some q := by
    refine Option.isSome_iff_exists.mp (List.find?_isSome.mpr ⟨p, hp, ?_⟩)
    simp
  have hid : q.id = p.id := by simpa using List.find?_some hq
  have hqp : q = p := List.inj_on_of_nodup_map hids (List.mem_of_find?_eq_some hq) hp hid
  rw [AdvancedRecorderImpl.connection, hq, hqp]
  rfl

theorem Orderly.connection_eq (h : r.Orderly) {p : InputPort} (hp : p ∈ r.ports) :
    r.connection p.id = p.connection :=
  connection_of_mem h.ids hp

theorem Orderly.queue_eq (h : r.Orderly) (hc : r.connection port = some c) : c.queue = [] := by
  have ⟨p, hp, hpc⟩ := Option.bind_eq_some_iff.mp hc
  exact h.drained p (List.mem_of_find?_eq_some hp) c hpc

theorem Orderly.setConnection_self (h : r.Orderly) :
    r.setConnection port (r.connection port) = r := by
  have hports : (r.setConnection port (r.connection port)).ports = r.ports := by
    refine (List.map_congr_left fun p hp => ?_).trans (List.map_id _)
    split
    case isTrue hid => rw [← hid, h.connection_eq hp, id]
    case isFalse    => rfl
  rw [AdvancedRecorderImpl.setConnection] at hports ⊢
  dsimp only at hports
  rw [hports]

theorem setConnection_setConnection {c c' : Option Connection} :
    (r.setConnection port c).setConnection port c' = r.setConnection port c' := by
  simp only [setConnection, List.map_map]
  congr 1
  apply List.map_congr_left
  intro p _
  by_cases hid : p.id = port <;> simp [hid]

theorem orderly_empty {disk : ℕ → OpenOutcome} : Orderly { disk } :=
  ⟨rfl, List.nodup_nil, (fun _ h => nomatch h), (fun _ h => nomatch h)⟩

theorem create_eq {disk : ℕ → OpenOutcome} : create disk = portAdded { disk } := by
  rw [create, addInputPort_run orderly_empty]
  rfl

theorem orderly_create {disk : ℕ → OpenOutcome} : (create disk).Orderly := by
  rw [create_eq]
  exact orderly_empty.portAdded

end AdvancedRecorder.AdvancedRecorderImpl
