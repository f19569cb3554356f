import OpenDaqModules.Recorder.Linked
import OpenDaqModules.Recorder.Theorems.Follows
import OpenDaqModules.Recorder.Theorems.Interference
import OpenDaqModules.Recorder.Threads

namespace AdvancedRecorder

open Sie EStateM

namespace AdvancedRecorderImpl

variable {r r' r₁ g : AdvancedRecorderImpl} {e : Event} {w : Writer} {s : AdvancedRecorderSignal}
  {i port : ℕ}

-- What is left of the ports depends on nothing else.
theorem Trimmed.unique {ports : List InputPort} {m n : ℕ} (hm : Trimmed ports m)
    (hn : Trimmed ports n) : m = n := by
  wlog hlt : m < n generalizing m n
  case inr =>
    by_cases heq : m = n
    case pos => exact heq
    case neg => exact (this hn hm (by omega)).symm
  have hle := hn.le
  have hfree : ∀ i, m ≤ i → ∀ p, ports[i]? = some p → p.connection = none := by
    intro i hi p hp
    apply hm.removed
    rw [List.mem_iff_getElem?]
    exact ⟨i - m, by rw [List.getElem?_drop, Nat.add_sub_cancel' hi, hp]⟩
  have hpos := hm.pos (by rintro rfl; simp at hle; omega)
  obtain hone | ⟨p, hp, hconnected⟩ := hn.ended
  case inl => omega
  have hnone : p.connection = none := by
    cases hp
    case inl hp => exact hfree _ (by omega) p hp
    case inr hp =>
      by_cases hm' : m ≤ n - 2
      case pos => exact hfree _ hm' p hp
      case neg =>
        have heq : n - 2 = m - 1 := by omega
        exact hm.last p (by omega) (heq ▸ hp)
  rw [hnone] at hconnected
  exact absurd hconnected Bool.false_ne_true

section Prepared

-- The signals and the files take no part in what an event does ahead of a reconfiguration.
theorem control_run (horderly : r.Orderly) (e : Event) :
    ∃ r₁, Prepared.Unchanged r r₁ ∧ ((∀ reconfigure signals writers,
      ((control reconfigure e).run { r with signals, writers }).state =
        { r₁ with signals, writers }) ∨
    ∀ reconfigure signals writers, (control reconfigure e).run { r with signals, writers } =
      reconfigure.run { r₁ with signals, writers }) := by
  have hsame : Prepared.Unchanged r r := ⟨rfl, rfl, rfl, rfl, rfl⟩
  have horderly' : ∀ signals writers, { r with signals, writers }.Orderly := by
    exact fun _ _ => ⟨horderly.names, horderly.ids, horderly.fresh, horderly.drained⟩
  cases e
  case startRecording => exact ⟨_, Prepared.startRecording.unchanged, .inr fun _ _ _ => rfl⟩
  case stopRecording  => exact ⟨_, Prepared.stopRecording.unchanged, .inr fun _ _ _ => rfl⟩
  case writeFilename  => exact ⟨_, Prepared.writeFilename.unchanged, .inr fun _ _ _ => rfl⟩
  case packet         => exact ⟨r, hsame, .inl fun _ _ _ => rfl⟩
  case activeChanged active =>
    cases active
    case true  => exact ⟨{ r with active := true }, ⟨rfl, rfl, rfl, rfl, rfl⟩, .inl fun _ _ _ => rfl⟩
    case false => exact ⟨_, Prepared.deactivated.unchanged, .inr fun _ _ _ => rfl⟩
  case connect port signal =>
    by_cases hport : r.ports.any (·.id = port)
    case neg =>
      refine ⟨r, hsame, .inl fun _ _ _ => ?_⟩
      simp only [control, run_bind, run_get, hport]
      rfl
    case pos =>
      have hprep : Prepared r (.connect port signal) _ := .connect hport
      refine ⟨_, hprep.unchanged, .inr fun reconfigure signals writers => ?_⟩
      have hconnected : (setConnection port (some { signal }) { r with signals, writers }).Orderly :=
        (horderly' signals writers).connected
      have hadd := addInputPort_run hconnected
      simp only [control, run_bind, run_get, hport, if_true, run_modify, hadd]
      rfl
  case disconnect port =>
    cases hconnection : r.connection port
    case none =>
      refine ⟨r, hsame, .inl fun _ signals writers => ?_⟩
      have hsame : { r with signals, writers }.connection port = none := hconnection
      simp only [control, run_bind, run_get, hsame]
      rfl
    case some c =>
      obtain ⟨count, htrimmed, _⟩ := trimInputPorts_trimmed (horderly.disconnected port)
      have hcount : count ≤ r.portCount := htrimmed.le.trans (horderly.disconnected port).length.le
      have hprep := Prepared.disconnect (by simp [hconnection]) hcount htrimmed.removed
      refine ⟨_, hprep.unchanged, .inr fun reconfigure signals writers => ?_⟩
      obtain ⟨count', htrimmed', hrun⟩ :=
        trimInputPorts_trimmed ((horderly' signals writers).disconnected port)
      cases htrimmed.unique htrimmed'
      have hsame : { r with signals, writers }.connection port = some c := hconnection
      simp only [control, run_bind, run_get, hsame, Option.isSome_some, if_true, run_modify, hrun]
      rfl

end Prepared

variable [Crc32]

theorem Reconfigured.unique (h : Reconfigured r r') (h₁ : Reconfigured r r₁) : r' = r₁ := by
  cases h <;> cases h₁ <;> simp_all

-- The file of a signal that nobody but a call holds: it takes what the call is going to write, and it
-- is closed then unless the recorder still writes to it.
def settled (r : AdvancedRecorderImpl) (i : ℕ) (w : Writer) : AdvancedRecorderImpl where
  __ := r
  writers := r.writers.set i (if r.writer = some i then w else closeWriter w)

-- A recorder that is ahead of another one by what a call has yet to do with the signal it holds.
inductive Ahead (f : AdvancedRecorderSignal × Writer → AdvancedRecorderSignal × Writer) (port : ℕ)
    (r : AdvancedRecorderImpl) : Option Held → AdvancedRecorderImpl → Prop
  | none : Ahead f port r none r
  | shared {s : AdvancedRecorderSignal} {w : Writer} (hs : r.signals.lookup port = some s)
    (hw : r.writers[s.writer]? = some w) (hcurrent : r.writer = some s.writer) :
    Ahead f port r (some .shared) (r.withSignal port s.writer (f (s, w)))
  | alone {s : AdvancedRecorderSignal} {w : Writer} (hw : r.writers[s.writer]? = some w) :
    Ahead f port r (some (.alone s)) (r.settled s.writer (f (s, w)).2)

section Reconfigure

theorem reconfigureShared_of_recording {held : Option ℕ} (h : r.recordingActive = true) :
    (reconfigureShared held).run r = reconfigure.run r := by
  simp [reconfigureShared, reconfigure, h]

theorem resetSharedWriter_of_ne {held : Option ℕ} (h : ∀ i ∈ r.writer, held ≠ some i) :
    (resetSharedWriter held).run r = resetWriter.run r := by
  cases hwriter : r.writer
  case none   => simp [resetSharedWriter, resetWriter, hwriter]
  case some i => simp [resetSharedWriter, resetWriter, hwriter, h i hwriter]

-- The file that a call still writes to stays open.
theorem reconfigureShared_of_held (h : r.recordingActive = false) (hwriter : r.writer = some i) :
    ((reconfigureShared (some i)).run r).state = { r with signals := [], writer := none } := by
  simp [reconfigureShared, resetSharedWriter, h, hwriter]

theorem reconfigureShared_of_not_held {held : Option ℕ} (h : ∀ i ∈ r.writer, held ≠ some i) :
    (reconfigureShared held).run r = reconfigure.run r := by
  cases hrec : r.recordingActive
  case true  => exact reconfigureShared_of_recording hrec
  case false =>
    have hreset := resetSharedWriter_of_ne (r := { r with signals := [] }) h
    simpa [reconfigureShared, reconfigure, hrec] using hreset

theorem reconfigureShared_none : reconfigureShared none = reconfigure := by
  funext r
  exact reconfigureShared_of_not_held (by simp)

end Reconfigure

section UpdateSignals

variable {x : AdvancedRecorderSignal × Writer} {signals : List (ℕ × AdvancedRecorderSignal)}
  {ports : List InputPort} {j q : ℕ}

-- What `withSignal` does to an entry of the map.
def replaced (port : ℕ) (x : AdvancedRecorderSignal × Writer) (y : ℕ × AdvancedRecorderSignal) :
    ℕ × AdvancedRecorderSignal :=
  if y.1 = port then (port, x.1) else y

omit [Crc32] in
theorem replaced_fst (y : ℕ × AdvancedRecorderSignal) : (replaced port x y).1 = y.1 := by
  by_cases h : y.1 = port <;> simp [replaced, h]

omit [Crc32] in
theorem lookup_map_replaced (q : ℕ) : ((signals.map (replaced port x)).lookup q).isSome =
    (signals.lookup q).isSome := by
  rw [Bool.eq_iff_iff, List.lookup_isSome_iff, List.lookup_isSome_iff]
  constructor
  case mp =>
    rintro ⟨y, hy, hq⟩
    obtain ⟨z, hz, rfl⟩ := List.mem_map.mp hy
    exact ⟨z, hz, by rwa [replaced_fst] at hq⟩
  case mpr =>
    rintro ⟨z, hz, hq⟩
    exact ⟨_, List.mem_map_of_mem hz, by rwa [replaced_fst]⟩

omit [Crc32] in
-- The port has its signal already, so the two do not meet.
theorem emplaceSignal_replaced (h : (signals.lookup port).isSome) (p : InputPort) :
    emplaceSignal j (signals.map (replaced port x)) p =
      (emplaceSignal j signals p).map (replaced port x) := by
  rw [emplaceSignal, emplaceSignal]
  cases p.connection
  case none   => rfl
  case some c =>
    dsimp only
    rw [lookup_map_replaced]
    split
    case isTrue          => rfl
    case isFalse hlookup =>
      have hne : p.id ≠ port := fun heq => hlookup (heq ▸ h)
      simp [replaced, hne]

omit [Crc32] in
theorem foldl_emplaceSignal_replaced (h : (signals.lookup port).isSome) :
    ports.foldl (emplaceSignal j) (signals.map (replaced port x)) =
      (ports.foldl (emplaceSignal j) signals).map (replaced port x) := by
  induction ports generalizing signals
  case nil          => rfl
  case cons p ports ih =>
    have ⟨s, hs⟩ := Option.isSome_iff_exists.mp h
    rw [List.foldl_cons, List.foldl_cons, emplaceSignal_replaced h, ih]
    rw [lookup_emplaceSignal_of_some hs]
    rfl

omit [Crc32] in
theorem updateSignals_withSignal (h : (r.signals.lookup port).isSome) :
    (r.withSignal port i x).updateSignals j = (r.updateSignals j).withSignal port i x := by
  have hfilter : ∀ keys : List ℕ, ∀ ys : List (ℕ × AdvancedRecorderSignal),
      (ys.map (replaced port x)).filter (·.1 ∈ keys) =
        (ys.filter (·.1 ∈ keys)).map (replaced port x) := by
    intro keys ys
    rw [List.filter_map]
    simp [Function.comp_def, replaced_fst]
  have hfold : r.ports.foldl (emplaceSignal j) (r.signals.map (replaced port x)) = _ :=
    foldl_emplaceSignal_replaced h
  simp only [withSignal, updateSignals]
  congr 1
  exact (congrArg _ hfold).trans (hfilter _ _)

omit [Crc32] in
-- The port loses its signal only together with the connection.
theorem lookup_updateSignals_of_isSome (hs : r.signals.lookup port = some s)
    (h : ((r.updateSignals j).signals.lookup port).isSome) :
    (r.updateSignals j).signals.lookup port = some s := by
  by_cases hport : port ∈ r.connectedPorts
  case pos =>
    rw [updateSignals, lookup_filter hport]
    exact lookup_foldl_emplaceSignal_of_some hs
  case neg =>
    rw [updateSignals, lookup_filter_of_not_mem hport] at h
    exact absurd h Bool.false_ne_true

omit [Crc32] in
theorem withSignal_of_lookup_eq_none (h : r.signals.lookup port = none) :
    r.withSignal port i x = { r with writers := r.writers.set i x.2 } := by
  have hmap : r.signals.map (replaced port x) = r.signals := by
    refine (List.map_congr_left fun y hy => ?_).trans (List.map_id _)
    have hne := List.lookup_eq_none_iff.mp h y hy
    rw [replaced, if_neg (by simpa using Ne.symm (by simpa using hne)), id]
  simp only [withSignal]
  congr 1

end UpdateSignals

section Settled

theorem settled_of_eq (hwriter : r.writer = some i) :
    r.settled i w = { r with writers := r.writers.set i w } := by
  rw [settled, if_pos hwriter]

theorem settled_of_ne (hwriter : r.writer ≠ some i) :
    r.settled i w = { r with writers := r.writers.set i (closeWriter w) } := by
  rw [settled, if_neg hwriter]

theorem writers_settled_length : (r.settled i w).writers.length = r.writers.length :=
  List.length_set

-- A reconfiguration that goes on recording does not touch a file which was opened before.
theorem Reconfigured.settled (h : Reconfigured r r') (hrec : r.recordingActive = true)
    (hi : i < r.writers.length) : Reconfigured (r.settled i w) (r'.settled i w) := by
  have hpublish (v : Writer) (hwriter : r.writer = none) :
      (r.publish v).settled i w = (r.settled i w).publish v := by
    have hne : r.writers.length ≠ i := (Nat.ne_of_lt hi).symm
    simp [AdvancedRecorderImpl.settled, publish, hwriter, hne, List.set_append_left _ _ hi]
  cases h
  case kept hwriter =>
    exact .kept hrec hwriter
  case failed hwriter hdisk =>
    exact .failed hrec hwriter hdisk
  case closed hstopped =>
    rw [hrec] at hstopped
    cases hstopped
  case published hwriter hdisk hrun =>
    rw [hpublish _ hwriter]
    exact .published hrec hwriter hdisk hrun
  case opened schedule uuids v _ hwriter hdisk hrun =>
    have hopened := Reconfigured.opened (r := r.settled i w) hrec hwriter hdisk hrun
    rw [← hpublish v hwriter, writers_settled_length] at hopened
    exact hopened

omit [Crc32] in
theorem modify_set {ws : List Writer} {close : Writer → Writer} :
    (ws.set i w).modify i close = ws.set i (close w) := by
  apply List.ext_getElem?
  intro k
  rw [List.getElem?_modify, List.getElem?_set, List.getElem?_set]
  by_cases hk : i = k <;> by_cases hlt : k < ws.length <;> simp [hk, hlt]

omit [Crc32] in
theorem modify_set_of_ne {ws : List Writer} {close : Writer → Writer} {j : ℕ} (h : j ≠ i) :
    (ws.set i w).modify j close = (ws.modify j close).set i w := by
  apply List.ext_getElem?
  intro k
  rw [List.getElem?_modify, List.getElem?_set, List.getElem?_set, List.getElem?_modify,
    List.length_modify]
  by_cases hk : i = k <;> by_cases hj : j = k <;> simp_all

-- Nobody writes to the file while another one is closed.
theorem closed_settled (hwriter : r.writer ≠ some i) :
    (r.settled i w).closed = r.closed.settled i w := by
  rw [settled_of_ne hwriter, settled_of_ne (by simp [closed])]
  simp only [closed]
  cases hj : r.writer
  case none   => rfl
  case some j =>
    have hne : j ≠ i := by simpa [hj] using hwriter
    dsimp only
    rw [modify_set_of_ne hne]

end Settled

section Ahead

variable {f : AdvancedRecorderSignal × Writer → AdvancedRecorderSignal × Writer} {held : Option Held}

-- A file that is open stays what it is, unless it is closed.
theorem Reconfigured.getElem?_writers (h : Reconfigured r r') (hrec : r.recordingActive = true)
    (hw : r.writers[i]? = some w) : r'.writers[i]? = some w := by
  have hi := (List.getElem?_eq_some_iff.mp hw).choose
  have hpublish (v : Writer) : (r.publish v).writers[i]? = some w := by
    rw [publish, List.getElem?_append_left hi, hw]
  cases h
  case kept      => exact hw
  case failed    => exact hw
  case opened    => exact hpublish _
  case published => exact hpublish _
  case closed hstopped =>
    rw [hrec] at hstopped
    cases hstopped

-- The event that leads to a reconfiguration does not concern the signals and the files.
theorem Ahead.prepared (h : Ahead f port r held g) (hwriter : r₁.writer = r.writer)
    (hsignals : r₁.signals = r.signals) (hwriters : r₁.writers = r.writers) :
    Ahead f port r₁ held { r₁ with signals := g.signals, writers := g.writers } := by
  cases r
  cases r₁
  dsimp only at hwriter hsignals hwriters
  subst hwriter hsignals hwriters
  cases h
  case none                    => exact .none
  case shared hs hw hcurrent   => exact .shared hs hw hcurrent
  case alone hw                => exact .alone hw

-- The signal stays in the map with the port's connection, or the call is left alone with it.
theorem ahead_updateSignals (hs : r.signals.lookup port = some s)
    (hw : r.writers[s.writer]? = some w) (hcurrent : r.writer = some s.writer) {j : ℕ} :
    Ahead f port (r.updateSignals j) (Held.shared.overtaken port r (r.updateSignals j))
      ((r.withSignal port s.writer (f (s, w))).updateSignals j) := by
  rw [updateSignals_withSignal (by simp [hs]), Held.overtaken]
  cases hlookup : (r.updateSignals j).signals.lookup port
  case some s' =>
    have hsame := lookup_updateSignals_of_isSome (j := j) hs (by simp [hlookup])
    exact .shared hsame hw hcurrent
  case none =>
    rw [withSignal_of_lookup_eq_none hlookup, hs]
    have hahead : Ahead f port (r.updateSignals j) _ _ := .alone hw
    rw [settled_of_eq (r := r.updateSignals j) hcurrent] at hahead
    exact hahead

theorem ahead_of_shared (hs : r.signals.lookup port = some s)
    (hw : r.writers[s.writer]? = some w) (hcurrent : r.writer = some s.writer)
    (hr' : ((reconfigureShared (some s.writer)).run r).state = r') :
    Ahead f port r' (Held.shared.overtaken port r r')
      (reconfigure.run (r.withSignal port s.writer (f (s, w)))).state := by
  cases hrec : r.recordingActive
  case true =>
    have hkept : (reconfigure.run r).state = r.updateSignals s.writer :=
      reconfigured.unique (.kept hrec hcurrent)
    have hkept' : (reconfigure.run (r.withSignal port s.writer (f (s, w)))).state =
        (r.withSignal port s.writer (f (s, w))).updateSignals s.writer :=
      reconfigured.unique (.kept hrec hcurrent)
    rw [reconfigureShared_of_recording hrec, hkept] at hr'
    rw [← hr', hkept']
    exact ahead_updateSignals hs hw hcurrent
  case false =>
    have hclosed : (reconfigure.run (r.withSignal port s.writer (f (s, w)))).state =
        (r.withSignal port s.writer (f (s, w))).closed :=
      reconfigured.unique (.closed hrec)
    rw [reconfigureShared_of_held hrec hcurrent] at hr'
    rw [hclosed, ← hr', Held.overtaken, hs]
    have hahead : Ahead f port { r with signals := [], writer := none } _ _ := .alone hw
    rw [settled_of_ne (by simp)] at hahead
    simp only [closed, withSignal, hcurrent, modify_set]
    exact hahead

theorem ahead_of_alone (hw : r.writers[s.writer]? = some w)
    (hr' : ((reconfigureShared (some s.writer)).run r).state = r') :
    Ahead f port r' (some (.alone s))
      (reconfigure.run (r.settled s.writer (f (s, w)).2)).state := by
  have hlt := (List.getElem?_eq_some_iff.mp hw).choose
  cases hrec : r.recordingActive
  case true =>
    have hreconf : Reconfigured r (reconfigure.run r).state := reconfigured
    rw [reconfigureShared_of_recording hrec] at hr'
    rw [hr'] at hreconf
    have hsettled : (reconfigure.run (r.settled s.writer (f (s, w)).2)).state = _ :=
      reconfigured.unique (hreconf.settled hrec hlt)
    rw [hsettled]
    exact .alone (hreconf.getElem?_writers hrec hw)
  case false =>
    have hclosed : (reconfigure.run (r.settled s.writer (f (s, w)).2)).state =
        (r.settled s.writer (f (s, w)).2).closed :=
      reconfigured.unique (.closed hrec)
    rw [hclosed]
    by_cases hwriter : r.writer = some s.writer
    case pos =>
      rw [reconfigureShared_of_held hrec hwriter] at hr'
      have hahead : Ahead f port { r with signals := [], writer := none } _ _ := .alone hw
      rw [settled_of_ne (by simp)] at hahead
      rw [← hr', settled_of_eq hwriter]
      simp only [closed, hwriter, modify_set]
      exact hahead
    case neg =>
      have hne : ∀ i ∈ r.writer, some s.writer ≠ some i := by
        rintro i hi heq
        exact hwriter (heq ▸ hi)
      have hstate : (reconfigure.run r).state = r.closed := reconfigured.unique (.closed hrec)
      rw [reconfigureShared_of_not_held hne, hstate] at hr'
      rw [closed_settled hwriter, ← hr']
      refine .alone ?_
      cases hj : r.writer
      case none   => simp [closed, hj, hw]
      case some j =>
        have hji : j ≠ s.writer := fun heq => hwriter (heq ▸ hj)
        simp [closed, hj, hji, hw]

theorem Ahead.frame (h : Ahead f port r held g) :
    g = { r with signals := g.signals, writers := g.writers } := by
  cases h <;> rfl

theorem Ahead.reconfigured (h : Ahead f port r held g) {writer : Option ℕ}
    (hwriter : writer = (held.bind (·.signal port r)).map (·.writer))
    (hr' : ((reconfigureShared writer).run r).state = r') :
    Ahead f port r' (held.bind (·.overtaken port r r')) (reconfigure.run g).state := by
  cases h
  case none =>
    have hnone : writer = Option.none := hwriter
    rw [hnone, reconfigureShared_none] at hr'
    rw [hr']
    exact .none
  case shared s w hs hw hcurrent =>
    simp only [Option.bind_some, Held.signal, hs, Option.map_some] at hwriter
    exact ahead_of_shared hs hw hcurrent (hwriter ▸ hr')
  case alone s w hw =>
    simp only [Option.bind_some, Held.signal, Option.map_some] at hwriter
    exact ahead_of_alone hw (hwriter ▸ hr')

variable [Host]

theorem control_reconfigure (he : ∀ port packet, e ≠ .packet port packet) :
    control reconfigure e = exec e := by
  cases e
  case packet port packet => exact absurd rfl (he port packet)
  all_goals rfl

-- What users do to a recorder comes to the same, before or after what the call has yet to do.
theorem Ahead.control (h : Ahead f port r held g) (horderly : r.Orderly)
    (he : ∀ port packet, e ≠ .packet port packet) {writer : Option ℕ}
    (hwriter : writer = (held.bind (·.signal port r)).map (·.writer))
    (hr' : ((AdvancedRecorderImpl.control (reconfigureShared writer) e).run r).state = r') :
    Ahead f port r' (held.bind (·.overtaken port r r')) ((exec e).run g).state := by
  rw [← control_reconfigure he, h.frame]
  obtain ⟨r₁, hsame, hrun⟩ := control_run horderly e
  have hself : { r₁ with signals := r.signals, writers := r.writers } = r₁ := by
    rw [← hsame.signals, ← hsame.writers]
  have hahead := h.prepared hsame.writer hsame.signals hsame.writers
  cases hrun
  case inl hrun =>
    have hstate := hrun (reconfigureShared writer) r.signals r.writers
    rw [hself] at hstate
    have hunchanged : r' = r₁ := hr'.symm.trans hstate
    rw [hrun, hunchanged]
    cases h
    case none   => exact hahead
    case alone  => exact hahead
    case shared hs hw hcurrent =>
      rw [Option.bind_some, Held.overtaken, hsame.signals, hs]
      exact hahead
  case inr hrun =>
    have hstate := hrun (reconfigureShared writer) r.signals r.writers
    rw [hself] at hstate
    have hreconf : ((reconfigureShared writer).run r₁).state = r' := by
      rw [← hr', ← hstate]
    have hsignal : held.bind (·.signal port r) = held.bind (·.signal port r₁) := by
      simp only [Held.signal, hsame.signals]
    have hovertaken : held.bind (·.overtaken port r r') = held.bind (·.overtaken port r₁ r') := by
      simp only [Held.overtaken, hsame.signals]
    rw [hrun, hovertaken]
    exact hahead.reconfigured (hsignal ▸ hwriter) hreconf

end Ahead

section Call

variable {packet : Packet} {c : Call} {held : Option Held}

omit [Crc32] in
theorem withSignal_self (hs : r.signals.lookup port = some s) (hw : r.writers[s.writer]? = some w)
    (hkeys : (r.signals.map Prod.fst).Nodup) : r.withSignal port s.writer (s, w) = r := by
  have hmap : r.signals.map (replaced port (s, w)) = r.signals := by
    refine (List.map_congr_left fun y hy => ?_).trans (List.map_id _)
    by_cases hport : y.1 = port
    case neg => rw [replaced, if_neg hport, id]
    case pos =>
      have hsame : (port, s) = y := List.inj_on_of_nodup_map hkeys (mem_of_lookup hs) hy hport.symm
      rw [replaced, if_pos hport, id, hsame]
  obtain ⟨hi, hw⟩ := List.getElem?_eq_some_iff.mp hw
  have hset : r.writers.set s.writer w = r.writers := hw ▸ List.set_getElem_self hi
  rw [withSignal, hset]
  exact congrArg (fun signals => { r with signals }) hmap

-- There is nothing left to do but to close the file that nobody else holds.
theorem Ahead.released (h : Ahead id port r held g) (hdistinct : Distinct g) (hlinked : Linked g) :
    (∀ s, held = some (.alone s) → r.release s = g) ∧
      ((∀ s, held ≠ some (.alone s)) → r = g) := by
  cases h
  case none => simp
  case shared s w hs hw hcurrent =>
    have hkeys : (r.signals.map Prod.fst).Nodup := by
      have hkeys := hdistinct.signals
      have hmap : (r.withSignal port s.writer (id (s, w))).signals.map Prod.fst =
          r.signals.map Prod.fst := by
        rw [withSignal, List.map_map]
        exact List.map_congr_left fun y _ => replaced_fst y
      rwa [hmap] at hkeys
    have hself := withSignal_self hs hw hkeys
    simp [hself]
  case alone s w hw =>
    refine ⟨?_, fun h => absurd rfl (h s)⟩
    rintro _ ⟨⟩
    obtain ⟨hi, rfl⟩ := List.getElem?_eq_some_iff.mp hw
    by_cases hwriter : r.writer = some s.writer
    case pos =>
      rw [release, holds, if_pos (by simp [hwriter]), settled_of_eq hwriter, id,
        List.set_getElem_self hi]
    case neg =>
      have hnone : ∀ y ∈ r.signals, y.2.writer ≠ s.writer := by
        intro y hy heq
        exact hwriter (heq ▸ hlinked.current y hy)
      have hholds : ¬r.holds s.writer = true := by
        simpa [holds, hwriter] using fun _ y hy => hnone (_, y) hy
      rw [release, if_neg hholds, settled_of_ne hwriter, id, List.modify_eq_set_getElem?]
      simp [hi]

variable [Host]

-- What a signal and its writer make of a packet.
def received (packet : Packet) (x : AdvancedRecorderSignal × Writer) : AdvancedRecorderSignal × Writer :=
  ((AdvancedRecorderSignal.onPacketReceived packet).run x).state

theorem received_writer : (received packet (s, w)).1.writer = s.writer :=
  AdvancedRecorderSignal.writer_received

omit [Crc32] [Host] in
theorem withSignal_withSignal {x y : AdvancedRecorderSignal × Writer} :
    (r.withSignal port i x).withSignal port i y = r.withSignal port i y := by
  simp only [withSignal, List.map_map, List.set_set]
  congr 1
  apply List.map_congr_left
  intro z _
  by_cases hz : z.1 = port <;> simp [hz]

-- The call catches up with what was put off.
theorem Ahead.delivered (h : Ahead (received packet) c.port r c.held g) : ∃ r' held,
    Threaded.deliver packet c r = { impl := r', call := some { c with packet := .none, held } } ∧
      Ahead id c.port r' held g := by
  obtain ⟨port, packet', phase, held⟩ := c
  rw [Threaded.deliver]
  dsimp only at h ⊢
  cases h
  case none => exact ⟨r, .none, rfl, .none⟩
  case shared s w hs hw hcurrent =>
    refine ⟨_, some .shared, rfl, ?_⟩
    have hi := (List.getElem?_eq_some_iff.mp hw).choose
    rw [onSignal_state hs hw]
    have hwriter : (received packet (s, w)).1.writer = s.writer := received_writer
    have hlookup : (r.withSignal port s.writer (received packet (s, w))).signals.lookup port =
        some (received packet (s, w)).1 := lookup_withSignal_self hs
    have hahead : Ahead id port (r.withSignal port s.writer (received packet (s, w)))
        (some .shared) _ :=
      .shared hlookup (by rw [hwriter]; exact List.getElem?_set_self hi) (by rw [hwriter]; exact hcurrent)
    rw [hwriter, withSignal_withSignal] at hahead
    exact hahead
  case alone s w hw =>
    simp only [hw]
    refine ⟨_, _, rfl, ?_⟩
    have hi := (List.getElem?_eq_some_iff.mp hw).choose
    have hwriter : (received packet (s, w)).1.writer = s.writer := received_writer
    have hahead : Ahead id port { r with writers := r.writers.set s.writer (received packet (s, w)).2 }
        (some (.alone (received packet (s, w)).1)) _ :=
      .alone (by rw [hwriter]; exact List.getElem?_set_self hi)
    rw [hwriter, settled] at hahead
    simp only [id, List.set_set] at hahead
    exact hahead

theorem exec_packet_state (horderly : r.Orderly) (hconnected : (r.connection port).isSome) :
    ((exec (.packet port packet)).run r).state =
      ((onSignal port (AdvancedRecorderSignal.onPacketReceived packet)).run r).state := by
  have htransition := transition (e := .packet port packet) horderly
  generalize ((exec (.packet port packet)).run r).state = r' at htransition ⊢
  cases htransition
  case reconfigured hprep _ => cases hprep
  case packet               => rfl
  case ignored h            =>
    have hnone : r.connection port = none := h
    rw [hnone] at hconnected
    cases hconnected

-- The signal of the call is looked up where the packet is put.
theorem ahead_found (horderly : r.Orderly) (hlinked : Linked r)
    (hconnected : (r.connection port).isSome) :
    Ahead (received packet) port r ((r.signals.lookup port).map fun _ => Held.shared)
      ((exec (.packet port packet)).run r).state := by
  rw [exec_packet_state horderly hconnected]
  cases hs : r.signals.lookup port
  case none =>
    have hrun : ((onSignal port (AdvancedRecorderSignal.onPacketReceived packet)).run r).state = r := by
      simp only [onSignal, EStateM.run, hs, Result.state_ok]
    rw [hrun]
    exact .none
  case some s =>
    have hcurrent := hlinked.current _ (mem_of_lookup hs)
    have hw := List.getElem?_eq_getElem (hlinked.valid s.writer hcurrent)
    rw [onSignal_state hs hw]
    exact .shared hs hw hcurrent

omit [Host] in
theorem ahead_found_lost (hdistinct : Distinct r) (hlinked : Linked r) :
    Ahead id port r ((r.signals.lookup port).map fun _ => Held.shared) r := by
  cases hs : r.signals.lookup port
  case none   => exact .none
  case some s =>
    have hcurrent := hlinked.current _ (mem_of_lookup hs)
    have hw := List.getElem?_eq_getElem (hlinked.valid s.writer hcurrent)
    have hahead : Ahead id port r (some .shared) _ := .shared hs hw hcurrent
    rw [id, withSignal_self hs hw hdistinct.signals] at hahead
    exact hahead

end Call

end AdvancedRecorderImpl
end AdvancedRecorder
