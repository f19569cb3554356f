import OpenDaqModules.Recorder.Files

namespace AdvancedRecorder

open Sie EStateM

theorem AdvancedRecorderSignal.writer_received [Crc32] [Host] {packet : Packet}
    {s : AdvancedRecorderSignal} {w : Writer} :
    ((AdvancedRecorderSignal.onPacketReceived packet).run (s, w)).state.1.writer = s.writer := by
  cases packet
  case event => rfl
  case data packet =>
    rw [AdvancedRecorderSignal.run_state_fst]
    exact AdvancedRecorderSignal.prepared_signal.right.left

namespace AdvancedRecorderImpl

variable {disk : ℕ → OpenOutcome} {events : List Event} {r r' : AdvancedRecorderImpl}
  {e : Event} {w : Writer} {i : ℕ}

section Lookup

variable {port p : ℕ} {s : AdvancedRecorderSignal} {x : AdvancedRecorderSignal × Writer}

theorem lookup_withSignal_self (hs : r.signals.lookup port = some s) :
    (r.withSignal port i x).signals.lookup port = some x.1 := by
  rw [withSignal]
  revert hs
  induction r.signals
  case nil =>
    intro hs
    cases hs
  case cons y ys ih =>
    obtain ⟨p, s'⟩ := y
    intro hs
    by_cases hp : p = port
    case pos => simp [hp]
    case neg =>
      have hne : (port == p) = false := by simpa using Ne.symm hp
      rw [List.lookup_cons, hne] at hs
      rw [List.map_cons, if_neg hp, List.lookup_cons, hne]
      exact ih hs

theorem lookup_withSignal_of_ne (hp : p ≠ port) :
    (r.withSignal port i x).signals.lookup p = r.signals.lookup p := by
  rw [withSignal]
  induction r.signals
  case nil          => rfl
  case cons y ys ih =>
    obtain ⟨q, s'⟩ := y
    by_cases hq : q = port
    case pos =>
      have hne : (p == q) = false := by simpa [hq] using hp
      have hne' : (p == port) = false := by simpa using hp
      rw [List.map_cons, if_pos hq, List.lookup_cons, List.lookup_cons, hne, hne']
      exact ih
    case neg =>
      rw [List.map_cons, if_neg hq, List.lookup_cons, List.lookup_cons, ih]

theorem lookup_of_mem {signals : List (ℕ × AdvancedRecorderSignal)}
    (hkeys : (signals.map Prod.fst).Nodup) (h : (p, s) ∈ signals) : signals.lookup p = some s := by
  have hsome : (signals.lookup p).isSome := List.lookup_isSome_iff.mpr ⟨_, h, beq_self_eq_true p⟩
  obtain ⟨s', hs'⟩ := Option.isSome_iff_exists.mp hsome
  have hmem : (p, s') ∈ signals := mem_of_lookup (r := { signals, disk := fun _ => .failed }) hs'
  have hsame := List.inj_on_of_nodup_map hkeys h hmem rfl
  rw [hs', (Prod.mk.inj hsame).right]

end Lookup

-- The signals hold the writer that the recorder holds.
structure Linked (r : AdvancedRecorderImpl) : Prop where
  valid   : ∀ i ∈ r.writer, i < r.writers.length
  current : ∀ x ∈ r.signals, r.writer = some x.2.writer

namespace Linked

theorem of_same (h : Linked r) (hwriter : r'.writer = r.writer) (hwriters : r'.writers = r.writers)
    (hsignals : r'.signals = r.signals) : Linked r' := by
  constructor
  case valid   => rw [hwriter, hwriters]; exact h.valid
  case current => rw [hwriter, hsignals]; exact h.current

theorem updateSignals (h : Linked r) (hwriter : r.writer = some i) : Linked (r.updateSignals i) := by
  refine ⟨h.valid, fun x hx => ?_⟩
  cases mem_updateSignals hx
  case inl hx => exact h.current x hx
  case inr hx =>
    obtain ⟨_, hx⟩ := hx
    exact hx ▸ hwriter

theorem publish (h : Linked r) (hwriter : r.writer = none) : Linked (r.publish w) := by
  constructor
  case valid =>
    intro i hi
    cases hi
    simp [AdvancedRecorderImpl.publish]
  case current =>
    intro x hx
    have hsome := h.current x hx
    rw [hwriter] at hsome
    cases hsome

theorem withSignal {port : ℕ} {s : AdvancedRecorderSignal} {x : AdvancedRecorderSignal × Writer}
    (h : Linked r) (hs : r.signals.lookup port = some s) (hwriter : x.1.writer = s.writer) :
    Linked (r.withSignal port i x) := by
  constructor
  case valid =>
    intro j hj
    rw [AdvancedRecorderImpl.withSignal, List.length_set]
    exact h.valid j hj
  case current =>
    intro y hy
    cases mem_withSignal hy
    case inl hy => exact h.current y hy
    case inr hy =>
      rw [hy, hwriter]
      exact h.current _ (mem_of_lookup hs)

end Linked

variable [Crc32]

theorem Reconfigured.linked (h : Reconfigured r r') (hr : Linked r) : Linked r' := by
  cases h
  case kept hwriter            => exact hr.updateSignals hwriter
  case failed                  => exact hr.of_same rfl rfl rfl
  case opened _ hwriter _ _    => exact (hr.publish hwriter).updateSignals rfl
  case published _ hwriter _ _ => exact hr.publish hwriter
  case closed                  => exact ⟨(fun _ h => nomatch h), (fun _ h => nomatch h)⟩

variable [Host]

theorem Transition.linked (h : Transition r e r') (hr : Linked r) : Linked r' := by
  cases h
  case reconfigured hprep hreconf =>
    have hsame := hprep.unchanged
    exact hreconf.linked (hr.of_same hsame.writer hsame.writers hsame.signals)
  case activated => exact hr.of_same rfl rfl rfl
  case ignored   => exact hr
  case packet port signal packet _ =>
    cases onSignal_cases port (AdvancedRecorderSignal.onPacketReceived packet) r
    case inr hcase => exact hcase.right.symm ▸ hr
    case inl hcase =>
      obtain ⟨s, w, hs, _, hstate⟩ := hcase
      rw [hstate]
      exact hr.withSignal hs AdvancedRecorderSignal.writer_received

omit [Crc32] [Host] in
theorem linked_create : Linked (create disk) := by
  rw [create_eq]
  exact ⟨(fun _ h => nomatch h), (fun _ h => nomatch h)⟩

theorem linked_reached : Linked (reached disk events) := by
  induction events using List.reverseRecOn
  case nil                          => exact linked_create
  case append_singleton events e ih => exact transition_reached.linked ih

end AdvancedRecorderImpl
end AdvancedRecorder
