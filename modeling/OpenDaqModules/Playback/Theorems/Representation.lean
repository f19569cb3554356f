import OpenDaqModules.Playback.Steps

namespace PlaybackDevice

open EStateM
open Platform (Double)
open Sie (str)

namespace Channel

variable [Platform] {c d : Channel} {startTime : ℤ} {base : Int64}

structure Consistent (c : Channel) : Prop where
  signals : c.valueSignal.isSome ↔ c.timeSignal.isSome
  buffer  : c.timeSignal.isSome ↔ c.dataBuffer ≠ []
  index   : c.dataBuffer ≠ [] → c.dataBufferIndex < c.dataBuffer.length

-- Whenever samples can be counted, collecting them throws nothing and sends no null packet.
def CollectsSafely (c : Channel) : Prop :=
  ∀ time active n, c.getSamplesSinceStart time = .ok n → ∃ sent d,
    (collectSamples time active).run c = .ok sent d ∧ ∀ s ∈ sent, s.dataPacket.isSome

namespace Ready

theorem consistent (h : c.Ready) : c.Consistent := by
  cases h
  case empty hvalue htime hsignals hbuffer =>
    refine ⟨?_, ?_, fun hne => absurd hbuffer hne⟩
    · simp [hvalue, htime]
    · simp [htime, hbuffer]
  case loaded value time hvalue htime hsignals hindex =>
    have hbuffer : c.dataBuffer ≠ [] := List.length_pos_iff.mp (Nat.zero_lt_of_lt hindex)
    refine ⟨?_, ?_, fun _ => hindex⟩
    · simp [hvalue, htime]
    · simp [htime, hbuffer]

theorem collectsSafely (h : c.Ready) : c.CollectsSafely := by
  intro time active n hsince
  cases h
  case empty hvalue htime hsignals hbuffer =>
    exact ⟨none, _, collectSamples_run_of_none hvalue hsince, fun _ hs => absurd hs (by simp)⟩
  case loaded value time hvalue htime hsignals hindex =>
    have hloaded : c.Loaded ⟨c.dataBuffer, Nat.zero_lt_of_lt hindex⟩ value time :=
      ⟨hvalue, htime, rfl, hindex⟩
    have hrun := hloaded.collectSamples_run active hsince
    refine ⟨_, _, hrun, fun s hs => ?_⟩
    split at hs
    case isTrue =>
      cases hs
      rfl
    case isFalse => cases hs

theorem collectSamples {time : ℤ} {active : Bool} (h : c.Ready) :
    ((collectSamples time active).run c).state.Ready := by
  cases hsince : c.getSamplesSinceStart time
  case error e =>
    rw [collectSamples_run_error hsince]
    exact h
  case ok n =>
    cases h
    case empty hvalue htime hsignals hbuffer =>
      rw [collectSamples_run_of_none hvalue hsince]
      exact .empty hvalue htime hsignals hbuffer
    case loaded value timing hvalue htime hsignals hindex =>
      have hloaded : c.Loaded ⟨c.dataBuffer, Nat.zero_lt_of_lt hindex⟩ value timing :=
        ⟨hvalue, htime, rfl, hindex⟩
      have hrun := hloaded.collectSamples_run active hsince
      rw [hrun]
      exact .loaded value timing hvalue htime hsignals (Nat.mod_lt _ (Nat.zero_lt_of_lt hindex))

theorem dataSourceChanged (h : c.Ready) (hnamed : c.sourceBuffer ≠ [] → c.Named)
    (hdelta : c.sourceBuffer ≠ [] → c.deltaT ≠ 0) :
    ∃ d, Channel.dataSourceChanged.run c = .ok () d ∧ d.Ready := by
  rw [h.dataSourceChanged_run]
  by_cases hempty : c.sourceBuffer = []
  case pos => exact ⟨c.swapped, if_pos hempty, .empty rfl rfl rfl hempty⟩
  case neg =>
    have hcreate : createSignals.run { c.swapped with sampleRate := c.fileRate } = _ :=
      createSignals_run ((canCreateSignals_iff rfl).mpr (hnamed hempty))
    have hindex : c.swapped.dataBufferIndex < c.sourceBuffer.length := by
      rw [swapped, if_neg hempty]
      exact List.length_pos_iff.mpr hempty
    refine ⟨_, (if_neg hempty).trans ((if_neg (hdelta hempty)).trans hcreate), ?_⟩
    exact .loaded _ _ rfl rfl rfl hindex

-- A data source whose signals cannot be created leaves a buffer behind that has no time signal.
theorem dataSourceChanged_error (h : c.Ready) (hempty : c.sourceBuffer ≠ []) (hnamed : ¬c.Named)
    (hdelta : c.deltaT ≠ 0) : ∃ e d, Channel.dataSourceChanged.run c = .error e d ∧
      ¬d.Consistent := by
  rw [h.dataSourceChanged_run, if_neg hempty, if_neg hdelta]
  have hcan : ¬CanCreateSignals { c.swapped with sampleRate := c.fileRate } :=
    (canCreateSignals_iff rfl).not.mpr hnamed
  obtain ⟨e, d, hrun, htime, hbuffer⟩ := createSignals_run_error hcan
  refine ⟨e, d, hrun, fun hconsistent => ?_⟩
  have hsome : d.timeSignal.isSome := hconsistent.buffer.mpr (by rwa [hbuffer])
  rw [htime] at hsome
  cases hsome

-- Defined behaviour means that there is a rate to compute.
theorem deltaT_ne_zero (h : c.Ready)
    (hdefined : ∀ d, Channel.dataSourceChanged.run c ≠ .error .undefinedBehaviour d)
    (hempty : c.sourceBuffer ≠ []) : c.deltaT ≠ 0 := by
  intro hdelta
  apply hdefined c.swapped
  rw [h.dataSourceChanged_run, if_neg hempty, if_pos hdelta]

theorem of_dataSourceChanged (h : c.Ready) (hrun : Channel.dataSourceChanged.run c = .ok () d) :
    d.Ready := by
  have hdefined : ∀ d, Channel.dataSourceChanged.run c ≠ .error .undefinedBehaviour d := by
    simp [hrun]
  have hnamed : c.sourceBuffer ≠ [] → c.Named := by
    intro hempty
    by_contra hnamed
    obtain ⟨e, d', herror, -⟩ :=
      h.dataSourceChanged_error hempty hnamed (h.deltaT_ne_zero hdefined hempty)
    rw [hrun] at herror
    cases herror
  obtain ⟨d', hok, hready⟩ := h.dataSourceChanged hnamed (h.deltaT_ne_zero hdefined)
  rw [hrun] at hok
  cases hok
  exact hready

end Ready

-- What the channel is after its construction.
theorem ready_of_initProperties
    (h : initProperties.run { startTime, microSecondsFromEpochToStartTime := base } = .ok () c) :
    c.Ready := by
  obtain ⟨d, hfirst, hsecond⟩ := of_initProperties h
  have hready : d.Ready := Ready.of_dataSourceChanged (.empty rfl rfl rfl rfl) hfirst
  exact hready.of_dataSourceChanged hsecond

end Channel

variable [Platform] {c d : Channel} {w : Write} {e : Event} {events : List Event}

-- The buffer that a write brings to play goes with two names that can be used together.
def Write.Fits (w : Write) (c : Channel) : Prop :=
  ∀ d, w.prepare.run c = .ok () d → d.sourceBuffer ≠ [] → d.Named

def Event.Fits : Event → Channel → Prop
  | .write property, c => property.Fits c
  | .zero _, _         => True
  | .collect _ _, _    => True

-- The step does not end in undefined behaviour.
def Event.Defined (e : Event) (c : Channel) : Prop :=
  ∀ d, e.step.run c ≠ .error .undefinedBehaviour d

theorem Event.defined_of_returns (h : (e.step.run c).Returns) : e.Defined c := by
  intro d herror
  rw [herror] at h
  exact h

namespace Channel.Ready

-- What a write has prepared is a sound channel, with a rate to compute if there is a buffer.
theorem prepared (h : c.Ready) (hdefined : (Event.write w).Defined c)
    (hprepare : w.prepare.run c = .ok () d) :
    d.Ready ∧ (d.sourceBuffer ≠ [] → d.deltaT ≠ 0) := by
  have huntouched : Untouched c (w.prepare.run c).state := w.prepare_untouched
  rw [hprepare] at huntouched
  have hready : d.Ready := huntouched.ready h
  refine ⟨hready, hready.deltaT_ne_zero ?_⟩
  rw [← w.handle_run_ok hprepare]
  exact hdefined

theorem step (h : c.Ready) (hdefined : e.Defined c) (hfits : e.Fits c) :
    (e.step.run c).state.Ready := by
  cases e
  case zero targetValue =>
    have huntouched : Untouched c ((Channel.zero targetValue).run c).state := by
      constructor <;> rfl
    exact huntouched.ready h
  case collect curTime active =>
    rw [Event.collect_state]
    exact h.collectSamples
  case write w =>
    change (w.handle.run c).state.Ready
    cases hprepare : w.prepare.run c
    case error error d =>
      have huntouched : Untouched c (w.prepare.run c).state := w.prepare_untouched
      rw [hprepare] at huntouched
      rw [w.handle_run_error hprepare]
      exact huntouched.ready h
    case ok _ d =>
      obtain ⟨hready, hdelta⟩ := h.prepared hdefined hprepare
      obtain ⟨d', hok, hready'⟩ := hready.dataSourceChanged (hfits d hprepare) hdelta
      rw [w.handle_run_ok hprepare, hok]
      exact hready'

-- Any other step is one after which the channel is not what it should be.
theorem fits_of_consistent (h : c.Ready) (hdefined : e.Defined c)
    (hconsistent : (e.step.run c).state.Consistent) : e.Fits c := by
  cases e
  case zero => trivial
  case collect => trivial
  case write w =>
    intro d hprepare hempty
    obtain ⟨hready, hdelta⟩ := h.prepared hdefined hprepare
    by_contra hnamed
    obtain ⟨error, d', herror, hinconsistent⟩ :=
      hready.dataSourceChanged_error hempty hnamed (hdelta hempty)
    apply hinconsistent
    change (w.handle.run c).state.Consistent at hconsistent
    rwa [w.handle_run_ok hprepare, herror] at hconsistent

end Channel.Ready

-- In the runs from a new channel, the representation is sound in every state reached if and only
-- if no write brings a buffer to play with names that cannot be used together.
theorem Channel.representation_iff {startTime : ℤ} {base : Int64}
    (hcreate : initProperties.run { startTime, microSecondsFromEpochToStartTime := base } = .ok () c)
    (hdefined : Exec.Along Event.step Event.Defined events c) :
    (∀ run, run <+: events → (Exec.run Event.step run c).Consistent ∧
      (Exec.run Event.step run c).CollectsSafely) ↔ Exec.Along Event.step Event.Fits events c := by
  refine Exec.forall_prefix_iff_along (P := fun c => c.Consistent ∧ c.CollectsSafely) (I := Ready)
    (ready_of_initProperties hcreate) hdefined ?_ ?_ ?_
  case refine_1 => exact fun _ h => ⟨h.consistent, h.collectsSafely⟩
  case refine_2 => exact fun _ _ h hdefined hfits => h.step hdefined hfits
  case refine_3 => exact fun _ _ h hdefined hsound => h.fits_of_consistent hdefined hsound.left

omit [Platform] in
theorem Channel.representation_iff_other_values : let _ := Platform.exact
    let new : Channel := { startTime := 0, microSecondsFromEpochToStartTime := 0 }
    let events := [.write (.valueArray [(7 : ℚ)]), .collect 5000 true]
    (∀ run, run <+: events → (Exec.run Event.step run (initProperties.run new).state).Consistent ∧
      (Exec.run Event.step run (initProperties.run new).state).CollectsSafely) ↔
      Exec.Along Event.step Event.Fits events (initProperties.run new).state := by
  intro _ new events
  obtain ⟨⟨⟩, hcreate⟩ := Result.returns_iff.mp (by decide +kernel : (initProperties.run new).Returns)
  exact representation_iff hcreate ⟨Event.defined_of_returns (by decide +kernel),
    Event.defined_of_returns (by decide +kernel), trivial⟩

omit [Platform] in
-- A file that calls both of its signals the same leaves a value signal without its time signal.
theorem Channel.inconsistent_equal_names : let _ := Platform.exact
    let new : Channel := { startTime := 0, microSecondsFromEpochToStartTime := 0 }
    let write := Event.write (.filePath (str "equal.csv") (some (str "A,A\n")))
    (initProperties.run new).Returns ∧
      ¬(Exec.run Event.step [write] (initProperties.run new).state).Consistent ∧
      ¬(Exec.run Event.step [write] (initProperties.run new).state).CollectsSafely := by
  intro _ new write
  have hvalue : (Exec.run Event.step [write] (initProperties.run new).state).valueSignal.isSome := by
    decide +kernel
  have htime : ¬(Exec.run Event.step [write] (initProperties.run new).state).timeSignal.isSome := by
    decide +kernel
  refine ⟨by decide +kernel, fun h => htime (h.signals.mp hvalue), fun h => ?_⟩
  obtain ⟨sent, d, hrun, -⟩ := h 5000 true 5 (by decide +kernel)
  refine absurd ?_ (by decide +kernel : ¬((collectSamples 5000 true).run
    (Exec.run Event.step [write] (initProperties.run new).state)).Returns)
  rw [hrun]
  trivial

end PlaybackDevice
