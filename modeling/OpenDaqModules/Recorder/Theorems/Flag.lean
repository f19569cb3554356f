import OpenDaqModules.Recorder.Growth

namespace AdvancedRecorder.AdvancedRecorderImpl

open Sie EStateM

-- What nothing but a reconfiguration changes.
structure SameRecording (r r' : AdvancedRecorderImpl) : Prop where
  recordingActive : r'.recordingActive = r.recordingActive
  writer          : r'.writer          = r.writer
  attempts        : r'.attempts        = r.attempts
  disk            : r'.disk            = r.disk

instance : Std.Refl SameRecording where
  refl _ := ⟨rfl, rfl, rfl, rfl⟩

def Truthful (r : AdvancedRecorderImpl) : Prop :=
  r.recordingActive = true ↔ r.writer.isSome = true

-- The attempts to open a file that were made between two states have not failed.
def NoOpenFailed (r r' : AdvancedRecorderImpl) : Prop :=
  ∀ n, r.attempts.length ≤ n → n < r'.attempts.length → r.disk n ≠ .failed

variable {r r' : AdvancedRecorderImpl} {e : Event} {events : List Event}
  {disk : ℕ → OpenOutcome}

theorem SameRecording.truthful_iff (h : SameRecording r r') : Truthful r' ↔ Truthful r := by
  rw [Truthful, Truthful, h.recordingActive, h.writer]

theorem noOpenFailed_of_attempts_eq (h : r'.attempts = r.attempts) : NoOpenFailed r r' := by
  intro n hn hn'
  rw [h] at hn'
  exact absurd hn' hn.not_gt

theorem noOpenFailed_iff_of_attempts {name : Bytes}
    (h : r'.attempts = r.attempts ++ [name]) :
    NoOpenFailed r r' ↔ r.disk r.attempts.length ≠ .failed := by
  constructor
  case mp  => exact fun hopen => hopen _ le_rfl (by simp [h])
  case mpr =>
    intro hdisk n hn hn'
    have : n = r.attempts.length := by
      simp only [h, List.length_append, List.length_singleton] at hn'
      omega
    exact this ▸ hdisk

section

variable [Crc32]

-- A reconfiguration makes the flag true, unless it fails to open the file.
theorem Reconfigured.truthful_iff (h : Reconfigured r r') : Truthful r' ↔ NoOpenFailed r r' := by
  cases h
  case kept hrec hwriter =>
    exact iff_of_true (by simp [Truthful, updateSignals, hrec, hwriter])
      (noOpenFailed_of_attempts_eq rfl)
  case failed hrec hwriter hdisk =>
    apply iff_of_false (by simp [Truthful, hrec, hwriter])
    intro h
    exact (noOpenFailed_iff_of_attempts rfl).mp h hdisk
  case opened hrec _ hdisk _ =>
    exact iff_of_true (by simp [Truthful, updateSignals, publish, hrec])
      ((noOpenFailed_iff_of_attempts rfl).mpr (by simp [hdisk]))
  case published hrec _ hdisk _ =>
    exact iff_of_true (by simp [Truthful, publish, hrec])
      ((noOpenFailed_iff_of_attempts rfl).mpr (by simp [hdisk]))
  case closed hrec =>
    exact iff_of_true (by simp [Truthful, AdvancedRecorderImpl.closed, hrec])
      (noOpenFailed_of_attempts_eq rfl)

variable [Host]

theorem Transition.truthful_iff (h : Transition r e r') (hr : Truthful r) :
    Truthful r' ↔ NoOpenFailed r r' := by
  cases h
  case reconfigured r₁ hprep h =>
    rw [h.truthful_iff, NoOpenFailed, NoOpenFailed, hprep.unchanged.attempts, hprep.unchanged.disk]
  case activated =>
    exact iff_of_true hr (noOpenFailed_of_attempts_eq rfl)
  case ignored => exact iff_of_true hr (noOpenFailed_of_attempts_eq rfl)
  case packet port signal packet _ =>
    have hkeeps : Keeps SameRecording
        (onSignal port (AdvancedRecorderSignal.onPacketReceived packet)) :=
      onSignal_keeps fun _ _ _ _ _ => ⟨rfl, rfl, rfl, rfl⟩
    have hsame := hkeeps r
    exact iff_of_true (hsame.truthful_iff.mpr hr) (noOpenFailed_of_attempts_eq hsame.attempts)

-- The flag is true throughout a run, and a start that cannot open the file changes nothing.
structure FlagTruthful (disk : ℕ → OpenOutcome) (events : List Event) : Prop where
  truthful : ∀ done, done <+: events → Truthful (reached disk done)
  start    : ∀ done, done ++ [.startRecording] <+: events →
    let r  := reached disk done
    let r' := reached disk (done ++ [.startRecording])
    ¬(startRecording.run r).Returns → ¬NoOpenFailed r r' →
      r'.recordingActive = r.recordingActive ∧ r'.writer = r.writer ∧ r'.signals = r.signals

omit [Crc32] [Host] in
theorem truthful_create : Truthful (create disk) := by
  rw [create_eq]
  exact iff_of_false Bool.false_ne_true Bool.false_ne_true

theorem attempts_ne_failed_of_truthful
    (h : ∀ done, done <+: events → Truthful (reached disk done)) :
    ∀ n < (reached disk events).attempts.length, disk n ≠ .failed := by
  induction events using List.reverseRecOn
  case nil =>
    rw [reached, Exec.run_nil, create_eq]
    exact fun n hn => absurd hn n.not_lt_zero
  case append_singleton events e ih =>
    have hbefore := h events (List.prefix_append _ _)
    have hafter := transition_reached.truthful_iff hbefore |>.mp (h _ List.prefix_rfl)
    intro n hn
    by_cases hold : n < (reached disk events).attempts.length
    case pos => exact ih (fun done hdone => h done (hdone.trans (List.prefix_append _ _))) n hold
    case neg =>
      have hdisk := hafter n (Nat.le_of_not_lt hold) hn
      rwa [disk_reached] at hdisk

theorem noOpenFailed_reached (h : ∀ n < (reached disk events).attempts.length, disk n ≠ .failed)
    (hdone : done ++ [e] <+: events) :
    NoOpenFailed (reached disk done) (reached disk (done ++ [e])) := by
  intro n _ hn
  rw [disk_reached]
  exact h n (hn.trans_le (grown_reached hdone).attempts.length_le)

theorem flagTruthful_iff :
    FlagTruthful disk events ↔ ∀ n < (reached disk events).attempts.length, disk n ≠ .failed := by
  constructor
  case mp  => exact fun h => attempts_ne_failed_of_truthful h.truthful
  case mpr =>
    intro h
    constructor
    case start    => exact fun done hdone _ hfailed => absurd (noOpenFailed_reached h hdone) hfailed
    case truthful =>
      intro done hdone
      induction done using List.reverseRecOn
      case nil => exact truthful_create
      case append_singleton done e ih =>
        have hbefore := ih ((List.prefix_append _ _).trans hdone)
        exact transition_reached.truthful_iff hbefore |>.mpr (noOpenFailed_reached h hdone)

end

-- The file cannot be opened, but the recorder says that it is recording.
theorem not_flagTruthful_open_fails :
    let _ := Crc32.ieee
    let _ := Host.exact
    ¬FlagTruthful (fun _ => .failed) [.startRecording] := by
  intro _ _ h
  have htruthful := h.truthful [.startRecording] List.prefix_rfl
  simp only [Truthful] at htruthful
  revert htruthful
  decide +kernel

end AdvancedRecorder.AdvancedRecorderImpl
