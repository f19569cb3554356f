import OpenDaqModules.Recorder.Packets
import OpenDaqModules.Recorder.Steps

namespace AdvancedRecorder.AdvancedRecorderImpl

open Sie EStateM

-- The files of the past are not forgotten, and each of them only gets longer.
structure Grown (r r' : AdvancedRecorderImpl) : Prop where
  disk     : r'.disk = r.disk
  attempts : r.attempts <+: r'.attempts
  writers  : ∀ (i : ℕ) w, r.writers[i]? = some w →
    ∃ w', r'.writers[i]? = some w' ∧ Writer.Grown w w'

namespace Grown

variable {r r' : AdvancedRecorderImpl} {e : Event}

instance : Std.Refl Grown where
  refl _ := ⟨rfl, List.prefix_rfl, fun _ w hw => ⟨w, hw, Std.Refl.refl w⟩⟩

instance : IsTrans AdvancedRecorderImpl Grown where
  trans _ _ _ h h' := by
    refine ⟨h'.disk.trans h.disk, h.attempts.trans h'.attempts, fun i w hw => ?_⟩
    have ⟨w', hw', hg⟩ := h.writers i w hw
    have ⟨w'', hw'', hg'⟩ := h'.writers i w' hw'
    exact ⟨w'', hw'', trans_of Writer.Grown hg hg'⟩

theorem of_writers_eq (hdisk : r'.disk = r.disk) (hattempts : r.attempts <+: r'.attempts)
    (hwriters : r'.writers = r.writers) : Grown r r' :=
  ⟨hdisk, hattempts, fun _ w hw => ⟨w, hwriters ▸ hw, Std.Refl.refl w⟩⟩

-- What survives growth holds of the writers that were there before.
theorem writer {P : Writer → Prop} (h : Grown r r') (hP : ∀ w w', Writer.Grown w w' → P w → P w')
    (hr : ∀ w ∈ r.writers, P w) (hi : i < r.writers.length) (hw : r'.writers[i]? = some w) : P w := by
  have ⟨w', hw', hg⟩ := h.writers i _ (List.getElem?_eq_getElem hi)
  cases Option.some.inj (hw.symm.trans hw')
  exact hP _ _ hg (hr _ (List.getElem_mem hi))

theorem withSignal {x : AdvancedRecorderSignal × Writer} (hw : r.writers[i]? = some w)
    (h : Writer.Grown w x.2) : Grown r (r.withSignal port i x) := by
  refine ⟨rfl, List.prefix_rfl, fun j v hv => ?_⟩
  by_cases hij : i = j
  case pos =>
    cases hij
    cases Option.some.inj (hw.symm.trans hv)
    have hi := (List.getElem?_eq_some_iff.mp hw).choose
    exact ⟨x.2, by simp [AdvancedRecorderImpl.withSignal, hi], h⟩
  case neg =>
    exact ⟨v, by simp [AdvancedRecorderImpl.withSignal, List.getElem?_set_ne hij, hv], Std.Refl.refl v⟩

variable [Crc32]

omit [Crc32] in
theorem publish (w : Writer) : Grown r (r.publish w) := by
  refine ⟨rfl, List.prefix_append _ _, fun i v hv => ⟨v, ?_, Std.Refl.refl v⟩⟩
  have hi := (List.getElem?_eq_some_iff.mp hv).choose
  rw [AdvancedRecorderImpl.publish, List.getElem?_append_left hi, hv]

omit [Crc32] in
theorem updateSignals {i : ℕ} : Grown r (r.updateSignals i) :=
  of_writers_eq rfl List.prefix_rfl rfl

theorem closeWriter {w : Writer} : Writer.Grown w (closeWriter w) :=
  ⟨IndexedWriter.exec_writes .destroy, le_rfl, le_rfl, le_rfl⟩

theorem closed : Grown r r.closed := by
  refine ⟨rfl, List.prefix_rfl, fun j w hw => ?_⟩
  rw [AdvancedRecorderImpl.closed]
  cases r.writer
  case none   => exact ⟨w, hw, Std.Refl.refl w⟩
  case some i =>
    by_cases hij : i = j
    case pos => exact ⟨_, by simp [hij, hw], closeWriter⟩
    case neg => exact ⟨w, by simp [hij, hw], Std.Refl.refl w⟩

end Grown

variable {r r' : AdvancedRecorderImpl} {e : Event} [Crc32]

theorem Reconfigured.grown (h : Reconfigured r r') : Grown r r' := by
  cases h
  case kept      => exact .updateSignals
  case failed    => exact .of_writers_eq rfl (List.prefix_append _ _) rfl
  case opened    => exact trans_of Grown (.publish _) .updateSignals
  case published => exact .publish _
  case closed    => exact .closed

def preambleBlock : Block where
  group   := groups.METADATA
  payload := preamble

-- A new writer is one to which only the preamble was written.
def Opened (w : Writer) : Prop :=
  ∃ schedule uuids, w = ((Writer.writeMetadata preamble).run (newWriter schedule uuids)).state

omit [Crc32] in
theorem opened_of_publish (hi : r.writers.length ≤ i) (hw : (r.publish v).writers[i]? = some w) :
    w = v := by
  rw [publish, List.getElem?_append_right hi] at hw
  exact List.mem_singleton.mp (List.mem_of_getElem? hw)

theorem Reconfigured.new_writer (h : Reconfigured r r') (hi : r.writers.length ≤ i)
    (hw : r'.writers[i]? = some w) : Opened w := by
  have hnone : r.writers[i]? = none := List.getElem?_eq_none hi
  cases h
  case kept   => exact absurd (hw.symm.trans hnone) (Option.some_ne_none w)
  case failed => exact absurd (hw.symm.trans hnone) (Option.some_ne_none w)
  case opened schedule uuids v _ _ _ hrun =>
    exact ⟨schedule, uuids, by rw [hrun, opened_of_publish hi hw, Result.state_ok]⟩
  case published schedule uuids _ v _ _ _ hrun =>
    exact ⟨schedule, uuids, by rw [hrun, opened_of_publish hi hw, Result.state_error]⟩
  case closed =>
    have hlength : r.closed.writers.length = r.writers.length := by
      rw [AdvancedRecorderImpl.closed]
      cases r.writer <;> simp
    exact absurd (hw.symm.trans (List.getElem?_eq_none (hlength ▸ hi))) (Option.some_ne_none w)

variable [Host]

theorem Transition.grown (h : Transition r e r') : Grown r r' := by
  cases h
  case reconfigured r₁ hprep hreconf =>
    have h := hprep.unchanged
    exact trans_of Grown (.of_writers_eq h.disk (h.attempts ▸ List.prefix_rfl) h.writers) hreconf.grown
  case activated => exact .of_writers_eq rfl List.prefix_rfl rfl
  case ignored   => exact Std.Refl.refl r
  case packet port signal packet _ =>
    have hkeeps : Keeps Grown (onSignal port (AdvancedRecorderSignal.onPacketReceived packet)) := by
      refine onSignal_keeps fun r s w _ hw => .withSignal hw ?_
      refine AdvancedRecorderSignal.onPacketReceived_writer (fun w => ?_) (fun _ _ _ => ?_)
      · exact ⟨List.prefix_rfl, Nat.le_succ _, Nat.le_succ _, Nat.le_succ _⟩
      · exact Writer.writeBlock_keeps _
    exact hkeeps r

theorem Transition.new_writer (h : Transition r e r') (hi : r.writers.length ≤ i)
    (hw : r'.writers[i]? = some w) : Opened w := by
  have hnone : r.writers[i]? = none := List.getElem?_eq_none hi
  cases h
  case reconfigured r₁ hprep hreconf => exact hreconf.new_writer (hprep.unchanged.writers ▸ hi) hw
  case activated => exact absurd (hw.symm.trans hnone) (Option.some_ne_none w)
  case ignored   => exact absurd (hw.symm.trans hnone) (Option.some_ne_none w)
  case packet port signal packet _ =>
    let P (r : AdvancedRecorderImpl) := r.writers.length ≤ i
    have hkeeps : Keeps (Preserved P)
        (onSignal port (AdvancedRecorderSignal.onPacketReceived packet)) :=
      onSignal_keeps fun _ _ _ _ _ h => by simpa [P, withSignal] using h
    exact absurd (hw.symm.trans (List.getElem?_eq_none (hkeeps r hi))) (Option.some_ne_none w)

-- What holds of every new writer and survives growth holds of all writers.
theorem Transition.writers {P : Writer → Prop} (h : Transition r e r')
    (hopened : ∀ w, Opened w → P w) (hgrown : ∀ w w', Writer.Grown w w' → P w → P w')
    (hr : ∀ w ∈ r.writers, P w) : ∀ w ∈ r'.writers, P w := by
  intro w hw
  have ⟨i, hi⟩ := List.mem_iff_getElem?.mp hw
  by_cases hlt : i < r.writers.length
  case pos => exact h.grown.writer hgrown hr hlt hi
  case neg => exact hopened w (h.new_writer (Nat.le_of_not_lt hlt) hi)

variable {disk : ℕ → OpenOutcome} {events events' : List Event}

theorem grown_reached (h : events <+: events') :
    Grown (reached disk events) (reached disk events') := by
  obtain ⟨later, rfl⟩ := h
  induction later using List.reverseRecOn
  case nil => simpa using Std.Refl.refl (r := Grown) _
  case append_singleton later e ih =>
    rw [← List.append_assoc]
    exact trans_of Grown ih transition_reached.grown

theorem disk_reached : (reached disk events).disk = disk := by
  apply (grown_reached List.nil_prefix).disk.trans
  rw [reached, Exec.run_nil, create_eq]
  rfl

theorem writers_reached {P : Writer → Prop} (hopened : ∀ w, Opened w → P w)
    (hgrown : ∀ w w', Writer.Grown w w' → P w → P w') : ∀ w ∈ (reached disk events).writers, P w := by
  induction events using List.reverseRecOn
  case nil =>
    rw [reached, Exec.run_nil, create_eq]
    exact fun _ h => nomatch h
  case append_singleton events e ih => exact transition_reached.writers hopened hgrown ih

end AdvancedRecorder.AdvancedRecorderImpl
