import OpenDaqModules.Recorder.Stored
import OpenDaqModules.Recorder.Sie.Theorems.Index

-- The files of a recorder are those of indexed writers that are asked for nothing but the blocks of
-- metadata and of channels.
namespace Sie.Writer

def Runs [Crc32] (w w' : Writer) : Prop :=
  ∃ ops : List IndexedWriter.Op, (∀ op ∈ ops, ∀ b ∈ op.block?, b.group ≠ groups.INDEX) ∧
    w'.writer = Exec.run IndexedWriter.exec ops w.writer

namespace Runs

variable [Crc32] {w w' : Writer} {group : UInt32} {args : List Bytes}

instance : Std.Refl Runs where
  refl _ := ⟨[], (fun _ h => nomatch h), rfl⟩

instance : IsTrans Writer Runs where
  trans _ _ _ h h' := by
    obtain ⟨ops, hops, hw⟩ := h
    obtain ⟨ops', hops', hw'⟩ := h'
    refine ⟨ops ++ ops', fun op hop => ?_, by rw [Exec.run_append, hw', hw]⟩
    exact (List.mem_append.mp hop).elim (hops op) (hops' op)

theorem writeBlock (h : group ≠ groups.INDEX) : Runs w ((Writer.writeBlock group args).run w).state := by
  refine ⟨[.writeBlock group args], fun op hop b hb => ?_, ?_⟩
  · cases List.mem_singleton.mp hop
    cases hb
    exact h
  · rw [Writer.writeBlock, EStateM.zoom_state]
    rfl

theorem writeMetadata {xml : Bytes} : Runs w ((Writer.writeMetadata xml).run w).state :=
  writeBlock (by decide)

theorem allocated : Runs w w.allocated :=
  ⟨[], (fun _ h => nomatch h), rfl⟩

end Runs
end Sie.Writer

namespace AdvancedRecorder

open Sie Xml EStateM

variable [Crc32]

namespace AdvancedRecorderSignal

variable [Host] {packet : DataPacket} {s : AdvancedRecorderSignal} {w : Writer}

theorem runs_prepared : w.Runs (prepared packet s w).2 := by
  have hmetadata : ∀ xml, w.Runs ((Writer.writeMetadata xml).run w.allocated).state := by
    exact fun xml => trans_of Writer.Runs .allocated .writeMetadata
  have h := preparation packet s w
  generalize prepared packet s w = x at h ⊢
  cases h
  case known       => exact Std.Refl.refl w
  case unsupported => exact Std.Refl.refl w
  case undeclared  => exact .allocated
  case failed es _ _ _ _ _ hrun =>
    have hw := hmetadata (Element.serializeAll 1 es)
    rwa [hrun] at hw
  case declared es _ _ _ _ hrun =>
    have hw := hmetadata (Element.serializeAll 1 es)
    rwa [hrun] at hw

theorem runs_received
    (hgroup : ∀ handler ∈ (prepared packet s w).1.handler, handler.group ≠ groups.INDEX) :
    w.Runs ((onPacketReceived (.data packet)).run (s, w)).state.2 := by
  cases hrequest : (prepared packet s w).1.request packet
  case none =>
    rw [onPacketReceived, onDataPacketReceived_run, hrequest]
    exact runs_prepared
  case some request =>
    obtain ⟨group, args⟩ := request
    obtain ⟨handler, hhandler, rfl, _⟩ := request_eq_some hrequest
    rw [(run_of_request hrequest).right]
    exact trans_of Writer.Runs runs_prepared (.writeBlock (hgroup handler hhandler))

end AdvancedRecorderSignal

namespace AdvancedRecorderImpl

variable {r r' : AdvancedRecorderImpl} {w w' : Writer} {e : Event} {i : ℕ}

theorem runs_closeWriter : w.Runs (closeWriter w) :=
  ⟨[.destroy], by simp [IndexedWriter.Op.block?], rfl⟩

theorem Opened.runs (h : Opened w) : ∃ schedule uuids, (newWriter schedule uuids).Runs w := by
  obtain ⟨schedule, uuids, rfl⟩ := h
  exact ⟨schedule, uuids, .writeMetadata⟩

theorem getElem?_closed (hw : r.writers[i]? = some w) :
    r.closed.writers[i]? = some w ∨ r.closed.writers[i]? = some (closeWriter w) := by
  rw [closed]
  cases r.writer
  case none   => exact .inl hw
  case some j =>
    by_cases hij : j = i
    case pos => exact .inr (by simp [hij, hw])
    case neg => exact .inl (by simp [hij, hw])

theorem Reconfigured.runs (h : Reconfigured r r') (hw : r.writers[i]? = some w)
    (hw' : r'.writers[i]? = some w') : w.Runs w' := by
  have hsame : r'.writers[i]? = some w → w.Runs w' := by
    intro h
    cases Option.some.inj (h.symm.trans hw')
    exact Std.Refl.refl w
  have hpublish : ∀ v, (r.publish v).writers[i]? = some w := by
    intro v
    rw [publish, List.getElem?_append_left (List.getElem?_eq_some_iff.mp hw).choose, hw]
  cases h
  case kept      => exact hsame hw
  case failed    => exact hsame hw
  case opened    => exact hsame (hpublish _)
  case published => exact hsame (hpublish _)
  case closed    =>
    cases getElem?_closed hw
    case inl hclosed => exact hsame hclosed
    case inr hclosed =>
      cases Option.some.inj (hclosed.symm.trans hw')
      exact runs_closeWriter

variable [Host]

-- A handler writes to a group of its own, which is not that of the index.
theorem group_prepared {packet : DataPacket} {s : AdvancedRecorderSignal} (htracked : w.Tracked)
    (hserved : s.Served w)
    (hcount : ((AdvancedRecorderSignal.onPacketReceived (.data packet)).run (s, w)).state.2.nextGroup < 2 ^ 32) :
    ∀ handler ∈ (AdvancedRecorderSignal.prepared packet s w).1.handler,
      2 ≤ handler.group.toNat := by
  obtain ⟨htracked, hserved, _⟩ := AdvancedRecorderSignal.taken_extended htracked hserved hcount
  exact fun _ hhandler => hserved.two_le htracked hhandler

-- Packets and the end of a recording are all that happens to a file.
theorem Transition.runs (h : Transition r e r') (hr : Coherent r) (hnumbered : Numbered r')
    (hw : r.writers[i]? = some w) (hw' : r'.writers[i]? = some w') : w.Runs w' := by
  have hsame : r'.writers[i]? = some w → w.Runs w' := by
    intro h
    cases Option.some.inj (h.symm.trans hw')
    exact Std.Refl.refl w
  cases h
  case reconfigured r₁ hprep hreconf => exact hreconf.runs (hprep.unchanged.writers ▸ hw) hw'
  case activated                     => exact hsame hw
  case ignored                       => exact hsame hw
  case packet port signal packet _   =>
    cases onSignal_cases port (AdvancedRecorderSignal.onPacketReceived packet) r
    case inr hcase => exact hsame (by rw [hcase.right, hw])
    case inl hcase =>
      obtain ⟨s, v, hs, hv, hstate⟩ := hcase
      rw [hstate] at hw' hnumbered hsame
      by_cases hi : s.writer = i
      case neg => exact hsame (by rw [withSignal, List.getElem?_set_ne hi, hw])
      case pos =>
        subst hi
        cases Option.some.inj (hv.symm.trans hw)
        have hi := (List.getElem?_eq_some_iff.mp hw).choose
        rw [withSignal, List.getElem?_set_self hi] at hw'
        cases hw'
        cases packet
        case event => exact Std.Refl.refl w
        case data packet =>
          have hcount := hnumbered.of_withSignal hw
          refine AdvancedRecorderSignal.runs_received fun handler hhandler hgroup => ?_
          have htwo := group_prepared (hr.tracked w (List.mem_of_getElem? hw))
            (hr.served_of_lookup hs hw) hcount handler hhandler
          rw [hgroup] at htwo
          exact absurd htwo (by decide)

theorem runs_reached {disk : ℕ → OpenOutcome} {events : List Event}
    (h : Numbered (reached disk events)) :
    ∀ w ∈ (reached disk events).writers, ∃ schedule uuids, (newWriter schedule uuids).Runs w := by
  induction events using List.reverseRecOn
  case nil =>
    rw [reached, Exec.run_nil, create_eq]
    intro _ h
    cases h
  case append_singleton events e ih =>
    have hbefore := h.of_grown (grown_reached (List.prefix_append events [e]))
    have htransition : Transition (reached disk events) e (reached disk (events ++ [e])) := by
      exact transition_reached
    intro w hw
    obtain ⟨i, hi⟩ := List.mem_iff_getElem?.mp hw
    cases hold : (reached disk events).writers[i]?
    case none => exact (htransition.new_writer (List.getElem?_eq_none_iff.mp hold) hi).runs
    case some v =>
      obtain ⟨schedule, uuids, hv⟩ := ih hbefore v (List.mem_of_getElem? hold)
      exact ⟨schedule, uuids, trans_of Writer.Runs hv
        (htransition.runs (coherent_of_numbered hbefore) h hold hi)⟩

end AdvancedRecorderImpl
end AdvancedRecorder
