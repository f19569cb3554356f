import OpenDaqModules.Recorder.Sie.Index

namespace Sie

namespace File

-- The bytes which failed writes left behind.
def lost (f : File) : Bytes :=
  (f.writes.filter (¬·.Complete)).flatMap Write.accepted

variable {f : File} {data : Bytes}

theorem lost_eq_nil_iff : f.lost = [] ↔ f.Clean := by
  simp only [lost, List.flatMap_eq_nil_iff, List.mem_filter, decide_eq_true_eq, Clean, Write.Torn,
    not_and, not_not]
  exact ⟨fun h w hw hc => h w ⟨hw, hc⟩, fun h w hw => h w hw.left hw.right⟩

theorem lost_push_complete (h : f.outcome data = .complete) : (f.push data).lost = f.lost := by
  have hc : Write.Complete ⟨data, f.outcome data⟩ := h
  simp [lost, List.filter_append, hc]

theorem lost_push_fails (h : f.outcome data ≠ .complete) :
    (f.push data).lost = f.lost ++ Write.accepted ⟨data, f.outcome data⟩ := by
  have hc : ¬Write.Complete ⟨data, f.outcome data⟩ := h
  simp [lost, List.filter_append, hc]

end File

namespace IndexedWriter

-- The offset counts the bytes of all writes but those that failed.
def Counted (w : IndexedWriter) : Prop :=
  w.offset.toNat + w.file.lost.length = w.file.bytes.length

-- The offset is right, and every block has its entry, in the order of the blocks.
structure Accurate (w : IndexedWriter) : Prop where
  offset  : w.offset.toNat = w.file.bytes.length
  entries : (positions w.file.blocks).Sublist (w.entries.map IndexEntry.position)

variable {w : IndexedWriter} {b : Block} {schedule : List Outcome} {ops : List Op}

theorem Counted.offsetTrue_iff (h : w.Counted) : w.OffsetTrue ↔ w.file.Clean := by
  rw [← File.lost_eq_nil_iff, ← List.length_eq_zero_iff, OffsetTrue, ← h]
  omega

variable [Crc32]

theorem Counted.pushed (h : w.Counted) : (w.pushed b).Counted := by
  simp only [Counted] at h
  by_cases hout : w.file.outcome b.encode = .complete
  case pos =>
    have hmax := (w.file.push b.encode).bytes_length_le
    rw [File.push_bytes_complete hout, List.length_append, Block.encode_length, OFF_MAX] at hmax
    simp only [Counted, pushed_offset_complete hout, pushed_file, File.lost_push_complete hout,
      File.push_bytes_complete hout, List.length_append, Block.encode_length, UInt64.toNat_add,
      UInt64.toNat_ofNat']
    omega
  case neg =>
    simp only [Counted, pushed_offset_fails hout, pushed_file, File.lost_push_fails hout,
      File.push_bytes, List.length_append]
    omega

theorem Counted.written (h : w.Counted) : (w.written b).Counted := by
  have hn : (w.noted b).Counted := by simpa [Counted] using h
  exact hn.pushed

theorem Counted.flushed (h : w.Counted) : w.flushed.Counted := by
  rw [IndexedWriter.flushed]
  split
  · simpa [Counted] using h.pushed (b := w.indexBlock)
  · exact h.pushed

theorem counted_run : (Exec.run exec ops (create schedule)).Counted := by
  refine Exec.run_invariant rfl fun op _ w hw => ?_
  exact exec_preserves hw (fun _ _ _ => Counted.written) (fun _ _ => Counted.flushed)

theorem covered_written (hw : w.Counted) (h : w.file.Clean → w.log.Covered) :
    (w.written b).file.Clean → (w.written b).log.Covered := by
  intro hc
  rw [written_file] at hc
  have hlog := h hc.of_push
  by_cases hb : b.group = groups.INDEX
  case pos =>
    rw [written_log_index hb]
    split
    · exact hlog.insert
    · exact hlog
  case neg =>
    by_cases hout : w.file.outcome b.encode = .complete
    case pos =>
      rw [(hw.offsetTrue_iff.mpr hc.of_push).written_log hb hout]
      exact hlog.add
    case neg =>
      rw [written_log_fails hb hout]
      exact hlog.note

theorem covered_flushed (h : w.file.Clean → w.log.Covered) :
    w.flushed.file.Clean → w.flushed.log.Covered := by
  intro hc
  rw [flushed_file] at hc
  rw [flushed_log]
  split
  · exact (h hc.of_push).emit
  · exact h hc.of_push

theorem covered_run : (Exec.run exec ops (create schedule)).file.Clean →
    (Exec.run exec ops (create schedule)).log.Covered := by
  let P (w : IndexedWriter) := w.Counted ∧ (w.file.Clean → w.log.Covered)
  suffices h : P (Exec.run exec ops (create schedule)) from h.right
  refine Exec.run_invariant (P := P) ⟨rfl, fun _ => .empty⟩ fun op _ w hw => ?_
  refine exec_preserves hw (fun b _ w h => ?_) (fun w _ h => ?_)
  case refine_1 => exact ⟨h.left.written, covered_written h.left h.right⟩
  case refine_2 => exact ⟨h.left.flushed, covered_flushed h.right⟩

-- A run keeps the index right as long as no write is torn, and no longer.
theorem accurate_iff :
    (Exec.run exec ops (create schedule)).Accurate ↔
      (Exec.run exec ops (create schedule)).file.Clean := by
  constructor
  case mp  => exact fun h => counted_run.offsetTrue_iff.mp h.offset
  case mpr =>
    refine fun h => ⟨counted_run.offsetTrue_iff.mpr h, ?_⟩
    have hcov := covered_run h
    simp only [BatchLog.Covered, log, announced_recordOf, items_recordOf] at hcov
    rw [← File.map_position_indexable]
    exact hcov.map _

theorem accurate_after_returns_iff :
    (∀ done op, done ++ [op] <+: ops →
      ((exec op).run (Exec.run exec done (create schedule))).Returns →
      (Exec.run exec (done ++ [op]) (create schedule)).Accurate) ↔
    (∀ done op, done ++ [op] <+: ops →
      ((exec op).run (Exec.run exec done (create schedule))).Returns →
      ∀ v ∈ (Exec.run exec (done ++ [op]) (create schedule)).file.writes, ¬v.Torn) :=
  forall₄_congr fun _ _ _ _ => accurate_iff

-- The second block starts behind the five bytes which are left of the first one.
omit [Crc32] in
theorem not_accurate_after_torn_write :
    let _ := Crc32.ieee
    let ops : List Op := [.writeBlock 2 [[7]], .writeBlock 2 [[8]]]
    ¬∀ done op, done ++ [op] <+: ops →
      ((exec op).run (Exec.run exec done (create [.fails 5]))).Returns →
      (Exec.run exec (done ++ [op]) (create [.fails 5])).Accurate := by
  intro _ ops h
  have hreturns : ((exec (.writeBlock 2 [[8]])).run
      (Exec.run exec [.writeBlock 2 [[7]]] (create [.fails 5]))).Returns := by decide +kernel
  have hoffset := (h [.writeBlock 2 [[7]]] _ List.prefix_rfl hreturns).offset
  revert hoffset
  decide +kernel

end IndexedWriter
end Sie
