import OpenDaqModules.Recorder.Sie.Theorems.Offset

namespace Sie

-- Failures are limited to index blocks which do not reach the file at all.
def File.OnlyFlushesFail (f : File) : Prop :=
  ∀ v ∈ f.writes, v.Complete ∨ (Block.ofBytes v.data).group = groups.INDEX ∧ v.accepted = []

namespace File.OnlyFlushesFail

variable {f : File} {b : Block}

theorem clean (h : f.OnlyFlushesFail) : f.Clean := by
  intro v hv ht
  cases h v hv
  case inl h => exact ht.left h
  case inr h => exact ht.right h.right

theorem of_push (h : (f.push data).OnlyFlushesFail) : f.OnlyFlushesFail :=
  fun v hv => h v (List.mem_append_left _ hv)

theorem of_writes {g : File} (h : g.OnlyFlushesFail) (hf : f.writes <+: g.writes) :
    f.OnlyFlushesFail :=
  fun v hv => h v (hf.subset hv)

theorem outcome [Crc32] (h : (f.push b.encode).OnlyFlushesFail) (hb : b.group ≠ groups.INDEX) :
    f.outcome b.encode = .complete := by
  cases h _ (List.mem_append_right _ List.mem_cons_self)
  case inl h => exact h
  case inr h => exact absurd (by simpa [Block.ofBytes_encode] using h.left) hb

end File.OnlyFlushesFail

theorem File.AllComplete.onlyFlushesFail {f : File} (h : f.AllComplete) : f.OnlyFlushesFail :=
  fun v hv => .inl (h v hv)

namespace IndexedWriter

variable {w : IndexedWriter} {b : Block} {schedule : List Outcome} {ops : List Op} [Crc32]

theorem encoded_run : (Exec.run exec ops (create schedule)).file.Encoded := by
  let P (w : IndexedWriter) := w.file.Encoded
  have hcreate : P (create schedule) := fun _ h => nomatch h
  apply Exec.run_invariant (P := P) hcreate
  intro op _ w hw
  refine exec_preserves hw (fun b _ w h => ?_) (fun w _ h => ?_)
  · simpa only [P, written_file] using h.push
  · simpa only [P, flushed_file] using h.push

theorem balanced_written (hw : w.Counted) (h : w.file.OnlyFlushesFail → w.log.Balanced)
    (hb : b.group ≠ groups.INDEX) :
    (w.written b).file.OnlyFlushesFail → (w.written b).log.Balanced := by
  intro hf
  rw [written_file] at hf
  rw [(hw.offsetTrue_iff.mpr hf.of_push.clean).written_log hb (hf.outcome hb)]
  exact (h hf.of_push).add

theorem balanced_flushed (h : w.file.OnlyFlushesFail → w.log.Balanced) (hne : w.index ≠ []) :
    w.flushed.file.OnlyFlushesFail → w.flushed.log.Balanced := by
  intro hf
  rw [flushed_file] at hf
  rw [flushed_log]
  split
  · exact (h hf.of_push).emit hne
  · exact h hf.of_push

-- The writer keeps the log of its file balanced.
theorem balanced_run (hdata : ∀ op ∈ ops, ∀ b ∈ op.block?, b.group ≠ groups.INDEX) :
    (Exec.run exec ops (create schedule)).file.OnlyFlushesFail →
      (Exec.run exec ops (create schedule)).log.Balanced := by
  let P (w : IndexedWriter) := w.Counted ∧ (w.file.OnlyFlushesFail → w.log.Balanced)
  suffices h : P (Exec.run exec ops (create schedule)) from h.right
  refine Exec.run_invariant (P := P) ⟨rfl, fun _ => .empty⟩ fun op hop w hw => ?_
  refine exec_preserves hw (fun b hb w h => ?_) (fun w hne h => ?_)
  case refine_1 => exact ⟨h.left.written, balanced_written h.left h.right (hdata op hop b hb)⟩
  case refine_2 => exact ⟨h.left.flushed, balanced_flushed h.right hne⟩

-- A call adds the block it asks for, and nothing else but index blocks.
theorem dataBlocks_exec {op : Op} (hdata : ∀ b ∈ op.block?, b.group ≠ groups.INDEX) :
    ((exec op).run w).state.file.OnlyFlushesFail →
      dataBlocks ((exec op).run w).state.file.blocks =
        dataBlocks w.file.blocks ++ op.block?.toList := by
  let Q (v : IndexedWriter) := v.file.OnlyFlushesFail →
    dataBlocks v.file.blocks = dataBlocks w.file.blocks ++ op.block?.toList
  refine exec_rule (Q := Q) (R := Q) ?start ?written ?flushed (fun _ _ => id)
  case start   => exact fun h _ => by simp [h]
  case written =>
    intro b hb hf
    have hf := written_file ▸ hf
    rw [written_file, File.blocks_push_complete (hf.outcome (hdata b hb)), Option.mem_def.mp hb]
    simp [dataBlocks, hdata b hb]
  case flushed =>
    intro v _ h hf
    have hf := flushed_file ▸ hf
    rw [flushed_file, ← h hf.of_push]
    by_cases hout : v.file.outcome v.indexBlock.encode = .complete
    case pos =>
      rw [File.blocks_push_complete hout]
      simp [dataBlocks, indexBlock]
    case neg => rw [File.blocks_push_fails hout]

theorem dataBlocks_run (hdata : ∀ op ∈ ops, ∀ b ∈ op.block?, b.group ≠ groups.INDEX)
    (hio : (Exec.run exec ops (create schedule)).file.OnlyFlushesFail) :
    dataBlocks (Exec.run exec ops (create schedule)).file.blocks = ops.filterMap Op.block? := by
  induction ops using List.reverseRecOn
  case nil => rfl
  case append_singleton ops op ih =>
    rw [Exec.run_concat] at hio ⊢
    have hbefore := hio.of_writes (exec_writes op)
    have ih := ih (fun op hop => hdata op (List.mem_append_left _ hop)) hbefore
    rw [dataBlocks_exec (hdata op (by simp)) hio, ih, List.filterMap_append]
    cases h : op.block? <;> simp [h]

-- As long as the file takes every other block, it has the blocks which the calls asked for, and the
-- index blocks neither miss one of them nor list one twice, once an index block follows the last of
-- them. A reader of the file sees the same, unless so many flushes failed that an index block
-- outgrew the size field of its header.
theorem failed_flushes_lose_nothing
    (hdata : ∀ op ∈ ops, ∀ b ∈ op.block?, b.group ≠ groups.INDEX)
    (hio : (Exec.run exec ops (create schedule)).file.OnlyFlushesFail)
    (hflush : ∀ x ∈ (Exec.run exec ops (create schedule)).file.blocks.getLast?,
      x.2.group = groups.INDEX) :
    let f := (Exec.run exec ops (create schedule)).file
    dataBlocks f.blocks = ops.filterMap Op.block? ∧
      (indexed f.blocks).map IndexEntry.position = positions f.blocks ∧
      ((∀ x ∈ f.blocks, x.2.size < 2 ^ 32) → decodedBlocks f.bytes = f.blocks) := by
  have hbalanced := balanced_run hdata hio
  have hclosed : ∀ r ∈ (Exec.run exec ops (create schedule)).log.log.getLast?,
      ∃ as, r = .batch as := by
    intro r hr
    simp only [log, List.getLast?_map, Option.mem_def, Option.map_eq_some_iff] at hr
    obtain ⟨x, hx, rfl⟩ := hr
    exact ⟨_, if_pos (hflush x hx)⟩
  exact ⟨dataBlocks_run hdata hio, listed (hbalanced.announced_eq_of_closed hclosed),
    fun hsize => File.decodedBlocks_bytes encoded_run hio.clean hsize⟩

omit [Crc32] in
theorem failed_flushes_lose_nothing_two_failures :
    let _ := Crc32.ieee
    let ops : List Op := [.writeBlock 2 [[7]], .flushIndex, .writeBlock 3 [[8]], .flushIndex, .destroy]
    let f := (Exec.run exec ops (create [.complete, .fails 0, .complete, .fails 0])).file
    dataBlocks f.blocks = ops.filterMap Op.block? ∧
      (indexed f.blocks).map IndexEntry.position = positions f.blocks ∧
      ((∀ x ∈ f.blocks, x.2.size < 2 ^ 32) → decodedBlocks f.bytes = f.blocks) := by
  intro _ ops f
  refine failed_flushes_lose_nothing (by decide) ?_ (by decide +kernel)
  change ∀ v ∈ _, Write.Complete v ∨ (Block.ofBytes v.data).group = groups.INDEX ∧ v.accepted = []
  decide +kernel

end IndexedWriter
end Sie
