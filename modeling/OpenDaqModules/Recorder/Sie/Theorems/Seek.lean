import OpenDaqModules.Recorder.Sie.IndexReader

namespace Sie

theorem File.logged_stored [Crc32] {f : File} (he : f.Encoded) (hc : f.Clean) :
    logged 0 (f.blocks.map (fun x => x.2.stored)) = f.blocks.map recordOf := by
  have hplaced : f.blocks.map (fun x => (x.1, x.2.stored)) =
      blockFraming.placed 0 (f.blocks.map (fun x => x.2.stored)) := by
    exact (placedBlocks_eq_placed (o := 0) he hc).left
  rw [logged, ← hplaced, List.map_map]
  rfl

-- A file whose log is closed can be read through its index.
theorem File.readGroup_bytes [Crc32] {f : File} (he : f.Encoded) (hc : f.Clean)
    (hsize : ∀ x ∈ f.blocks, x.2.size < 2 ^ 32) (hclosed : BatchLog.Closed (f.blocks.map recordOf))
    {group : UInt32} (hgroup : group ≠ groups.INDEX) :
    readGroup f.bytes group = some ((decodeBlocks f.bytes).filter (·.group = group)) := by
  have hfits : ∀ b ∈ f.blocks.map (fun x => x.2.stored), b.Fits := by
    intro b hb
    obtain ⟨x, hx, rfl⟩ := List.mem_map.mp hb
    exact hsize x hx
  have hlt := f.bytes_length_le
  rw [decodeBlocks_bytes he hc hsize, ← stream_blocks he hc] at *
  rw [← logged_stored he hc] at hclosed
  exact readGroup_stream hclosed hfits (hlt.trans_lt (by decide)) hgroup

namespace IndexedWriter

variable {w : IndexedWriter} {b : Block} {schedule : List Outcome} {ops : List Op} [Crc32]

-- Every index block is about the blocks since the one before.
theorem chunked_run (hdata : ∀ op ∈ ops, ∀ b ∈ op.block?, b.group ≠ groups.INDEX) :
    (Exec.run exec ops (create schedule)).file.OnlyFlushesFail →
      (Exec.run exec ops (create schedule)).log.Chunked := by
  let P (w : IndexedWriter) := w.Counted ∧ (w.file.OnlyFlushesFail → w.log.Chunked)
  suffices h : P (Exec.run exec ops (create schedule)) from h.right
  refine Exec.run_invariant (P := P) ⟨rfl, fun _ => .empty⟩ fun op hop w hw => ?_
  refine exec_preserves hw (fun b hb w h => ⟨h.left.written, fun hf => ?_⟩)
    (fun w hne h => ⟨h.left.flushed, fun hf => ?_⟩)
  case refine_1 =>
    rw [written_file] at hf
    rw [(h.left.offsetTrue_iff.mpr hf.of_push.clean).written_log (hdata op hop b hb)
      (hf.outcome (hdata op hop b hb))]
    exact (h.right hf.of_push).add
  case refine_2 =>
    rw [flushed_file] at hf
    rw [flushed_log]
    split
    · exact (h.right hf.of_push).emit hne
    · exact h.right hf.of_push

theorem readGroup_run (hdata : ∀ op ∈ ops, ∀ b ∈ op.block?, b.group ≠ groups.INDEX)
    (hio : (Exec.run exec ops (create schedule)).file.OnlyFlushesFail)
    (hindex : (Exec.run exec ops (create schedule)).index = [])
    (hsize : ∀ x ∈ (Exec.run exec ops (create schedule)).file.blocks, x.2.size < 2 ^ 32)
    {group : UInt32} (hgroup : group ≠ groups.INDEX) :
    let bs := (Exec.run exec ops (create schedule)).file.bytes
    readGroup bs group = some ((decodeBlocks bs).filter (·.group = group)) :=
  File.readGroup_bytes encoded_run hio.clean hsize ((chunked_run hdata hio).closed hindex) hgroup

end IndexedWriter
end Sie
