import OpenDaqModules.Recorder.Sie.Index

namespace Sie.IndexedWriter

-- The same state, with other outcomes for the writes to come.
def resume (w : IndexedWriter) (schedule : List Outcome) : IndexedWriter :=
  { w with writer.file.schedule := schedule }

-- No continuation can tell the state `w'` from `w`.
structure AsIfNever [Crc32] (w w' : IndexedWriter) : Prop where
  index  : w'.index = w.index
  offset : w'.offset = w.offset
  bytes  : ∀ schedule ops,
    (Exec.run exec ops (w'.resume schedule)).file.bytes =
      (Exec.run exec ops (w.resume schedule)).file.bytes
  named  : ∀ e ∈ w'.entries, e ∈ w.entries ∨ e.position ∈ positions w'.file.blocks

variable {w : IndexedWriter} {group : UInt32} {args : List Bytes} {schedule : List Outcome}
  {ops : List Op} [Crc32]

-- The entry of a block is there before the block is.
theorem writeBlock_index_of_fails (hgroup : group ≠ groups.INDEX)
    (hout : w.file.outcome (Block.encode ⟨group, args.flatten⟩) = .fails n) :
    ((writeBlock group args).run w).state.index = w.index ++ [{ offset := w.offset, group }] := by
  rw [writeBlock_run]
  simp only [hout]
  exact noted_index (b := ⟨group, args.flatten⟩) hgroup

-- Whatever came before, a failed write leaves its entry behind.
theorem failed_write_not_as_if_never (hgroup : group ≠ groups.INDEX)
    (hout : (Exec.run exec ops (create schedule)).file.outcome
      (Block.encode ⟨group, args.flatten⟩) = .fails 0) :
    ¬AsIfNever (Exec.run exec ops (create schedule))
      ((writeBlock group args).run (Exec.run exec ops (create schedule))).state := by
  intro h
  have hindex := h.index
  rw [writeBlock_index_of_fails hgroup hout] at hindex
  simp at hindex

omit [Crc32] in
theorem failed_write_not_as_if_never_first :
    let _ := Crc32.ieee
    let w := Exec.run exec [] (create [.fails 0])
    ¬AsIfNever w ((writeBlock 2 [[7]]).run w).state := by
  intro _ w
  exact failed_write_not_as_if_never (by decide) (by decide)

-- The index block which the destructor writes has an entry for the block that was not written.
omit [Crc32] in
theorem failed_write_is_indexed :
    let _ := Crc32.ieee
    let w := create [.fails 0]
    let w' := ((writeBlock 2 [[7]]).run w).state
    ¬((writeBlock 2 [[7]]).run w).Returns ∧ w'.file.bytes = w.file.bytes ∧ ¬AsIfNever w w' := by
  intro _ w w'
  refine ⟨by decide +kernel, by decide +kernel, fun h => ?_⟩
  have hlength := congrArg List.length (h.bytes [] [.destroy])
  revert hlength
  decide +kernel

end Sie.IndexedWriter
