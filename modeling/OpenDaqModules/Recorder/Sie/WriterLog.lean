import OpenDaqModules.Recorder.Sie.Writer

namespace Sie

open EStateM

-- A flush appends nothing but an index block.
theorem IndexedWriter.flushIndex_blocks [Crc32] {w : IndexedWriter} :
    ∃ post, (flushIndex.run w).state.file.blocks.map Prod.snd =
        w.file.blocks.map Prod.snd ++ post ∧ ∀ b ∈ post, b.group = groups.INDEX := by
  rw [flushIndex_run]
  split
  case isTrue  => exact ⟨[], (List.append_nil _).symm, by simp⟩
  case isFalse =>
    have hflushed : ∃ post, w.flushed.file.blocks.map Prod.snd =
        w.file.blocks.map Prod.snd ++ post ∧ ∀ b ∈ post, b.group = groups.INDEX := by
      rw [flushed_file]
      by_cases hout : w.file.outcome w.indexBlock.encode = .complete
      case pos => exact ⟨[w.indexBlock], by simp [File.blocks_push_complete hout], by simp [indexBlock]⟩
      case neg => exact ⟨[], by simp [File.blocks_push_fails hout], by simp⟩
    split <;> exact hflushed

-- The block is the first thing that a call writes.
theorem IndexedWriter.writeBlock_writes [Crc32] {w : IndexedWriter} :
    ∃ outcome, w.file.writes ++ [⟨Block.encode ⟨group, args.flatten⟩, outcome⟩] <+:
      ((writeBlock group args).run w).state.file.writes := by
  let b : Block := ⟨group, args.flatten⟩
  have hwritten : (w.written b).file.writes = w.file.writes ++ [⟨b.encode, w.file.outcome b.encode⟩] := by
    rw [written_file, File.push_writes]
  have hflush : (w.written b).file.writes <+: (flushIndex.run (w.written b)).state.file.writes := by
    exact exec_writes .flushIndex
  refine ⟨w.file.outcome b.encode, ?_⟩
  rw [← hwritten, writeBlock_run]
  dsimp only
  split
  case h_2 => exact List.prefix_rfl
  case h_1 =>
    split
    case isTrue  => exact hflush
    case isFalse => exact List.prefix_rfl

-- A writer only throws where the file did not take everything.
theorem IndexedWriter.flushIndex_returns [Crc32] {w : IndexedWriter}
    (h : (flushIndex.run w).state.file.AllComplete) : (flushIndex.run w).Returns := by
  rw [flushIndex_run] at h ⊢
  split
  case isTrue        => trivial
  case isFalse hnil =>
    rw [if_neg hnil] at h
    cases hout : w.file.outcome w.indexBlock.encode
    case complete => trivial
    case fails    =>
      simp only [hout, Result.state_error, flushed_file] at h
      exact absurd h.of_push.right (by simp [hout])

theorem IndexedWriter.writeBlock_returns [Crc32] {w : IndexedWriter}
    (h : ((writeBlock group args).run w).state.file.AllComplete) :
    ((writeBlock group args).run w).Returns := by
  rw [writeBlock_run] at h ⊢
  cases hout : w.file.outcome (Block.encode ⟨group, args.flatten⟩)
  case complete =>
    simp only [hout] at h ⊢
    split
    case isTrue hfull => exact flushIndex_returns (by simpa [hfull] using h)
    case isFalse      => trivial
  case fails =>
    simp only [hout, Result.state_error, written_file] at h
    exact absurd h.of_push.right (by simp [hout])

namespace Writer

-- The complete blocks of the file, without their positions.
def blocks (w : Writer) : List Block :=
  w.file.blocks.map Prod.snd

-- The file only gets longer, and no identifier is given away twice.
structure Grown (w w' : Writer) : Prop where
  writes        : w.file.writes <+: w'.file.writes
  nextChannelId : w.nextChannelId ≤ w'.nextChannelId
  nextDecoderId : w.nextDecoderId ≤ w'.nextDecoderId
  nextGroup     : w.nextGroup ≤ w'.nextGroup

-- No identifier was given away.
structure SameIdentifiers (w w' : Writer) : Prop where
  nextChannelId : w'.nextChannelId = w.nextChannelId
  nextDecoderId : w'.nextDecoderId = w.nextDecoderId
  nextGroup     : w'.nextGroup     = w.nextGroup

namespace Grown

variable {w w' : Writer}

instance : Std.Refl Grown where
  refl _ := ⟨List.prefix_rfl, le_rfl, le_rfl, le_rfl⟩

instance : IsTrans Writer Grown where
  trans _ _ _ h h' := by
    constructor
    case writes        => exact h.writes.trans h'.writes
    case nextChannelId => exact h.nextChannelId.trans h'.nextChannelId
    case nextDecoderId => exact h.nextDecoderId.trans h'.nextDecoderId
    case nextGroup     => exact h.nextGroup.trans h'.nextGroup

theorem bytes (h : Grown w w') : w.file.bytes <+: w'.file.bytes := by
  have ⟨writes, hwrites⟩ := h.writes
  rw [File.bytes, File.bytes, ← hwrites, List.flatMap_append]
  exact List.prefix_append _ _

theorem blocks (h : Grown w w') : w.blocks <+: w'.blocks := by
  have ⟨writes, hwrites⟩ := h.writes
  rw [Writer.blocks, Writer.blocks, File.blocks, File.blocks, ← hwrites, placedBlocks_append]
  exact List.IsPrefix.map _ (List.prefix_append _ _)

end Grown

variable {w : Writer} {group : UInt32} {args : List Bytes} [Crc32]

theorem writeBlock_keeps : Keeps Grown (writeBlock group args) :=
  .zoom (Q := fun v v' => v.file.writes <+: v'.file.writes)
    (fun _ => IndexedWriter.exec_writes (.writeBlock group args))
    (fun _ _ h => ⟨h, le_rfl, le_rfl, le_rfl⟩)

theorem writeBlock_identifiers (group : UInt32) (args : List Bytes) (w : Writer) :
    SameIdentifiers w ((writeBlock group args).run w).state := by
  rw [writeBlock, zoom_state]
  exact ⟨rfl, rfl, rfl⟩

theorem writeBlock_writes (group : UInt32) (args : List Bytes) (w : Writer) : ∃ outcome,
    w.file.writes ++ [⟨Block.encode ⟨group, args.flatten⟩, outcome⟩] <+:
      ((writeBlock group args).run w).state.file.writes := by
  rw [writeBlock, zoom_state]
  exact IndexedWriter.writeBlock_writes (w := w.writer)

theorem writeBlock_grows (group : UInt32) (args : List Bytes) (w : Writer) :
    ((writeBlock group args).run w).state.file.writes ≠ w.file.writes := by
  intro hsame
  obtain ⟨outcome, hgrown⟩ := writeBlock_writes group args w
  rw [hsame] at hgrown
  have hle := hgrown.length_le
  rw [List.length_append] at hle
  exact absurd hle (Nat.not_succ_le_self _)

-- A complete write appends the block, and perhaps an index block after it.
theorem writeBlock_blocks (hout : w.file.outcome (Block.encode ⟨group, args.flatten⟩) = .complete) :
    ∃ post, ((writeBlock group args).run w).state.blocks =
        w.blocks ++ ⟨group, args.flatten⟩ :: post ∧ ∀ b ∈ post, b.group = groups.INDEX := by
  have hwritten : (w.writer.written ⟨group, args.flatten⟩).file.blocks.map Prod.snd =
      w.blocks ++ [⟨group, args.flatten⟩] := by
    rw [IndexedWriter.written_file, ← file, File.blocks_push_complete hout, List.map_append]
    rfl
  have hstate : ∃ post, ((IndexedWriter.writeBlock group args).run w.writer).state.file.blocks.map
      Prod.snd = w.blocks ++ [⟨group, args.flatten⟩] ++ post ∧ ∀ b ∈ post, b.group = groups.INDEX := by
    rw [file] at hout
    simp only [IndexedWriter.writeBlock_run, hout]
    split
    case isTrue  => exact hwritten ▸ IndexedWriter.flushIndex_blocks
    case isFalse => exact ⟨[], by simpa using hwritten, by simp⟩
  have ⟨post, hpost, hindex⟩ := hstate
  rw [List.append_assoc, List.singleton_append] at hpost
  refine ⟨post, ?_, hindex⟩
  rw [writeBlock, zoom_state]
  exact hpost

theorem writeBlock_fails (hout : w.file.outcome (Block.encode ⟨group, args.flatten⟩) = .fails n) :
    ¬((writeBlock group args).run w).Returns ∧
      ((writeBlock group args).run w).state.blocks = w.blocks := by
  have hfails : w.file.outcome (Block.encode ⟨group, args.flatten⟩) ≠ .complete := by simp [hout]
  rw [writeBlock, zoom_returns, zoom_state, IndexedWriter.writeBlock_run, ← file]
  simp only [hout]
  refine ⟨id, ?_⟩
  rw [Result.state_error, blocks, file, IndexedWriter.written_file, ← file,
    File.blocks_push_fails hfails]
  rfl

-- Nothing else than the block and index blocks gets into the file.
theorem writeBlock_appends (group : UInt32) (args : List Bytes) (w : Writer) :
    ∃ bs, ((writeBlock group args).run w).state.blocks = w.blocks ++ bs ∧
      ∀ b ∈ bs, b = ⟨group, args.flatten⟩ ∨ b.group = groups.INDEX := by
  cases hout : w.file.outcome (Block.encode ⟨group, args.flatten⟩)
  case fails n  => exact ⟨[], by simp [(writeBlock_fails hout).right], fun _ h => nomatch h⟩
  case complete =>
    have ⟨post, hblocks, hpost⟩ := writeBlock_blocks hout
    refine ⟨_, hblocks, fun b hb => ?_⟩
    cases hb
    case head    => exact .inl rfl
    case tail hb => exact .inr (hpost b hb)

theorem outcome_of_returns (h : ((writeBlock group args).run w).Returns) :
    w.file.outcome (Block.encode ⟨group, args.flatten⟩) = .complete := by
  cases hout : w.file.outcome (Block.encode ⟨group, args.flatten⟩)
  case complete => rfl
  case fails n  => exact absurd h (writeBlock_fails hout).left

theorem returns_of_allComplete (h : ((writeBlock group args).run w).state.file.AllComplete) :
    ((writeBlock group args).run w).Returns := by
  rw [writeBlock, zoom_state] at h
  rw [writeBlock, zoom_returns]
  exact IndexedWriter.writeBlock_returns h

theorem writeBlock_ne_error {w' : Writer} (h : w'.file.AllComplete) :
    (writeBlock group args).run w ≠ .error e w' := by
  intro hrun
  have hreturns : ((writeBlock group args).run w).Returns := by
    exact returns_of_allComplete (hrun ▸ h)
  rw [hrun] at hreturns
  exact hreturns

end Writer
end Sie
