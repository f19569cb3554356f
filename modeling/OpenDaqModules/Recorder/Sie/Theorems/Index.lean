import OpenDaqModules.Recorder.Sie.Theorems.FailedFlush

namespace Sie.IndexedWriter

variable {w : IndexedWriter} {b : Block} {schedule : List Outcome} {ops : List Op} [Crc32]

-- What is bounded as long as no write fails: index blocks consist of few entries, and at most `n`
-- entries wait for one.
structure Bounded (n : ℕ) (w : IndexedWriter) : Prop where
  index  : w.index.length ≤ n
  blocks : ∀ x ∈ w.file.blocks, x.2.group = groups.INDEX →
    ∃ es : List IndexEntry, es.length ≤ INDEX_EVERY ∧ x.2.payload = es.flatMap IndexEntry.toBytes

theorem Bounded.written (h : w.Bounded n) (hb : b.group ≠ groups.INDEX)
    (hout : w.file.outcome b.encode = .complete) : (w.written b).Bounded (n + 1) where
  index := by simpa [IndexedWriter.written, noted_index hb] using h.index
  blocks x hx hgroup := by
    rw [written_file, File.blocks_push_complete hout] at hx
    cases List.mem_append.mp hx
    case inl hx => exact h.blocks x hx hgroup
    case inr hx =>
      cases List.mem_singleton.mp hx
      exact absurd hgroup hb

theorem Bounded.flushed (h : w.Bounded INDEX_EVERY)
    (hout : w.file.outcome w.indexBlock.encode = .complete) : w.flushed.Bounded 0 where
  index := by simp [IndexedWriter.flushed, hout, cleared]
  blocks x hx hgroup := by
    rw [flushed_file, File.blocks_push_complete hout] at hx
    cases List.mem_append.mp hx
    case inl hx => exact h.blocks x hx hgroup
    case inr hx =>
      cases List.mem_singleton.mp hx
      exact ⟨w.index, h.index, rfl⟩

omit [Crc32] in
theorem Bounded.size_le (h : w.Bounded n) (hx : x ∈ w.file.blocks)
    (hgroup : x.2.group = groups.INDEX) : x.2.size ≤ 20 + 12 * INDEX_EVERY := by
  have ⟨es, hlen, hpayload⟩ := h.blocks x hx hgroup
  have : x.2.payload.length = 12 * es.length := by
    simp [hpayload, List.length_flatMap, Nat.mul_comm]
  rw [Block.size]
  omega

theorem bounded_run (hdata : ∀ op ∈ ops, ∀ b ∈ op.block?, b.group ≠ groups.INDEX) :
    (Exec.run exec ops (create schedule)).file.AllComplete →
      (Exec.run exec ops (create schedule)).Bounded (INDEX_EVERY - 1) := by
  let P (n : ℕ) (w : IndexedWriter) := w.file.AllComplete → w.Bounded n
  have hmono : ∀ m n, m ≤ n → ∀ w, P m w → P n w := by
    exact fun m n hmn w h hc => ⟨(h hc).index.trans hmn, (h hc).blocks⟩
  have hcreate : P (INDEX_EVERY - 1) (create schedule) := by
    exact fun _ => ⟨Nat.zero_le _, fun _ h => nomatch h⟩
  apply Exec.run_invariant (P := P (INDEX_EVERY - 1)) hcreate
  intro op hop w hw
  refine exec_rule (Q := P INDEX_EVERY) (fun _ => hmono _ _ (Nat.sub_le _ _) w hw)
    ?written ?flushed ?settled
  case written =>
    intro b hb hc
    have ⟨hc, hout⟩ := File.AllComplete.of_push (written_file ▸ hc)
    exact (hw hc).written (hdata op hop b hb) hout
  case flushed =>
    intro w _ h
    apply hmono 0 _ (Nat.zero_le _) _
    intro hc
    have ⟨hc, hout⟩ := File.AllComplete.of_push (flushed_file ▸ hc)
    exact (h hc).flushed hout
  case settled =>
    intro w hend h hc
    cases hend
    case inl hlt => exact ⟨Nat.le_pred_of_lt hlt, (h hc).blocks⟩
    case inr hf  => exact absurd hc hf

theorem destroy_index (h : ((exec .destroy).run w).state.file.AllComplete) :
    ((exec .destroy).run w).state.index = [] := by
  simp only [exec, destroy_run, flushIndex_run, EStateM.Result.state_ok] at h ⊢
  by_cases hi : w.index = [] <;> simp only [hi, if_true, if_false] at h ⊢
  case pos => exact hi
  case neg =>
    cases hout : w.file.outcome w.indexBlock.encode <;>
      simp only [hout, EStateM.Result.state_ok, EStateM.Result.state_error] at h ⊢
    case complete => simp [flushed, hout, cleared]
    case fails    =>
      have := (File.AllComplete.of_push (flushed_file ▸ h)).right
      simp [hout] at this

-- A file of the blocks `calls` with a correct index, as a reader sees it.
structure IndexCorrect (calls : List Block) (bs : Bytes) : Prop where
  whole    : blockFraming.stream (decodeBlocks bs) = bs
  written  : dataBlocks (decodedBlocks bs) = calls
  listed   : (indexed (decodedBlocks bs)).map IndexEntry.position = positions (decodedBlocks bs)
  nonempty : ∀ x ∈ decodedBlocks bs, x.2.group = groups.INDEX → decodeEntries x.2.payload ≠ []
  preceded : ∀ before x after, decodedBlocks bs = before ++ x :: after → x.2.group = groups.INDEX →
    ∀ e ∈ decodeEntries x.2.payload, e.position ∈ positions before

theorem size_lt (hcalls : ∀ b ∈ ops.filterMap Op.block?, b.group ≠ groups.INDEX ∧ b.size < 2 ^ 32)
    (hio : (Exec.run exec ops (create schedule)).file.AllComplete) :
    ∀ x ∈ (Exec.run exec ops (create schedule)).file.blocks, x.2.size < 2 ^ 32 := by
  intro x hx
  have hdata := fun op hop b hb => (hcalls b (List.mem_filterMap.mpr ⟨op, hop, hb⟩)).left
  by_cases hgroup : x.2.group = groups.INDEX
  case pos =>
    have := (bounded_run hdata hio).size_le hx hgroup
    simp only [INDEX_EVERY] at this
    omega
  case neg =>
    have hmem : x.2 ∈ dataBlocks (Exec.run exec ops (create schedule)).file.blocks := by
      exact List.mem_map.mpr ⟨x, List.mem_filter.mpr ⟨hx, by simpa using hgroup⟩, rfl⟩
    exact (hcalls _ (dataBlocks_run hdata hio.onlyFlushesFail ▸ hmem)).right

theorem decodedBlocks_run
    (hcalls : ∀ b ∈ ops.filterMap Op.block?, b.group ≠ groups.INDEX ∧ b.size < 2 ^ 32)
    (hio : (Exec.run exec ops (create schedule)).file.AllComplete) :
    decodedBlocks (Exec.run exec ops (create schedule)).file.bytes =
      (Exec.run exec ops (create schedule)).file.blocks :=
  File.decodedBlocks_bytes encoded_run hio.clean (size_lt hcalls hio)

theorem indexCorrect_run
    (hcalls : ∀ b ∈ ops.filterMap Op.block?, b.group ≠ groups.INDEX ∧ b.size < 2 ^ 32)
    (hio : (Exec.run exec ops (create schedule)).file.AllComplete)
    (hindex : (Exec.run exec ops (create schedule)).index = []) :
    IndexCorrect (ops.filterMap Op.block?) (Exec.run exec ops (create schedule)).file.bytes := by
  have hdata := fun op hop b hb => (hcalls b (List.mem_filterMap.mpr ⟨op, hop, hb⟩)).left
  have hbalanced := balanced_run hdata hio.onlyFlushesFail
  have hdecode := decodedBlocks_run hcalls hio
  constructor
  case whole =>
    rw [File.decodeBlocks_bytes encoded_run hio.clean (size_lt hcalls hio)]
    exact File.stream_blocks encoded_run hio.clean
  case written  => rw [hdecode, dataBlocks_run hdata hio.onlyFlushesFail]
  case listed   => rw [hdecode, listed (hbalanced.announced_eq hindex)]
  case nonempty => exact hdecode ▸ fun x => decodeEntries_ne_nil hbalanced
  case preceded =>
    intro before x after hblocks hgroup e he
    exact mem_positions hbalanced (hdecode ▸ hblocks) hgroup he

-- The file which a writer leaves has a correct index, and in the course of its run not many blocks
-- are missing from the index.
theorem index_correct
    (hcalls : ∀ b ∈ ops.filterMap Op.block?, b.group ≠ groups.INDEX ∧ b.size < 2 ^ 32)
    (hio : (Exec.run exec (ops ++ [.destroy]) (create schedule)).file.AllComplete) :
    IndexCorrect (ops.filterMap Op.block?)
        (Exec.run exec (ops ++ [.destroy]) (create schedule)).file.bytes ∧
      ∀ done, done <+: ops →
        let bs := decodedBlocks (Exec.run exec done (create schedule)).file.bytes
        (positions bs).length < (indexed bs).length + 100 := by
  have hall : (ops ++ [Op.destroy]).filterMap Op.block? = ops.filterMap Op.block? := by
    simp [Op.block?]
  constructor
  case left =>
    have hindex : (Exec.run exec (ops ++ [.destroy]) (create schedule)).index = [] := by
      rw [Exec.run_concat] at hio ⊢
      exact destroy_index hio
    exact hall ▸ indexCorrect_run (hall.symm ▸ hcalls) hio hindex
  case right =>
    intro done hdone bs
    have hcalls := fun b hb => hcalls b ((hdone.filterMap Op.block?).subset hb)
    have hdata := fun op hop b hb => (hcalls b (List.mem_filterMap.mpr ⟨op, hop, hb⟩)).left
    have hio : (Exec.run exec done (create schedule)).file.AllComplete := by
      obtain ⟨later, rfl⟩ := hdone
      rw [List.append_assoc, Exec.run_append] at hio
      exact hio.of_writes run_writes
    have hlen := length_positions (balanced_run hdata hio.onlyFlushesFail)
    have hindex := (bounded_run hdata hio).index
    simp only [bs, decodedBlocks_run hcalls hio, INDEX_EVERY] at hindex ⊢
    omega

omit [Crc32] in
theorem index_correct_two_groups :
    let _ := Crc32.ieee
    let ops : List Op := [.writeBlock 2 [[7], [8]], .flushIndex, .writeBlock 3 [[]]]
    IndexCorrect (ops.filterMap Op.block?)
        (Exec.run exec (ops ++ [.destroy]) (create [])).file.bytes ∧
      ∀ done, done <+: ops →
        let bs := decodedBlocks (Exec.run exec done (create [])).file.bytes
        (positions bs).length < (indexed bs).length + 100 := by
  intro _ ops
  apply index_correct (by decide)
  change ∀ v ∈ _, Write.Complete v
  decide +kernel

end Sie.IndexedWriter
