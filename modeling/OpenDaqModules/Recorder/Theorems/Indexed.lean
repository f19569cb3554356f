import OpenDaqModules.Recorder.Linked
import OpenDaqModules.Recorder.Runs
import OpenDaqModules.Recorder.Sie.Theorems.Seek
import OpenDaqModules.Recorder.Theorems.RoundTrip

namespace Sie

-- A reader of one channel. It passes over the data of the others.
def readChannel [Crc32] (bs : Bytes) (group : UInt32) : Option (List Reading) := do
  let metadata ← readGroup bs groups.METADATA
  let data ← readGroup bs group
  let known := ((metadata.filter (·.Intact)).flatMap (·.toBlock.channelReaders)).filter
    (·.declaration.group = group.toNat)
  return (data.filter (·.Intact)).flatMap fun b => known.map (·.read b.payload)

-- No block of the group precedes the declaration of a channel of the group.
def Settled (group : UInt32) (bs : List Block) : Prop :=
  ∀ before b after, bs = before ++ b :: after → b.group = group →
    (before.flatMap Block.channelReaders).filter (·.declaration.group = group.toNat) =
      (bs.flatMap Block.channelReaders).filter (·.declaration.group = group.toNat)

variable {bs : List Block} {known readers : List ChannelReader} {group : UInt32}

theorem map_read_filter {b : Block} :
    ((known.filter (·.declaration.group = b.group.toNat)).map (·.read b.payload)).filter
        (·.group = group.toNat) =
      if b.group = group then (known.filter (·.declaration.group = group.toNat)).map (·.read b.payload)
      else [] := by
  rw [List.filter_map]
  split
  case isTrue hgroup =>
    rw [List.filter_eq_self.mpr, hgroup]
    exact fun c hc => hgroup ▸ (List.mem_filter.mp hc).right
  case isFalse hgroup =>
    rw [List.map_eq_nil_iff, List.filter_eq_nil_iff]
    intro c hc heq
    have hc : c.declaration.group = b.group.toNat := of_decide_eq_true (List.mem_filter.mp hc).right
    have heq : c.declaration.group = group.toNat := of_decide_eq_true heq
    exact hgroup (UInt32.toNat_inj.mp (hc.symm.trans heq))

theorem readBlocks_filter (h : ∀ before b after, bs = before ++ b :: after → b.group = group →
      (known ++ before.flatMap Block.channelReaders).filter (·.declaration.group = group.toNat) =
        readers) :
    (readBlocks known bs).filter (·.group = group.toNat) =
      (bs.filter (·.group = group)).flatMap fun b => readers.map (·.read b.payload) := by
  induction bs generalizing known
  case nil          => rfl
  case cons b bs ih =>
    have hlater : ∀ before b' after, bs = before ++ b' :: after → b'.group = group →
        (known ++ b.channelReaders ++ before.flatMap Block.channelReaders).filter
          (·.declaration.group = group.toNat) = readers := by
      intro before b' after hbs hgroup
      rw [List.append_assoc, ← List.flatMap_cons]
      exact h (b :: before) b' after (hbs ▸ rfl) hgroup
    rw [readBlocks, List.filter_append, map_read_filter, ih hlater]
    split
    case isTrue hgroup =>
      have hreaders := h [] b bs rfl hgroup
      rw [List.flatMap_nil, List.append_nil] at hreaders
      rw [hreaders, List.filter_cons_of_pos (by simpa using hgroup), List.flatMap_cons]
    case isFalse hgroup =>
      rw [List.filter_cons_of_neg (by simpa using hgroup), List.nil_append]

theorem Settled.readBlocks_filter (h : Settled group bs) :
    (readBlocks [] bs).filter (·.group = group.toNat) =
      (bs.filter (·.group = group)).flatMap fun b =>
        ((bs.flatMap Block.channelReaders).filter (·.declaration.group = group.toNat)).map
          (·.read b.payload) :=
  Sie.readBlocks_filter fun before b after hbs hgroup => by rw [List.nil_append, h before b after hbs hgroup]

theorem flatMap_channelReaders_metadata :
    (bs.filter (·.group = groups.METADATA)).flatMap Block.channelReaders =
      bs.flatMap Block.channelReaders := by
  induction bs
  case nil          => rfl
  case cons b bs ih =>
    by_cases hgroup : b.group = groups.METADATA
    case pos => rw [List.filter_cons_of_pos (by simpa using hgroup), List.flatMap_cons, ih, List.flatMap_cons]
    case neg =>
      rw [List.filter_cons_of_neg (by simpa using hgroup), ih, List.flatMap_cons,
        Block.channelReaders, if_neg hgroup, List.nil_append]

-- A channel that is read through the index has the samples that the file has.
theorem File.readChannel_bytes [Crc32] {f : File} (he : f.Encoded) (hc : f.Clean)
    (hsize : ∀ x ∈ f.blocks, x.2.size < 2 ^ 32) (hclosed : BatchLog.Closed (f.blocks.map recordOf))
    (hsettled : Settled group (f.blocks.map Prod.snd)) (hgroup : group ≠ groups.INDEX) :
    readChannel f.bytes group = some ((readFile f.bytes).filter (·.group = group.toNat)) := by
  have hstored : f.blocks.map (fun x => x.2.stored) = (f.blocks.map Prod.snd).map Block.stored := by
    rw [List.map_map]
    rfl
  have hblocks : decodeBlocks f.bytes = (f.blocks.map Prod.snd).map Block.stored := by
    rw [decodeBlocks_bytes he hc hsize, hstored]
  have hread : ∀ g, g ≠ groups.INDEX → readGroup f.bytes g =
      some (((f.blocks.map Prod.snd).filter (·.group = g)).map Block.stored) := by
    intro g hg
    rw [readGroup_bytes he hc hsize hclosed hg, hblocks, List.filter_map]
    rfl
  rw [readFile_bytes he hc hsize, hsettled.readBlocks_filter, readChannel, hread _ (by decide),
    hread _ hgroup, ← flatMap_channelReaders_metadata]
  simp only [Option.bind_eq_bind, Option.bind_some, filter_intact, List.flatMap_map]
  rfl

end Sie

namespace AdvancedRecorder.AdvancedRecorderImpl

open Sie EStateM

variable [Crc32] {disk : ℕ → OpenOutcome} {events : List Event} {r r' : AdvancedRecorderImpl}
  {e : Event} {w : Writer} {i : ℕ} {group : UInt32}

-- Every file but that of the recording has been closed, and none of its blocks waits for an index
-- block.
def Sealed (r : AdvancedRecorderImpl) : Prop :=
  ∀ i w, r.writers[i]? = some w → r.writer ≠ some i → w.writer.index = []

omit [Crc32] in
theorem Sealed.of_same (h : Sealed r) (hwriter : r'.writer = r.writer)
    (hwriters : r'.writers = r.writers) : Sealed r' := by
  rw [Sealed, hwriter, hwriters]
  exact h

omit [Crc32] in
theorem Sealed.publish (h : Sealed r) (hwriter : r.writer = none) (w : Writer) :
    Sealed (r.publish w) := by
  intro i v hv hi
  have hne : i ≠ r.writers.length := fun heq => hi (by rw [heq]; rfl)
  have hlt := (List.getElem?_eq_some_iff.mp hv).choose
  simp only [AdvancedRecorderImpl.publish, List.length_append, List.length_singleton] at hlt
  rw [AdvancedRecorderImpl.publish, List.getElem?_append_left (by omega)] at hv
  exact h i v hv (by simp [hwriter])

theorem Sealed.closed (h : Sealed r) (hio : ∀ w ∈ r.closed.writers, w.file.AllComplete) :
    Sealed r.closed := by
  intro i v hv _
  have hmem := List.mem_of_getElem? hv
  rw [AdvancedRecorderImpl.closed] at hv
  cases hwriter : r.writer
  case none =>
    rw [hwriter] at hv
    exact h i v hv (by simp [hwriter])
  case some j =>
    simp only [hwriter, List.getElem?_modify] at hv
    obtain ⟨w, hw, hv⟩ := Option.map_eq_some_iff.mp hv
    by_cases hj : j = i
    case neg =>
      rw [if_neg hj] at hv
      exact hv ▸ h i w hw (by simpa [hwriter] using hj)
    case pos =>
      rw [if_pos hj] at hv
      have hcomplete := hio v hmem
      rw [← hv] at hcomplete ⊢
      exact IndexedWriter.destroy_index hcomplete

theorem Reconfigured.sealed (h : Reconfigured r r') (hr : Sealed r)
    (hio : ∀ w ∈ r'.writers, w.file.AllComplete) : Sealed r' := by
  cases h
  case kept hrec hwriter          => exact hr.of_same rfl rfl
  case failed                     => exact hr.of_same rfl rfl
  case opened hrec hwriter _ _    => exact (hr.publish hwriter _).of_same rfl rfl
  case published hrec hwriter _ _ => exact hr.publish hwriter _
  case closed hrec                => exact hr.closed hio

variable [Host]

theorem Transition.sealed (h : Transition r e r') (hr : Sealed r) (hlinked : Linked r)
    (hio : ∀ w ∈ r'.writers, w.file.AllComplete) : Sealed r' := by
  cases h
  case reconfigured hprep hreconf =>
    have hsame := hprep.unchanged
    exact hreconf.sealed (hr.of_same hsame.writer hsame.writers) hio
  case activated => exact hr.of_same rfl rfl
  case ignored   => exact hr
  case packet port signal packet _ =>
    cases onSignal_cases port (AdvancedRecorderSignal.onPacketReceived packet) r
    case inr hcase => exact hcase.right.symm ▸ hr
    case inl hcase =>
      obtain ⟨s, w, hs, hw, hstate⟩ := hcase
      have hwriter := hlinked.current _ (mem_of_lookup hs)
      rw [hstate]
      intro j v hv hj
      have hne : s.writer ≠ j := fun heq => hj (heq ▸ hwriter)
      rw [withSignal, List.getElem?_set_ne hne] at hv
      exact hr j v hv hj

omit [Crc32] [Host] in
theorem sealed_create : Sealed ({ disk } : AdvancedRecorderImpl).portAdded := by
  intro _ _ h
  cases h

theorem sealed_reached (h : Faultless (reached disk events)) : Sealed (reached disk events) := by
  induction events using List.reverseRecOn
  case nil =>
    rw [reached, Exec.run_nil, create_eq]
    exact sealed_create
  case append_singleton events e ih =>
    have hbefore := h.of_grown (grown_reached (List.prefix_append events [e]))
    exact transition_reached.sealed (ih hbefore) linked_reached fun w hw => (h w hw).left

-- The channel of a block is declared before the block, and nowhere else.
theorem settled_reached (h : Faultless (reached disk events)) (hgroup : 2 ≤ group.toNat) :
    Settled group (blocksOf i (reached disk events)) := by
  intro before b after hblocks hb
  have hmetadata : b.group ≠ groups.METADATA := by
    rw [hb]
    rintro rfl
    exact absurd hgroup (by decide)
  have hindex : b.group ≠ groups.INDEX := by
    rw [hb]
    rintro rfl
    exact absurd hgroup (by decide)
  obtain ⟨packet, _, kind, args, declaration, _, _, hbefore, _⟩ := recorded_reached h hblocks hmetadata hindex
  rw [hb] at hbefore
  obtain ⟨hmem, hdeclares⟩ := List.mem_filter.mp (hbefore ▸ List.mem_singleton_self declaration)
  have hall : (blocksOf i (reached disk events)).filter (Block.Declares group) = [declaration] := by
    obtain ⟨w, hw⟩ : ∃ w, (reached disk events).writers[i]? = some w := by
      apply Option.isSome_iff_exists.mp
      cases hw : (reached disk events).writers[i]?
      case some => rfl
      case none =>
        rw [blocksOf, hw] at hblocks
        exact absurd hblocks (by simp)
    have htracked := (coherent_reached h).tracked w (List.mem_of_getElem? hw)
    refine filter_declares_eq_singleton ?_ (by simp [hblocks, hmem]) (by simpa using hdeclares)
    rw [blocksOf_of_writer hw]
    exact htracked.distinct
  rw [filter_channelReaders, filter_channelReaders, hbefore, hall]

-- The index of a file that is not being recorded any more leads to all that the file says about a
-- channel.
theorem readChannel_reached (hfaultless : Faultless (reached disk events))
    (hclosed : (reached disk events).writer ≠ some i)
    (hsize : ∀ b ∈ blocksOf i (reached disk events), b.size < 2 ^ 32) (hgroup : 2 ≤ group.toNat) :
    readChannel (bytesOf i (reached disk events)) group =
      some ((readFile (bytesOf i (reached disk events))).filter (·.group = group.toNat)) := by
  cases hw : (reached disk events).writers[i]?
  case none =>
    rw [bytesOf, hw]
    rfl
  case some w =>
    have hmem := List.mem_of_getElem? hw
    have hsettled : Settled group (w.file.blocks.map Prod.snd) := by
      have hsettled : Settled group (blocksOf i (reached disk events)) := settled_reached hfaultless hgroup
      rwa [blocksOf_of_writer hw] at hsettled
    obtain ⟨schedule, uuids, ops, hops, hrun⟩ := runs_reached hfaultless.numbered w hmem
    have hindex := sealed_reached hfaultless i w hw hclosed
    have hio := (hfaultless w hmem).left
    have hindexed : BatchLog.Closed (w.file.blocks.map recordOf) := by
      rw [Writer.file, hrun] at hio ⊢
      rw [hrun] at hindex
      exact (IndexedWriter.chunked_run hops hio.onlyFlushesFail).closed hindex
    rw [blocksOf_of_writer hw] at hsize
    rw [bytesOf, hw]
    refine File.readChannel_bytes (framed_reached w hmem).encoded hio.clean ?_ hindexed hsettled ?_
    · exact fun x hx => hsize _ (List.mem_map_of_mem hx)
    · rintro rfl
      exact absurd hgroup (by decide)

omit [Host] [Crc32] in
-- The second of two signals is read.
theorem readChannel_two_signals :
    let _ := Crc32.ieee
    let _ := Host.exact
    let disk (_ : ℕ) : OpenOutcome := .opened [] fun _ => []
    let events : List Event := [.connect 0 { globalId := str "a", description := [] },
      .connect 1 { globalId := str "b", description := [] }, .startRecording,
      .packet 0 (.data samplePacket), .packet 1 (.data samplePacket), .packet 0 (.data samplePacket),
      .stopRecording]
    let group : UInt32 := 3
    (blocksOf 0 (reached disk events)).map Block.group =
        [groups.METADATA, groups.METADATA, 2, groups.METADATA, 3, 2, groups.INDEX] ∧
      readChannel (bytesOf 0 (reached disk events)) group =
        some ((readFile (bytesOf 0 (reached disk events))).filter (·.group = group.toNat)) := by
  intro _ _ disk events group
  refine ⟨by decide +kernel, readChannel_reached ?_ (by decide +kernel) (by decide +kernel) (by decide)⟩
  change ∀ w ∈ AdvancedRecorderImpl.writers _,
    (∀ v ∈ w.file.writes, v.Complete) ∧ w.nextGroup < 2 ^ 32
  decide +kernel

end AdvancedRecorder.AdvancedRecorderImpl
