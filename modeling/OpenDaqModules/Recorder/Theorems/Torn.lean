import OpenDaqModules.Recorder.Theorems.RoundTrip

namespace Sie

variable {bs bs' : List Block} {known : List ChannelReader}

theorem prefix_readBlocks (h : bs <+: bs') : readBlocks known bs <+: readBlocks known bs' := by
  obtain ⟨later, rfl⟩ := h
  rw [readBlocks_append]
  exact List.prefix_append _ _

namespace File

variable [Crc32] {f : File}

def justBlocks (f : File) : List Block :=
  f.blocks.map Prod.snd

theorem stream_justBlocks (he : f.Encoded) (hc : f.Clean) :
    blockFraming.stream (f.justBlocks.map Block.stored) = f.bytes := by
  rw [← stream_blocks he hc, justBlocks, List.map_map]
  rfl

-- What is read of the first part of a file.
theorem readFile_take (he : f.Encoded) (hc : f.Clean) (hsize : ∀ b ∈ f.justBlocks, b.size < 2 ^ 32)
    (k : ℕ) : ∃ bs, bs <+: f.justBlocks ∧ readFile (f.bytes.take k) = readBlocks [] bs ∧
      ∀ bs', bs' <+: f.justBlocks → (blockFraming.stream (bs'.map Block.stored)).length ≤ k → bs' <+: bs := by
  have hfits : ∀ b ∈ f.justBlocks.map Block.stored, b.Fits := by
    intro b hb
    obtain ⟨c, hc, rfl⟩ := List.mem_map.mp hb
    exact hsize c hc
  have hprefix := blockFraming_lawful.prefix_of_decode_take hfits k
  have hleast : ∀ bs', bs' <+: f.justBlocks.map Block.stored → (blockFraming.stream bs').length ≤ k →
      bs' <+: blockFraming.decode ((blockFraming.stream (f.justBlocks.map Block.stored)).take k) := by
    exact fun bs' => blockFraming_lawful.prefix_decode_take hfits
  rw [← stream_justBlocks he hc, readFile, decodeBlocks_eq]
  generalize blockFraming.decode _ = found at hprefix hleast ⊢
  obtain ⟨n, rfl⟩ : ∃ n, found = (f.justBlocks.take n).map Block.stored := by
    refine ⟨found.length, ?_⟩
    rw [List.map_take]
    exact List.prefix_iff_eq_take.mp hprefix
  refine ⟨f.justBlocks.take n, List.take_prefix _ _, by rw [filter_intact, map_toBlock_stored],
    fun bs' hbs' hle => ?_⟩
  have hinjective : Function.Injective Block.stored := fun a b h => congrArg StoredBlock.toBlock h
  have hfound := hleast _ (hbs'.map _) hle
  exact (List.prefix_map_iff_of_injective hinjective).mp hfound

end File
end Sie

namespace AdvancedRecorder.AdvancedRecorderImpl

open Sie EStateM

variable [Host] [Crc32] {disk : ℕ → OpenOutcome} {events : List Event} {r : AdvancedRecorderImpl} {i : ℕ}

-- An event contributes one reading at most, so the events tell how far a part of the readings goes.
theorem exists_prefix_of_allDelivered {readings : List Reading}
    (h : readings <+: allDelivered i events r) :
    ∃ done, done <+: events ∧ readings = allDelivered i done r := by
  induction events generalizing r readings
  case nil => exact ⟨[], List.prefix_rfl, List.prefix_nil.mp h⟩
  case cons e es ih =>
    rw [allDelivered] at h
    cases hdelivered : delivered i e r
    case none =>
      rw [hdelivered] at h
      obtain ⟨done, hdone, hreadings⟩ := ih h
      refine ⟨e :: done, (List.prefix_cons_inj e).mpr hdone, ?_⟩
      rw [allDelivered, hdelivered, hreadings]
      rfl
    case some reading =>
      rw [hdelivered, Option.toList_some, List.singleton_append] at h
      cases readings
      case nil => exact ⟨[], List.nil_prefix, rfl⟩
      case cons x readings =>
        obtain ⟨rfl, hlater⟩ := List.cons_prefix_cons.mp h
        obtain ⟨done, hdone, hreadings⟩ := ih hlater
        refine ⟨e :: done, (List.prefix_cons_inj e).mpr hdone, ?_⟩
        rw [allDelivered, hdelivered, hreadings]
        rfl

theorem prefix_blocksOf {before : List Event} (h : before <+: events) :
    blocksOf i (reached disk before) <+: blocksOf i (reached disk events) := by
  cases hw : (reached disk before).writers[i]?
  case none =>
    rw [blocksOf, hw]
    exact List.nil_prefix
  case some w =>
    obtain ⟨w', hw', hg⟩ := (grown_reached h).writers i w hw
    rw [blocksOf_of_writer hw, blocksOf_of_writer hw']
    exact hg.blocks

theorem stream_blocksOf (h : Faultless (reached disk events)) :
    blockFraming.stream ((blocksOf i (reached disk events)).map Block.stored) =
      bytesOf i (reached disk events) := by
  cases hw : (reached disk events).writers[i]?
  case none =>
    rw [blocksOf, bytesOf, hw]
    rfl
  case some w =>
    have hmem := List.mem_of_getElem? hw
    rw [blocksOf_of_writer hw, bytesOf, hw]
    exact File.stream_justBlocks (framed_reached w hmem).encoded (h w hmem).left.clean

-- The first part of a file reads like the file of a run that came to its end earlier. What was in
-- the file at some time is read of every part that goes so far.
theorem readFile_take_reached (hfaultless : Faultless (reached disk events))
    (hevents : ∀ e ∈ events, e.WellFormed) (i : ℕ)
    (hsize : ∀ b ∈ blocksOf i (reached disk events), b.size < 2 ^ 32) (k : ℕ) :
    ∃ done, done <+: events ∧
      readFile ((bytesOf i (reached disk events)).take k) = allDelivered i done (create disk) ∧
      ∀ before, before <+: events → (bytesOf i (reached disk before)).length ≤ k →
        allDelivered i before (create disk) <+: allDelivered i done (create disk) := by
  have hread : ∃ bs, bs <+: blocksOf i (reached disk events) ∧
      readFile ((bytesOf i (reached disk events)).take k) = readBlocks [] bs ∧
      ∀ bs', bs' <+: blocksOf i (reached disk events) →
        (blockFraming.stream (bs'.map Block.stored)).length ≤ k → bs' <+: bs := by
    cases hw : (reached disk events).writers[i]?
    case none =>
      rw [blocksOf, bytesOf, hw]
      exact ⟨[], List.nil_prefix, by rw [Option.elim_none, List.take_nil]; rfl, fun _ h _ => h⟩
    case some w =>
      have hmem := List.mem_of_getElem? hw
      rw [blocksOf_of_writer hw] at hsize ⊢
      rw [bytesOf, hw]
      exact File.readFile_take (framed_reached w hmem).encoded (hfaultless w hmem).left.clean hsize k
  obtain ⟨bs, hbs, hread, hleast⟩ := hread
  have hall : readBlocks [] (blocksOf i (reached disk events)) = allDelivered i events (create disk) := by
    exact readings_reached hfaultless hevents
  obtain ⟨done, hdone, hdelivered⟩ := exists_prefix_of_allDelivered (hall ▸ prefix_readBlocks hbs)
  refine ⟨done, hdone, hread.trans hdelivered, fun before hbefore hle => ?_⟩
  have hbefore' := hfaultless.of_grown (grown_reached hbefore)
  rw [← hdelivered, ← readings_reached hbefore' fun e he => hevents e (hbefore.subset he)]
  refine prefix_readBlocks (hleast _ (prefix_blocksOf hbefore) ?_)
  rwa [stream_blocksOf hbefore']

omit [Host] [Crc32] in
-- The last octet of the second packet is lost.
theorem readFile_take_two_packets :
    let _ := Crc32.ieee
    let _ := Host.exact
    let disk (_ : ℕ) : OpenOutcome := .opened [] fun _ => []
    let packet (octet : UInt8) : Packet := .data { samplePacket with rawData := [octet] }
    let events : List Event := [.connect 0 { globalId := str "a", description := [] },
      .startRecording, .packet 0 (packet 7), .packet 0 (packet 8)]
    let k := (bytesOf 0 (reached disk events)).length - 1
    ∃ done, done <+: events ∧
      readFile ((bytesOf 0 (reached disk events)).take k) = allDelivered 0 done (create disk) ∧
      ∀ before, before <+: events → (bytesOf 0 (reached disk before)).length ≤ k →
        allDelivered 0 before (create disk) <+: allDelivered 0 done (create disk) := by
  intro _ _ disk packet events k
  refine readFile_take_reached ?_ ?_ 0 (by decide +kernel) k
  case refine_1 =>
    change ∀ w ∈ AdvancedRecorderImpl.writers _,
      (∀ v ∈ w.file.writes, v.Complete) ∧ w.nextGroup < 2 ^ 32
    decide +kernel
  case refine_2 =>
    simp only [events, packet, List.forall_mem_cons, wellFormed_samplePacket, List.not_mem_nil,
      false_implies, implies_true, and_true]
    exact ⟨trivial, trivial⟩

end AdvancedRecorder.AdvancedRecorderImpl
