import OpenDaqModules.Recorder.Sie.Reader
import OpenDaqModules.Recorder.Sie.IndexedWriter

namespace Sie

namespace Write

variable {w : Write}

theorem accepted_of_not_complete (h : ¬w.Complete) : ∃ n, w.accepted = w.data.take n := by
  rw [accepted]
  split
  case h_1 hcomplete => exact absurd hcomplete h
  case h_2 n _       => exact ⟨n, rfl⟩

end Write

variable [Crc32] {f : File} {b : Block} {data : Bytes}

-- A write that brings a whole block into the file, or the beginning of one.
def Write.Framed (w : Write) : Prop :=
  ∃ b : Block, w.data = b.encode ∧ (w.Complete ∨ w.accepted.length < w.data.length)

namespace File

-- Nothing reaches the file any more once a write was torn.
def Halted (f : File) : Prop :=
  f.writes.Pairwise fun v w => v.Torn → w.accepted = []

def Framed (f : File) : Prop :=
  ∀ w ∈ f.writes, w.Framed

omit [Crc32] in
theorem accepted_lt_of_outcome (hdata : data ≠ []) (hout : f.outcome data ≠ .complete) :
    (Write.accepted ⟨data, f.outcome data⟩).length < data.length := by
  have hpos := List.length_pos_iff.mpr hdata
  cases h : f.outcome data
  case complete => exact absurd h hout
  case fails n  =>
    have hlt : n < data.length := by
      rw [outcome] at h
      split at h
      case h_1 => cases h; omega
      case h_2 => split at h <;> cases h; omega
    rw [Write.accepted, List.length_take]
    omega

theorem Framed.encoded (h : f.Framed) : f.Encoded := by
  intro w hw
  obtain ⟨b, hb, _⟩ := h w hw
  exact ⟨b, hb⟩

theorem Framed.push (h : f.Framed) : (f.push b.encode).Framed := by
  intro w hw
  cases List.mem_append.mp hw
  case inl hw => exact h w hw
  case inr hw =>
    cases List.mem_singleton.mp hw
    refine ⟨b, rfl, ?_⟩
    by_cases hout : f.outcome b.encode = .complete
    case pos => exact .inl hout
    case neg =>
      have hne : b.encode ≠ [] := by
        apply List.length_pos_iff.mp
        rw [Block.encode_length, Block.size]
        omega
      exact .inr (accepted_lt_of_outcome hne hout)

-- The file is the stream of its blocks, which the beginning of one more block may follow.
theorem accepted_eq_stream {ws : List Write} (hframed : ∀ w ∈ ws, w.Framed)
    (hhalted : ws.Pairwise fun v w => v.Torn → w.accepted = []) :
    ∃ rest, ws.flatMap Write.accepted =
        blockFraming.stream ((placedBlocks o ws).map (·.2.stored)) ++ rest ∧
      (rest = [] ∨ ∃ w ∈ ws, ∃ (b : Block) (n : ℕ), w.data = b.encode ∧
        n < b.encode.length ∧ rest = b.encode.take n) := by
  induction ws generalizing o
  case nil          => exact ⟨[], rfl, .inl rfl⟩
  case cons w ws ih =>
    obtain ⟨b, hb, hpart⟩ := hframed w List.mem_cons_self
    obtain ⟨hlast, hlater⟩ := List.pairwise_cons.mp hhalted
    obtain ⟨rest, hrest, hcut⟩ := ih (o := o + w.accepted.length)
      (fun v hv => hframed v (List.mem_cons_of_mem w hv)) hlater
    have hcut : rest = [] ∨ ∃ v ∈ w :: ws, ∃ (b : Block) (n : ℕ), v.data = b.encode ∧
        n < b.encode.length ∧ rest = b.encode.take n := hcut.imp_right fun ⟨v, hv, h⟩ => ⟨v, List.mem_cons_of_mem w hv, h⟩
    by_cases hcomplete : w.Complete
    case pos =>
      have hcons : placedBlocks o (w :: ws) = (o, b) :: placedBlocks (o + w.accepted.length) ws := by
        simp [placedBlocks, hcomplete, hb, Block.ofBytes_encode]
      refine ⟨rest, ?_, hcut⟩
      rw [List.flatMap_cons, hrest, hcons, List.map_cons, Framing.stream_cons, blockFraming_write,
        Block.toBytes_stored, hcomplete.accepted_eq, hb, List.append_assoc]
    case neg =>
      have hcons : placedBlocks o (w :: ws) = placedBlocks (o + w.accepted.length) ws := by
        rw [placedBlocks, if_neg hcomplete]
      by_cases htorn : w.Torn
      case neg =>
        refine ⟨rest, ?_, hcut⟩
        rw [List.flatMap_cons, Write.accepted_eq_nil hcomplete htorn, List.nil_append, hrest, hcons]
      case pos =>
        have hnothing : ws.flatMap Write.accepted = [] := by
          exact List.flatMap_eq_nil_iff.mpr fun v hv => hlast v hv htorn
        rw [hnothing] at hrest
        obtain ⟨hstream, _⟩ := List.append_eq_nil_iff.mp hrest.symm
        obtain ⟨n, hn⟩ := Write.accepted_of_not_complete hcomplete
        have hlt := hpart.resolve_left hcomplete
        rw [hn, List.length_take, hb] at hlt
        refine ⟨b.encode.take n, ?_, .inr ⟨w, List.mem_cons_self, b, n, hb, by omega, rfl⟩⟩
        rw [List.flatMap_cons, hnothing, List.append_nil, hcons, hstream, List.nil_append, hn, hb]

theorem exists_write_of_mem {ws : List Write} (hframed : ∀ w ∈ ws, w.Framed)
    (hx : x ∈ placedBlocks o ws) : ∃ w ∈ ws, w.data = x.2.encode := by
  induction ws generalizing o
  case nil          => cases hx
  case cons w ws ih =>
    have hlater := ih (o := o + w.accepted.length) fun v hv => hframed v (List.mem_cons_of_mem w hv)
    rw [placedBlocks] at hx
    split at hx
    case isFalse =>
      obtain ⟨v, hv, hdata⟩ := hlater hx
      exact ⟨v, List.mem_cons_of_mem w hv, hdata⟩
    case isTrue =>
      cases hx
      case head =>
        obtain ⟨b, hb, _⟩ := hframed w List.mem_cons_self
        exact ⟨w, List.mem_cons_self, by rw [hb, Block.ofBytes_encode]⟩
      case tail hx =>
        obtain ⟨v, hv, hdata⟩ := hlater hx
        exact ⟨v, List.mem_cons_of_mem w hv, hdata⟩

-- A reader finds the blocks that are there as a whole.
theorem readFile_halted (hframed : f.Framed) (hhalted : f.Halted)
    (hsize : ∀ w ∈ f.writes, w.data.length < 2 ^ 32) :
    readFile f.bytes = readBlocks [] (f.blocks.map Prod.snd) := by
  obtain ⟨rest, hbytes, hrest⟩ := accepted_eq_stream (o := 0) hframed hhalted
  have hfits : ∀ b ∈ (placedBlocks 0 f.writes).map (·.2.stored), b.Fits := by
    intro b hb
    obtain ⟨x, hx, rfl⟩ := List.mem_map.mp hb
    obtain ⟨w, hw, hdata⟩ := exists_write_of_mem hframed hx
    have hlt := hsize w hw
    rwa [hdata, Block.encode_length] at hlt
  have hdecode : decodeBlocks f.bytes = (placedBlocks 0 f.writes).map (·.2.stored) := by
    rw [bytes, hbytes, decodeBlocks_eq]
    cases hrest
    case inl hnil =>
      rw [hnil, List.append_nil]
      exact blockFraming_lawful.decode_stream hfits
    case inr hcut =>
      obtain ⟨w, hw, b, n, hdata, hn, rfl⟩ := hcut
      have hlt := hsize w hw
      rw [hdata, Block.encode_length] at hlt
      exact blockFraming_lawful.decode_stream_append_take (a := b.stored) hfits hlt hn
  have hblocks : (placedBlocks 0 f.writes).map (·.2.stored) = (f.blocks.map Prod.snd).map Block.stored := by
    rw [List.map_map]
    rfl
  rw [readFile, hdecode, hblocks, filter_intact, map_toBlock_stored]

end File

namespace IndexedWriter

theorem framed_run : (Exec.run exec ops (create schedule)).file.Framed := by
  let P (w : IndexedWriter) := w.file.Framed
  have hcreate : P (create schedule) := fun _ h => nomatch h
  apply Exec.run_invariant (P := P) hcreate
  intro op _ w hw
  refine exec_preserves hw (fun b _ w h => ?_) (fun w _ h => ?_)
  · simpa only [P, written_file] using h.push
  · simpa only [P, flushed_file] using h.push

end IndexedWriter
end Sie
