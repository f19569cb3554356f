import OpenDaqModules.Recorder.Sie.BlockStream
import OpenDaqModules.Recorder.Sie.IndexBlock

namespace Sie

-- The blocks which the writes brought into a file completely, each with the position at which it
-- starts.
def placedBlocks : ℕ → List Write → List (ℕ × Block)
  | _, []           => []
  | o, w :: ws =>
    let later := placedBlocks (o + w.accepted.length) ws
    if w.Complete then (o, Block.ofBytes w.data) :: later else later

-- The blocks which the stream decoder finds, with the positions at which it finds them.
def decodedBlocks (bs : Bytes) : List (ℕ × Block) :=
  (blockFraming.placed 0 (decodeBlocks bs)).map (fun x => (x.1, x.2.toBlock))

namespace File

def blocks (f : File) : List (ℕ × Block) :=
  placedBlocks 0 f.writes

def Encoded [Crc32] (f : File) : Prop :=
  ∀ w ∈ f.writes, ∃ b : Block, w.data = b.encode

end File

theorem placedBlocks_append :
    placedBlocks o (ws ++ ws') =
      placedBlocks o ws ++ placedBlocks (o + (ws.flatMap Write.accepted).length) ws' := by
  induction ws generalizing o
  case nil          => simp [placedBlocks]
  case cons w ws ih =>
    by_cases h : w.Complete <;> simp [placedBlocks, h, ih, Nat.add_assoc]

namespace File

variable [Crc32] {f : File} {b : Block}

theorem blocks_push_complete (h : f.outcome b.encode = .complete) :
    (f.push b.encode).blocks = f.blocks ++ [(f.bytes.length, b)] := by
  have hc : Write.Complete ⟨b.encode, f.outcome b.encode⟩ := h
  simp [blocks, placedBlocks_append, placedBlocks, hc, Block.ofBytes_encode, bytes]

theorem blocks_push_fails (h : f.outcome b.encode ≠ .complete) :
    (f.push b.encode).blocks = f.blocks := by
  have hc : ¬Write.Complete ⟨b.encode, f.outcome b.encode⟩ := h
  simp [blocks, placedBlocks_append, placedBlocks, hc]

theorem Encoded.push (h : f.Encoded) : (f.push b.encode).Encoded := by
  intro w hw
  cases List.mem_append.mp hw
  case inl hw => exact h w hw
  case inr hw => exact ⟨b, by simp [List.mem_singleton.mp hw]⟩

-- Where no write is torn, the file is the stream of its blocks.
theorem placedBlocks_eq_placed {ws : List Write} (he : ∀ w ∈ ws, ∃ b : Block, w.data = b.encode)
    (hc : ∀ w ∈ ws, ¬w.Torn) :
    (placedBlocks o ws).map (fun x => (x.1, x.2.stored)) =
        blockFraming.placed o ((placedBlocks o ws).map (fun x => x.2.stored)) ∧
      ws.flatMap Write.accepted =
        blockFraming.stream ((placedBlocks o ws).map (fun x => x.2.stored)) := by
  induction ws generalizing o
  case nil => simp [placedBlocks]
  case cons w ws ih =>
    have ⟨b, hb⟩ := he w List.mem_cons_self
    have ⟨ih₁, ih₂⟩ := ih (o := o + w.accepted.length)
      (fun v hv => he v (List.mem_cons_of_mem w hv)) (fun v hv => hc v (List.mem_cons_of_mem w hv))
    by_cases hw : w.Complete
    case neg =>
      have hnil := Write.accepted_eq_nil hw <| hc w List.mem_cons_self
      simp only [hnil, List.length_nil, Nat.add_zero] at ih₁ ih₂
      simpa [placedBlocks, hw, hnil] using ⟨ih₁, ih₂⟩
    case pos =>
      have hsize : blockFraming.size b.stored = w.accepted.length := by
        rw [hw.accepted_eq, hb]
        rfl
      have hcons : placedBlocks o (w :: ws) =
          (o, b) :: placedBlocks (o + w.accepted.length) ws := by
        simp [placedBlocks, hw, hb, Block.ofBytes_encode]
      rw [hcons]
      constructor
      · simp [hsize, ← ih₁]
      · rw [List.flatMap_cons, ih₂, List.map_cons, Framing.stream_cons, blockFraming_write,
          Block.toBytes_stored, hw.accepted_eq, hb]

theorem stream_blocks (he : f.Encoded) (hc : f.Clean) :
    blockFraming.stream (f.blocks.map (fun x => x.2.stored)) = f.bytes :=
  (placedBlocks_eq_placed (o := 0) he hc).right.symm

theorem decodeBlocks_bytes (he : f.Encoded) (hc : f.Clean)
    (hsize : ∀ x ∈ f.blocks, x.2.size < 2 ^ 32) :
    decodeBlocks f.bytes = f.blocks.map (fun x => x.2.stored) := by
  rw [decodeBlocks_eq, ← stream_blocks he hc]
  apply blockFraming_lawful.decode_stream
  intro b hb
  have ⟨x, hx, hb⟩ := List.mem_map.mp hb
  exact hb ▸ hsize x hx

theorem placed_decodeBlocks (he : f.Encoded) (hc : f.Clean)
    (hsize : ∀ x ∈ f.blocks, x.2.size < 2 ^ 32) :
    blockFraming.placed 0 (decodeBlocks f.bytes) = f.blocks.map (fun x => (x.1, x.2.stored)) := by
  rw [decodeBlocks_bytes he hc hsize]
  exact (placedBlocks_eq_placed (o := 0) he hc).left.symm

theorem decodedBlocks_bytes (he : f.Encoded) (hc : f.Clean)
    (hsize : ∀ x ∈ f.blocks, x.2.size < 2 ^ 32) : decodedBlocks f.bytes = f.blocks := by
  rw [decodedBlocks, placed_decodeBlocks he hc hsize, List.map_map]
  exact List.map_id _

end File
end Sie
