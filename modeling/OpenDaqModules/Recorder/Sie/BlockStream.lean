import OpenDaqModules.Library.Framing
import OpenDaqModules.Recorder.Sie.BlockWriter
import OpenDaqModules.Recorder.Sie.Decoder

namespace Sie

-- Decoder 0 of `PREAMBLE`. The raw octets it reads are the payload of a block of group `$group`.
def streamDecoder : Decoder where
  loop := {
    body := [
      .read "size" .uint 32 .big none,
      .read "group" .uint 32 .big none,
      .read "magic" .uint 32 .big (some (.num 0x51EDA7A0)),
      .readRaw "payload" (.sub (.var "size") (.num 20)),
      .read "checksum" .uint 32 .big none,
      .read "size2" .uint 32 .big (some (.var "size"))
    ]
  }

structure StoredBlock extends Block where
  checksum : UInt32
  deriving DecidableEq, Repr

namespace StoredBlock

def ofEnv (env : Decoder.Env) : Option StoredBlock := do
  let group ← env.num? "group"
  let payload ← env.raw? "payload"
  let checksum ← env.num? "checksum"
  return { group := UInt32.ofNat group.toNat, payload, checksum := UInt32.ofNat checksum.toNat }

def toBytes (b : StoredBlock) : Bytes :=
  b.header.toBytes ++ b.payload ++
    BlockFooter.toBytes { checksum := b.checksum, size := UInt32.ofNat b.size }

end StoredBlock

def Block.stored [Crc32] (b : Block) : StoredBlock :=
  { b with checksum := b.footer.checksum }

theorem Block.toBytes_stored [Crc32] {b : Block} : b.stored.toBytes = b.encode :=
  rfl

-- The blocks which the stream decoder finds in the first bytes of a file.
def decodeBlocks (bs : Bytes) : List StoredBlock :=
  (streamDecoder.iterations bs).filterMap (fun s => StoredBlock.ofEnv s.env)

-- One iteration of the stream decoder.
def readBlock (bs : Bytes) : Option (StoredBlock × Bytes) := do
  let (size, bs) ← Decoder.splitOctets 4 bs
  let (group, bs) ← Decoder.splitOctets 4 bs
  let (magic, bs) ← Decoder.splitOctets 4 bs
  if Endian.big.toNat magic = 0x51EDA7A0 ∧ 20 ≤ Endian.big.toNat size then
    let (payload, bs) ← Decoder.splitOctets (Endian.big.toNat size - 20) bs
    let (checksum, bs) ← Decoder.splitOctets 4 bs
    let (size2, bs) ← Decoder.splitOctets 4 bs
    if Endian.big.toNat size2 = Endian.big.toNat size then
      let group := UInt32.ofNat (Endian.big.toNat group)
      some ({ group, payload, checksum := UInt32.ofNat (Endian.big.toNat checksum) }, bs)
    else none
  else none

open Decoder in
theorem exec_streamDecoder {input : Bytes} {s : State} :
    (execAll input streamDecoder.loop.body s).map
        (fun s' => ((StoredBlock.ofEnv s'.env).toList, s'.rest)) =
      (readBlock s.rest).map (fun x => ([x.1], x.2)) := by
  simp only [streamDecoder, execAll, Op.exec, readBlock, ReadType.value]
  rcases h₁ : splitOctets 4 s.rest with _ | ⟨size, rest⟩
  · simp
  rcases h₂ : splitOctets 4 rest with _ | ⟨group, rest⟩
  · simp [h₂, State.bind]
  rcases h₃ : splitOctets 4 rest with _ | ⟨magic, rest⟩
  · simp [h₂, h₃, State.bind]
  have hmagic : (Endian.big.toNat magic : ℤ) = 1374529440 ↔
      Endian.big.toNat magic = 1374529440 := by omega
  have hneg : (Endian.big.toNat size : ℤ) - 20 < 0 ↔ ¬20 ≤ Endian.big.toNat size := by omega
  have hsize : ((Endian.big.toNat size : ℤ) - 20).toNat = Endian.big.toNat size - 20 := by omega
  by_cases hm : Endian.big.toNat magic = 1374529440
  case neg => simp [h₂, h₃, State.bind, Expr.eval, hmagic, hm]
  by_cases hs : 20 ≤ Endian.big.toNat size
  case neg => simp [h₂, h₃, State.bind, Expr.eval, hneg, hm, hs]
  simp [h₂, h₃, State.bind, Expr.eval, hneg, hsize, hm, hs]
  rcases h₄ : splitOctets (Endian.big.toNat size - 20) rest with _ | ⟨payload, rest⟩
  · simp
  rcases h₅ : splitOctets 4 rest with _ | ⟨checksum, rest⟩
  · simp [h₅]
  rcases h₆ : splitOctets 4 rest with _ | ⟨size2, rest⟩
  · simp [h₅, h₆]
  by_cases h : Endian.big.toNat size2 = Endian.big.toNat size <;>
    simp [h₅, h₆, h, StoredBlock.ofEnv]

def blockFraming : Framing StoredBlock UInt8 where
  write := StoredBlock.toBytes
  read  := readBlock

-- The sizes which the 32-bit `size` of header and footer can hold.
def StoredBlock.Fits (b : StoredBlock) : Prop :=
  b.size < 2 ^ 32

namespace StoredBlock

variable {b : StoredBlock}

@[simp]
theorem toBytes_length : b.toBytes.length = b.size := by
  simp [toBytes, Block.size]
  omega

theorem toBytes_eq : b.toBytes = Endian.big.ofUInt32 b.header.size ++ (Endian.big.ofUInt32 b.group ++
    (Endian.big.ofUInt32 SYNC_WORD ++ (b.payload ++ (Endian.big.ofUInt32 b.checksum ++
    Endian.big.ofUInt32 b.header.size)))) := by
  simp [toBytes, BlockHeader.toBytes, BlockFooter.toBytes, Block.header]

theorem Fits.toNat_size (h : b.Fits) :
    Endian.big.toNat (Endian.big.ofUInt32 b.header.size) = b.size := by
  rw [Endian.toNat_ofUInt32, Block.header, UInt32.toNat_ofNat', Nat.mod_eq_of_lt h]

theorem Fits.readBlock_toBytes (h : b.Fits) (bs : Bytes) :
    readBlock (b.toBytes ++ bs) = some (b, bs) := by
  have hlen : b.payload.length = b.size - 20 := by simp [Block.size]
  have hsync : Endian.big.toNat (Endian.big.ofUInt32 SYNC_WORD) = 0x51EDA7A0 := Endian.toNat_ofUInt32
  have hmin : 20 ≤ b.size := Nat.le_add_right _ _
  simp [toBytes_eq, readBlock, Decoder.splitOctets_append Endian.ofUInt32_length,
    Decoder.splitOctets_append hlen, h.toNat_size, hsync, hmin]

end StoredBlock

-- A block is read only where the input holds all of the octets that its `size` promises.
theorem size_le_of_readBlock (h : readBlock bs = some x) :
    4 ≤ bs.length ∧ Endian.big.toNat (bs.take 4) ≤ bs.length := by
  simp only [readBlock, Option.bind_eq_bind, Option.bind_eq_some_iff, Prod.exists,
    Decoder.splitOctets_eq_some, Option.ite_none_right_eq_some] at h
  obtain ⟨size, _, ⟨hsize, rfl⟩, group, _, ⟨hgroup, rfl⟩, magic, _, ⟨hmagic, rfl⟩, ⟨-, hmin⟩,
    payload, _, ⟨hpayload, rfl⟩, checksum, _, ⟨hchecksum, rfl⟩, size2, _, ⟨hsize2, rfl⟩, -⟩ := h
  rw [List.take_left' hsize]
  simp only [List.length_append]
  omega

theorem StoredBlock.Fits.readBlock_take {b : StoredBlock} (h : b.Fits) (hn : n < b.size) :
    readBlock (b.toBytes.take n) = none := by
  by_contra hc
  have ⟨x, hx⟩ := Option.ne_none_iff_exists'.mp hc
  have ⟨hmin, hle⟩ := size_le_of_readBlock hx
  rw [List.length_take, toBytes_length, Nat.min_eq_left hn.le] at hmin hle
  rw [List.take_take, Nat.min_eq_left hmin, toBytes_eq, List.take_left' Endian.ofUInt32_length,
    h.toNat_size] at hle
  omega

@[simp]
theorem blockFraming_write {b : StoredBlock} : blockFraming.write b = b.toBytes :=
  rfl

@[simp]
theorem blockFraming_size {b : StoredBlock} : blockFraming.size b = b.size :=
  StoredBlock.toBytes_length

theorem blockFraming_lawful : blockFraming.Lawful StoredBlock.Fits where
  read_nil      := rfl
  size_pos _    := by simp [Block.size]
  read_write h  := h.readBlock_toBytes
  read_cut h hn := h.readBlock_take (by simpa using hn)

theorem decodeBlocks_eq : decodeBlocks bs = blockFraming.decode bs := by
  rw [decodeBlocks, List.filterMap_eq_flatMap_toList]
  exact Decoder.Loop.run_eq_decode rfl rfl (fun _ _ => exec_streamDecoder) rfl

-- The size of the last block, taken from its footer.
def lastBlockSize (bs : Bytes) : Option ℕ :=
  if 4 ≤ bs.length then some (Endian.big.toNat (bs.drop (bs.length - 4))) else none

def scanBlocksBack (bs : Bytes) : List StoredBlock :=
  blockFraming.decodeBack lastBlockSize bs

theorem lastBlockSize_findsLast : blockFraming.FindsLast StoredBlock.Fits lastBlockSize := by
  refine ⟨rfl, fun b bs hb => ?_⟩
  have hmin : 20 ≤ b.size := Nat.le_add_right _ _
  have hlen : (bs ++ b.toBytes).length = bs.length + b.size := by simp
  have hdata : bs ++ b.toBytes = bs ++ b.header.toBytes ++ b.payload ++
      Endian.big.ofUInt32 b.checksum ++ Endian.big.ofUInt32 b.header.size := by
    simp [StoredBlock.toBytes, BlockFooter.toBytes, Block.header]
  have hdrop : (bs ++ b.toBytes).drop ((bs ++ b.toBytes).length - 4) =
      Endian.big.ofUInt32 b.header.size := by
    rw [hdata, List.drop_left' (by simp; omega)]
  rw [blockFraming_write, blockFraming_size, lastBlockSize, if_pos (by omega), hdrop,
    hb.toNat_size]

namespace BlockWriter

variable [Crc32] {w w' : BlockWriter} {calls : List (UInt32 × List Bytes)}

def writeBlocks (calls : List (UInt32 × List Bytes)) : EStateM Error BlockWriter Unit :=
  calls.forM fun (group, args) => do let _ ← writeBlock group args

-- What one call should leave in the file.
def stored (call : UInt32 × List Bytes) : StoredBlock where
  group    := call.1
  payload  := call.2.flatten
  checksum := Crc32.ofBytes ((Block.header ⟨call.1, call.2.flatten⟩).toBytes ++ call.2.flatten)

theorem writeBlocks_cons_run : (writeBlocks (c :: calls)).run w =
    match w.file.outcome (Block.encode ⟨c.1, c.2.flatten⟩) with
    | .complete => (writeBlocks calls).run { file := w.file.push (Block.encode ⟨c.1, c.2.flatten⟩) }
    | .fails _  => .error File.writeError
        { file := w.file.push (Block.encode ⟨c.1, c.2.flatten⟩) } := by
  simp only [writeBlocks, List.forM_eq_forM, List.forM_cons, EStateM.run_bind, writeBlock_run]
  cases w.file.outcome (Block.encode ⟨c.1, c.2.flatten⟩) <;> rfl

theorem writeBlocks_cons_ok (h : (writeBlocks (c :: calls)).run w = .ok () w') :
    ∃ v, v.file.bytes = w.file.bytes ++ (stored c).toBytes ∧ (writeBlocks calls).run v = .ok () w' := by
  rw [writeBlocks_cons_run] at h
  cases hout : w.file.outcome (Block.encode ⟨c.1, c.2.flatten⟩)
  case fails => simp [hout] at h
  case complete =>
    simp only [hout] at h
    exact ⟨_, File.push_bytes_complete hout, h⟩

-- The writes that were made since the file was `f`.
def newWrites (f : File) (w : BlockWriter) : List Write :=
  w.file.writes.drop f.writes.length

-- The first write that fails is the last one.
theorem writeBlocks_returns
    (hio : ∀ v ∈ newWrites w.file ((writeBlocks calls).run w).state, v.Complete) :
    ∃ w', (writeBlocks calls).run w = .ok () w' := by
  induction calls generalizing w
  case nil => exact ⟨w, rfl⟩
  case cons c calls ih =>
    rw [writeBlocks_cons_run] at hio ⊢
    cases hout : w.file.outcome (Block.encode ⟨c.1, c.2.flatten⟩)
    case fails =>
      simp only [hout, EStateM.Result.state_error, newWrites, File.push_writes, List.drop_left] at hio
      exact absurd (hio _ List.mem_cons_self) (by simp [Write.Complete])
    case complete =>
      simp only [hout] at hio ⊢
      refine ih fun v hv => hio v ?_
      rw [newWrites, File.push_writes, List.length_append, ← List.drop_drop] at hv
      exact List.mem_of_mem_drop hv

theorem writeBlocks_bytes (h : (writeBlocks calls).run w = .ok () w') :
    w'.file.bytes = w.file.bytes ++ blockFraming.stream (calls.map stored) := by
  induction calls generalizing w
  case nil =>
    cases h
    simp
  case cons c calls ih =>
    have ⟨v, hv, h⟩ := writeBlocks_cons_ok h
    simp [ih h, hv]

-- Calls whose writes succeed return. The stream decoder finds in the first `k` of the bytes that they
-- append the blocks that end there, and the footers lead back through all of them.
theorem writeBlocks_decode (hfits : ∀ c ∈ calls, 20 + c.2.flatten.length < 2 ^ 32)
    (hio : ∀ v ∈ newWrites w.file ((writeBlocks calls).run w).state, v.Complete) :
    ∃ w' F, (writeBlocks calls).run w = .ok () w' ∧ w'.file.bytes = w.file.bytes ++ F ∧
      (∀ k ≤ F.length, decodeBlocks (F.take k) =
        ((blockFraming.placed 0 (calls.map stored)).filter
          (fun x => x.1 + x.2.size ≤ k)).map Prod.snd) ∧
      scanBlocksBack F = (calls.map stored).reverse := by
  have hv : ∀ b ∈ calls.map stored, b.Fits := by
    intro b hb
    have ⟨c, hc, hcb⟩ := List.mem_map.mp hb
    exact hcb ▸ hfits c hc
  obtain ⟨w', hrun⟩ := writeBlocks_returns hio
  refine ⟨w', _, hrun, writeBlocks_bytes hrun, fun k hk => ?_, ?_⟩
  · simpa [decodeBlocks_eq] using blockFraming_lawful.decode_take hv hk
  · exact blockFraming_lawful.decodeBack_stream lastBlockSize_findsLast hv

omit [Crc32] in
theorem writeBlocks_decode_two_blocks :
    let _ := Crc32.ieee
    let calls : List (UInt32 × List Bytes) := [(2, [[1, 2], [], [3]]), (0, [])]
    let w : BlockWriter := { file := {} }
    ∃ w' F, (writeBlocks calls).run w = .ok () w' ∧ w'.file.bytes = w.file.bytes ++ F ∧
      (∀ k ≤ F.length, decodeBlocks (F.take k) =
        ((blockFraming.placed 0 (calls.map stored)).filter
          (fun x => x.1 + x.2.size ≤ k)).map Prod.snd) ∧
      scanBlocksBack F = (calls.map stored).reverse := by
  intro _ calls w
  exact writeBlocks_decode (by decide) (by decide +kernel)

end BlockWriter
end Sie
