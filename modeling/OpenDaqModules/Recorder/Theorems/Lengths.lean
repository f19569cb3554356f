import OpenDaqModules.Recorder.CanDecoder
import OpenDaqModules.Recorder.Sie.WriterLog

open EStateM

namespace Sie

section

variable [Crc32] {b : Block} {w : BlockWriter} {group : UInt32} {args : List Bytes}

-- The sizes in the header and in the footer of a block.
theorem Block.header_size : Endian.big.toNat (b.encode.take 4) = b.size % 2 ^ 32 := by
  have hencode : b.encode = Endian.big.ofUInt32 b.header.size ++ (Endian.big.ofUInt32 b.header.group ++
      Endian.big.ofUInt32 b.header.sync ++ b.payload ++ b.footer.toBytes) := by
    simp [encode, BlockHeader.toBytes]
  rw [hencode, List.take_left' Endian.ofUInt32_length, Endian.toNat_ofUInt32, header,
    UInt32.toNat_ofNat']

theorem Block.footer_size :
    Endian.big.toNat (b.encode.drop (b.encode.length - 4)) = b.size % 2 ^ 32 := by
  have hencode : b.encode = b.header.toBytes ++ b.payload ++
      Endian.big.ofUInt32 b.footer.checksum ++ Endian.big.ofUInt32 b.footer.size := by
    simp [encode, BlockFooter.toBytes]
  have hlength : b.encode.length - 4 = (b.header.toBytes ++ b.payload ++
      Endian.big.ofUInt32 b.footer.checksum).length := by
    simp [hencode]
    omega
  rw [hlength, hencode, List.drop_left, Endian.toNat_ofUInt32, footer, UInt32.toNat_ofNat']

-- The call writes a block whose sizes are those of the block, or rejects a block that is too long.
structure BlockWriter.SizesTrue (w : BlockWriter) (group : UInt32) (args : List Bytes) : Prop where
  written  : ∀ data outcome,
    ((writeBlock group args).run w).state.file.writes = w.file.writes ++ [⟨data, outcome⟩] →
      Endian.big.toNat (data.take 4) = data.length ∧
      Endian.big.toNat (data.drop (data.length - 4)) = data.length
  rejected : 2 ^ 32 ≤ 20 + args.flatten.length →
    ((writeBlock group args).run w).state.file.writes = w.file.writes

theorem BlockWriter.writeBlock_writes : ((writeBlock group args).run w).state.file.writes =
    w.file.writes ++ [⟨Block.encode ⟨group, args.flatten⟩, w.file.outcome
      (Block.encode ⟨group, args.flatten⟩)⟩] := by
  rw [writeBlock_run]
  split <;> rfl

theorem BlockWriter.sizesTrue_iff :
    SizesTrue w group args ↔ 20 + args.flatten.length < 2 ^ 32 := by
  constructor
  case mp =>
    intro h
    by_contra hlarge
    have hwrites := h.rejected (Nat.le_of_not_lt hlarge)
    rw [writeBlock_writes] at hwrites
    simp at hwrites
  case mpr =>
    intro hsmall
    refine ⟨fun data outcome hwrites => ?_, fun hlarge => absurd hsmall (Nat.not_lt_of_le hlarge)⟩
    rw [writeBlock_writes] at hwrites
    obtain ⟨rfl, -⟩ := Write.mk.inj (List.singleton_inj.mp (List.append_cancel_left hwrites))
    have hsize : Block.size ⟨group, args.flatten⟩ % 2 ^ 32 = Block.size ⟨group, args.flatten⟩ :=
      Nat.mod_eq_of_lt hsmall
    rw [Block.header_size, Block.footer_size, Block.encode_length, hsize]
    exact ⟨rfl, rfl⟩

-- The first of the blocks that a call writes is the one it was asked for.
theorem Writer.first_written {w : Writer} {data : Bytes} {outcome : Outcome}
    (h : w.file.writes ++ [⟨data, outcome⟩] <+:
      ((Writer.writeBlock group args).run w).state.file.writes) :
    data = Block.encode ⟨group, args.flatten⟩ := by
  obtain ⟨outcome', hfirst⟩ := Writer.writeBlock_writes group args w
  have hsame := List.prefix_of_prefix_length_le h hfirst (by simp)
  have heq := hsame.eq_of_length (by simp)
  exact (Write.mk.inj (List.singleton_inj.mp (List.append_cancel_left heq))).left

end
end Sie

namespace AdvancedRecorder.CanSignalHandler

open Sie

variable [Host] [Crc32] {handler : CanSignalHandler} {packet : DataPacket} {w : Writer}

-- The handler writes a block that starts with the number of samples, or rejects a packet with too
-- many of them.
structure CountTrue (handler : CanSignalHandler) (packet : DataPacket) : Prop where
  written  : ∀ w data outcome, w.file.writes ++ [⟨data, outcome⟩] <+:
    ((onDataPacketReceived handler packet).run w).state.file.writes →
      Host.endian.toNat ((Block.ofBytes data).payload.take 4) = packet.sampleCount.toNat
  rejected : 2 ^ 32 ≤ packet.sampleCount.toNat → ∀ w,
    ((onDataPacketReceived handler packet).run w).state.file.writes = w.file.writes

-- Only the low 32 bits of the number of samples take part in the checks.
def PassesChecks (packet : DataPacket) : Prop :=
  let n := packet.sampleCount.toNat % 2 ^ 32
  ∃ domainPacket, packet.domainPacket = some domainPacket ∧
    69 * n ≤ packet.rawData.length ∧ 8 * n ≤ domainPacket.rawData.length

theorem PassesChecks.eq_writeBlock (h : PassesChecks packet) (handler : CanSignalHandler) : ∃ args,
    onDataPacketReceived handler packet = Writer.writeBlock handler.group args ∧
      Host.endian.toNat (args.flatten.take 4) = packet.sampleCount.toNat % 2 ^ 32 := by
  obtain ⟨domainPacket, hdomain, hle⟩ := h
  have hsegments := segments_eq hdomain rfl
  rw [UInt64.toNat_toUInt32, if_pos hle] at hsegments
  refine ⟨_, onDataPacketReceived_eq_writeBlock hsegments, ?_⟩
  rw [List.flatten_cons, List.take_left' Endian.ofUInt32_length, Endian.toNat_ofUInt32,
    UInt64.toNat_toUInt32]

theorem eq_pure_of_not_passesChecks (h : ¬PassesChecks packet) :
    onDataPacketReceived handler packet = pure () := by
  apply onDataPacketReceived_eq_pure
  cases hdomain : packet.domainPacket
  case none =>
    rw [HandlerKind.segments, hdomain]
    rfl
  case some domainPacket =>
    rw [segments_eq hdomain rfl, UInt64.toNat_toUInt32]
    exact if_neg fun hle => h ⟨domainPacket, hdomain, hle⟩

theorem countTrue_iff :
    CountTrue handler packet ↔ packet.sampleCount.toNat < 2 ^ 32 ∨ ¬PassesChecks packet := by
  by_cases hpasses : PassesChecks packet
  case neg =>
    have hpure : onDataPacketReceived handler packet = pure () := eq_pure_of_not_passesChecks hpasses
    refine iff_of_true ⟨fun w data outcome hprefix => ?_, fun _ w => by rw [hpure]; rfl⟩ (.inr hpasses)
    rw [hpure] at hprefix
    have hle := hprefix.length_le
    rw [List.length_append] at hle
    exact absurd hle (Nat.not_succ_le_self _)
  case pos =>
    obtain ⟨args, hwrites, hcount⟩ := hpasses.eq_writeBlock handler
    simp only [hpasses, not_true_eq_false, or_false]
    constructor
    case mp =>
      intro h
      by_contra hlarge
      -- A call that writes changes the file of any writer.
      let w : Writer := { writer := IndexedWriter.create [], uuids := fun _ => [] }
      have hsame := h.rejected (Nat.le_of_not_lt hlarge) w
      rw [hwrites] at hsame
      exact Writer.writeBlock_grows handler.group args w hsame
    case mpr =>
      intro hsmall
      refine ⟨fun w data outcome hprefix => ?_, fun hlarge => absurd hsmall (Nat.not_lt_of_le hlarge)⟩
      rw [hwrites] at hprefix
      rw [Writer.first_written hprefix, Block.ofBytes_encode, hcount, Nat.mod_eq_of_lt hsmall]

-- No length is checked against the range of its field.
theorem lengths_true_iff (v : BlockWriter) (group : UInt32) (args : List Bytes)
    (handler : CanSignalHandler) (packet : DataPacket) :
    (v.SizesTrue group args ↔ 20 + args.flatten.length < 2 ^ 32) ∧
      (CountTrue handler packet ↔ packet.sampleCount.toNat < 2 ^ 32 ∨ ¬PassesChecks packet) :=
  ⟨BlockWriter.sizesTrue_iff, countTrue_iff⟩

-- The sizes of a block of 4 GiB wrap around, and so does the number of 2 ^ 32 samples.
omit [Host] [Crc32] in
theorem lengths_not_true_large :
    let _ := Crc32.ieee
    let _ := Host.exact
    let v : BlockWriter := { file := {} }
    let payload : Bytes := List.replicate (2 ^ 32) 0
    let domainPacket : DomainPacket := {
      dataDescriptor := none
      offset         := none
      rawData        := List.replicate (8 * 2 ^ 32) 0 }
    let packet : DataPacket := {
      dataDescriptor := none
      domainPacket   := some domainPacket
      sampleCount    := 4294967296
      rawData        := List.replicate (69 * 2 ^ 32) 0 }
    ((BlockWriter.writeBlock 2 [payload]).run v).Returns ∧ ¬v.SizesTrue 2 [payload] ∧
      ∀ handler, ¬CountTrue handler packet := by
  intro _ _ v payload domainPacket packet
  have hlength : [payload].flatten.length = 2 ^ 32 := by
    rw [List.flatten_singleton, List.length_replicate]
  have houtcome : v.file.outcome (Block.encode ⟨2, [payload].flatten⟩) = .complete := by
    have hroom : (Block.encode ⟨2, [payload].flatten⟩).length ≤ OFF_MAX - v.file.bytes.length := by
      rw [Block.encode_length, Block.size, hlength]
      decide
    rw [File.outcome]
    exact if_pos hroom
  have hcount : packet.sampleCount.toNat = 2 ^ 32 := by decide
  have hpasses : PassesChecks packet := by
    refine ⟨domainPacket, rfl, ?_, ?_⟩
    all_goals
      rw [hcount]
      exact Nat.zero_le _
  refine ⟨?_, ?_, fun handler h => ?_⟩
  case refine_1 =>
    rw [BlockWriter.writeBlock_run, houtcome]
    trivial
  case refine_2 =>
    rw [BlockWriter.sizesTrue_iff, hlength]
    decide
  case refine_3 =>
    cases countTrue_iff.mp h
    case inl hsmall =>
      rw [hcount] at hsmall
      exact Nat.lt_irrefl _ hsmall
    case inr hnot => exact hnot hpasses

end AdvancedRecorder.CanSignalHandler
