import OpenDaqModules.Recorder.Sie.File
import OpenDaqModules.Recorder.Sie.Format

-- `boost::crc_32_type`: a checksum that is computed by a fold over bytes.
class Crc32 where
  State       : Type
  init        : State
  processByte : State → UInt8 → State
  checksum    : State → UInt32

namespace Crc32

open Sie

variable [Crc32]

def processBytes (crc : State) (data : Bytes) : State :=
  data.foldl processByte crc

def ofBytes (data : Bytes) : UInt32 :=
  checksum (processBytes init data)

-- The CRC-32 of IEEE 802.3, which is the one of that name in Boost.
abbrev ieee : Crc32 where
  State := UInt32
  init  := 0xFFFFFFFF
  processByte crc byte :=
    (List.range 8).foldl
      (fun crc _ => if crc &&& 1 = 1 then (crc >>> 1) ^^^ 0xEDB88320 else crc >>> 1)
      (crc ^^^ byte.toUInt32)
  checksum crc := crc ^^^ 0xFFFFFFFF

example : @ofBytes ieee (str "123456789") = 0xCBF43926 := by decide +kernel

theorem processBytes_append {crc : State} {a b : Bytes} :
    processBytes crc (a ++ b) = processBytes (processBytes crc a) b :=
  List.foldl_append

end Crc32

namespace Sie

structure BlockWriter where
  file : File

namespace BlockWriter

def getPayloadSize : List Bytes → UInt64
  | []           => 0
  | data :: args => UInt64.ofNat data.length + getPayloadSize args

def doPayloadCrc [Crc32] (crc : Crc32.State) : List Bytes → Crc32.State
  | []           => crc
  | data :: args => doPayloadCrc (Crc32.processBytes crc data) args

def writeFile (segments : List Bytes) : EStateM Error BlockWriter Unit :=
  EStateM.zoom BlockWriter.file (fun f w => { w with file := f }) (File.write segments)

def writeBlock [Crc32] (group : UInt32) (args : List Bytes) : EStateM Error BlockWriter UInt64 := do
  let payloadSize := getPayloadSize args
  let header : BlockHeader := { size := (12 + payloadSize + 8).toUInt32, group, sync := SYNC_WORD }
  let crc := doPayloadCrc (Crc32.processBytes Crc32.init header.toBytes) args
  let footer : BlockFooter := { checksum := Crc32.checksum crc, size := header.size }
  writeFile ([header.toBytes] ++ args ++ [footer.toBytes])
  return 12 + payloadSize + 8

end BlockWriter

-- A block of an SIE file: what `writeBlock` is asked to write.
structure Block where
  group   : UInt32
  payload : Bytes
  deriving DecidableEq, Repr

namespace Block

def size (b : Block) : ℕ :=
  20 + b.payload.length

def header (b : Block) : BlockHeader where
  size  := UInt32.ofNat b.size
  group := b.group
  sync  := SYNC_WORD

def footer [Crc32] (b : Block) : BlockFooter where
  checksum := Crc32.ofBytes (b.header.toBytes ++ b.payload)
  size     := UInt32.ofNat b.size

def encode [Crc32] (b : Block) : Bytes :=
  b.header.toBytes ++ b.payload ++ b.footer.toBytes

@[simp]
theorem encode_length [Crc32] {b : Block} : b.encode.length = b.size := by
  simp [encode, size]
  omega

-- The block that was written as `data`, read by the lengths of its parts.
def ofBytes (data : Bytes) : Block where
  group   := UInt32.ofNat (Endian.big.toNat ((data.drop 4).take 4))
  payload := (data.drop 12).take (data.length - 20)

theorem ofBytes_encode [Crc32] {b : Block} : ofBytes b.encode = b := by
  have hdata : b.encode = Endian.big.ofUInt32 b.header.size ++ (Endian.big.ofUInt32 b.group ++
      (Endian.big.ofUInt32 SYNC_WORD ++ (b.payload ++ b.footer.toBytes))) := by
    simp [encode, BlockHeader.toBytes, header]
  have hgroup : (b.encode.drop 4).take 4 = Endian.big.ofUInt32 b.group := by
    rw [hdata, List.drop_left' Endian.ofUInt32_length, List.take_left' Endian.ofUInt32_length]
  have hpayload : (b.encode.drop 12).take (b.size - 20) = b.payload := by
    have hlen : b.size - 20 = b.payload.length := by simp [size]
    rw [encode, List.append_assoc, List.drop_left' BlockHeader.toBytes_length, hlen, List.take_left]
  simp [ofBytes, hgroup, hpayload]

end Block

namespace BlockWriter

variable {w : BlockWriter} {group : UInt32} {args : List Bytes}

theorem getPayloadSize_eq : getPayloadSize args = UInt64.ofNat args.flatten.length := by
  induction args
  case nil               => rfl
  case cons data args ih => simp [getPayloadSize, ih]

theorem size_eq :
    12 + getPayloadSize args + 8 = UInt64.ofNat (Block.size ⟨group, args.flatten⟩) := by
  apply UInt64.toNat_inj.mp
  simp only [getPayloadSize_eq, UInt64.toNat_add, UInt64.toNat_ofNat', UInt64.reduceToNat, Block.size]
  omega

theorem size_toUInt32_eq (group : UInt32) :
    (12 + getPayloadSize args + 8).toUInt32 = UInt32.ofNat (Block.size ⟨group, args.flatten⟩) := by
  rw [size_eq, UInt64.toUInt32_ofNat']

theorem writeFile_run :
    (writeFile args).run w =
      match w.file.outcome args.flatten with
      | .complete => .ok () { file := w.file.push args.flatten }
      | .fails _  => .error File.writeError { file := w.file.push args.flatten } := by
  rw [writeFile, EStateM.run_zoom, File.write_run]
  cases w.file.outcome args.flatten <;> rfl

variable [Crc32]

theorem doPayloadCrc_eq {crc : Crc32.State} :
    doPayloadCrc crc args = Crc32.processBytes crc args.flatten := by
  induction args generalizing crc
  case nil               => rfl
  case cons data args ih => rw [doPayloadCrc, ih, List.flatten_cons, Crc32.processBytes_append]

-- However the payload is split into segments, the file is asked to write one encoded block.
theorem writeBlock_run :
    (writeBlock group args).run w =
      match w.file.outcome (Block.encode ⟨group, args.flatten⟩) with
      | .complete => .ok (UInt64.ofNat (Block.size ⟨group, args.flatten⟩))
          { file := w.file.push (Block.encode ⟨group, args.flatten⟩) }
      | .fails _  => .error File.writeError
          { file := w.file.push (Block.encode ⟨group, args.flatten⟩) } := by
  let b : Block := ⟨group, args.flatten⟩
  have hcrc : doPayloadCrc (Crc32.processBytes Crc32.init b.header.toBytes) args =
      Crc32.processBytes Crc32.init (b.header.toBytes ++ b.payload) := by
    rw [doPayloadCrc_eq, Crc32.processBytes_append]
  have hdata : ([b.header.toBytes] ++ args ++ [b.footer.toBytes]).flatten = b.encode := by
    simp [Block.encode, b]
  have hrun : (writeBlock group args).run w =
      (do writeFile ([b.header.toBytes] ++ args ++ [b.footer.toBytes])
          return UInt64.ofNat b.size : EStateM Error BlockWriter UInt64).run w := by
    simp only [writeBlock, size_toUInt32_eq group, ← size_eq, b]
    rw [← Block.header, hcrc]
    rfl
  rw [hrun, EStateM.run_bind, writeFile_run, hdata]
  cases w.file.outcome b.encode <;> rfl

end BlockWriter
end Sie
