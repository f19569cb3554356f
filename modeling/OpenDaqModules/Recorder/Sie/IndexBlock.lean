import OpenDaqModules.Library.Framing
import OpenDaqModules.Recorder.Sie.Decoder
import OpenDaqModules.Recorder.Sie.Format

namespace Sie

-- Decoder 1 of `PREAMBLE`.
def indexDecoder : Decoder where
  loop := {
    body := [
      .read "v0" .uint 64 .big none,
      .read "v1" .uint 32 .big none,
      .sample
    ]
  }

def IndexEntry.ofEnv (env : Decoder.Env) : Option IndexEntry := do
  let offset ← env.num? "v0"
  let group ← env.num? "v1"
  return { offset := UInt64.ofNat offset.toNat, group := UInt32.ofNat group.toNat }

-- The entries which the decoder of index blocks finds in the payload of one.
def decodeEntries (payload : Bytes) : List IndexEntry :=
  (indexDecoder.samples payload).filterMap IndexEntry.ofEnv

def readEntry (bs : Bytes) : Option (IndexEntry × Bytes) := do
  let (offset, bs) ← Decoder.splitOctets 8 bs
  let (group, bs) ← Decoder.splitOctets 4 bs
  let group := UInt32.ofNat (Endian.big.toNat group)
  return ({ offset := UInt64.ofNat (Endian.big.toNat offset), group }, bs)

def entryFraming : Framing IndexEntry UInt8 where
  write := IndexEntry.toBytes
  read  := readEntry

theorem IndexEntry.readEntry_toBytes (e : IndexEntry) (bs : Bytes) :
    readEntry (e.toBytes ++ bs) = some (e, bs) := by
  simp [toBytes, readEntry, Decoder.splitOctets_append Endian.ofUInt64_length,
    Decoder.splitOctets_append Endian.ofUInt32_length]

theorem length_of_readEntry (h : readEntry bs = some x) : 12 ≤ bs.length := by
  simp only [readEntry, Option.bind_eq_bind, Option.bind_eq_some_iff, Prod.exists,
    Decoder.splitOctets_eq_some] at h
  obtain ⟨offset, _, ⟨hoffset, rfl⟩, group, _, ⟨hgroup, rfl⟩, -⟩ := h
  simp only [List.length_append]
  omega

theorem entryFraming_lawful : entryFraming.Lawful (fun _ => True) where
  read_nil              := rfl
  size_pos _            := by simp [Framing.size, entryFraming]
  read_write {e} _      := e.readEntry_toBytes
  read_cut {e n} _ hn := by
    by_contra hc
    obtain ⟨x, hx⟩ := Option.ne_none_iff_exists'.mp hc
    have hle := length_of_readEntry hx
    simp [Framing.size, entryFraming] at hn hle
    omega

open Decoder in
theorem exec_indexDecoder {input : Bytes} {s : State} (hs : s.samples = []) :
    (execAll input indexDecoder.loop.body s).map
        (fun s' => (s'.samples.filterMap IndexEntry.ofEnv, s'.rest)) =
      (readEntry s.rest).map (fun x => ([x.1], x.2)) := by
  simp only [indexDecoder, execAll, Op.exec, readEntry, ReadType.value]
  rcases h₁ : splitOctets 8 s.rest with _ | ⟨offset, rest⟩
  · simp
  rcases h₂ : splitOctets 4 rest with _ | ⟨group, rest⟩
  · simp [h₂, State.bind]
  simp [h₂, hs, State.bind, IndexEntry.ofEnv]

theorem decodeEntries_eq : decodeEntries payload = entryFraming.decode payload := by
  rw [decodeEntries, Decoder.samples, List.filterMap_flatMap]
  exact Decoder.Loop.run_eq_decode rfl rfl (fun _ => exec_indexDecoder) rfl

theorem decodeEntries_flatMap (es : List IndexEntry) :
    decodeEntries (es.flatMap IndexEntry.toBytes) = es := by
  rw [decodeEntries_eq]
  exact entryFraming_lawful.decode_stream fun _ _ => trivial

end Sie
