import OpenDaqModules.Recorder.Metadata
import OpenDaqModules.Recorder.Sie.DecoderElement
import OpenDaqModules.Recorder.Sie.Trace

-- How openDAQ lays out samples in memory, and how a decoder reads them.
namespace AdvancedRecorder

open Sie Decoder

-- The size of a sample in octets. Types without a fixed size have none.
def SampleType.size : SampleType → ℕ
  | .uint8 | .int8                         => 1
  | .uint16 | .int16                       => 2
  | .float32 | .uint32 | .int32            => 4
  | .float64 | .uint64 | .int64            => 8
  | .complexFloat32                        => 8
  | .complexFloat64 | .rangeInt64          => 16
  | .invalid | .binary | .string | .struct | .null => 0

-- The value of a sample. That of a floating-point sample is taken to be its bits.
def SampleType.value [Host] (type : SampleType) (octets : Bytes) : Value :=
  let n := Host.endian.toNat octets
  match type with
  | .uint8  => .num (UInt8.ofNat n).toNat
  | .uint16 => .num (UInt16.ofNat n).toNat
  | .uint32 => .num (UInt32.ofNat n).toNat
  | .uint64 => .num (UInt64.ofNat n).toNat
  | .int8   => .num (Int8.ofNat n).toInt
  | .int16  => .num (Int16.ofNat n).toInt
  | .int32  => .num (Int32.ofNat n).toInt
  | .int64  => .num (Int64.ofNat n).toInt
  | _       => .raw octets

-- One of the samples that follow each other in `bs`.
def chunk (width index : ℕ) (bs : Bytes) : Bytes :=
  (bs.drop (width * index)).take width

-- What a sample type is read as.
structure ReadAs [Host] (type : SampleType) (name : Bytes) (bits : UInt32) (readType : ReadType) :
    Prop where
  ofText : ReadType.ofText name = some readType
  ne_raw : name ≠ str "raw"
  size   : bits.toNat / 8 = type.size
  pos    : 0 < type.size
  le     : type.size ≤ 8
  value  : ∀ octets : Bytes, octets.length = type.size →
    readType.value Host.endian octets = type.value octets

section

variable [Host] {type : SampleType} {name octets bs : Bytes} {bits : UInt32} {n p : ℕ}

-- An unsigned sample has the range of its type, whichever octets it consists of.
theorem uint_value_eq (h : octets.length = type.size)
    (htype : type ∈ [SampleType.uint8, .uint16, .uint32, .uint64]) :
    ReadType.uint.value Host.endian octets = type.value octets := by
  have hlt := Host.endian.toNat_lt octets
  rw [h] at hlt
  simp only [List.mem_cons, List.not_mem_nil, or_false] at htype
  obtain rfl | rfl | rfl | rfl := htype
  all_goals
    simp only [SampleType.size, Nat.reducePow] at hlt
    simp [ReadType.value, SampleType.value]
    omega

theorem int_value_eq (h : octets.length = type.size)
    (htype : type ∈ [SampleType.int8, .int16, .int32, .int64]) :
    ReadType.int.value Host.endian octets = type.value octets := by
  simp only [List.mem_cons, List.not_mem_nil, or_false] at htype
  obtain rfl | rfl | rfl | rfl := htype
  all_goals simp [ReadType.value, SampleType.value, h, SampleType.size]

omit [Host] in
theorem int_value_ofInt64 {e : Endian} {x : Int64} :
    ReadType.int.value e (e.ofUInt64 x.toUInt64) = .num x.toInt := by
  have hbmod : x.toInt = (x.toUInt64.toNat : ℤ).bmod (256 ^ 8) := BitVec.toInt_eq_toNat_bmod _
  rw [hbmod]
  simp [ReadType.value]

theorem readAs (h : sampleTypeToSieReadType type = .ok (name, bits)) :
    ∃ readType, ReadAs type name bits readType := by
  cases type
  all_goals
    simp only [sampleTypeToSieReadType, Except.ok.injEq, Prod.mk.injEq, reduceCtorEq] at h
  case float32 | float64 =>
    obtain ⟨rfl, rfl⟩ := h
    exact ⟨.float, rfl, by decide, by decide, by decide, by decide, fun _ _ => rfl⟩
  case uint8 | uint16 | uint32 | uint64 =>
    obtain ⟨rfl, rfl⟩ := h
    exact ⟨.uint, rfl, by decide, by decide, by decide, by decide,
      fun _ ho => uint_value_eq ho (by decide)⟩
  case int8 | int16 | int32 | int64 =>
    obtain ⟨rfl, rfl⟩ := h
    exact ⟨.int, rfl, by decide, by decide, by decide, by decide,
      fun _ ho => int_value_eq ho (by decide)⟩

omit [Host] in
theorem splitOctets_drop (h : p + n ≤ bs.length) :
    splitOctets n (bs.drop p) = some ((bs.drop p).take n, bs.drop (p + n)) := by
  have hle : n ≤ (bs.drop p).length := by
    rw [List.length_drop]
    omega
  rw [splitOctets, if_pos hle, List.drop_drop]

-- Samples of one size are found at the multiples of it.
omit [Host] in
theorem drop_flatMap {xs : List α} {f : α → Bytes} {width k : ℕ} (hf : ∀ x, (f x).length = width)
    (hk : xs[k]? = some x) : ∃ later, (xs.flatMap f).drop (width * k) = f x ++ later := by
  induction k generalizing xs
  case zero =>
    cases xs
    case nil       => exact nomatch hk
    case cons y ys =>
      cases hk
      exact ⟨ys.flatMap f, rfl⟩
  case succ k ih =>
    cases xs
    case nil       => exact nomatch hk
    case cons y ys =>
      rw [List.getElem?_cons_succ] at hk
      rw [Nat.mul_succ, Nat.add_comm, ← List.drop_drop, List.flatMap_cons, List.drop_left' (hf y)]
      exact ih hk

omit [Host] in
theorem flatMap_length {xs : List α} {f : α → Bytes} {width : ℕ} (hf : ∀ x, (f x).length = width) :
    (xs.flatMap f).length = width * xs.length := by
  induction xs
  case nil          => rfl
  case cons x xs ih => rw [List.flatMap_cons, List.length_append, hf, ih, List.length_cons, Nat.mul_succ,
    Nat.add_comm]

end
end AdvancedRecorder
