import OpenDaqModules.Recorder.Theorems.ScalarSamples

namespace AdvancedRecorder

open Sie Xml Decoder

-- The type of the samples in the packets of a signal. A post-scaling is applied to them later.
def DataDescriptor.rawSampleType (descriptor : DataDescriptor) : SampleType :=
  match descriptor.postScaling with
  | some scaling => scaling.inputSampleType
  | none         => descriptor.sampleType

-- The sample type that is read as a type of so many bits.
def sampleTypeOf : ReadType → ℕ → SampleType
  | .float, bits => if bits = 32 then .float32 else .float64
  | .uint, bits  =>
    if bits = 8 then .uint8 else if bits = 16 then .uint16 else if bits = 32 then .uint32 else .uint64
  | .int, bits   =>
    if bits = 8 then .int8 else if bits = 16 then .int16 else if bits = 32 then .int32 else .int64

theorem sampleTypeOf_eq {type : SampleType} {name : Bytes} {bits : UInt32} {readType : ReadType}
    (h : sampleTypeToSieReadType type = .ok (name, bits)) (hofText : ReadType.ofText name = some readType) :
    sampleTypeOf readType bits.toNat = type := by
  cases type
  all_goals
    simp only [sampleTypeToSieReadType, Except.ok.injEq, Prod.mk.injEq, reduceCtorEq] at h
  all_goals
    obtain ⟨rfl, rfl⟩ := h
    cases hofText
    rfl

namespace ScalarLinearSignalHandler

variable [Host] [Crc32] {value domain : DataDescriptor} {start delta : Int64} {decoder : Decoder}

-- The decoder reads the raw samples as what they are, and finds every one of them.
structure ReadsRaw (value : DataDescriptor) (start delta : Int64) (decoder : Decoder) : Prop where
  reads   : ∃ name bits readType, sampleTypeToSieReadType value.rawSampleType = .ok (name, bits) ∧
    ReadType.ofText name = some readType ∧
    .read "v1" readType bits.toNat Host.endian none ∈ decoder.loop.body
  samples : ∀ (handler : ScalarLinearSignalHandler) (packet : DataPacket) domainPacket offset n,
    packet.domainPacket = some domainPacket → domainPacket.offset = some offset →
    packet.rawData.length = n * value.rawSampleType.size →
    ∃ args, onDataPacketReceived handler packet = Writer.writeBlock handler.group args ∧
      (decoder.samples args.flatten).map pair = (List.range n).map fun i : ℕ =>
        (some (offset.toInt + start.toInt + i * delta.toInt),
          some (value.rawSampleType.value (chunk value.rawSampleType.size i packet.rawData)))

omit [Host] [Crc32] in
theorem rawSampleType_eq_iff : value.rawSampleType = value.sampleType ↔
    ∀ scaling ∈ value.postScaling, scaling.inputSampleType = value.sampleType := by
  rw [DataDescriptor.rawSampleType]
  cases value.postScaling <;> simp

theorem ReadsRaw.rawSampleType_eq {name : Bytes} {bits : UInt32} {readType : ReadType} {e : Expr} {d : ℤ}
    (htype : sampleTypeToSieReadType value.sampleType = .ok (name, bits))
    (hofText : ReadType.ofText name = some readType)
    (h : ReadsRaw value start delta (blockDecoder e d readType bits.toNat)) :
    value.rawSampleType = value.sampleType := by
  obtain ⟨name', bits', readType', htype', hofText', hmem⟩ := h.reads
  simp only [blockDecoder, List.mem_cons, Op.read.injEq, reduceCtorEq, List.not_mem_nil, or_false,
    true_and, and_true] at hmem
  obtain ⟨rfl, hbits⟩ := hmem
  rw [← sampleTypeOf_eq htype' hofText', ← sampleTypeOf_eq htype hofText, hbits]

-- The raw samples of a signal with a post-scaling are read as if they were scaled ones.
theorem readsRaw_iff (testId : UInt32) (signal : Signal) (w : Writer)
    (hsupports : supports (some value) (some domain) = .ok true)
    (hlinear : getLinearRuleStartDelta domain = .ok (start, delta)) :
    ∃ xml decoder,
      (create testId signal (some value) (some domain)).run w =
        ((fun _ => { group := UInt32.ofNat w.nextGroup }) <$> Writer.writeMetadata xml).run w.allocated ∧
      Decoder.ofMetadata xml = some decoder ∧
      (ReadsRaw value start delta decoder ↔
        ∀ scaling ∈ value.postScaling, scaling.inputSampleType = value.sampleType) := by
  obtain ⟨xml, name, bits, readType, e, hcreate, hdecoder, htype, hread, heval⟩ :=
    create_decoder testId signal w hsupports hlinear
  refine ⟨xml, _, hcreate, hdecoder, ?_⟩
  rw [← rawSampleType_eq_iff]
  constructor
  case mp => exact fun h => h.rawSampleType_eq htype hread.ofText
  case mpr =>
    intro heq
    constructor
    case reads =>
      rw [heq]
      exact ⟨name, bits, readType, htype, hread.ofText, List.mem_cons_self⟩
    case samples =>
      rw [heq]
      intro handler packet domainPacket offset n hdomain hoffset hlength
      exact samples_onDataPacketReceived hread heval hdomain hoffset hlength _ handler

omit [Host] [Crc32] in
theorem readsRaw_iff_integer_scaling :
    let _ := Crc32.ieee
    let _ := Host.exact
    let value : DataDescriptor := {
      name        := str "value"
      sampleType  := .int16
      rule        := some { type := .explicit, parameters := none }
      postScaling := some { inputSampleType := .int16, outputSampleType := .int16 } }
    ∃ decoder, ReadsRaw value 0 10 decoder := by
  intro _ _ value
  let domain : DataDescriptor := {
    name       := str "time"
    sampleType := .int64
    rule       := some { type := .linear, parameters := some [(str "delta", .integer 10)] } }
  let w : Writer := { writer := IndexedWriter.create [], uuids := fun _ => [] }
  let signal : Signal := { globalId := [], description := [] }
  obtain ⟨_, decoder, _, _, hiff⟩ := readsRaw_iff 0 signal w
    (show supports (some value) (some domain) = .ok true by decide)
    (show getLinearRuleStartDelta domain = .ok (0, 10) by rfl)
  exact ⟨decoder, hiff.mpr fun scaling hscaling => by cases hscaling; rfl⟩

-- Four integers that are going to be scaled are read as one number.
omit [Host] [Crc32] in
theorem not_readsRaw_scaled_integers :
    let _ := Crc32.ieee
    let _ := Host.exact
    let value : DataDescriptor := {
      name        := str "value"
      sampleType  := .float64
      rule        := some { type := .explicit, parameters := none }
      postScaling := some { inputSampleType := .int16, outputSampleType := .float64 } }
    let domain : DataDescriptor := {
      name       := str "time"
      sampleType := .int64
      rule       := some { type := .linear, parameters := some [(str "delta", .integer 10)] } }
    let domainPacket : DomainPacket := { dataDescriptor := none, offset := some 5, rawData := [] }
    let packet : DataPacket := {
      dataDescriptor := none
      domainPacket   := some domainPacket
      sampleCount    := 4
      rawData        := [1, 0, 2, 0, 3, 0, 4, 0] }
    let w : Writer := { writer := IndexedWriter.create [], uuids := fun _ => [] }
    ∃ xml decoder args, supports (some value) (some domain) = .ok true ∧
      (create 0 { globalId := [], description := [] } (some value) (some domain)).run w =
        ((fun _ => { group := 2 }) <$> Writer.writeMetadata xml).run w.allocated ∧
      Decoder.ofMetadata xml = some decoder ∧
      onDataPacketReceived { group := 2 } packet = Writer.writeBlock 2 args ∧
      (decoder.samples args.flatten).length = 1 ∧ ¬ReadsRaw value 0 10 decoder := by
  intro _ _ value domain domainPacket packet w
  have hsupports : supports (some value) (some domain) = .ok true := by decide
  have hlinear : getLinearRuleStartDelta domain = .ok (0, 10) := rfl
  obtain ⟨xml, name, bits, readType, e, hcreate, hdecoder, htype, hread, heval⟩ :=
    create_decoder 0 { globalId := [], description := [] } w hsupports hlinear
  let decoder := blockDecoder e (10 : Int64).toInt readType bits.toNat
  have hdomainPacket : packet.domainPacket = some domainPacket := rfl
  have hoffset : domainPacket.offset = some 5 := rfl
  have hlength : packet.rawData.length = 1 * SampleType.float64.size := rfl
  obtain ⟨args, hargs, hsamples⟩ :=
    samples_onDataPacketReceived hread heval hdomainPacket hoffset hlength 10 { group := 2 }
  have hone : (decoder.samples args.flatten).length = 1 := by
    rw [← List.length_map, hsamples]
    rfl
  refine ⟨xml, decoder, args, hsupports, hcreate, hdecoder, hargs, hone, fun h => ?_⟩
  exact absurd (h.rawSampleType_eq htype hread.ofText) (by decide)

end ScalarLinearSignalHandler
end AdvancedRecorder
