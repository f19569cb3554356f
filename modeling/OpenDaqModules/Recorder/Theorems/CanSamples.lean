import OpenDaqModules.Recorder.CanDecoder

namespace AdvancedRecorder

open Sie Xml Decoder SignalHandler

-- The layout of a CAN message in openDAQ.
structure OpendaqCanMessage where
  id   : UInt32
  size : UInt8
  data : Vector UInt8 64

namespace OpendaqCanMessage

variable [Host]

def octets (message : OpendaqCanMessage) : Bytes :=
  Host.endian.ofUInt32 message.id ++ message.size :: message.data.toList

theorem octets_length {message : OpendaqCanMessage} : message.octets.length = OPENDAQ_CAN_MESSAGE := by
  simp [octets, OPENDAQ_CAN_MESSAGE]

end OpendaqCanMessage

namespace CanSignalHandler

-- The fields of a struct with this layout.
inductive CanLayout : List StructField → Prop
  | mk {id length data : StructField}
    (id_type : id.sampleType = .uint32) (id_dimensions : id.dimensions.getD [] = [])
    (length_type : length.sampleType = .uint8) (length_dimensions : length.dimensions.getD [] = [])
    (data_type : data.sampleType = .uint8)
    (data_dimensions : data.dimensions = some [{ ruleType := .linear, size := 64 }]) :
    CanLayout [id, length, data]

-- A timestamp of one of the two integer types.
def tick (type : SampleType) (time : UInt64) : ℤ :=
  if type = .int64 then time.toInt64.toInt else time.toNat

-- What the variables of a sample say.
def message (env : Env) : Option ℤ × Option ℤ × Option ℤ × Option Bytes :=
  (env.num? "v0", env.num? "v1", env.num? "v2", env.raw? "v3")

-- What they should say about a message and its timestamp.
def sampleOf (type : SampleType) (x : UInt64 × OpendaqCanMessage) :
    Option ℤ × Option ℤ × Option ℤ × Option Bytes :=
  (some (tick type x.1), some (x.2.id.toNat : ℤ), some (x.2.size.toNat : ℤ), some x.2.data.toList)

theorem rawOctets?_eq_none {field : StructField} (h : field.dimensions.getD [] = []) :
    rawOctets? field = none := by
  cases hraw : rawOctets? field
  case none        => rfl
  case some octets =>
    obtain ⟨_, dimension, hdimensions, _⟩ := rawOctets?_eq_some hraw
    rw [hdimensions] at h
    cases h

variable {fields : List StructField} {sizes : List ℕ} {p : ℕ}

theorem CanLayout.readSizes (h : CanLayout fields) : fields.map readSize = [4, 1, 64] := by
  cases h
  case mk hid hid' hlength hlength' hdata hdata' =>
    have hid' := rawOctets?_eq_none hid'
    have hlength' := rawOctets?_eq_none hlength'
    simp only [List.map_cons, List.map_nil, readSize, hid', hid, hlength', hlength]
    simp [rawOctets?, hdata, hdata', SampleType.size]

theorem stop_le_of_mem_fieldReads (h : a ∈ fieldReads p sizes) : a.stop ≤ p + sizes.sum := by
  induction sizes generalizing p
  case nil => exact nomatch h
  case cons size sizes ih =>
    rw [List.sum_cons]
    cases List.mem_cons.mp h
    case inl h =>
      rw [h, Access.stop]
      omega
    case inr h => exact (ih h).trans_eq (Nat.add_assoc ..)

variable [Host] {type : SampleType} {input later : Bytes} {N k : ℕ} {s : State}

omit [Host] in
theorem size_eq (htype : type = .int64 ∨ type = .uint64) : type.size = 8 := by
  obtain rfl | rfl := htype <;> rfl

theorem value_ofUInt64 {time : UInt64} (htype : type = .int64 ∨ type = .uint64) :
    type.value (Host.endian.ofUInt64 time) = .num (tick type time) := by
  obtain rfl | rfl := htype
  case inl =>
    have hbmod : time.toInt64.toInt = (time.toNat : ℤ).bmod Int64.size := BitVec.toInt_eq_toNat_bmod _
    simp [SampleType.value, tick, hbmod]
  case inr => simp [SampleType.value, tick]

-- The variables that the fields of a message are read into.
theorem CanLayout.fieldVars_eq {m : OpendaqCanMessage} (h : CanLayout fields)
    (hm : input.drop p = m.octets ++ later) :
    fieldVars input 1 p fields =
      [("v3", .raw m.data.toList), ("v2", .num m.size.toNat), ("v1", .num m.id.toNat)] := by
  have hv1 : fieldVar 1 = "v1" := by decide +kernel
  have hv2 : fieldVar 2 = "v2" := by decide +kernel
  have hv3 : fieldVar 3 = "v3" := by decide +kernel
  have hafter : input.drop (p + 4) = m.size :: m.data.toList ++ later := by
    rw [← List.drop_drop, hm, OpendaqCanMessage.octets, List.append_assoc]
    exact List.drop_left' Endian.ofUInt32_length
  have hdata : input.drop (p + 4 + 1) = m.data.toList ++ later := by
    rw [← List.drop_drop, hafter]
    rfl
  have hid : (input.drop p).take 4 = Host.endian.ofUInt32 m.id := by
    rw [hm, OpendaqCanMessage.octets, List.append_assoc]
    exact List.take_left' Endian.ofUInt32_length
  have hsize : (input.drop (p + 4)).take 1 = [m.size] := by rw [hafter]; rfl
  have hoctets : (input.drop (p + 4 + 1)).take 64 = m.data.toList := by
    rw [hdata]
    exact List.take_left' (by simp)
  have hsizes := h.readSizes
  cases h
  case mk data hidType hid' hlengthType hlength' hdataType hdata' =>
    simp only [List.map_cons, List.map_nil, List.cons.injEq, and_true] at hsizes
    obtain ⟨hidSize, hlengthSize, hdataSize⟩ := hsizes
    have hraw : rawOctets? data = some 64 := by simp [rawOctets?, hdataType, hdata']
    have hid' := rawOctets?_eq_none hid'
    have hlength' := rawOctets?_eq_none hlength'
    simp [fieldVars, fieldValue, hidSize, hlengthSize, hdataSize, hv1, hv2, hv3, hid, hsize, hoctets,
      hid', hlength', hraw, hidType, hlengthType, SampleType.value, Endian.toNat_singleton]

-- What a block consists of that has these messages.
structure Payload (input : Bytes) (n : UInt32) (ticks : List UInt64) (messages : List OpendaqCanMessage) :
    Prop where
  ticks_length    : ticks.length = n.toNat
  messages_length : messages.length = n.toNat
  input_eq        : input = Host.endian.ofUInt32 n ++
    (ticks.flatMap Host.endian.ofUInt64 ++ messages.flatMap OpendaqCanMessage.octets)

namespace Payload

variable {n : UInt32} {ticks : List UInt64} {messages : List OpendaqCanMessage}

theorem ticks_octets (h : Payload input n ticks messages) :
    (ticks.flatMap Host.endian.ofUInt64).length = 8 * n.toNat := by
  rw [flatMap_length (f := Host.endian.ofUInt64) fun _ => Endian.ofUInt64_length, h.ticks_length]

theorem length (h : Payload input n ticks messages) :
    input.length = 4 + 8 * n.toNat + 69 * n.toNat := by
  have hmessages : (messages.flatMap OpendaqCanMessage.octets).length = 69 * messages.length := by
    exact flatMap_length fun m => m.octets_length
  rw [h.input_eq, List.length_append, List.length_append, h.ticks_octets, hmessages,
    h.messages_length, Endian.ofUInt32_length, Nat.add_assoc]

theorem le (h : Payload input n ticks messages) (htype : type = .int64 ∨ type = .uint64)
    (hlayout : CanLayout fields) : ∀ k < n.toNat, 4 + type.size * (k + 1) ≤ input.length ∧
      4 + type.size * n.toNat + 69 * k + (fields.map readSize).sum ≤ input.length := by
  intro k hk
  rw [size_eq htype, hlayout.readSizes, h.length]
  simp only [List.sum_cons, List.sum_nil]
  omega

theorem drop_four (h : Payload input n ticks messages) : input.drop 4 =
    ticks.flatMap Host.endian.ofUInt64 ++ messages.flatMap OpendaqCanMessage.octets := by
  rw [h.input_eq]
  exact List.drop_left' Endian.ofUInt32_length

theorem time_eq (h : Payload input n ticks messages) (htype : type = .int64 ∨ type = .uint64)
    (hk : ticks[k]? = some x) : time type input k = .num (tick type x) := by
  obtain ⟨later, hlater⟩ := drop_flatMap (f := Host.endian.ofUInt64)
    (fun _ => Endian.ofUInt64_length) hk
  have hle : 8 * k ≤ (ticks.flatMap Host.endian.ofUInt64).length := by
    obtain ⟨hlt, _⟩ := List.getElem?_eq_some_iff.mp hk
    rw [h.ticks_octets, ← h.ticks_length]
    omega
  rw [time, size_eq htype, ← List.drop_drop, h.drop_four, List.drop_append_of_le_length hle, hlater,
    List.append_assoc, List.take_left' Endian.ofUInt64_length, value_ofUInt64 htype]

theorem drop_message (h : Payload input n ticks messages) (hk : messages[k]? = some m) :
    ∃ later, input.drop (4 + 8 * n.toNat + 69 * k) = m.octets ++ later := by
  rw [← List.drop_drop, ← List.drop_drop, h.drop_four, List.drop_left' h.ticks_octets]
  exact drop_flatMap (fun m => m.octets_length) hk

end Payload

section

variable {name : Bytes} {bits n : UInt32} {readType : ReadType} {ops : List Op} {ticks : List UInt64}
  {messages : List OpendaqCanMessage}

-- The iterations over the payload of a block.
theorem Payload.trace_eq (h : Payload input n ticks messages) (hread : ReadAs type name bits readType)
    (htype : type = .int64 ∨ type = .uint64) (hops : FieldOps 1 fields ops) (hlayout : CanLayout fields) :
    ((messageDecoder readType bits.toNat ops).trace input).map (fun x =>
        (accesses input (loopBody readType bits.toNat ops) x.1, x.2.samples.map (some ∘ message))) =
      (List.range n.toNat).map fun k => (messageAccesses 8 n.toNat k [4, 1, 64],
        [(ticks.zip messages)[k]?.map (sampleOf type)]) := by
  have hg : ∀ k < n.toNat, ∀ s, (some ∘ message) (sampleEnv type fields input n.toNat k s) =
      (ticks.zip messages)[k]?.map (sampleOf type) := by
    intro k hk s
    obtain ⟨x, hx⟩ : ∃ x, ticks[k]? = some x :=
      ⟨_, List.getElem?_eq_getElem (by rwa [h.ticks_length])⟩
    obtain ⟨m, hm⟩ : ∃ m, messages[k]? = some m :=
      ⟨_, List.getElem?_eq_getElem (by rwa [h.messages_length])⟩
    obtain ⟨later, hlater⟩ := h.drop_message hm
    have hzip : (ticks.zip messages)[k]? = some (x, m) := List.getElem?_zip_eq_some.mpr ⟨hx, hm⟩
    rw [hzip, sampleEnv, found, size_eq htype, hlayout.fieldVars_eq hlater, h.time_eq htype hx]
    simp [message, sampleOf, Env.num?_cons_of_ne]
  have htrace := trace_map_eq h.input_eq hread hops (h.le htype hlayout) hg
  rwa [size_eq htype, hlayout.readSizes] at htrace

theorem Payload.samples_eq (h : Payload input n ticks messages) (hread : ReadAs type name bits readType)
    (htype : type = .int64 ∨ type = .uint64) (hops : FieldOps 1 fields ops) (hlayout : CanLayout fields) :
    ((messageDecoder readType bits.toNat ops).samples input).map message =
      (ticks.zip messages).map (sampleOf type) := by
  have hsamples := congrArg (List.map Prod.snd) (h.trace_eq hread htype hops hlayout)
  have hlength : n.toNat = (ticks.zip messages).length := by
    rw [List.length_zip, h.ticks_length, h.messages_length, Nat.min_self]
  rw [List.map_map, List.map_map] at hsamples
  apply List.map_injective_iff.mpr (Option.some_injective _)
  rw [List.map_map, samples_map_eq hsamples, hlength]
  generalize ticks.zip messages = xs
  apply List.ext_getElem (by simp)
  intro i hi _
  have hi : i < xs.length := by simpa using hi
  simp only [List.getElem_map, List.getElem_range, List.getElem?_eq_getElem hi, Option.map_some]

theorem Payload.iterationAccesses_eq (h : Payload input n ticks messages)
    (hread : ReadAs type name bits readType) (htype : type = .int64 ∨ type = .uint64)
    (hops : FieldOps 1 fields ops) (hlayout : CanLayout fields) :
    (messageDecoder readType bits.toNat ops).iterationAccesses input =
      (List.range n.toNat).map fun k => messageAccesses 8 n.toNat k [4, 1, 64] := by
  have hiterations := CanSignalHandler.iterationAccesses_eq h.input_eq hread hops (h.le htype hlayout)
  rwa [size_eq htype, hlayout.readSizes] at hiterations

theorem Payload.stop_le (h : Payload input n ticks messages) (hread : ReadAs type name bits readType)
    (htype : type = .int64 ∨ type = .uint64) (hops : FieldOps 1 fields ops) (hlayout : CanLayout fields) :
    ∀ a ∈ (messageDecoder readType bits.toNat ops).allAccesses input, a.stop ≤ input.length := by
  have hlength := h.length
  intro a ha
  rw [allAccesses, h.iterationAccesses_eq hread htype hops hlayout] at ha
  cases List.mem_append.mp ha
  case inl ha =>
    rw [messageDecoder, accesses_singleton, Op.access, Option.mem_toList] at ha
    cases ha
    rw [Access.stop, Nat.sub_self]
    omega
  case inr ha =>
    obtain ⟨as, has, ha⟩ := List.mem_flatten.mp ha
    obtain ⟨k, hk, rfl⟩ := List.mem_map.mp has
    have hk := List.mem_range.mp hk
    cases List.mem_append.mp ha
    case inl ha =>
      cases List.mem_append.mp ha
      case inl ha =>
        simp only [List.mem_cons, List.not_mem_nil, or_false] at ha
        obtain rfl | rfl := ha
        all_goals
          rw [Access.stop]
          omega
      case inr ha =>
        apply (stop_le_of_mem_fieldReads ha).trans
        simp only [List.sum_cons, List.sum_nil]
        omega
    case inr ha =>
      rw [List.mem_singleton.mp ha, Access.stop]
      omega

variable {value domain : DataDescriptor}

theorem declaration_of_canLayout (testId : UInt32) (signal : Signal) (w : Writer)
    (htype : domain.sampleType = .int64 ∨ domain.sampleType = .uint64)
    (hlayout : CanLayout value.structFields) :
    ∃ es, declaration .can testId signal (some value) (some domain) w = .ok es := by
  have hread : ∃ type, sampleTypeToSieReadType domain.sampleType = .ok type := by
    cases htype
    case inl htype => exact ⟨_, by rw [htype]; rfl⟩
    case inr htype => exact ⟨_, by rw [htype]; rfl⟩
  have hfields : ∃ es, fieldElements (UInt32.ofNat w.nextDecoderId) 1 value.structFields = .ok es := by
    generalize value.structFields = fields at hlayout
    cases hlayout
    case mk data hid hid' hlength hlength' hdata hdata' =>
      have hraw : rawOctets? data = some 64 := by simp [rawOctets?, hdata, hdata']
      simp only [fieldElements, readField, rawOctets?_eq_none hid', rawOctets?_eq_none hlength', hid,
        hlength, hraw]
      exact ⟨_, rfl⟩
  obtain ⟨type, hread⟩ := hread
  obtain ⟨es, hfields⟩ := hfields
  simp only [declaration, HandlerKind.elements, elements, Except.bind_eq_ok]
  exact ⟨_, _, rfl, _, rfl, _, hread, _, hfields, rfl⟩

variable [Crc32]

-- The constructor writes metadata with a decoder, and a packet is written as what this decoder
-- reads as the messages of the packet, without leaving the payload.
theorem messages_recorded (testId : UInt32) (w : Writer)
    (htype : domain.sampleType = .int64 ∨ domain.sampleType = .uint64)
    (hlayout : CanLayout value.structFields) :
    ∃ xml decoder,
      (create testId (some value) (some domain)).run w =
        ((fun _ => { group := UInt32.ofNat w.nextGroup }) <$> Writer.writeMetadata xml).run w.allocated ∧
      Decoder.ofMetadata xml = some decoder ∧
      ∀ (handler : CanSignalHandler) (packet : DataPacket) (domainPacket : DomainPacket)
        (ticks : List UInt64) (messages : List OpendaqCanMessage),
        packet.domainPacket = some domainPacket →
        packet.sampleCount.toNat = messages.length → messages.length < 2 ^ 32 →
        ticks.length = messages.length → domainPacket.rawData = ticks.flatMap Host.endian.ofUInt64 →
        packet.rawData = messages.flatMap OpendaqCanMessage.octets →
        ∃ args, onDataPacketReceived handler packet = Writer.writeBlock handler.group args ∧
          (decoder.samples args.flatten).map message =
            (ticks.zip messages).map (sampleOf domain.sampleType) ∧
          ∀ a ∈ decoder.allAccesses args.flatten, a.stop ≤ args.flatten.length := by
  let signal : Signal := { globalId := [], description := [] }
  obtain ⟨es, hdeclaration⟩ := declaration_of_canLayout testId signal w htype hlayout
  obtain ⟨name, bits, readType, ops, hread, hops, hdecoder⟩ := ofMetadata_declaration hdeclaration
  refine ⟨_, _, ?_, hdecoder, fun handler packet domainPacket ticks messages hdomain hcount hlt hticks
    hdomainRaw hraw => ?_⟩
  case refine_1 => exact can_create_run_ok signal hdeclaration
  case refine_2 =>
    let n := packet.sampleCount.toUInt32
    have hn : n.toNat = messages.length := by
      rw [UInt64.toNat_toUInt32, hcount, Nat.mod_eq_of_lt hlt]
    let args := [Host.endian.ofUInt32 n, domainPacket.rawData, packet.rawData]
    have hpayload : Payload args.flatten n ticks messages := by
      refine ⟨by rw [hticks, hn], hn.symm, ?_⟩
      simp [args, hdomainRaw, hraw]
    have hsegments : HandlerKind.can.segments packet = some args := by
      have hmessages : packet.rawData.length = 69 * messages.length := by
        rw [hraw, flatMap_length fun m => m.octets_length]
        rfl
      have htimes : domainPacket.rawData.length = 8 * n.toNat := by
        rw [hdomainRaw, hpayload.ticks_octets]
      rw [segments_eq hdomain rfl, if_pos]
      exact ⟨by rw [hmessages, hn], htimes.ge⟩
    refine ⟨args, onDataPacketReceived_eq_writeBlock hsegments, ?_, ?_⟩
    case refine_1 => exact hpayload.samples_eq hread htype hops hlayout
    case refine_2 => exact hpayload.stop_le hread htype hops hlayout

omit [Host] [Crc32] in
theorem messages_recorded_one_message :
    let _ := Crc32.ieee
    let _ := Host.exact
    let m : OpendaqCanMessage := { id := 0x123, size := 2, data := Vector.replicate 64 7 }
    let domainPacket : DomainPacket := {
      dataDescriptor := none
      offset         := none
      rawData        := List.replicate 8 0xff }
    let packet : DataPacket := {
      dataDescriptor := none
      domainPacket   := some domainPacket
      sampleCount    := 1
      rawData        := m.octets }
    ∃ decoder : Decoder, ∃ args, onDataPacketReceived { group := 2 } packet = Writer.writeBlock 2 args ∧
      (decoder.samples args.flatten).map message =
        [(some (-1), some 0x123, some 2, some (List.replicate 64 7))] ∧
      ∀ a ∈ decoder.allAccesses args.flatten, a.stop ≤ args.flatten.length := by
  intro _ _ m domainPacket packet
  let value : DataDescriptor := {
    name         := str "messages"
    sampleType   := .struct
    rule         := some { type := .explicit, parameters := none }
    structFields := [
      { name := str "ArbId", sampleType := .uint32, dimensions := none },
      { name := str "Length", sampleType := .uint8, dimensions := none },
      { name := str "Data", sampleType := .uint8, dimensions := some [{ ruleType := .linear, size := 64 }] }] }
  let domain : DataDescriptor := {
    name       := str "time"
    sampleType := .int64
    rule       := some { type := .explicit, parameters := none } }
  let w : Writer := { writer := IndexedWriter.create [], uuids := fun _ => [] }
  have hlayout : CanLayout value.structFields := .mk rfl rfl rfl rfl rfl rfl
  obtain ⟨_, decoder, _, _, hmessages⟩ := messages_recorded 0 w
    (show domain.sampleType = .int64 ∨ domain.sampleType = .uint64 from .inl rfl) hlayout
  obtain ⟨args, hargs, hsamples, hstop⟩ := hmessages { group := 2 } packet domainPacket
    [0xffffffffffffffff] [m] rfl rfl (by decide) rfl (by decide +kernel) (List.append_nil _).symm
  exact ⟨decoder, args, hargs, hsamples.trans (by decide +kernel), hstop⟩

end
end CanSignalHandler
end AdvancedRecorder
