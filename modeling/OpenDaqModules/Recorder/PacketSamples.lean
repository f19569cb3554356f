import OpenDaqModules.Recorder.Identifiers
import OpenDaqModules.Recorder.Sie.Reader
import OpenDaqModules.Recorder.Theorems.CanAcceptance
import OpenDaqModules.Recorder.Theorems.ScalarSamples

-- The samples of a packet, and what the reader of a file makes of the block with them.
namespace AdvancedRecorder

open Sie Xml Decoder

-- The values of the fields of a struct, whose octets follow each other.
def structValues [Host] : List StructField → Bytes → List Value
  | [], _                => []
  | field :: fields, octets =>
    CanSignalHandler.fieldValue field (octets.take field.rawSize) ::
      structValues fields (octets.drop field.rawSize)

namespace HandlerKind

-- A packet has as many octets as its descriptors and its count say. Scalar values are not scaled from
-- another type, and the structs of a packet have the layout that the handler of CAN messages is made
-- for.
def WellFormed (kind : HandlerKind) (packet : DataPacket) : Prop :=
  ∀ value ∈ packet.dataDescriptor, ∀ domain ∈ packet.domainDescriptor,
    ∀ domainPacket ∈ packet.domainPacket,
      match kind with
      | scalarLinear =>
        (∀ scaling ∈ value.postScaling, scaling.inputSampleType = value.sampleType) ∧
          packet.rawData.length = packet.sampleCount.toNat * value.sampleType.size
      | can =>
        CanSignalHandler.Consistent value domain packet domainPacket ∧
          CanSignalHandler.Fitting value domain packet.sampleCount.toNat ∧
          value.structFields.length + 1 < 2 ^ 32

variable [Host]

-- The raw samples of a packet, each of which starts with its place in the domain.
def samples (kind : HandlerKind) (packet : DataPacket) : Option (List (List Value)) := do
  let value ← packet.dataDescriptor
  let domain ← packet.domainDescriptor
  let domainPacket ← packet.domainPacket
  match kind with
  | scalarLinear =>
    let offset ← domainPacket.offset
    let (start, delta) ← (getLinearRuleStartDelta domain).toOption
    return (List.range packet.sampleCount.toNat).map fun i : ℕ => [
      .num (offset.toInt + start.toInt + i * delta.toInt),
      value.sampleType.value (chunk value.sampleType.size i packet.rawData)]
  | can =>
    return (List.range packet.sampleCount.toNat).map fun i =>
      domain.sampleType.value (chunk domain.sampleSize i domainPacket.rawData) ::
        structValues value.structFields (chunk value.sampleSize i packet.rawData)

-- The samples of a packet under the name of its signal, as a file has them.
def content (kind : HandlerKind) (packet : DataPacket) :
    Option (Bytes × List (List (Option Value))) := do
  let value ← packet.dataDescriptor
  let samples ← kind.samples packet
  return (value.name, samples.map (·.map some))

-- What the reader of a channel should find in a block.
def reading (kind : HandlerKind) (group : UInt32) (packet : DataPacket) : Option Reading :=
  (kind.content packet).map fun (name, samples) => { group := group.toNat, name, samples }

-- The channel is one of the group, and reads what a handler writes for packets with the descriptors.
structure ReadBy (kind : HandlerKind) (group : UInt32)
    (valueDescriptor domainDescriptor : Option DataDescriptor) (c : ChannelReader) : Prop where
  group_eq : c.declaration.group = group.toNat
  reads    : ∀ (packet : DataPacket) args, packet.dataDescriptor = valueDescriptor →
    packet.domainDescriptor = domainDescriptor → kind.WellFormed packet →
      kind.segments packet = some args → kind.reading group packet = some (c.read args.flatten)

end HandlerKind

section

variable {group decoderId channelId testId : UInt32} {uuid : Bytes} {signal : Signal}
  {value domain : DataDescriptor} {valueDescriptor domainDescriptor : Option DataDescriptor}
  {es : List Element}

theorem assigned_eq_ok {pointer : Option α} : assigned pointer = .ok a ↔ pointer = some a := by
  cases pointer <;> simp [assigned]

variable [Host]

open ChannelReader

theorem varsIn_timeDimension : varsIn (timeDimension decoderId domain) = ["v0"] := by
  have hv0 : text (str "v" ++ Decimal.ofNat (0 : UInt32).toNat) = "v0" := by decide +kernel
  have hname : (timeDimension decoderId domain).name = str "dim" := by
    rw [timeDimension]
    cases domain.unit <;> rfl
  have hdata : (timeDimension decoderId domain).childrenNamed (str "data") = [data decoderId 0] := by
    rw [timeDimension]
    cases domain.unit <;> rfl
  rw [varsIn_of_data hname hdata, hv0]

namespace ScalarLinearSignalHandler

variable {env : Env} {start delta : Int64} {type : Bytes} {bits : UInt32} {e : Expr}

theorem varsIn_valueDimension : varsIn (valueDimension decoderId value) = ["v1"] := by
  have hv1 : text (str "v" ++ Decimal.ofNat (1 : UInt32).toNat) = "v1" := by decide +kernel
  have hname : (valueDimension decoderId value).name = str "dim" := by
    rw [valueDimension]
    cases value.unit <;> cases value.valueRange <;> rfl
  have hdata : (valueDimension decoderId value).childrenNamed (str "data") = [data decoderId 1] := by
    rw [valueDimension]
    cases value.unit <;> cases value.valueRange <;> rfl
  rw [varsIn_of_data hname hdata, hv1]

omit [Host] in
theorem lookup_of_num? {x : String} {n : ℤ} (h : env.num? x = some n) :
    env.lookup x = some (.num n) := by
  rw [Env.num?] at h
  split at h
  case h_1 hlookup =>
    cases h
    exact hlookup
  case h_2 => cases h

omit [Host] in
-- The dimensions of a sample are those that `pair` looks at.
theorem vars_of_pair {samples : List Env} {f : ℕ → ℤ} {g : ℕ → Value}
    (h : samples.map pair = (List.range n).map fun i => (some (f i), some (g i))) :
    samples.map (fun env => ["v0", "v1"].map fun x => env.lookup x) =
      (List.range n).map fun i => [some (.num (f i)), some (g i)] := by
  have hvars : ∀ env ∈ samples, (["v0", "v1"].map fun x => env.lookup x) =
      [(pair env).1.map Value.num, (pair env).2] := by
    intro env henv
    have hmem : pair env ∈ (List.range n).map fun i => (some (f i), some (g i)) := by
      exact h ▸ List.mem_map_of_mem henv
    obtain ⟨i, _, hi⟩ := List.mem_map.mp hmem
    rw [pair, Prod.mk.injEq] at hi
    simp [pair, ← hi.left, lookup_of_num? hi.left.symm]
  have hpairs := congrArg (List.map fun p => [p.1.map Value.num, p.2]) h
  rw [List.map_map, List.map_map] at hpairs
  rw [List.map_congr_left hvars]
  exact hpairs

-- What is read of a packet of scalar samples.
theorem reading_of_segments {packet : DataPacket} {args : List Bytes} {readType : ReadType}
    (hvalue : packet.dataDescriptor = some value) (hdomain : packet.domainDescriptor = some domain)
    (hlinear : getLinearRuleStartDelta domain = .ok (start, delta))
    (hread : ReadAs value.sampleType type bits readType)
    (heval : ∀ env o, env.num? "offset" = some o → e.eval env = some (o + start.toInt))
    (hpacket : HandlerKind.scalarLinear.WellFormed packet)
    (hargs : HandlerKind.scalarLinear.segments packet = some args) :
    HandlerKind.scalarLinear.reading group packet = some {
      group   := group.toNat
      name    := value.name
      samples := ((blockDecoder e delta.toInt readType bits.toNat).samples args.flatten).map
        fun env => ["v0", "v1"].map fun x => env.lookup x } := by
  obtain ⟨domainPacket, hdomainPacket, hargs⟩ := Option.bind_eq_some_iff.mp hargs
  obtain ⟨offset, hoffset, hargs⟩ := Option.bind_eq_some_iff.mp hargs
  cases hargs
  obtain ⟨-, hlength⟩ := hpacket value hvalue domain hdomain domainPacket hdomainPacket
  have hsamples : ((blockDecoder e delta.toInt readType bits.toNat).samples
      (Host.endian.ofUInt64 offset.toUInt64 ++ packet.rawData)).map pair =
        (List.range packet.sampleCount.toNat).map fun i : ℕ =>
          (some (offset.toInt + start.toInt + i * delta.toInt),
            some (value.sampleType.value (chunk value.sampleType.size i packet.rawData))) := by
    exact samples_blockDecoder hread offset heval hlength
  have hvars := vars_of_pair hsamples
  simp only [List.flatten_cons, List.flatten_nil, List.append_nil, hvars]
  simp [HandlerKind.reading, HandlerKind.content, HandlerKind.samples, hvalue, hdomain, hdomainPacket,
    hoffset, hlinear, Except.toOption]

-- The metadata of a channel of scalar samples.
theorem channelReaders_of_elements
    (h : elements group decoderId channelId testId uuid signal valueDescriptor domainDescriptor =
      .ok es) :
    ∃ c, Block.channelReaders ⟨groups.METADATA, Element.serializeAll 1 es⟩ = [c] ∧
      HandlerKind.scalarLinear.ReadBy group valueDescriptor domainDescriptor c := by
  have hbuilt := built_of_elements h
  simp only [elements, Except.bind_eq_ok, assigned_eq_ok] at h
  obtain ⟨domain, hdomain, ⟨start, delta⟩, hlinear, value, hvalue, ⟨type, bits⟩, htype, _, hvalue', _,
    hdomain', _, _, _, _, _, _, h⟩ := h
  cases hvalue.symm.trans hvalue'
  cases hdomain.symm.trans hdomain'
  cases h
  obtain ⟨readType, hread⟩ := readAs htype
  obtain ⟨e, heval, hofText⟩ := ofText_start start
  refine ⟨_, hbuilt.channelReaders_eq rfl rfl rfl (ofElement_decoderElement hread hofText), rfl, ?_⟩
  intro packet args hvalue'' hdomain'' hpacket hargs
  rw [reading_of_segments (hvalue''.trans hvalue) (hdomain''.trans hdomain) hlinear hread heval hpacket
    hargs]
  rw [varsOf_addChild, varsOf_addChild, varsIn_timeDimension, varsIn_valueDimension]
  rfl

end ScalarLinearSignalHandler

namespace CanSignalHandler

variable {i dimIndex : UInt32} {field : StructField} {fields : List StructField} {ops : List Op}
  {input octets : Bytes} {p n N k : ℕ} {env : Env} {name : Bytes} {bits : UInt32} {readType : ReadType}
  {packet : DataPacket} {domainPacket : DomainPacket}

-- The variables of consecutive dimensions.
def fieldNames (dimIndex : UInt32) : List StructField → List String
  | []          => []
  | _ :: fields => fieldVar dimIndex :: fieldNames (dimIndex + 1) fields

omit [Host] in
theorem fieldVar_injective : Function.Injective fieldVar := by
  intro i j h
  have hchar : Function.Injective fun b : UInt8 => Char.ofNat b.toNat := by
    intro a b hab
    have hnat : ∀ c : UInt8, (Char.ofNat c.toNat).toNat = c.toNat := by
      intro c
      rw [Char.ofNat, dif_pos (.inl (c.toNat_lt.trans (by decide)))]
      rfl
    exact UInt8.toNat_inj.mp ((hnat a).symm.trans ((congrArg Char.toNat hab).trans (hnat b)))
  have hbytes := List.map_injective_iff.mpr hchar (String.ofList_injective h)
  exact UInt32.toNat_inj.mp (Decimal.ofNat_injective (List.append_cancel_left hbytes))

omit [Host] in
theorem toNat_succ (h : dimIndex.toNat + (n + 1) < 2 ^ 32) :
    (dimIndex + 1).toNat = dimIndex.toNat + 1 := by
  rw [UInt32.toNat_add, UInt32.toNat_one, Nat.mod_eq_of_lt (by omega)]

-- The fields do not hide the variables of dimensions before them.
theorem lookup_fieldVars (hi : i.toNat < dimIndex.toNat) (hlt : dimIndex.toNat + fields.length < 2 ^ 32) :
    (fieldVars input dimIndex p fields ++ env).lookup (fieldVar i) = env.lookup (fieldVar i) := by
  induction fields generalizing dimIndex p env
  case nil                => rfl
  case cons field fields ih =>
    have hsucc := toNat_succ hlt
    have hne : fieldVar i ≠ fieldVar dimIndex := by
      intro h
      rw [fieldVar_injective h] at hi
      exact lt_irrefl _ hi
    rw [fieldVars, List.append_assoc, ih (by omega) (by rw [hsucc]; simp at hlt; omega)]
    rw [List.singleton_append, List.lookup_cons, beq_eq_false_iff_ne.mpr hne]

theorem lookup_fieldNames (hsizes : ∀ field ∈ fields, readSize field = field.rawSize)
    (hlt : dimIndex.toNat + fields.length < 2 ^ 32) :
    (fieldNames dimIndex fields).map (fun x => (fieldVars input dimIndex p fields ++ env).lookup x) =
      (structValues fields (input.drop p)).map some := by
  induction fields generalizing dimIndex p env
  case nil                  => rfl
  case cons field fields ih =>
    rw [List.forall_mem_cons] at hsizes
    have hsucc := toNat_succ hlt
    have hlt : (dimIndex + 1).toNat + fields.length < 2 ^ 32 := by
      rw [hsucc]
      simp at hlt
      omega
    have hhead : ∀ env : Env, (fieldVars input (dimIndex + 1) (p + readSize field) fields ++ env).lookup
        (fieldVar dimIndex) = env.lookup (fieldVar dimIndex) := by
      intro env
      exact lookup_fieldVars (hsucc ▸ Nat.lt_succ_self _) hlt
    rw [fieldNames, structValues, fieldVars, List.append_assoc, List.map_cons, List.map_cons,
      ih hsizes.right hlt, hhead, ← hsizes.left, List.drop_drop]
    simp

-- A struct is read from its own octets.
theorem structValues_take (h : (fields.map StructField.rawSize).sum ≤ n) :
    structValues fields (octets.take n) = structValues fields octets := by
  induction fields generalizing octets n
  case nil                  => rfl
  case cons field fields ih =>
    rw [List.map_cons, List.sum_cons] at h
    rw [structValues, structValues, List.take_take, Nat.min_eq_left (by omega), List.drop_take,
      ih (by omega)]

omit [Host] in
theorem chunk_append {a b : Bytes} (h : n * (k + 1) ≤ a.length) :
    ((a ++ b).drop (n * k)).take n = chunk n k a := by
  rw [Nat.mul_succ] at h
  rw [chunk, List.drop_append_of_le_length (by omega), List.take_append_of_le_length]
  rw [List.length_drop]
  omega

omit [Host] in
theorem size_le_sixteen (type : SampleType) : type.size ≤ 16 := by
  cases type <;> decide

namespace Fitting

omit [Host] in
theorem le_sampleSize (h : Fitting value domain N) : 69 ≤ value.sampleSize := by
  cases h.size
  case inl hsize => exact hsize.ge
  case inr hsize => exact hsize.right

omit [Host] in
theorem sum_eq (h : Fitting value domain N) :
    (value.structFields.map StructField.rawSize).sum = value.sampleSize := by
  by_cases hstruct : value.sampleType = .struct
  case pos => rw [sampleSize_of_struct hstruct, h.elements, Nat.mul_one]
  case neg =>
    have hle := h.le_sampleSize
    rw [DataDescriptor.sampleSize, if_neg hstruct, h.elements, Nat.mul_one] at hle
    exact absurd (hle.trans (size_le_sixteen _)) (by decide)

omit [Host] in
theorem domain_size (h : Fitting value domain N) : domain.sampleSize = 8 := by
  have hstruct : domain.sampleType ≠ .struct := by
    intro hstruct
    exact absurd h.time_size (by rw [hstruct]; decide)
  rw [DataDescriptor.sampleSize, if_neg hstruct, h.time_size, h.time_elements]

theorem readSize_eq (h : Fitting value domain N) (hops : FieldOps 1 value.structFields ops) :
    ∀ field ∈ value.structFields, readSize field = field.rawSize := by
  intro field hfield
  exact (readSize_eq_rawSize_iff (hops.pos field hfield)).mpr (h.fields field hfield)

omit [Host] in
-- Only the first message is where the decoder looks for it if messages have another size.
theorem stride (h : Fitting value domain N) (hk : k < N) : 69 * k = value.sampleSize * k := by
  cases h.size
  case inl hsize => rw [hsize]
  case inr hone  =>
    obtain rfl : k = 0 := by omega
    rfl

end Fitting

omit [Host] in
-- Such packets are as long as the handler demands.
theorem Consistent.le_segments (h : Consistent value domain packet domainPacket)
    (hfitting : Fitting value domain packet.sampleCount.toNat) :
    69 * packet.sampleCount.toUInt32.toNat ≤ packet.rawData.length ∧
      8 * packet.sampleCount.toUInt32.toNat ≤ domainPacket.rawData.length := by
  rw [h.count_eq, h.values, h.times, hfitting.domain_size]
  exact ⟨Nat.mul_le_mul_right _ hfitting.le_sampleSize, le_rfl⟩

-- The octets of a sample are in the payload of the block.
theorem Consistent.le_payload (h : Consistent value domain packet domainPacket)
    (hfitting : Fitting value domain packet.sampleCount.toNat) (hops : FieldOps 1 value.structFields ops)
    (hk : k < packet.sampleCount.toNat) :
    4 + domain.sampleType.size * (k + 1) ≤ (blockArgs packet domainPacket).flatten.length ∧
      4 + domain.sampleType.size * packet.sampleCount.toNat + 69 * k +
        (value.structFields.map readSize).sum ≤ (blockArgs packet domainPacket).flatten.length := by
  have hnext : value.sampleSize * (k + 1) ≤ value.sampleSize * packet.sampleCount.toNat := by
    exact Nat.mul_le_mul_left _ hk
  rw [List.map_congr_left (hfitting.readSize_eq hops), hfitting.sum_eq, hfitting.stride hk,
    h.payload_length, hfitting.domain_size, hfitting.time_size]
  rw [Nat.mul_succ] at hnext
  omega

-- What the dimensions of a sample are in an iteration of the decoder.
theorem vars_sampleEnv {s : State} (h : Consistent value domain packet domainPacket)
    (hfitting : Fitting value domain packet.sampleCount.toNat) (hops : FieldOps 1 value.structFields ops)
    (hcount : value.structFields.length + 1 < 2 ^ 32) (hk : k < packet.sampleCount.toNat) :
    ("v0" :: fieldNames 1 value.structFields).map (fun x =>
        (sampleEnv domain.sampleType value.structFields (blockArgs packet domainPacket).flatten
          packet.sampleCount.toNat k s).lookup x) =
      (domain.sampleType.value (chunk domain.sampleSize k domainPacket.rawData) ::
        structValues value.structFields (chunk value.sampleSize k packet.rawData)).map some := by
  have hv0 : "v0" = fieldVar 0 := by decide +kernel
  have hone : (1 : UInt32).toNat + value.structFields.length < 2 ^ 32 := by
    rw [UInt32.toNat_one]
    omega
  have hinput : (blockArgs packet domainPacket).flatten.drop 4 = domainPacket.rawData ++ packet.rawData := by
    rw [blockArgs_flatten]
    exact List.drop_left' Endian.ofUInt32_length
  have htimes : domainPacket.rawData.length = 8 * packet.sampleCount.toNat := by
    rw [h.times, hfitting.domain_size]
  have htime : time domain.sampleType (blockArgs packet domainPacket).flatten k =
      domain.sampleType.value (chunk domain.sampleSize k domainPacket.rawData) := by
    rw [time, hfitting.time_size, hfitting.domain_size, ← List.drop_drop, hinput, chunk_append]
    rw [htimes]
    exact Nat.mul_le_mul_left 8 hk
  have hmessage : structValues value.structFields ((blockArgs packet domainPacket).flatten.drop
      (4 + domain.sampleType.size * packet.sampleCount.toNat + 69 * k)) =
        structValues value.structFields (chunk value.sampleSize k packet.rawData) := by
    rw [hfitting.time_size, ← List.drop_drop, ← List.drop_drop, hinput, List.drop_left' htimes,
      hfitting.stride hk, chunk, structValues_take hfitting.sum_eq.le]
  rw [List.map_cons, List.map_cons, sampleEnv, lookup_fieldNames (hfitting.readSize_eq hops) hone,
    hmessage, hv0, lookup_fieldVars (by decide) hone, ← htime, ← hv0, found]
  rfl

-- What is read of a packet of messages.
theorem reading_of_segments {args : List Bytes}
    (hvalue : packet.dataDescriptor = some value) (hdomain : packet.domainDescriptor = some domain)
    (hread : ReadAs domain.sampleType name bits readType) (hops : FieldOps 1 value.structFields ops)
    (hpacket : HandlerKind.can.WellFormed packet)
    (hargs : HandlerKind.can.segments packet = some args) :
    HandlerKind.can.reading group packet = some {
      group   := group.toNat
      name    := value.name
      samples := ((messageDecoder readType bits.toNat ops).samples args.flatten).map
        fun env => ("v0" :: fieldNames 1 value.structFields).map fun x => env.lookup x } := by
  obtain ⟨domainPacket, hdomainPacket, _⟩ := Option.bind_eq_some_iff.mp hargs
  obtain ⟨hconsistent, hfitting, hcount⟩ := hpacket value hvalue domain hdomain domainPacket hdomainPacket
  obtain rfl : args = blockArgs packet domainPacket := by
    rw [segments_eq hdomainPacket rfl] at hargs
    split at hargs
    case isTrue  => exact (Option.some.inj hargs).symm
    case isFalse => exact nomatch hargs
  let f (env : Env) := ("v0" :: fieldNames 1 value.structFields).map fun x => env.lookup x
  let g (k : ℕ) := (domain.sampleType.value (chunk domain.sampleSize k domainPacket.rawData) ::
    structValues value.structFields (chunk value.sampleSize k packet.rawData)).map some
  have hn := hconsistent.count_eq
  have hle : ∀ k < packet.sampleCount.toUInt32.toNat,
      4 + domain.sampleType.size * (k + 1) ≤ (blockArgs packet domainPacket).flatten.length ∧
        4 + domain.sampleType.size * packet.sampleCount.toUInt32.toNat + 69 * k +
          (value.structFields.map readSize).sum ≤ (blockArgs packet domainPacket).flatten.length := by
    rw [hn]
    exact fun k hk => hconsistent.le_payload hfitting hops hk
  have hvars : ∀ k < packet.sampleCount.toUInt32.toNat, ∀ s,
      f (sampleEnv domain.sampleType value.structFields (blockArgs packet domainPacket).flatten
        packet.sampleCount.toUInt32.toNat k s) = g k := by
    rw [hn]
    exact fun k hk s => vars_sampleEnv hconsistent hfitting hops hcount hk
  have hsamples := congrArg (List.map Prod.snd) (trace_map_eq blockArgs_flatten hread hops hle hvars)
  rw [List.map_map, List.map_map] at hsamples
  rw [samples_map_eq hsamples, hn]
  simp [HandlerKind.reading, HandlerKind.content, HandlerKind.samples, hvalue, hdomain, hdomainPacket, g]

omit [Host] in
theorem varsIn_fieldDimension :
    varsIn (fieldDimension decoderId dimIndex field) = [fieldVar dimIndex] :=
  varsIn_of_data rfl rfl

theorem varsIn_fieldElements {es : List (Element × Element)}
    (h : fieldElements decoderId dimIndex fields = .ok es) :
    (es.map Prod.fst).flatMap varsIn = fieldNames dimIndex fields := by
  induction fields generalizing dimIndex es
  case nil =>
    cases h
    rfl
  case cons field fields ih =>
    simp only [fieldElements, Except.bind_eq_ok] at h
    obtain ⟨_, _, later, hlater, h⟩ := h
    cases h
    rw [List.map_cons, List.flatMap_cons, ih hlater, varsIn_fieldDimension, fieldNames]
    rfl

-- The decoder that comes with the elements of a channel.
theorem ofElement_of_elements {dec test : Element}
    (h : elements group decoderId channelId testId (some value) (some domain) = .ok [dec, test]) :
    ∃ name bits readType ops, ReadAs domain.sampleType name bits readType ∧
      FieldOps 1 value.structFields ops ∧
      Decoder.ofElement dec = some (messageDecoder readType bits.toNat ops) := by
  let w : Writer := {
    nextChannelId := channelId.toNat
    nextDecoderId := decoderId.toNat
    nextGroup     := group.toNat
    writer        := IndexedWriter.create []
    uuids         := fun _ => [] }
  have hdeclaration : SignalHandler.declaration .can testId { globalId := [], description := [] }
      (some value) (some domain) w = .ok [dec, test] := by
    simpa [SignalHandler.declaration, HandlerKind.elements, w] using h
  obtain ⟨name, bits, readType, ops, hread, hops, hdecoder⟩ := ofMetadata_declaration hdeclaration
  refine ⟨name, bits, readType, ops, hread, hops, ?_⟩
  rw [Decoder.ofMetadata, parse_serializeAll (built_of_elements h).wellFormed] at hdecoder
  exact hdecoder

-- The metadata of a channel of messages.
theorem channelReaders_of_elements
    (h : elements group decoderId channelId testId valueDescriptor domainDescriptor = .ok es) :
    ∃ c, Block.channelReaders ⟨groups.METADATA, Element.serializeAll 1 es⟩ = [c] ∧
      HandlerKind.can.ReadBy group valueDescriptor domainDescriptor c := by
  have hbuilt := built_of_elements h
  have helements := h
  simp only [elements, Except.bind_eq_ok, assigned_eq_ok] at h
  obtain ⟨domain, hdomain, value, hvalue, ⟨type, bits⟩, htype, fields, hfields, h⟩ := h
  cases h
  rw [hdomain, hvalue] at helements
  obtain ⟨_, _, _, _, hread, hops, hdecoder⟩ := ofElement_of_elements helements
  have hname : ∀ e : Element, ((fields.map Prod.fst).foldl Element.addChild e).name = e.name := by
    intro e
    rw [Element.foldl_addChild]
  have hattribute : ∀ e : Element, ((fields.map Prod.fst).foldl Element.addChild e).attribute?
      (str "name") = e.attribute? (str "name") := by
    intro e
    rw [Element.foldl_addChild]
    rfl
  refine ⟨_, hbuilt.channelReaders_eq rfl (hname _) (hattribute _) hdecoder, rfl, ?_⟩
  intro packet args hvalue' hdomain' hpacket hargs
  rw [reading_of_segments (hvalue'.trans hvalue) (hdomain'.trans hdomain) hread hops hpacket hargs,
    varsOf_foldl_addChild, varsOf_addChild, varsIn_timeDimension, varsIn_fieldElements hfields]
  rfl

end CanSignalHandler

namespace HandlerKind

variable {kind : HandlerKind} {packet : DataPacket} {b : Block}

-- What a handler has declared is read as the channel of the handler.
theorem channelReaders_of_builtFrom (h : BuiltFrom kind group valueDescriptor domainDescriptor b) :
    ∃ c, b.channelReaders = [c] ∧ kind.ReadBy group valueDescriptor domainDescriptor c := by
  obtain ⟨_, _, _, _, _, _, hes, rfl⟩ := h
  cases kind
  case scalarLinear => exact ScalarLinearSignalHandler.channelReaders_of_elements hes
  case can          => exact CanSignalHandler.channelReaders_of_elements hes

-- There is nothing to read of a packet that a handler does not write.
theorem reading_eq_none (hpacket : kind.WellFormed packet) (h : kind.segments packet = none) :
    kind.reading group packet = none := by
  cases hvalue : packet.dataDescriptor
  case none => simp [reading, content, hvalue]
  case some value =>
    cases hdomain : packet.domainDescriptor
    case none => simp [reading, content, samples, hvalue, hdomain]
    case some domain =>
      cases hdomainPacket : packet.domainPacket
      case none => simp [reading, content, samples, hvalue, hdomain, hdomainPacket]
      case some domainPacket =>
        cases kind
        case scalarLinear =>
          cases hoffset : domainPacket.offset
          case none        => simp [reading, content, samples, hvalue, hdomain, hdomainPacket, hoffset]
          case some offset => simp [segments, hdomainPacket, hoffset] at h
        case can =>
          obtain ⟨hconsistent, hfitting, _⟩ :=
            hpacket value hvalue domain hdomain domainPacket hdomainPacket
          rw [CanSignalHandler.segments_eq hdomainPacket rfl,
            if_pos (hconsistent.le_segments hfitting)] at h
          cases h

end HandlerKind
end
end AdvancedRecorder
