import OpenDaqModules.Recorder.CanDecoder

namespace AdvancedRecorder

open Sie Xml Decoder SignalHandler

-- The octets that a sample takes in a packet.
def DataDescriptor.sampleSize (descriptor : DataDescriptor) : ℕ :=
  let elementSize :=
    if descriptor.sampleType = .struct then (descriptor.structFields.map StructField.rawSize).sum
    else descriptor.sampleType.size
  elementSize * elementCount descriptor.dimensions

namespace CanSignalHandler

-- The fields are read where the octets of one sample are, and nothing else of the sample is left.
structure ReadsExactly (offset size : ℕ) (fields : List StructField) (reads : List Access) : Prop where
  reads : reads = fieldReads offset (fields.map StructField.rawSize)
  size  : (fields.map StructField.rawSize).sum = size

-- What is written for a packet.
def blockArgs [Host] (packet : DataPacket) (domainPacket : DomainPacket) : List Bytes :=
  [Host.endian.ofUInt32 packet.sampleCount.toUInt32, domainPacket.rawData, packet.rawData]

-- A packet has as many octets as its descriptors and its count say.
structure Consistent (value domain : DataDescriptor) (packet : DataPacket)
    (domainPacket : DomainPacket) : Prop where
  domain_eq : packet.domainPacket = some domainPacket
  count     : packet.sampleCount.toNat < 2 ^ 32
  values    : packet.rawData.length = value.sampleSize * packet.sampleCount.toNat
  times     : domainPacket.rawData.length = domain.sampleSize * packet.sampleCount.toNat

-- A packet is recorded, and each of its samples is read with its timestamp.
structure Sound [Host] [Crc32] (value domain : DataDescriptor) (decoder : Decoder)
    (handler : CanSignalHandler) (packet : DataPacket) (domainPacket : DomainPacket) : Prop where
  writes : onDataPacketReceived handler packet =
    Writer.writeBlock handler.group (blockArgs packet domainPacket)
  reads  : ∀ i < packet.sampleCount.toNat, ∃ as reads,
    (decoder.iterationAccesses (blockArgs packet domainPacket).flatten)[i]? = some as ∧
    as.filter Access.isRead = .read (4 + domain.sampleSize * i) domain.sampleSize :: reads ∧
    ReadsExactly (4 + domain.sampleSize * packet.sampleCount.toNat + value.sampleSize * i)
      value.sampleSize value.structFields reads

-- The descriptors that the decoder and the checks of the sizes were made for.
structure Fitting (value domain : DataDescriptor) (N : ℕ) : Prop where
  time_size     : domain.sampleType.size = 8
  time_elements : elementCount domain.dimensions = 1
  elements      : elementCount value.dimensions = 1
  fields        : ∀ field ∈ value.structFields,
    (rawOctets? field).isSome ∨ elementCount field.dimensions = 1
  size          : value.sampleSize = 69 ∨ N = 1 ∧ 69 ≤ value.sampleSize

variable {field : StructField} {fields : List StructField} {sizes sizes' : List ℕ} {p q N : ℕ}

theorem readSize_eq_rawSize_iff (hpos : rawOctets? field = none → 0 < field.sampleType.size) :
    readSize field = field.rawSize ↔
      (rawOctets? field).isSome ∨ elementCount field.dimensions = 1 := by
  rw [readSize, StructField.rawSize]
  cases hraw : rawOctets? field
  case none =>
    have hpos := hpos hraw
    simp only [Option.isSome_none, Bool.false_eq_true, false_or]
    exact eq_comm.trans (Nat.mul_eq_left (Nat.ne_of_gt hpos))
  case some octets =>
    simp only [Option.isSome_some, true_or, iff_true]
    obtain ⟨htype, dimension, hdimensions, hsize⟩ := rawOctets?_eq_some hraw
    have hsingle : field.sampleType.size = 1 := by
      cases htype
      case inl htype => rw [htype]; rfl
      case inr htype => rw [htype]; rfl
    simp [hsingle, elementCount, hdimensions, hsize]

-- Reads tell the sizes of what is read.
theorem fieldReads_inj (h : fieldReads p sizes = fieldReads q sizes') :
    sizes = sizes' ∧ (sizes ≠ [] → p = q) := by
  induction sizes generalizing p q sizes'
  case nil =>
    cases sizes'
    case nil  => exact ⟨rfl, fun hne => absurd rfl hne⟩
    case cons => exact nomatch h
  case cons size sizes ih =>
    cases sizes'
    case nil  => exact nomatch h
    case cons size' sizes' =>
      simp only [fieldReads, List.cons.injEq, Access.read.injEq] at h
      obtain ⟨⟨hp, hsize⟩, hlater⟩ := h
      rw [hsize, (ih hlater).left]
      exact ⟨rfl, fun _ => hp⟩

theorem filter_fieldReads : (fieldReads p sizes).filter Access.isRead = fieldReads p sizes := by
  induction sizes generalizing p
  case nil                => rfl
  case cons size sizes ih => rw [fieldReads, List.filter_cons_of_pos rfl, ih]

theorem filter_messageAccesses {size k : ℕ} :
    (messageAccesses size N k sizes).filter Access.isRead =
      .read (4 + size * k) size :: fieldReads (4 + size * N + 69 * k) sizes := by
  rw [messageAccesses, List.filter_append, List.filter_append, filter_fieldReads]
  exact List.append_nil _

variable [Host] {op : Op} {ops : List Op} {dimIndex : UInt32}

theorem FieldOps.pos (h : FieldOps dimIndex fields ops) :
    ∀ field ∈ fields, rawOctets? field = none → 0 < field.sampleType.size := by
  induction h
  case nil => exact fun _ h => nomatch h
  case cons hop _ ih =>
    refine List.forall_mem_cons.mpr ⟨fun hnone => ?_, ih⟩
    cases hop
    case raw hraw       => exact nomatch hnone.symm.trans hraw
    case scalar _ hread => exact hread.pos

variable {value domain : DataDescriptor} {packet : DataPacket} {domainPacket : DomainPacket}
  {name : Bytes} {bits : UInt32} {readType : ReadType}

-- Only structs are accepted.
omit [Host] in
theorem sampleType_of_supports (h : supports (some value) (some domain) = .ok true) :
    value.sampleType = .struct := by
  by_contra hstruct
  have hfalse : supports (some value) (some domain) = .ok false := by
    simp only [supports, assigned, bind, Except.bind, ne_eq, hstruct, not_false_eq_true, if_true]
    split
    case isTrue  => rfl
    case isFalse => split <;> rfl
  exact nomatch hfalse.symm.trans h

omit [Host] in
theorem sampleSize_of_struct (h : value.sampleType = .struct) :
    value.sampleSize = (value.structFields.map StructField.rawSize).sum * elementCount value.dimensions := by
  rw [DataDescriptor.sampleSize, if_pos h]

theorem sampleSize_of_readAs (hread : ReadAs domain.sampleType name bits readType) :
    domain.sampleSize = domain.sampleType.size * elementCount domain.dimensions := by
  have hne : domain.sampleType ≠ .struct := by
    intro h
    exact absurd hread.pos (by rw [h]; decide)
  rw [DataDescriptor.sampleSize, if_neg hne]

omit [Host] in
theorem Consistent.count_eq (h : Consistent value domain packet domainPacket) :
    packet.sampleCount.toUInt32.toNat = packet.sampleCount.toNat := by
  rw [UInt64.toNat_toUInt32, Nat.mod_eq_of_lt h.count]

theorem blockArgs_flatten : (blockArgs packet domainPacket).flatten =
    Host.endian.ofUInt32 packet.sampleCount.toUInt32 ++ (domainPacket.rawData ++ packet.rawData) := by
  simp [blockArgs]

theorem Consistent.payload_length (h : Consistent value domain packet domainPacket) :
    (blockArgs packet domainPacket).flatten.length =
      4 + domain.sampleSize * packet.sampleCount.toNat + value.sampleSize * packet.sampleCount.toNat := by
  rw [blockArgs_flatten, List.length_append, List.length_append, Endian.ofUInt32_length, h.times,
    h.values, Nat.add_assoc]

variable [Crc32] {handler : CanSignalHandler}

-- A packet that is written is as long as the checks demand.
theorem writes_iff (h : Consistent value domain packet domainPacket) :
    onDataPacketReceived handler packet =
        Writer.writeBlock handler.group (blockArgs packet domainPacket) ↔
      69 * packet.sampleCount.toNat ≤ value.sampleSize * packet.sampleCount.toNat ∧
        8 * packet.sampleCount.toNat ≤ domain.sampleSize * packet.sampleCount.toNat := by
  have hsegments := segments_eq h.domain_eq rfl
  rw [h.count_eq, h.values, h.times] at hsegments
  constructor
  case mpr =>
    intro hle
    rw [if_pos hle] at hsegments
    exact onDataPacketReceived_eq_writeBlock hsegments
  case mp =>
    intro hwrites
    by_contra hle
    rw [if_neg hle] at hsegments
    rw [onDataPacketReceived_eq_pure hsegments] at hwrites
    -- A call that writes changes the file of any writer.
    let w : Writer := { writer := IndexedWriter.create [], uuids := fun _ => [] }
    have hgrown := Writer.writeBlock_grows handler.group (blockArgs packet domainPacket) w
    rw [← hwrites] at hgrown
    exact hgrown rfl

theorem sound_of_fitting (hread : ReadAs domain.sampleType name bits readType)
    (hops : FieldOps 1 value.structFields ops) (hstruct : value.sampleType = .struct)
    (hpacket : Consistent value domain packet domainPacket)
    (h : packet.sampleCount.toNat = 0 ∨ Fitting value domain packet.sampleCount.toNat) :
    Sound value domain (messageDecoder readType bits.toNat ops) handler packet domainPacket := by
  cases h
  case inl hzero =>
    refine ⟨(writes_iff hpacket).mpr ?_, fun i hi => absurd hi (by omega)⟩
    simp only [hzero, Nat.mul_zero, le_refl, and_self]
  case inr hfitting =>
    have hlength := hpacket.payload_length
    have htime : domain.sampleSize = 8 := by
      rw [sampleSize_of_readAs hread, hfitting.time_size, hfitting.time_elements]
    have hsum : (value.structFields.map StructField.rawSize).sum = value.sampleSize := by
      rw [sampleSize_of_struct hstruct, hfitting.elements, Nat.mul_one]
    have hsizes : value.structFields.map readSize = value.structFields.map StructField.rawSize := by
      apply List.map_congr_left
      intro field hfield
      exact (readSize_eq_rawSize_iff (hops.pos field hfield)).mpr (hfitting.fields field hfield)
    have hle : 69 ≤ value.sampleSize := by
      have hsize := hfitting.size
      omega
    -- Only the first sample is where the decoder looks for it if the sizes differ.
    have hstride : ∀ k < packet.sampleCount.toNat, 69 * k = value.sampleSize * k := by
      intro k hk
      cases hfitting.size
      case inl hsize => rw [hsize]
      case inr hone  =>
        obtain rfl : k = 0 := by omega
        rfl
    have hall : ∀ k < packet.sampleCount.toUInt32.toNat,
        4 + domain.sampleType.size * (k + 1) ≤ (blockArgs packet domainPacket).flatten.length ∧
          4 + domain.sampleType.size * packet.sampleCount.toUInt32.toNat + 69 * k +
            (value.structFields.map readSize).sum ≤ (blockArgs packet domainPacket).flatten.length := by
      intro k hk
      have hnext : value.sampleSize * (k + 1) ≤ value.sampleSize * packet.sampleCount.toNat := by
        exact Nat.mul_le_mul_left _ (hpacket.count_eq ▸ hk)
      rw [hpacket.count_eq] at hk ⊢
      rw [hfitting.time_size, hsizes, hsum, hlength, htime, hstride k hk]
      rw [Nat.mul_succ] at hnext
      omega
    have hiterations := iterationAccesses_eq blockArgs_flatten hread hops hall
    refine ⟨(writes_iff hpacket).mpr ⟨?_, ?_⟩, fun i hi => ?_⟩
    case refine_1 => exact Nat.mul_le_mul_right _ hle
    case refine_2 => exact Nat.mul_le_mul_right _ htime.ge
    case refine_3 =>
      rw [hpacket.count_eq, hsizes, hfitting.time_size] at hiterations
      rw [hiterations, List.getElem?_map, List.getElem?_range hi, Option.map_some, htime]
      refine ⟨_, _, rfl, filter_messageAccesses, ?_, hsum⟩
      rw [hstride i hi]

-- The first two iterations tell the sizes that a sound packet has.
theorem fitting_of_sound (hread : ReadAs domain.sampleType name bits readType)
    (hops : FieldOps 1 value.structFields ops) (hstruct : value.sampleType = .struct)
    (hpacket : Consistent value domain packet domainPacket)
    (h : Sound value domain (messageDecoder readType bits.toNat ops) handler packet domainPacket)
    (hpos : 0 < packet.sampleCount.toNat) :
    Fitting value domain packet.sampleCount.toNat := by
  obtain ⟨hvalues, htimes⟩ := (writes_iff hpacket).mp h.writes
  have hvalue : 69 ≤ value.sampleSize := Nat.le_of_mul_le_mul_right hvalues hpos
  have htime : 8 ≤ domain.sampleSize := Nat.le_of_mul_le_mul_right htimes hpos
  have htimeSize := sampleSize_of_readAs hread
  have hvalueSize := sampleSize_of_struct hstruct
  have htype : domain.sampleType.size ≤ domain.sampleSize := by
    rw [htimeSize]
    exact Nat.le_mul_of_pos_right _ (Nat.pos_of_ne_zero fun hzero => by simp [hzero] at htimeSize; omega)
  have hle : 4 + domain.sampleType.size * packet.sampleCount.toUInt32.toNat +
      69 * packet.sampleCount.toUInt32.toNat ≤ (blockArgs packet domainPacket).flatten.length := by
    have hmul := Nat.mul_le_mul_right packet.sampleCount.toNat htype
    rw [hpacket.count_eq, hpacket.payload_length]
    omega
  -- What is known about the reads of an iteration.
  have hreads : ∀ i < packet.sampleCount.toNat,
      Access.read (4 + domain.sampleType.size * i) domain.sampleType.size ::
        fieldReads (4 + domain.sampleType.size * packet.sampleCount.toNat + 69 * i)
          (value.structFields.map readSize) =
      .read (4 + domain.sampleSize * i) domain.sampleSize ::
        fieldReads (4 + domain.sampleSize * packet.sampleCount.toNat + value.sampleSize * i)
          (value.structFields.map StructField.rawSize) ∧
      (value.structFields.map StructField.rawSize).sum = value.sampleSize := by
    intro i hi
    obtain ⟨as, reads, has, hfilter, hexactly⟩ := h.reads i hi
    have hiteration := iterationAccesses_getElem? blockArgs_flatten hread hops hle has
    rw [hiteration, filter_messageAccesses, hpacket.count_eq, hexactly.reads] at hfilter
    exact ⟨hfilter, hexactly.size⟩
  obtain ⟨hfirst, hsum⟩ := hreads 0 hpos
  simp only [List.cons.injEq, Access.read.injEq] at hfirst
  obtain ⟨⟨_, hsize⟩, hfields⟩ := hfirst
  obtain ⟨hsizes, _⟩ := fieldReads_inj hfields
  have height : domain.sampleType.size = 8 := by
    have hle := hread.le
    omega
  refine ⟨height, ?_, ?_, ?_, ?_⟩
  case refine_1 =>
    rw [← hsize, height] at htimeSize
    omega
  case refine_2 =>
    rw [hsum] at hvalueSize
    exact (Nat.mul_eq_left (by omega)).mp hvalueSize.symm
  case refine_3 =>
    intro field hfield
    exact (readSize_eq_rawSize_iff (hops.pos field hfield)).mp (List.map_inj_left.mp hsizes field hfield)
  case refine_4 =>
    by_cases hone : packet.sampleCount.toNat = 1
    case pos => exact .inr ⟨hone, hvalue⟩
    case neg =>
      obtain ⟨hsecond, _⟩ := hreads 1 (by omega)
      rw [List.cons.injEq] at hsecond
      have hne : value.structFields.map readSize ≠ [] := by
        intro hnil
        rw [← hsizes, hnil, List.sum_nil] at hsum
        omega
      have hoffset := (fieldReads_inj hsecond.right).right hne
      rw [hsize] at hoffset
      omega

-- Of the descriptors that are accepted only some are recorded soundly.
theorem sound_iff (value domain : DataDescriptor) (testId : UInt32) (w : Writer)
    (hsupports : supports (some value) (some domain) = .ok true)
    (hcreate : ((create testId (some value) (some domain)).run w).Returns) :
    ∃ xml decoder,
      (create testId (some value) (some domain)).run w =
        ((fun _ => { group := UInt32.ofNat w.nextGroup }) <$> Writer.writeMetadata xml).run w.allocated ∧
      Decoder.ofMetadata xml = some decoder ∧
      ∀ (handler : CanSignalHandler) (packet : DataPacket) (domainPacket : DomainPacket),
        Consistent value domain packet domainPacket →
        (Sound value domain decoder handler packet domainPacket ↔
          packet.sampleCount.toNat = 0 ∨ Fitting value domain packet.sampleCount.toNat) := by
  let signal : Signal := { globalId := [], description := [] }
  have hstruct := sampleType_of_supports hsupports
  rw [can_create_run signal] at hcreate
  cases hdeclaration : declaration .can testId signal (some value) (some domain) w
  case error => simp [hdeclaration] at hcreate
  case ok es =>
    obtain ⟨name, bits, readType, ops, hread, hops, hdecoder⟩ := ofMetadata_declaration hdeclaration
    refine ⟨_, _, ?_, hdecoder, fun handler packet domainPacket hpacket => ⟨fun h => ?_, fun h => ?_⟩⟩
    case refine_1 => exact can_create_run_ok signal hdeclaration
    case refine_2 =>
      by_cases hzero : packet.sampleCount.toNat = 0
      case pos => exact .inl hzero
      case neg =>
        exact .inr (fitting_of_sound hread hops hstruct hpacket h (Nat.pos_of_ne_zero hzero))
    case refine_3 => exact sound_of_fitting hread hops hstruct hpacket h

omit [Host] [Crc32] in
theorem sound_iff_two_messages :
    let _ := Crc32.ieee
    let _ := Host.exact
    let value : DataDescriptor := {
      name         := str "messages"
      sampleType   := .struct
      rule         := some { type := .explicit, parameters := none }
      structFields := [
        { name := str "ArbId", sampleType := .uint32, dimensions := none },
        { name := str "Length", sampleType := .uint8, dimensions := none },
        { name := str "Data", sampleType := .uint8, dimensions := some [{ ruleType := .linear, size := 64 }] }] }
    let domain : DataDescriptor := {
      name       := str "time"
      sampleType := .int64
      rule       := some { type := .explicit, parameters := none } }
    let domainPacket : DomainPacket := {
      dataDescriptor := some domain
      offset         := none
      rawData        := List.replicate 16 7 }
    let packet : DataPacket := {
      dataDescriptor := some value
      domainPacket   := some domainPacket
      sampleCount    := 2
      rawData        := List.replicate 138 9 }
    ∃ decoder, ∀ handler, Sound value domain decoder handler packet domainPacket := by
  intro _ _ value domain domainPacket packet
  let w : Writer := { writer := IndexedWriter.create [], uuids := fun _ => [] }
  obtain ⟨_, decoder, _, _, hsound⟩ := sound_iff value domain 2 w (by decide) (by decide +kernel)
  have hpacket : Consistent value domain packet domainPacket := by
    exact ⟨rfl, by decide, by decide +kernel, by decide +kernel⟩
  have hfitting : Fitting value domain 2 := by
    exact ⟨rfl, by decide +kernel, by decide +kernel, by decide +kernel, .inl (by decide +kernel)⟩
  exact ⟨decoder, fun handler => (hsound handler packet domainPacket hpacket).mpr (.inr hfitting)⟩

-- Messages with no more than eight octets of data are accepted, and dropped.
omit [Host] [Crc32] in
theorem not_sound_thirteen_octets :
    let _ := Crc32.ieee
    let _ := Host.exact
    let value : DataDescriptor := {
      name         := str "messages"
      sampleType   := .struct
      rule         := some { type := .explicit, parameters := none }
      structFields := [
        { name := str "ArbId", sampleType := .uint32, dimensions := none },
        { name := str "Length", sampleType := .uint8, dimensions := none },
        { name := str "Data", sampleType := .uint8, dimensions := some [{ ruleType := .linear, size := 8 }] }] }
    let domain : DataDescriptor := {
      name       := str "time"
      sampleType := .int64
      rule       := some { type := .explicit, parameters := none } }
    let domainPacket : DomainPacket := {
      dataDescriptor := some domain
      offset         := none
      rawData        := List.replicate 8 7 }
    let packet : DataPacket := {
      dataDescriptor := some value
      domainPacket   := some domainPacket
      sampleCount    := 1
      rawData        := List.replicate 13 9 }
    let w : Writer := { writer := IndexedWriter.create [], uuids := fun _ => [] }
    supports (some value) (some domain) = .ok true ∧
      ((create 2 (some value) (some domain)).run w).Returns ∧
      Consistent value domain packet domainPacket ∧
      ∀ decoder handler, ¬Sound value domain decoder handler packet domainPacket := by
  intro _ _ value domain domainPacket packet w
  have hpacket : Consistent value domain packet domainPacket := by
    exact ⟨rfl, by decide, by decide +kernel, by decide +kernel⟩
  refine ⟨by decide, by decide +kernel, hpacket, fun decoder handler h => ?_⟩
  have hlength := ((writes_iff hpacket).mp h.writes).left
  exact absurd hlength (by decide +kernel)

end CanSignalHandler
end AdvancedRecorder
