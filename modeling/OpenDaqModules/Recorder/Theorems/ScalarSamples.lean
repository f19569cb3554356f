import OpenDaqModules.Recorder.Channels
import OpenDaqModules.Recorder.Samples

namespace AdvancedRecorder.ScalarLinearSignalHandler

open Sie Xml Decoder SignalHandler

variable [Host] {name payload raw : Bytes} {bits : UInt32} {readType : ReadType} {type : SampleType}
  {start delta : Int64} {o : ℤ} {k n : ℕ} {s : State}

-- The decoder of a channel.
def blockDecoder (start : Expr) (delta : ℤ) (readType : ReadType) (bits : ℕ) : Decoder where
  prologue := [.read "offset" .int 64 Host.endian none]
  loop     := {
    var       := some "v0"
    start
    increment := .num delta
    body      := [.read "v1" readType bits Host.endian none, .sample] }

omit [Host] in
theorem ofText_start (start : Int64) : ∃ e,
    (∀ env o, env.num? "offset" = some o → e.eval env = some (o + start.toInt)) ∧
    Expr.ofText (str "\x7b$offset + " ++ Decimal.ofInt start.toInt ++ str "\x7d") = some e := by
  let before : List Token := [.openingBrace, .var (str "offset"), .plus]
  have hbefore : Scanner.run {} (str "\x7b$offset + ") = some { tokens := before } := rfl
  have hafter : ∀ ts, Scanner.run { tokens := ts, pending := .number (Decimal.ofNat start.toInt.natAbs) }
      (str "\x7d") = some { tokens := ts ++ [.number start.toInt.natAbs, .closingBrace] } := by
    intro ts
    rw [show str "\x7d" = [0x7d] from rfl]
    simp [Scanner.run, Scanner.step, Scanner.start, isDigit, Scanner.flush, Decimal.toNat_ofNat,
      Scanner.symbol?]
  rw [Expr.ofText, tokens, Scanner.run_append, Scanner.run_append, hbefore, Option.bind_some,
    Scanner.run_ofInt rfl, Option.bind_some, hafter]
  by_cases hstart : start.toInt < 0
  case pos =>
    refine ⟨.add (.var "offset") (.sub (.num 0) (.num start.toInt.natAbs)), fun env o ho => ?_, ?_⟩
    · have habs : o + (0 - (start.toInt.natAbs : ℤ)) = o + start.toInt := by omega
      simp [Expr.eval, ho, ← habs]
    · rw [if_pos hstart]
      rfl
  case neg =>
    refine ⟨.add (.var "offset") (.num start.toInt.natAbs), fun env o ho => ?_, ?_⟩
    · have habs : o + (start.toInt.natAbs : ℤ) = o + start.toInt := by omega
      simp [Expr.eval, ho, ← habs]
    · rw [if_neg hstart]
      rfl

theorem ofElement_decoderElement (hread : ReadAs type name bits readType)
    (hstart : Expr.ofText (str "\x7b$offset + " ++ Decimal.ofInt start.toInt ++ str "\x7d") = some e) :
    Decoder.ofElement (decoderElement decoderId start delta name bits) =
      some (blockDecoder e delta.toInt readType bits.toNat) := by
  let loop := ({ name := str "loop" } : Element)
    |>.addAttribute (str "var") (str "v0")
    |>.addAttribute (str "start") (str "\x7b$offset + " ++ Decimal.ofInt start.toInt ++ str "\x7d")
    |>.addAttribute (str "increment") (Decimal.ofInt delta.toInt)
    |>.addChild (read (str "v1") name bits)
    |>.addChild sample
  have hv1 : text (str "v1") = "v1" := by decide +kernel
  have hv0 : text (str "v0") = "v0" := by decide +kernel
  have hoffset : text (str "offset") = "offset" := by decide +kernel
  have hbody : loop.children.mapM Op.ofElement =
      some [.read "v1" readType bits.toNat Host.endian none, .sample] := by
    change [read (str "v1") name bits, sample].mapM Op.ofElement = _
    simp [Op.ofElement_read hread.ofText hread.ne_raw, Op.ofElement_sample, hv1]
  have hloop := Loop.ofElement_eq (e := loop) rfl rfl (exprOfAttribute?_eq rfl hstart)
    (exprOfAttribute?_eq rfl Expr.ofText_ofInt) rfl hbody
  have hprologue : [read (str "offset") (str "int") 64].mapM Op.ofElement =
      some [.read "offset" .int 64 Host.endian none] := by
    have hint : Op.ofElement (read (str "offset") (str "int") 64) =
        some (.read (text (str "offset")) .int 64 Host.endian none) := by
      exact Op.ofElement_read (by decide) (by decide)
    simp [hint, hoffset]
  rw [hv0] at hloop
  exact Decoder.ofElement_eq rfl rfl hprologue hloop

-- What the variables of a sample say.
def pair (env : Env) : Option ℤ × Option Value :=
  (env.num? "v0", env.lookup "v1")

theorem blockDecoder_iteration {e : Expr} {i increment : ℤ} {input : Bytes}
    (hread : ReadAs type name bits readType) (hrest : s.rest = raw.drop (type.size * k))
    (hsamples : s.samples = []) (hk : type.size * (k + 1) ≤ raw.length) :
    ∃ s', execAll input (blockDecoder e increment readType bits.toNat).loop.body (s.bind "v0" (.num i)) =
        some s' ∧ s'.samples.map pair = [(some i, some (type.value (chunk type.size k raw)))] ∧
      s'.rest = raw.drop (type.size * (k + 1)) := by
  rw [Nat.mul_succ] at hk ⊢
  have hlength : (chunk type.size k raw).length = type.size := by
    rw [chunk, List.length_take, List.length_drop]
    omega
  have hoctets : splitOctets (bits.toNat / 8) s.rest =
      some (chunk type.size k raw, raw.drop (type.size * k + type.size)) := by
    rw [hread.size, hrest]
    exact splitOctets_drop hk
  have hvalue := hread.value _ hlength
  refine ⟨_, by simp [blockDecoder, execAll, Op.exec, State.bind, hoctets, hvalue]; rfl, ?_, rfl⟩
  simp [hsamples, pair, Env.num?_cons_of_ne]

-- The decoder reads as many samples as there are.
theorem samples_blockDecoder {e : Expr} (hread : ReadAs type name bits readType) (offset : Int64)
    (hstart : ∀ env o, env.num? "offset" = some o → e.eval env = some (o + start.toInt))
    (hlength : raw.length = n * type.size) :
    ((blockDecoder e delta.toInt readType bits.toNat).samples
      (Host.endian.ofUInt64 offset.toUInt64 ++ raw)).map pair =
        (List.range n).map fun i : ℕ => (some (offset.toInt + start.toInt + i * delta.toInt),
          some (type.value (chunk type.size i raw))) := by
  let d := blockDecoder e delta.toInt readType bits.toNat
  let input := Host.endian.ofUInt64 offset.toUInt64 ++ raw
  let s : State := { rest := raw, env := [("offset", .num offset.toInt)] }
  have hprologue : execAll input d.prologue { rest := input } = some s := by
    have hoctets : splitOctets (64 / 8) input = some (Host.endian.ofUInt64 offset.toUInt64, raw) := by
      exact splitOctets_append Endian.ofUInt64_length
    simp [d, blockDecoder, execAll, Op.exec, hoctets, int_value_ofInt64, State.bind, s]
  have heval : d.loop.start.eval s.env = some (offset.toInt + start.toInt) := by
    exact hstart s.env offset.toInt (by simp [s])
  have htrace : d.trace input =
      d.loop.trace input delta.toInt input.length (offset.toInt + start.toInt) s := by
    have hincrement : d.loop.increment.eval s.env = some delta.toInt := rfl
    simp [trace, hprologue, heval, hincrement]
  have hfuel : n ≤ input.length := by
    have hmul : n ≤ n * type.size := Nat.le_mul_of_pos_right n hread.pos
    rw [List.length_append]
    omega
  have hmap : (d.trace input).map (fun x => x.2.samples.map pair) = (List.range n).map fun i : ℕ =>
      [(some (offset.toInt + start.toInt + i * delta.toInt),
        some (type.value (chunk type.size i raw)))] := by
    rw [htrace]
    refine Loop.trace_map_eq (P := fun k s => s.rest = raw.drop (type.size * k) ∧ s.samples = [])
      (fun k hk s hs => ⟨rfl, ?_⟩) (fun s hs => .inr ?_) hfuel ⟨?_, rfl⟩
    case refine_1 =>
      have hle : type.size * (k + 1) ≤ raw.length := by
        rw [hlength, Nat.mul_comm n]
        exact Nat.mul_le_mul_left type.size hk
      obtain ⟨s', hexec, hpairs, hrest⟩ := blockDecoder_iteration hread hs.left hs.right hle
      exact ⟨s', hexec, hpairs, hrest, rfl⟩
    case refine_3 => rw [Nat.mul_zero, List.drop_zero]
    case refine_2 =>
      have hempty : s.rest = [] := by
        rw [hs.left, List.drop_eq_nil_iff, hlength, Nat.mul_comm]
      have hoctets : splitOctets (bits.toNat / 8) s.rest = none := by
        have hpos := hread.pos
        rw [hempty, hread.size, splitOctets, if_neg (by simpa using Nat.ne_of_gt hpos)]
      simp [d, blockDecoder, execAll, Op.exec, State.bind, Loop.bindVar, hoctets]
  exact samples_map_eq hmap

variable {value domain : DataDescriptor}

omit [Host] in
theorem sampleType_of_supports (h : supports (some value) (some domain) = .ok true) :
    ∃ name bits dataType dataFormat dataBits,
      sampleTypeToSieReadType value.sampleType = .ok (name, bits) ∧
      openDaqSampleTypeToSieDataType value.sampleType = .ok dataType ∧
      openDaqSampleTypeToSieDataFormat value.sampleType = .ok dataFormat ∧
      openDaqSampleTypeToSieBits value.sampleType = .ok dataBits := by
  have hscalar : value.sampleType ∈ [SampleType.float32, .float64, .uint8, .int8, .uint16, .int16,
      .uint32, .int32, .uint64, .int64] := by
    by_contra hscalar
    have hfalse : supports (some value) (some domain) = .ok false := by
      simp only [supports, assigned, bind, Except.bind, hscalar, not_false_eq_true, if_true]
      split
      case isTrue  => rfl
      case isFalse => split <;> rfl
    exact nomatch hfalse.symm.trans h
  simp only [List.mem_cons, List.not_mem_nil, or_false] at hscalar
  obtain hscalar | hscalar | hscalar | hscalar | hscalar | hscalar | hscalar | hscalar | hscalar |
    hscalar := hscalar
  all_goals
    rw [hscalar]
    exact ⟨_, _, _, _, _, rfl, rfl, rfl, rfl⟩

-- What the first one of the elements of a channel is.
theorem declaration_of_supports (hsupports : supports (some value) (some domain) = .ok true)
    (hlinear : getLinearRuleStartDelta domain = .ok (start, delta)) (testId : UInt32)
    (signal : Signal) (w : Writer) :
    ∃ name bits e, sampleTypeToSieReadType value.sampleType = .ok (name, bits) ∧
      declaration .scalarLinear testId signal (some value) (some domain) w =
        .ok [decoderElement (UInt32.ofNat w.nextDecoderId) start delta name bits, e] := by
  obtain ⟨name, bits, dataType, dataFormat, dataBits, hread, hdataType, hdataFormat, hdataBits⟩ :=
    sampleType_of_supports hsupports
  simp only [declaration, HandlerKind.elements, elements, Except.bind_eq_ok]
  exact ⟨name, bits, _, hread, _, rfl, _, hlinear, _, rfl, _, hread, _, rfl, _, rfl, _, hdataType,
    _, hdataFormat, _, hdataBits, rfl⟩

variable [Crc32]

-- The decoder that the constructor emits.
theorem create_decoder (testId : UInt32) (signal : Signal) (w : Writer)
    (hsupports : supports (some value) (some domain) = .ok true)
    (hlinear : getLinearRuleStartDelta domain = .ok (start, delta)) :
    ∃ xml name bits readType e,
      (create testId signal (some value) (some domain)).run w =
        ((fun _ => { group := UInt32.ofNat w.nextGroup }) <$> Writer.writeMetadata xml).run w.allocated ∧
      Decoder.ofMetadata xml = some (blockDecoder e delta.toInt readType bits.toNat) ∧
      sampleTypeToSieReadType value.sampleType = .ok (name, bits) ∧
      ReadAs value.sampleType name bits readType ∧
      ∀ env o, env.num? "offset" = some o → e.eval env = some (o + start.toInt) := by
  obtain ⟨name, bits, test, htype, hdeclaration⟩ :=
    declaration_of_supports hsupports hlinear testId signal w
  obtain ⟨readType, hread⟩ := readAs htype
  obtain ⟨e, heval, hofText⟩ := ofText_start start
  refine ⟨_, name, bits, readType, e, scalarLinear_create_run_ok hdeclaration, ?_, htype, hread, heval⟩
  rw [Decoder.ofMetadata, parse_serializeAll (built_of_elements hdeclaration).wellFormed]
  exact ofElement_decoderElement hread hofText

theorem samples_onDataPacketReceived {e : Expr} {packet : DataPacket} {domainPacket : DomainPacket}
    (hread : ReadAs type name bits readType) {offset : Int64}
    (heval : ∀ env o, env.num? "offset" = some o → e.eval env = some (o + start.toInt))
    (hdomain : packet.domainPacket = some domainPacket) (hoffset : domainPacket.offset = some offset)
    (hlength : packet.rawData.length = n * type.size) (delta : Int64)
    (handler : ScalarLinearSignalHandler) :
    ∃ args, onDataPacketReceived handler packet = Writer.writeBlock handler.group args ∧
      ((blockDecoder e delta.toInt readType bits.toNat).samples args.flatten).map pair =
        (List.range n).map fun i : ℕ => (some (offset.toInt + start.toInt + i * delta.toInt),
          some (type.value (chunk type.size i packet.rawData))) := by
  refine ⟨[Host.endian.ofUInt64 offset.toUInt64, packet.rawData], ?_, ?_⟩
  case refine_1 => simp only [onDataPacketReceived, hdomain, hoffset]
  case refine_2 =>
    simp only [List.flatten_cons, List.flatten_nil, List.append_nil]
    exact samples_blockDecoder hread offset heval hlength

variable {parameters : List (Bytes × Parameter)}

-- The constructor writes metadata with a decoder, and a packet is written as what this decoder
-- reads as the samples of the packet.
theorem samples_recorded (testId : UInt32) (signal : Signal) (w : Writer)
    (hsupports : supports (some value) (some domain) = .ok true)
    (hparameters : domain.rule.bind DataRule.parameters = some parameters)
    (hstart : getOrDefault parameters (str "start") 0 = .integer start)
    (hdelta : getOrDefault parameters (str "delta") 1 = .integer delta) :
    ∃ xml decoder,
      (create testId signal (some value) (some domain)).run w =
        ((fun _ => { group := UInt32.ofNat w.nextGroup }) <$> Writer.writeMetadata xml).run w.allocated ∧
      Decoder.ofMetadata xml = some decoder ∧
      ∀ (handler : ScalarLinearSignalHandler) (packet : DataPacket) domainPacket offset n,
        packet.domainPacket = some domainPacket → domainPacket.offset = some offset →
        packet.rawData.length = n * value.sampleType.size →
        ∃ args, onDataPacketReceived handler packet = Writer.writeBlock handler.group args ∧
          (decoder.samples args.flatten).map pair = (List.range n).map fun i : ℕ =>
            (some (offset.toInt + start.toInt + i * delta.toInt),
              some (value.sampleType.value (chunk value.sampleType.size i packet.rawData))) := by
  have hlinear : getLinearRuleStartDelta domain = .ok (start, delta) := by
    obtain ⟨rule, hrule, hparameters⟩ := Option.bind_eq_some_iff.mp hparameters
    simp only [getLinearRuleStartDelta, hrule, hparameters, hstart, hdelta]
    rfl
  obtain ⟨xml, name, bits, readType, e, hcreate, hdecoder, -, hread, heval⟩ :=
    create_decoder testId signal w hsupports hlinear
  refine ⟨xml, _, hcreate, hdecoder, fun handler packet domainPacket offset n hdomain hoffset hlength => ?_⟩
  exact samples_onDataPacketReceived hread heval hdomain hoffset hlength _ handler

omit [Host] [Crc32] in
theorem samples_recorded_two_samples :
    let _ := Crc32.ieee
    let _ := Host.exact
    let domainPacket : DomainPacket := { dataDescriptor := none, offset := some 5, rawData := [] }
    let packet : DataPacket := {
      dataDescriptor := none
      domainPacket   := some domainPacket
      sampleCount    := 2
      rawData        := [7, 0, 0xfe, 0xff] }
    ∃ decoder : Decoder, ∃ args, onDataPacketReceived { group := 2 } packet = Writer.writeBlock 2 args ∧
      (decoder.samples args.flatten).map pair = [(some 4, some (.num 7)), (some 14, some (.num (-2)))] := by
  intro _ _ domainPacket packet
  let value : DataDescriptor := {
    name       := str "value"
    sampleType := .int16
    rule       := some { type := .explicit, parameters := none } }
  let parameters := [(str "start", Parameter.integer (-1)), (str "delta", Parameter.integer 10)]
  let domain : DataDescriptor := {
    name       := str "time"
    sampleType := .int64
    rule       := some { type := .linear, parameters := some parameters } }
  let w : Writer := { writer := IndexedWriter.create [], uuids := fun _ => [] }
  let signal : Signal := { globalId := [], description := [] }
  obtain ⟨_, decoder, _, _, hsamples⟩ := samples_recorded 0 signal w
    (show supports (some value) (some domain) = .ok true by decide) rfl
    (show getOrDefault parameters (str "start") 0 = .integer (-1) by decide)
    (show getOrDefault parameters (str "delta") 1 = .integer 10 by decide)
  obtain ⟨args, hargs, hpairs⟩ := hsamples { group := 2 } packet domainPacket 5 2 rfl rfl rfl
  exact ⟨decoder, args, hargs, hpairs.trans (by decide +kernel)⟩

end AdvancedRecorder.ScalarLinearSignalHandler
