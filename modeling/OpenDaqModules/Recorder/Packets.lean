import OpenDaqModules.Recorder.Signal
import OpenDaqModules.Recorder.Sie.WriterLog

namespace Sie.Writer

-- The state after a channel got its identifiers.
def allocated (w : Writer) : Writer where
  __ := w
  nextChannelId := w.nextChannelId + 1
  nextDecoderId := w.nextDecoderId + 1
  nextGroup     := w.nextGroup + 1

end Sie.Writer

namespace AdvancedRecorder

open Sie Xml EStateM

inductive HandlerKind
  | scalarLinear
  | can
  deriving DecidableEq

namespace HandlerKind

-- Which kind of handler is responsible for a pair of descriptors.
def select (valueDescriptor domainDescriptor : Option DataDescriptor) :
    Except Error (Option HandlerKind) := do
  if ← ScalarLinearSignalHandler.supports valueDescriptor domainDescriptor then
    return some .scalarLinear
  if ← CanSignalHandler.supports valueDescriptor domainDescriptor then
    return some .can
  return none

def handler (kind : HandlerKind) (group : UInt32) : SignalHandler :=
  match kind with
  | scalarLinear => .scalarLinear { group }
  | can          => .can { group }

variable [Host]

def elements (kind : HandlerKind) (group decoderId channelId testId : UInt32) (uuid : Bytes)
    (signal : Signal) (valueDescriptor domainDescriptor : Option DataDescriptor) :
    Except Error (List Element) :=
  match kind with
  | scalarLinear => ScalarLinearSignalHandler.elements
      group decoderId channelId testId uuid signal valueDescriptor domainDescriptor
  | can => CanSignalHandler.elements
      group decoderId channelId testId valueDescriptor domainDescriptor

-- What a handler passes to `writeBlock`, if it records the packet.
def segments (kind : HandlerKind) (packet : DataPacket) : Option (List Bytes) := do
  let domainPacket ← packet.domainPacket
  match kind with
  | scalarLinear =>
    let offset ← domainPacket.offset
    return [Host.endian.ofUInt64 offset.toUInt64, packet.rawData]
  | can =>
    let N := packet.sampleCount.toUInt32
    if packet.rawData.length < N.toNat * OPENDAQ_CAN_MESSAGE then none
    else if domainPacket.rawData.length < N.toNat * 8 then none
    else return [Host.endian.ofUInt32 N, domainPacket.rawData, packet.rawData]

end HandlerKind

namespace SignalHandler

def kind : SignalHandler → HandlerKind
  | scalarLinear _ => .scalarLinear
  | can _          => .can

def group : SignalHandler → UInt32
  | scalarLinear handler => handler.group
  | can handler          => handler.group

@[simp]
theorem kind_handler {kind : HandlerKind} {group : UInt32} : (kind.handler group).kind = kind := by
  cases kind <;> rfl

@[simp]
theorem group_handler {kind : HandlerKind} {group : UInt32} : (kind.handler group).group = group := by
  cases kind <;> rfl

variable {handler : SignalHandler} {packet : DataPacket} {w : Writer} {testId : UInt32}
  {signal : Signal} {valueDescriptor domainDescriptor : Option DataDescriptor} [Host]

-- The elements that declare the next channel of a writer.
def declaration (kind : HandlerKind) (testId : UInt32) (signal : Signal)
    (valueDescriptor domainDescriptor : Option DataDescriptor) (w : Writer) :
    Except Error (List Element) :=
  kind.elements (UInt32.ofNat w.nextGroup) (UInt32.ofNat w.nextDecoderId)
    (UInt32.ofNat w.nextChannelId) testId (w.uuids w.nextChannelId) signal
    valueDescriptor domainDescriptor

variable [Crc32]

theorem onDataPacketReceived_run :
    (handler.onDataPacketReceived packet).run w =
      match handler.kind.segments packet with
      | none      => .ok () w
      | some args => (Writer.writeBlock handler.group args).run w := by
  cases hdomain : packet.domainPacket
  case none =>
    cases handler <;>
      simp [onDataPacketReceived, ScalarLinearSignalHandler.onDataPacketReceived,
        CanSignalHandler.onDataPacketReceived, HandlerKind.segments, hdomain]
  case some domainPacket =>
    cases handler
    case scalarLinear handler =>
      cases hoffset : domainPacket.offset <;>
        simp [onDataPacketReceived, ScalarLinearSignalHandler.onDataPacketReceived,
          HandlerKind.segments, hdomain, hoffset, kind, group]
    case can handler =>
      have hcount : ¬packet.sampleCount > 0xFFFFFFFFFFFFFFFF := by
        have := packet.sampleCount.toNat_lt
        simp only [gt_iff_lt, UInt64.lt_iff_toNat_lt, UInt64.reduceToNat]
        omega
      simp only [onDataPacketReceived, CanSignalHandler.onDataPacketReceived, hdomain, hcount,
        if_false, HandlerKind.segments, kind, group]
      generalize packet.sampleCount.toUInt32 = N
      by_cases hvalues : packet.rawData.length < N.toNat * OPENDAQ_CAN_MESSAGE
      case pos => simp [hvalues]
      case neg =>
        by_cases htimes : domainPacket.rawData.length < N.toNat * 8 <;> simp [hvalues, htimes]

omit [Host] in
-- The end of both constructors.
theorem declare_run {declared : Except Error (List Element)} {a : α} :
    (do let es ← MonadExcept.ofExcept declared
        Writer.writeMetadata (Element.serializeAll 1 es)
        return a : EStateM Error Writer α).run w =
      match declared with
      | .error e => .error e w
      | .ok es   =>
        match (Writer.writeMetadata (Element.serializeAll 1 es)).run w with
        | .ok _ w'    => .ok a w'
        | .error e w' => .error e w' := by
  cases declared
  case error e => rfl
  case ok es   =>
    simp only [ofExcept_ok, pure_bind, run_bind]
    cases (Writer.writeMetadata (Element.serializeAll 1 es)).run w <;> rfl

omit [Host] in
theorem declare_run_ok {declared : Except Error (List Element)} {a : α} {es : List Element}
    (h : declared = .ok es) :
    (do let es ← MonadExcept.ofExcept declared
        Writer.writeMetadata (Element.serializeAll 1 es)
        return a : EStateM Error Writer α).run w =
      ((fun _ => a) <$> Writer.writeMetadata (Element.serializeAll 1 es)).run w := by
  rw [declare_run, h, map_eq_pure_bind, run_bind]
  dsimp only
  cases (Writer.writeMetadata (Element.serializeAll 1 es)).run w <;> rfl

theorem scalarLinear_create_run :
    (ScalarLinearSignalHandler.create testId signal valueDescriptor domainDescriptor).run w =
      match declaration .scalarLinear testId signal valueDescriptor domainDescriptor w with
      | .error e => .error e w.allocated
      | .ok es   =>
        match (Writer.writeMetadata (Element.serializeAll 1 es)).run w.allocated with
        | .ok _ w'    => .ok { group := UInt32.ofNat w.nextGroup } w'
        | .error e w' => .error e w' :=
  declare_run

theorem can_create_run (signal : Signal) :
    (CanSignalHandler.create testId valueDescriptor domainDescriptor).run w =
      match declaration .can testId signal valueDescriptor domainDescriptor w with
      | .error e => .error e w.allocated
      | .ok es   =>
        match (Writer.writeMetadata (Element.serializeAll 1 es)).run w.allocated with
        | .ok _ w'    => .ok { group := UInt32.ofNat w.nextGroup } w'
        | .error e w' => .error e w' :=
  declare_run

-- Once its elements are built, a constructor does nothing but write them.
theorem scalarLinear_create_run_ok {es : List Element}
    (h : declaration .scalarLinear testId signal valueDescriptor domainDescriptor w = .ok es) :
    (ScalarLinearSignalHandler.create testId signal valueDescriptor domainDescriptor).run w =
      ((fun _ => { group := UInt32.ofNat w.nextGroup }) <$>
        Writer.writeMetadata (Element.serializeAll 1 es)).run w.allocated :=
  declare_run_ok h

theorem can_create_run_ok (signal : Signal) {es : List Element}
    (h : declaration .can testId signal valueDescriptor domainDescriptor w = .ok es) :
    (CanSignalHandler.create testId valueDescriptor domainDescriptor).run w =
      ((fun _ => { group := UInt32.ofNat w.nextGroup }) <$>
        Writer.writeMetadata (Element.serializeAll 1 es)).run w.allocated :=
  declare_run_ok h

theorem create_run :
    (create testId signal valueDescriptor domainDescriptor).run w =
      match HandlerKind.select valueDescriptor domainDescriptor with
      | .error e        => .error e w
      | .ok none        => .ok none w
      | .ok (some kind) =>
        match declaration kind testId signal valueDescriptor domainDescriptor w with
        | .error e => .error e w.allocated
        | .ok es   =>
          match (Writer.writeMetadata (Element.serializeAll 1 es)).run w.allocated with
          | .ok _ w'    => .ok (some (kind.handler (UInt32.ofNat w.nextGroup))) w'
          | .error e w' => .error e w' := by
  rw [create, HandlerKind.select]
  cases ScalarLinearSignalHandler.supports valueDescriptor domainDescriptor
  case error e         => rfl
  case ok scalarLinear =>
    cases scalarLinear
    case true =>
      change (do let handler ← ScalarLinearSignalHandler.create testId signal valueDescriptor
                  domainDescriptor
                 return some (SignalHandler.scalarLinear handler)).run w = _
      rw [run_bind, scalarLinear_create_run]
      simp only [bind, Except.bind, pure, Except.pure, if_true]
      cases declaration .scalarLinear testId signal valueDescriptor domainDescriptor w
      case error e => rfl
      case ok es   =>
        dsimp only
        cases (Writer.writeMetadata (Element.serializeAll 1 es)).run w.allocated <;> rfl
    case false =>
      cases CanSignalHandler.supports valueDescriptor domainDescriptor
      case error e => rfl
      case ok can  =>
        cases can
        case false => rfl
        case true  =>
          change (do let handler ← CanSignalHandler.create testId valueDescriptor domainDescriptor
                     return some (SignalHandler.can handler)).run w = _
          rw [run_bind, can_create_run signal]
          simp only [bind, Except.bind, pure, Except.pure, Bool.false_eq_true, if_false, if_true]
          cases declaration .can testId signal valueDescriptor domainDescriptor w
          case error e => rfl
          case ok es   =>
            dsimp only
            cases (Writer.writeMetadata (Element.serializeAll 1 es)).run w.allocated <;> rfl

end SignalHandler

-- A sample of one signal, which comes with everything that is needed to record it.
def samplePacket : DataPacket where
  dataDescriptor := some {
    name       := str "value"
    sampleType := .uint8
    rule       := some { type := .explicit, parameters := none } }
  domainPacket   := some {
    dataDescriptor := some {
      name       := str "time"
      sampleType := .int64
      rule       := some { type := .linear, parameters := some [] } }
    offset         := some 5
    rawData        := [] }
  sampleCount    := 1
  rawData        := [7]

def DataPacket.domainDescriptor (packet : DataPacket) : Option DataDescriptor :=
  packet.domainPacket.bind DomainPacket.dataDescriptor

namespace AdvancedRecorderSignal

-- A signal that has not seen any packet yet.
def create (signal : Signal) (writer : ℕ) (testId : UInt32) : AdvancedRecorderSignal :=
  { signal, writer, testId }

-- A signal that has seen the descriptors of the packet before needs no other handler for it.
def Knows (s : AdvancedRecorderSignal) (packet : DataPacket) : Prop :=
  packet.dataDescriptor = s.lastValueDescriptor ∧ packet.domainDescriptor = s.lastDomainDescriptor

instance {s : AdvancedRecorderSignal} : DecidablePred s.Knows :=
  fun _ => inferInstanceAs (Decidable (_ ∧ _))

-- The state in which the descriptors of the packet were seen last.
def met (packet : DataPacket) (handler : Option SignalHandler) (s : AdvancedRecorderSignal) :
    AdvancedRecorderSignal where
  __ := s
  lastValueDescriptor  := packet.dataDescriptor
  lastDomainDescriptor := packet.domainDescriptor
  handler              := handler

-- The call of `writeBlock` by which the signal records a packet.
def request [Host] (packet : DataPacket) (s : AdvancedRecorderSignal) :
    Option (UInt32 × List Bytes) := do
  let handler ← s.handler
  let args ← handler.kind.segments packet
  return (handler.group, args)

variable {packet : DataPacket} {s : AdvancedRecorderSignal} {w : Writer} [Host] [Crc32]

-- The second half of `onDataPacketReceived`, which hands the packet to the handler.
def record (packet : DataPacket) : EStateM Error (AdvancedRecorderSignal × Writer) Unit := do
  let (s, _) ← get
  if let some handler := s.handler then
    EStateM.zoom Prod.snd (fun w (s, _) => (s, w)) (handler.onDataPacketReceived packet)

-- A signal and its writer, once the signal is prepared for a packet.
def prepared (packet : DataPacket) (s : AdvancedRecorderSignal) (w : Writer) :
    AdvancedRecorderSignal × Writer :=
  if s.Knows packet then (s, w)
  else
    match (SignalHandler.create s.testId s.signal packet.dataDescriptor packet.domainDescriptor).run w with
    | .ok handler w => (s.met packet handler, w)
    | .error _ w    => (s.met packet none, w)

-- The preparation for a packet is the first half of the method.
theorem onDataPacketReceived_run_prepared :
    (onDataPacketReceived packet).run (s, w) = (record packet).run (prepared packet s w) := by
  by_cases hknows : s.Knows packet
  case pos =>
    have hsame := hknows
    rw [Knows, DataPacket.domainDescriptor] at hsame
    simp only [onDataPacketReceived, prepared, hknows, hsame, run_bind, run_get, ne_eq,
      not_true_eq_false, or_self, if_false, if_true]
    rfl
  case neg =>
    have hchanged : packet.dataDescriptor ≠ s.lastValueDescriptor ∨
        packet.domainPacket.bind DomainPacket.dataDescriptor ≠ s.lastDomainDescriptor := by
      exact not_and_or.mp hknows
    simp only [onDataPacketReceived, prepared, hknows, hchanged, if_false, if_true, run_bind,
      run_get, run_modify, tryCatch_run, run_zoom, DataPacket.domainDescriptor]
    cases (SignalHandler.create s.testId s.signal packet.dataDescriptor
      (packet.domainPacket.bind DomainPacket.dataDescriptor)).run w <;> rfl

theorem onDataPacketReceived_run :
    (onDataPacketReceived packet).run (s, w) =
      match (prepared packet s w).1.request packet with
      | none               => .ok () (prepared packet s w)
      | some (group, args) =>
        match (Writer.writeBlock group args).run (prepared packet s w).2 with
        | .ok _ w'    => .ok () ((prepared packet s w).1, w')
        | .error e w' => .error e ((prepared packet s w).1, w') := by
  rw [onDataPacketReceived_run_prepared]
  obtain ⟨s', w'⟩ := prepared packet s w
  simp only [record, run_bind, run_get, request]
  cases s'.handler
  case none         => rfl
  case some handler =>
    simp only [run_zoom, SignalHandler.onDataPacketReceived_run, Option.bind_eq_bind,
      Option.bind_some]
    cases handler.kind.segments packet
    case none      => rfl
    case some args =>
      simp only [Option.bind_some, Option.pure_def]
      cases (Writer.writeBlock handler.group args).run w' <;> rfl

-- What the preparation for a packet may come to.
inductive Preparation (packet : DataPacket) (s : AdvancedRecorderSignal) (w : Writer) :
    AdvancedRecorderSignal × Writer → Prop
  | known (hknows : s.Knows packet) : Preparation packet s w (s, w)
  | unsupported (hknows : ¬s.Knows packet)
    (hselect : ∀ kind, HandlerKind.select packet.dataDescriptor packet.domainDescriptor ≠ .ok (some kind)) :
    Preparation packet s w (s.met packet none, w)
  | undeclared {kind : HandlerKind} {e : Error} (hknows : ¬s.Knows packet)
    (hselect : HandlerKind.select packet.dataDescriptor packet.domainDescriptor = .ok (some kind))
    (hdeclared : SignalHandler.declaration kind s.testId s.signal packet.dataDescriptor
      packet.domainDescriptor w = .error e) :
    Preparation packet s w (s.met packet none, w.allocated)
  | failed {kind : HandlerKind} {es : List Element} {e : Error} {w' : Writer}
    (hknows : ¬s.Knows packet)
    (hselect : HandlerKind.select packet.dataDescriptor packet.domainDescriptor = .ok (some kind))
    (hdeclared : SignalHandler.declaration kind s.testId s.signal packet.dataDescriptor
      packet.domainDescriptor w = .ok es)
    (hrun : (Writer.writeMetadata (Element.serializeAll 1 es)).run w.allocated = .error e w') :
    Preparation packet s w (s.met packet none, w')
  | declared {kind : HandlerKind} {es : List Element} {w' : Writer} (hknows : ¬s.Knows packet)
    (hselect : HandlerKind.select packet.dataDescriptor packet.domainDescriptor = .ok (some kind))
    (hdeclared : SignalHandler.declaration kind s.testId s.signal packet.dataDescriptor
      packet.domainDescriptor w = .ok es)
    (hrun : (Writer.writeMetadata (Element.serializeAll 1 es)).run w.allocated = .ok () w') :
    Preparation packet s w (s.met packet (some (kind.handler (UInt32.ofNat w.nextGroup))), w')

theorem preparation (packet : DataPacket) (s : AdvancedRecorderSignal) (w : Writer) :
    Preparation packet s w (prepared packet s w) := by
  by_cases hknows : s.Knows packet
  case pos =>
    rw [prepared, if_pos hknows]
    exact .known hknows
  case neg =>
    rw [prepared, if_neg hknows, SignalHandler.create_run]
    cases hselect : HandlerKind.select packet.dataDescriptor packet.domainDescriptor
    case error e => exact .unsupported hknows (by simp [hselect])
    case ok kind? =>
      cases kind?
      case none      => exact .unsupported hknows (by simp [hselect])
      case some kind =>
        dsimp only
        cases hdeclared : SignalHandler.declaration kind s.testId s.signal packet.dataDescriptor
          packet.domainDescriptor w
        case error e => exact .undeclared hknows hselect hdeclared
        case ok es   =>
          dsimp only
          cases hrun : (Writer.writeMetadata (Element.serializeAll 1 es)).run w.allocated
          case ok    => exact .declared hknows hselect hdeclared hrun
          case error => exact .failed hknows hselect hdeclared hrun

section Frame

variable {R : Writer → Writer → Prop} [Std.Refl R] [IsTrans Writer R]

-- A signal only touches its writer by the allocation of identifiers and by blocks.
theorem prepared_writer (packet : DataPacket) (s : AdvancedRecorderSignal) (w : Writer)
    (hallocated : ∀ w, R w w.allocated)
    (hwrite : ∀ group args w, R w ((Writer.writeBlock group args).run w).state) :
    R w (prepared packet s w).2 := by
  have h := preparation packet s w
  generalize prepared packet s w = x at h ⊢
  cases h
  case known       => exact Std.Refl.refl w
  case unsupported => exact Std.Refl.refl w
  case undeclared  => exact hallocated w
  case failed es e w' _ _ _ hrun =>
    have hw := hwrite groups.METADATA [Element.serializeAll 1 es] w.allocated
    rw [← Writer.writeMetadata, hrun] at hw
    exact trans_of R (hallocated w) hw
  case declared es w' _ _ _ hrun =>
    have hw := hwrite groups.METADATA [Element.serializeAll 1 es] w.allocated
    rw [← Writer.writeMetadata, hrun] at hw
    exact trans_of R (hallocated w) hw

theorem onPacketReceived_writer {packet : Packet} (hallocated : ∀ w, R w w.allocated)
    (hwrite : ∀ group args w, R w ((Writer.writeBlock group args).run w).state) :
    R w ((onPacketReceived packet).run (s, w)).state.2 := by
  cases packet
  case event       => exact Std.Refl.refl w
  case data packet =>
    have hprepared := prepared_writer packet s w hallocated hwrite
    rw [onPacketReceived, onDataPacketReceived_run]
    cases (prepared packet s w).1.request packet
    case none         => exact hprepared
    case some request =>
      have hw := hwrite request.1 request.2 (prepared packet s w).2
      dsimp only
      cases hrun : (Writer.writeBlock request.1 request.2).run (prepared packet s w).2
      all_goals
        rw [hrun] at hw
        exact trans_of R hprepared hw

end Frame

theorem prepared_signal : (prepared packet s w).1.signal = s.signal ∧
    (prepared packet s w).1.writer = s.writer ∧ (prepared packet s w).1.testId = s.testId := by
  have h := preparation packet s w
  generalize prepared packet s w = x at h ⊢
  cases h <;> exact ⟨rfl, rfl, rfl⟩

theorem run_state_fst :
    ((onPacketReceived (.data packet)).run (s, w)).state.1 = (prepared packet s w).1 := by
  rw [onPacketReceived, onDataPacketReceived_run]
  split
  case h_1 => rfl
  case h_2 group args _ =>
    cases (Writer.writeBlock group args).run (prepared packet s w).2 <;> rfl

-- The packet itself is written by the call that the handler requests, and that call decides
-- whether the whole one returns.
theorem run_of_request (h : (prepared packet s w).1.request packet = some (group, args)) :
    (((onPacketReceived (.data packet)).run (s, w)).Returns ↔
      ((Writer.writeBlock group args).run (prepared packet s w).2).Returns) ∧
    ((onPacketReceived (.data packet)).run (s, w)).state.2 =
      ((Writer.writeBlock group args).run (prepared packet s w).2).state := by
  rw [onPacketReceived, onDataPacketReceived_run, h]
  dsimp only
  cases (Writer.writeBlock group args).run (prepared packet s w).2
  all_goals exact ⟨Iff.rfl, rfl⟩

theorem knows_prepared : (prepared packet s w).1.Knows packet := by
  have h := preparation packet s w
  generalize prepared packet s w = x at h ⊢
  cases h
  case known hknows => exact hknows
  all_goals exact ⟨rfl, rfl⟩

-- Until the packet itself is written, nothing but a declaration is.
theorem prepared_blocks (packet : DataPacket) (s : AdvancedRecorderSignal) (w : Writer) :
    ∃ pre, (prepared packet s w).2.blocks = w.blocks ++ pre ∧
      ∀ b ∈ pre, b.group = groups.METADATA ∨ b.group = groups.INDEX := by
  have h := preparation packet s w
  generalize prepared packet s w = x at h ⊢
  have hnone : ∃ pre, w.blocks = w.blocks ++ pre ∧
      ∀ b ∈ pre, b.group = groups.METADATA ∨ b.group = groups.INDEX := by
    exact ⟨[], (List.append_nil _).symm, fun _ h => nomatch h⟩
  have hwritten : ∀ xml, ∃ pre,
      ((Writer.writeMetadata xml).run w.allocated).state.blocks = w.blocks ++ pre ∧
        ∀ b ∈ pre, b.group = groups.METADATA ∨ b.group = groups.INDEX := by
    intro xml
    have ⟨pre, hblocks, hpre⟩ := Writer.writeBlock_appends groups.METADATA [xml] w.allocated
    exact ⟨pre, hblocks, fun b hb => (hpre b hb).imp_left fun h => by rw [h]⟩
  cases h
  case known       => exact hnone
  case unsupported => exact hnone
  case undeclared  => exact hnone
  case failed es _ w' _ _ _ hrun =>
    have h := hwritten (Element.serializeAll 1 es)
    rwa [hrun, Result.state_error] at h
  case declared es w' _ _ _ hrun =>
    have h := hwritten (Element.serializeAll 1 es)
    rwa [hrun, Result.state_ok] at h

-- The kind of a handler is the one for the descriptors that were seen last.
def Consistent (s : AdvancedRecorderSignal) : Prop :=
  ∀ handler ∈ s.handler,
    HandlerKind.select s.lastValueDescriptor s.lastDomainDescriptor = .ok (some handler.kind)

theorem Consistent.prepared (h : s.Consistent) : (prepared packet s w).1.Consistent := by
  have hp := preparation packet s w
  generalize AdvancedRecorderSignal.prepared packet s w = x at hp ⊢
  cases hp
  case known                => exact h
  case declared hselect _ _ =>
    intro handler hhandler
    cases hhandler
    simpa [met] using hselect
  all_goals exact fun _ h => nomatch h

end AdvancedRecorderSignal
end AdvancedRecorder
