import OpenDaqModules.Recorder.Packets

namespace AdvancedRecorder

open Sie Xml EStateM

variable [Host] {group decoderId channelId testId : UInt32}
  {uuid : Bytes} {signal : Signal} {valueDescriptor domainDescriptor : Option DataDescriptor}

-- Whether a channel can be declared does not depend on the identifiers in its declaration.
theorem ScalarLinearSignalHandler.elements_ok
    (h : elements group decoderId channelId testId uuid signal valueDescriptor domainDescriptor =
      .ok es) (group' decoderId' channelId' testId' : UInt32) (uuid' : Bytes) (signal' : Signal) :
    ∃ es', elements group' decoderId' channelId' testId' uuid' signal' valueDescriptor
      domainDescriptor = .ok es' := by
  simp only [elements, Except.bind_eq_ok] at h ⊢
  obtain ⟨_, h₁, _, h₂, _, h₃, _, h₄, _, h₅, _, h₆, _, h₇, _, h₈, _, h₉, _⟩ := h
  exact ⟨_, _, h₁, _, h₂, _, h₃, _, h₄, _, h₅, _, h₆, _, h₇, _, h₈, _, h₉, rfl⟩

theorem CanSignalHandler.fieldElements_ok {fields : List StructField}
    (h : fieldElements decoderId dimIndex fields = .ok es) (decoderId' : UInt32) :
    ∃ es', fieldElements decoderId' dimIndex fields = .ok es' := by
  induction fields generalizing dimIndex es
  case nil => exact ⟨[], rfl⟩
  case cons field fields ih =>
    simp only [fieldElements, Except.bind_eq_ok] at h ⊢
    obtain ⟨read, hread, later, hlater, _⟩ := h
    have ⟨later', hlater'⟩ := ih hlater
    exact ⟨_, read, hread, later', hlater', rfl⟩

theorem CanSignalHandler.elements_ok
    (h : elements group decoderId channelId testId valueDescriptor domainDescriptor = .ok es)
    (group' decoderId' channelId' testId' : UInt32) :
    ∃ es', elements group' decoderId' channelId' testId' valueDescriptor domainDescriptor =
      .ok es' := by
  simp only [elements, Except.bind_eq_ok] at h ⊢
  obtain ⟨_, hdomain, _, hvalue, _, htype, _, hfields, _⟩ := h
  have ⟨_, hfields'⟩ := fieldElements_ok hfields decoderId'
  exact ⟨_, _, hdomain, _, hvalue, _, htype, _, hfields', rfl⟩

namespace HandlerKind

theorem elements_ok {kind : HandlerKind}
    (h : kind.elements group decoderId channelId testId uuid signal valueDescriptor domainDescriptor =
      .ok es) (group' decoderId' channelId' testId' : UInt32) (uuid' : Bytes) (signal' : Signal) :
    ∃ es', kind.elements group' decoderId' channelId' testId' uuid' signal' valueDescriptor
      domainDescriptor = .ok es' := by
  cases kind
  case scalarLinear => exact ScalarLinearSignalHandler.elements_ok h _ _ _ _ uuid' signal'
  case can          => exact CanSignalHandler.elements_ok h _ _ _ _

-- The kind of handler that a signal with these descriptors has, unless its channel cannot be
-- declared.
def role (valueDescriptor domainDescriptor : Option DataDescriptor) : Option HandlerKind :=
  match select valueDescriptor domainDescriptor with
  | .ok (some kind) =>
    let signal : Signal := { globalId := [], description := [] }
    match kind.elements 0 0 0 0 [] signal valueDescriptor domainDescriptor with
    | .ok _    => some kind
    | .error _ => none
  | _ => none

theorem role_of_select (h : ∀ kind, select valueDescriptor domainDescriptor ≠ .ok (some kind)) :
    role valueDescriptor domainDescriptor = none := by
  rw [role]
  split
  case h_1 kind hkind => exact absurd hkind (h kind)
  case h_2            => rfl

theorem role_of_ok {kind : HandlerKind}
    (hselect : select valueDescriptor domainDescriptor = .ok (some kind))
    (h : kind.elements group decoderId channelId testId uuid signal valueDescriptor domainDescriptor =
      .ok es) : role valueDescriptor domainDescriptor = some kind := by
  rw [role, hselect]
  dsimp only
  split
  case h_1 => rfl
  case h_2 hother =>
    have ⟨_, hother'⟩ := elements_ok h 0 0 0 0 [] { globalId := [], description := [] }
    exact nomatch hother.symm.trans hother'

theorem role_of_error {kind : HandlerKind}
    (hselect : select valueDescriptor domainDescriptor = .ok (some kind))
    (h : kind.elements group decoderId channelId testId uuid signal valueDescriptor domainDescriptor =
      .error e) : role valueDescriptor domainDescriptor = none := by
  rw [role, hselect]
  dsimp only
  split
  case h_2 => rfl
  case h_1 hother =>
    have ⟨_, hother'⟩ := elements_ok hother group decoderId channelId testId uuid signal
    exact nomatch h.symm.trans hother'

end HandlerKind

namespace AdvancedRecorderSignal

-- The handler of a signal is one of the kind that its descriptors ask for.
def Playing (s : AdvancedRecorderSignal) : Prop :=
  s.handler.map SignalHandler.kind = HandlerKind.role s.lastValueDescriptor s.lastDomainDescriptor

variable {s : AdvancedRecorderSignal} {w : Writer} {packet : DataPacket} [Crc32]

theorem Playing.prepared (h : s.Playing) (hio : (prepared packet s w).2.file.AllComplete) :
    (prepared packet s w).1.Playing := by
  have hp := preparation packet s w
  generalize AdvancedRecorderSignal.prepared packet s w = x at hp hio ⊢
  cases hp
  case known => exact h
  case unsupported hselect => exact (HandlerKind.role_of_select hselect).symm
  case undeclared hselect hdeclared => exact (HandlerKind.role_of_error hselect hdeclared).symm
  case declared kind _ _ _ hselect hdeclared _ =>
    have hrole := HandlerKind.role_of_ok hselect hdeclared
    rw [Playing, met, Option.map_some, SignalHandler.kind_handler]
    exact hrole.symm
  case failed hrun => exact absurd hrun (Writer.writeBlock_ne_error hio)

omit [Crc32] in
-- What such a handler writes depends on nothing but the packet.
theorem Playing.request (h : s.Playing) (hknows : s.Knows packet) :
    (s.request packet).map Prod.snd =
      (HandlerKind.role packet.dataDescriptor packet.domainDescriptor).bind
        fun kind => kind.segments packet := by
  rw [hknows.left, hknows.right, ← h, AdvancedRecorderSignal.request]
  cases s.handler
  case none         => rfl
  case some handler => cases hargs : handler.kind.segments packet <;> simp [hargs]

end AdvancedRecorderSignal
end AdvancedRecorder
