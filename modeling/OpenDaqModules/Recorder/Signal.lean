import OpenDaqModules.Recorder.Handlers.Can
import OpenDaqModules.Recorder.Handlers.ScalarLinear

namespace AdvancedRecorder

open Sie

inductive SignalHandler
  | scalarLinear (handler : ScalarLinearSignalHandler)
  | can (handler : CanSignalHandler)

-- The writer that a signal refers to is shared with others, so it is identified by a number.
structure AdvancedRecorderSignal where
  signal               : Signal
  writer               : ℕ
  testId               : UInt32
  lastValueDescriptor  : Option DataDescriptor := none
  lastDomainDescriptor : Option DataDescriptor := none
  handler              : Option SignalHandler  := none

namespace SignalHandler

variable [Host] [Crc32]

def onDataPacketReceived (handler : SignalHandler) (packet : DataPacket) :
    EStateM Error Writer Unit :=
  match handler with
  | .scalarLinear handler => handler.onDataPacketReceived packet
  | .can handler          => handler.onDataPacketReceived packet

-- The choice among the kinds of handlers.
def create (testId : UInt32) (signal : Signal)
    (valueDescriptor domainDescriptor : Option DataDescriptor) :
    EStateM Error Writer (Option SignalHandler) := do
  let scalarLinear ← MonadExcept.ofExcept <|
    ScalarLinearSignalHandler.supports valueDescriptor domainDescriptor
  if scalarLinear then
    let handler ← ScalarLinearSignalHandler.create testId signal valueDescriptor domainDescriptor
    return some (.scalarLinear handler)
  let can ← MonadExcept.ofExcept <| CanSignalHandler.supports valueDescriptor domainDescriptor
  if can then
    let handler ← CanSignalHandler.create testId valueDescriptor domainDescriptor
    return some (.can handler)
  return none

end SignalHandler

namespace AdvancedRecorderSignal

variable [Host] [Crc32]

-- The methods run on the signal together with the writer that it refers to.
def onDataPacketReceived (packet : DataPacket) :
    EStateM Error (AdvancedRecorderSignal × Writer) Unit := do
  let valueDescriptor := packet.dataDescriptor
  let domainDescriptor := packet.domainPacket.bind (·.dataDescriptor)
  let (s, _) ← get
  if valueDescriptor ≠ s.lastValueDescriptor ∨ domainDescriptor ≠ s.lastDomainDescriptor then
    modify fun (s, w) => ({ s with
      lastValueDescriptor  := valueDescriptor
      lastDomainDescriptor := domainDescriptor
      handler              := none }, w)
    try
      let handler ← EStateM.zoom Prod.snd (fun w (s, _) => (s, w))
        (SignalHandler.create s.testId s.signal valueDescriptor domainDescriptor)
      modify fun (s, w) => ({ s with handler }, w)
    catch _ =>
      modify fun (s, w) => ({ s with handler := none }, w)
  let (s, _) ← get
  if let some handler := s.handler then
    EStateM.zoom Prod.snd (fun w (s, _) => (s, w)) (handler.onDataPacketReceived packet)

def onPacketReceived (packet : Packet) : EStateM Error (AdvancedRecorderSignal × Writer) Unit :=
  match packet with
  | .data packet => onDataPacketReceived packet
  | .event       => return

end AdvancedRecorderSignal
end AdvancedRecorder
