import OpenDaqModules.Recorder.Steps

namespace AdvancedRecorder

open Sie EStateM

namespace AdvancedRecorderImpl

-- What users of a recorder do to it, for any way to reconfigure it.
def control (reconfigure : EStateM Error AdvancedRecorderImpl Unit) :
    Event → EStateM Error AdvancedRecorderImpl Unit
  | .startRecording         => do
    modify fun r => { r with recordingActive := true }
    reconfigure
  | .stopRecording          => do
    modify fun r => { r with recordingActive := false }
    reconfigure
  | .activeChanged active   => do
    modify fun r => { r with active }
    unless (← get).active do
      modify fun r => { r with recordingActive := false }
      reconfigure
  | .writeFilename filename => do
    modify fun r => { r with filename }
    reconfigure
  | .connect port signal    => do
    if (← get).ports.any (·.id = port) then
      modify (setConnection port (some { signal }))
      addInputPort
      reconfigure
  | .disconnect port        => do
    if ((← get).connection port).isSome then
      modify (setConnection port none)
      trimInputPorts (← get).portCount
      reconfigure
  | .packet ..              => return

variable [Crc32]

-- The reset of a pointer to a writer that someone else may hold as well: then the file stays open.
def resetSharedWriter (held : Option ℕ) : EStateM Error AdvancedRecorderImpl Unit := do
  let writer := (← get).writer
  modify fun r => { r with writer := none }
  if let some writer := writer then
    unless held = some writer do
      onWriter writer
        (EStateM.zoom Writer.writer (fun v w => { w with writer := v }) IndexedWriter.destroy)

def reconfigureShared (held : Option ℕ) : EStateM Error AdvancedRecorderImpl Unit := do
  let filename := (← get).filename
  if (← get).recordingActive then
    let writer ← openedWriter filename
    modify (updateSignals writer)
  else
    modify fun r => { r with signals := [] }
    resetSharedWriter held

-- The recorder or one of its signals holds a writer.
def holds (r : AdvancedRecorderImpl) (writer : ℕ) : Bool :=
  r.writer = some writer ∨ r.signals.any (·.2.writer = writer)

-- Someone who held a signal lets go of it.
def release (s : AdvancedRecorderSignal) (r : AdvancedRecorderImpl) : AdvancedRecorderImpl :=
  if r.holds s.writer then r
  else { r with writers := r.writers.modify s.writer closeWriter }

end AdvancedRecorderImpl

open AdvancedRecorderImpl

-- The signal that a call of `onPacketReceived` has looked up. It is in the map of the recorder too,
-- or nobody else holds it anymore.
inductive Held
  | shared
  | alone (signal : AdvancedRecorderSignal)

namespace Held

def signal (port : ℕ) (r : AdvancedRecorderImpl) : Held → Option AdvancedRecorderSignal
  | .shared  => r.signals.lookup port
  | .alone s => some s

-- What is left of it after an event. A signal that leaves the map does not come back to it in the
-- same event.
def overtaken (port : ℕ) (r r' : AdvancedRecorderImpl) (held : Held) : Option Held :=
  match held with
  | .alone s => some (.alone s)
  | .shared  =>
    if (r'.signals.lookup port).isSome then some .shared
    else (r.signals.lookup port).map .alone

end Held

-- How far a call has got: it looks up the signal, then it takes the packet from the connection, and
-- then it hands the packet to the signal.
inductive Phase
  | entered
  | found
  | dequeued

-- A packet waits in the connection until the call has taken it. When the port loses the connection,
-- the packet is gone with it.
structure Call where
  port   : ℕ
  packet : Option Packet
  phase  : Phase       := .entered
  held   : Option Held := none

-- A recorder, and the call that the thread which acquires the data is in.
structure Threaded where
  impl : AdvancedRecorderImpl
  call : Option Call := none

def AdvancedRecorderImpl.Event.isPacket : Event → Bool
  | .packet .. => true
  | _          => false

namespace Call

-- A user connects the port to another signal, or disconnects it.
def Severed (c : Call) : Event → Prop
  | .connect port _  => port = c.port
  | .disconnect port => port = c.port
  | _                => False

instance {c : Call} : DecidablePred c.Severed := by
  intro e
  cases e <;> unfold Severed <;> infer_instance

-- The writer that stays open because of the call.
def writer (c : Call) (r : AdvancedRecorderImpl) : Option ℕ :=
  (c.held.bind (·.signal c.port r)).map (·.writer)

-- What a call still holds and waits for after an event.
def overtaken (c : Call) (e : Event) (r r' : AdvancedRecorderImpl) : Call where
  __ := c
  held   := c.held.bind (·.overtaken c.port r r')
  packet :=
    match c.phase with
    | .dequeued => c.packet
    | _         => if c.Severed e then none else c.packet

end Call

namespace Threaded

variable [Crc32]

-- The locks of a recorder let nothing else happen to it meanwhile.
def control (e : Event) (t : Threaded) : Threaded :=
  let held := t.call.bind (·.writer t.impl)
  let impl := ((AdvancedRecorderImpl.control (reconfigureShared held) e).run t.impl).state
  { impl, call := t.call.map (·.overtaken e t.impl impl) }

variable [Host]

def deliver (packet : Packet) (c : Call) (r : AdvancedRecorderImpl) : Threaded :=
  match c.held with
  | none            => { impl := r, call := some { c with packet := none } }
  | some .shared    => {
      impl := ((onSignal c.port (AdvancedRecorderSignal.onPacketReceived packet)).run r).state
      call := some { c with packet := none } }
  | some (.alone s) =>
    match r.writers[s.writer]? with
    | none   => { impl := r, call := some { c with packet := none } }
    | some w =>
      let (s', w') := ((AdvancedRecorderSignal.onPacketReceived packet).run (s, w)).state
      { impl := { r with writers := r.writers.set s.writer w' }
        call := some { c with packet := none, held := some (.alone s') } }

-- The next thing that a call does.
def proceed (c : Call) (r : AdvancedRecorderImpl) : Threaded :=
  match c.phase, c.packet with
  | .entered, _            =>
    let held := (r.signals.lookup c.port).map fun _ => Held.shared
    { impl := r, call := some { c with phase := .found, held } }
  | .found, _              => { impl := r, call := some { c with phase := .dequeued } }
  | .dequeued, some packet => deliver packet c r
  | .dequeued, none        =>
    match c.held with
    | some (.alone s) => { impl := r.release s }
    | _               => { impl := r }

inductive Action
  | event (e : Event)
  | proceed

def Action.event? : Action → Option Event
  | .event e => some e
  | .proceed => none

-- The thread that brings the packets waits for the call that it is in.
def step : Action → Threaded → Threaded
  | .event (.packet port packet), t =>
    match t.call with
    | some _ => t
    | none   =>
      if (t.impl.connection port).isSome then { t with call := some { port, packet := some packet } }
      else t
  | .event e, t => t.control e
  | .proceed, t =>
    match t.call with
    | some c => Threaded.proceed c t.impl
    | none   => t

-- What has happened to a recorder, in front of the point where the current call looked up its signal
-- and behind it.
structure History where
  before : List Event := []
  since  : List Event := []

namespace History

def happened (e : Event) (call : Option Call) (h : History) : History :=
  match call.map Call.phase with
  | none | some .entered => { h with before := h.before ++ [e] }
  | _                    => { h with since := h.since ++ [e] }

-- A packet is put where the call looked up the signal, if the call finds the packet.
def proceeded (c : Call) (h : History) : History :=
  match c.phase, c.packet with
  | .found, some packet => { h with before := h.before ++ [.packet c.port packet] }
  | .dequeued, none     => { before := h.before ++ h.since }
  | _, _                => h

def add (a : Action) (t : Threaded) (h : History) : History :=
  match a with
  | .event (.packet ..) => h
  | .event e            => h.happened e t.call
  | .proceed            => t.call.elim h fun c => h.proceeded c

end History

-- The packet that waits in a connection.
def waiting (t : Threaded) : List Event :=
  match t.call with
  | none   => []
  | some c =>
    match c.phase with
    | .dequeued => []
    | _         => c.packet.toList.map (.packet c.port)

def observed (disk : ℕ → OpenOutcome) (actions : List Action) : Threaded × History :=
  actions.foldl (fun (t, h) a => (step a t, h.add a t)) ({ impl := create disk }, {})

end Threaded
end AdvancedRecorder
