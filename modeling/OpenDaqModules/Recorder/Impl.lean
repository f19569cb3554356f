import OpenDaqModules.Recorder.Signal

namespace AdvancedRecorder

open Sie Xml

-- What connects a signal to a port: a queue of packets.
structure Connection where
  signal : Signal
  queue  : List Packet := []

-- Ports are objects, and `id` is the identity of one.
structure InputPort where
  id         : ℕ
  name       : Bytes
  connection : Option Connection := none

-- What the operating system makes of an attempt to open a file: a file with the outcomes of the
-- writes to it, or an error. The random numbers that go into a file come with it.
inductive OpenOutcome
  | opened (schedule : List Outcome) (uuids : ℕ → Bytes)
  | failed

def OpenOutcome.succeeds : OpenOutcome → Bool
  | .opened .. => true
  | .failed    => false

-- A recorder, with all writers that it has ever made. A writer stays there when the file is closed
-- and the object is gone. The `n`-th attempt to open a file has the outcome `disk n`. Each file that
-- is opened starts empty; if its name was used before, it takes the place of the earlier one.
structure AdvancedRecorderImpl where
  active          : Bool                                := true
  filename        : Bytes                               := []
  recordingActive : Bool                                := false
  writer          : Option ℕ                            := none
  signals         : List (ℕ × AdvancedRecorderSignal)   := []
  portCount       : ℕ                                   := 0
  ports           : List InputPort                      := []
  nextPort        : ℕ                                   := 0
  writers         : List Writer                         := []
  attempts        : List Bytes                          := []
  disk            : ℕ → OpenOutcome

namespace AdvancedRecorderImpl

def connection (r : AdvancedRecorderImpl) (port : ℕ) : Option Connection :=
  (r.ports.find? (·.id = port)).bind InputPort.connection

def setConnection (port : ℕ) (connection : Option Connection) (r : AdvancedRecorderImpl) :
    AdvancedRecorderImpl where
  __ := r
  ports := r.ports.map fun p => if p.id = port then { p with connection } else p

def createAndAddInputPort (name : Bytes) : EStateM Error AdvancedRecorderImpl Unit := do
  if (← get).ports.any (·.name = name) then
    throw .alreadyExists
  else
    modify fun r => { r with
      ports    := r.ports ++ [{ id := r.nextPort, name }]
      nextPort := r.nextPort + 1 }

def addInputPort : EStateM Error AdvancedRecorderImpl Unit := do
  modify fun r => { r with portCount := r.portCount + 1 }
  createAndAddInputPort (str "Value" ++ Decimal.ofNat (← get).portCount)

def getItemAt (ports : List InputPort) (index : ℕ) : Except Error InputPort :=
  match ports[index]? with
  | some port => .ok port
  | none      => .error .outOfRange

def removeInputPort (port : InputPort) (r : AdvancedRecorderImpl) : AdvancedRecorderImpl where
  __ := r
  ports := r.ports.filter (·.id ≠ port.id)

-- Removes ports from the end as long as the last two are free. The argument is `portCount`.
def trimInputPorts : ℕ → EStateM Error AdvancedRecorderImpl Unit
  | count + 2 => do
    let ports := (← get).ports
    let last ← MonadExcept.ofExcept (getItemAt ports (count + 1))
    unless last.connection.isSome do
      let previous ← MonadExcept.ofExcept (getItemAt ports count)
      unless previous.connection.isSome do
        modify fun r => { r with portCount := count + 1 }
        let port ← MonadExcept.ofExcept (getItemAt ports (count + 1))
        modify (removeInputPort port)
        trimInputPorts (count + 1)
  | _ => return

-- The constructor of `hbk::sie::writer` with the layers below it.
def openWriter (filename : Bytes) : EStateM Error AdvancedRecorderImpl ℕ := do
  let r ← get
  set { r with attempts := r.attempts ++ [filename] }
  match r.disk r.attempts.length with
  | .failed                => throw (.system "failed to open file")
  | .opened schedule uuids =>
    modify fun r => { r with
      writers := r.writers ++ [{ writer := IndexedWriter.create schedule, uuids }] }
    return r.writers.length

-- Runs a method of a writer.
def onWriter (writer : ℕ) (method : EStateM Error Writer α) : EStateM Error AdvancedRecorderImpl α :=
  fun r =>
    match r.writers[writer]? with
    | none   => .error .notAssigned r
    | some w =>
      match method.run w with
      | .ok a w    => .ok a { r with writers := r.writers.set writer w }
      | .error e w => .error e { r with writers := r.writers.set writer w }

-- Runs a method of the signal of a port together with its writer, if there is such a signal.
def onSignal (port : ℕ) (method : EStateM Error (AdvancedRecorderSignal × Writer) Unit) :
    EStateM Error AdvancedRecorderImpl Unit := fun r =>
  match r.signals.lookup port with
  | none   => .ok () r
  | some s =>
    match r.writers[s.writer]? with
    | none   => .error .notAssigned r
    | some w =>
      let update (s' : AdvancedRecorderSignal) (w' : Writer) : AdvancedRecorderImpl := { r with
        signals := r.signals.map fun x => if x.1 = port then (port, s') else x
        writers := r.writers.set s.writer w' }
      match method.run (s, w) with
      | .ok _ (s', w')    => .ok () (update s' w')
      | .error e (s', w') => .error e (update s' w')

-- The first pass of `reconfigure` over a port: a connected one needs a signal.
def emplaceSignal (writer : ℕ) (signals : List (ℕ × AdvancedRecorderSignal)) (port : InputPort) :
    List (ℕ × AdvancedRecorderSignal) :=
  match port.connection with
  | none            => signals
  | some connection =>
    if (signals.lookup port.id).isSome then signals
    else signals ++ [(port.id, { signal := connection.signal, writer, testId := 0 })]

-- The ports that have a signal after the first pass, the others lose theirs in the second one.
def connectedPorts (r : AdvancedRecorderImpl) : List ℕ :=
  (r.ports.filter (·.connection.isSome)).map InputPort.id

def updateSignals (writer : ℕ) (r : AdvancedRecorderImpl) : AdvancedRecorderImpl where
  __ := r
  signals := (r.ports.foldl (emplaceSignal writer) r.signals).filter (·.1 ∈ r.connectedPorts)

variable [Crc32]

def preamble : Bytes :=
  let test := ({ name := str "test" } : Element)
    |>.addAttribute (str "id") (Decimal.ofNat 0)
  PREAMBLE ++ test.serialize 1

-- The output file is opened and initialized, unless that was done before.
def openedWriter (filename : Bytes) : EStateM Error AdvancedRecorderImpl ℕ := do
  match (← get).writer with
  | some writer => return writer
  | none        =>
    let writer ← openWriter filename
    modify fun r => { r with writer := some writer }
    onWriter writer (Writer.writeMetadata preamble)
    return writer

-- The signals are gone when the recorder lets go of the writer, so nobody else holds it.
def resetWriter : EStateM Error AdvancedRecorderImpl Unit := do
  let writer := (← get).writer
  modify fun r => { r with writer := none }
  if let some writer := writer then
    onWriter writer
      (EStateM.zoom Writer.writer (fun v w => { w with writer := v }) IndexedWriter.destroy)

def reconfigure : EStateM Error AdvancedRecorderImpl Unit := do
  let filename := (← get).filename
  if (← get).recordingActive then
    let writer ← openedWriter filename
    modify (updateSignals writer)
  else
    modify fun r => { r with signals := [] }
    resetWriter

def startRecording : EStateM Error AdvancedRecorderImpl Unit := do
  modify fun r => { r with recordingActive := true }
  reconfigure

def stopRecording : EStateM Error AdvancedRecorderImpl Unit := do
  modify fun r => { r with recordingActive := false }
  reconfigure

def getIsRecording (r : AdvancedRecorderImpl) : Bool :=
  r.recordingActive

def onConnected : EStateM Error AdvancedRecorderImpl Unit := do
  addInputPort
  reconfigure

def onDisconnected : EStateM Error AdvancedRecorderImpl Unit := do
  trimInputPorts (← get).portCount
  reconfigure

def activeChanged : EStateM Error AdvancedRecorderImpl Unit := do
  unless (← get).active do
    stopRecording

variable [Host]

-- Takes the packets out of the queue one after another. An exception leaves the rest there.
def recordQueue (port : ℕ) (signal : Signal) : List Packet → EStateM Error AdvancedRecorderImpl Unit
  | []              => return
  | packet :: queue => do
    modify (setConnection port (some { signal, queue }))
    onSignal port (AdvancedRecorderSignal.onPacketReceived packet)
    recordQueue port signal queue

def onPacketReceived (port : ℕ) : EStateM Error AdvancedRecorderImpl Unit := do
  if let some connection := (← get).connection port then
    recordQueue port connection.signal connection.queue

-- What happens to a recorder.
inductive Event
  | startRecording
  | stopRecording
  | activeChanged (active : Bool)
  | writeFilename (filename : Bytes)
  | connect (port : ℕ) (signal : Signal)
  | disconnect (port : ℕ)
  | packet (port : ℕ) (packet : Packet)

-- A port tells the recorder about a signal after it was connected, in place of another one if there
-- was one, and after it was disconnected.
def exec : Event → EStateM Error AdvancedRecorderImpl Unit
  | .startRecording         => startRecording
  | .stopRecording          => stopRecording
  | .activeChanged active   => do
    modify fun r => { r with active }
    activeChanged
  | .writeFilename filename => do
    modify fun r => { r with filename }
    reconfigure
  | .connect port signal    => do
    if (← get).ports.any (·.id = port) then
      modify (setConnection port (some { signal }))
      onConnected
  | .disconnect port        => do
    if ((← get).connection port).isSome then
      modify (setConnection port none)
      onDisconnected
  | .packet port packet     => do
    if let some connection := (← get).connection port then
      modify (setConnection port (some { connection with queue := connection.queue ++ [packet] }))
      onPacketReceived port

-- A new recorder has one port.
def create (disk : ℕ → OpenOutcome) : AdvancedRecorderImpl :=
  (addInputPort.run { disk }).state

end AdvancedRecorderImpl
end AdvancedRecorder
