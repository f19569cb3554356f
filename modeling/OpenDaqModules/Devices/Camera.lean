import OpenDaqModules.Devices.Packets

namespace CameraDevice

open Devices EStateM
open AdvancedRecorder (DataDescriptor)
open Sie (str)

structure CameraChannelImpl where
  outputDescriptor : Option DataDescriptor := none
  sent             : List DataPacket       := []

namespace CameraChannelImpl

-- The metadata says that the samples are JPEG images.
def configure (c : CameraChannelImpl) : CameraChannelImpl where
  __               := c
  outputDescriptor := some { name := str "Channel", sampleType := .binary }

-- How the calls of openDAQ end is up to the environment.
def addData (domainPacket : DomainPacket) (data : Bytes) (sampleCount : ℕ) (memory : Memory)
    (sending : Except Exception Unit) : EStateM Exception CameraChannelImpl Unit := do
  let c ← get
  let dataPacket := BinaryDataPacket domainPacket c.outputDescriptor sampleCount memory
  let rawData ← MonadExcept.ofExcept (memcpy dataPacket.rawData data sampleCount)
  MonadExcept.ofExcept sending
  set { c with sent := c.sent ++ [{ dataPacket with rawData }] }

end CameraChannelImpl

-- The channel is the one in this place.
structure VideoChannelInfo where
  cameraIndex : ℕ
  channel     : ℕ
  deriving DecidableEq

-- How often a thread has been joined. Until then it can be, also after its function has returned.
structure Thread where
  videoChannel         : VideoChannelInfo
  intervalMilliseconds : ℕ
  joins                : ℕ := 0
  deriving DecidableEq

def Thread.joinable (t : Thread) : Bool :=
  t.joins = 0

structure CameraDeviceImpl where
  started         : Bool                   := false
  sampleRate      : UInt32                 := 10000
  samplesCaptured : UInt64                 := 0
  timeDescriptor  : Option DataDescriptor  := none
  quitFlag        : Bool                   := false
  threads         : List Thread            := []
  videoChannels   : List VideoChannelInfo  := []
  channels        : List CameraChannelImpl := []

namespace CameraDeviceImpl

abbrev Action :=
  EStateM Exception CameraDeviceImpl

def onChannel (channel : ℕ) (method : EStateM Exception CameraChannelImpl Unit) : Action Unit := do
  let d ← get
  match d.channels[channel]? with
  | none   => return
  | some c =>
    match method.run c with
    | .ok _ c    => set { d with channels := d.channels.set channel c }
    | .error e c =>
      set { d with channels := d.channels.set channel c }
      throw e

-- What is thrown is thrown again.
def addData (channel : ℕ) (data : Bytes) (sampleCount : ℕ) (memory : Memory)
    (sending : Except Exception Unit) : Action Unit :=
  tryCatch (do
    let d ← get
    let domainPacket : DomainPacket := ⟨d.timeDescriptor, sampleCount, d.samplesCaptured.toInt64⟩
    onChannel channel (CameraChannelImpl.addData domainPacket data sampleCount memory sending)
    modify fun d => { d with samplesCaptured := d.samplesCaptured + UInt64.ofNat sampleCount })
    throw

-- What the camera and the environment make of a turn of the thread.
structure Frame where
  empty    : Bool                  := false
  encoding : Bytes
  memory   : Memory                := fun _ => 0
  sending  : Except Exception Unit := .ok ()

-- After these frames the quit flag is set.
def captureFrames (channel : ℕ) : List Frame → Action Unit
  | []              => return
  | frame :: frames => do
    if frame.empty then return
    addData channel frame.encoding frame.encoding.length frame.memory frame.sending
    captureFrames channel frames

def cameraDataThreadFunction (channel : ℕ) (isOpened : Bool) (frames : List Frame) : Action Unit := do
  if ¬isOpened then return
  captureFrames channel frames

def readProperties (sampleRate : Int64) : Action Unit :=
  modify fun d => { d with sampleRate := sampleRate.toUInt64.toUInt32 }

def createCameraChannels (cameras : List ℕ) : Action Unit :=
  cameras.forM fun cameraIndex => modify fun d => { d with
    videoChannels := d.videoChannels ++ [⟨cameraIndex, d.channels.length⟩]
    channels      := d.channels ++ [{}] }

def configure : Action Unit := do
  (← get).videoChannels.forM fun element => modify fun d => { d with
    channels := d.channels.modify element.channel CameraChannelImpl.configure }
  modify fun d => { d with timeDescriptor := some Devices.timeDescriptor }

-- There is no integer for the period of a rate of zero.
def intervalTime (sampleRate : UInt32) : Except Exception ℕ :=
  if sampleRate = 0 then .error .undefinedBehaviour else .ok (1000 / sampleRate.toNat)

-- openDAQ and the operating system do what is asked of them.
def start : Action Unit := do
  if (← get).started then return
  configure
  let intervalTime ← MonadExcept.ofExcept (intervalTime (← get).sampleRate)
  modify fun d => { d with quitFlag := d.started }
  modify fun d => { d with threads := d.threads ++ d.videoChannels.map fun element =>
    { videoChannel := element, intervalMilliseconds := intervalTime } }
  modify fun d => { d with started := true }

-- With the quit flag set, the function of the thread returns in the end.
def join (i : ℕ) : Action Unit := do
  let d ← get
  match d.threads[i]? with
  | none   => return
  | some t =>
    set { d with threads := d.threads.set i { t with joins := t.joins + 1 } }
    if ¬t.joinable then throw .systemError

def stop : Action Unit := do
  if ¬(← get).started then return
  modify fun d => { d with quitFlag := d.started }
  (List.range (← get).threads.length).forM join
  modify fun d => { d with started := false }

def propertyChanged (sampleRate : Int64) : Action Unit := do
  stop
  readProperties sampleRate
  start

-- The constructor.
def construct (cameras : List ℕ) : Action Unit := do
  readProperties 10
  createCameraChannels cameras
  start

def create (cameras : List ℕ) : CameraDeviceImpl :=
  ((construct cameras).run {}).state

inductive Event
  | start
  | stop
  | propertyChanged (sampleRate : Int64)

def Event.step : Event → Action Unit
  | .start                      => CameraDeviceImpl.start
  | .stop                       => CameraDeviceImpl.stop
  | .propertyChanged sampleRate => CameraDeviceImpl.propertyChanged sampleRate

end CameraDeviceImpl
end CameraDevice
