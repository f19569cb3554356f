import OpenDaqModules.Devices.Camera
import OpenDaqModules.Library.Stamps

namespace CameraDevice.CameraDeviceImpl

open EStateM Devices Stamps
open AdvancedRecorder (DataDescriptor)

variable {d : CameraDeviceImpl} {c : CameraChannelImpl} {channel : ℕ} {isOpened : Bool}
variable {frame : Frame} {frames : List Frame}

def Frame.isSent (frame : Frame) : Bool :=
  !frame.empty && frame.sending.isOk

-- The thread ends with the first frame that is empty or cannot be sent.
def sentFrames (isOpened : Bool) (frames : List Frame) : List Frame :=
  if isOpened then frames.takeWhile Frame.isSent else []

def sent (channel : ℕ) (d : CameraDeviceImpl) : List DataPacket :=
  (d.channels[channel]?.map (·.sent)).getD []

-- What the thread of the camera adds to that.
def sentBy (channel : ℕ) (isOpened : Bool) (frames : List Frame) (d : CameraDeviceImpl) :
    List DataPacket :=
  (sent channel ((cameraDataThreadFunction channel isOpened frames).run d).state).drop
    (sent channel d).length

-- The packets of two runs with the same numbers have the same times, and these are as many as there
-- are values.
structure SameTimes (packets packets' : List DataPacket) : Prop where
  offset      : ∀ {k : ℕ} {p p' : DataPacket}, packets[k]? = some p → packets'[k]? = some p' →
    p.domainPacket.offset = p'.domainPacket.offset
  sampleCount : ∀ {k : ℕ} {p p' : DataPacket}, packets[k]? = some p → packets'[k]? = some p' →
    p.domainPacket.sampleCount = p'.domainPacket.sampleCount
  values      : ∀ p ∈ packets ++ packets', p.domainPacket.sampleCount = p.sampleCount

def packet (timeDescriptor outputDescriptor : Option DataDescriptor) (samplesCaptured : UInt64)
    (frame : Frame) : DataPacket where
  dataDescriptor := outputDescriptor
  domainPacket   := ⟨timeDescriptor, frame.encoding.length, samplesCaptured.toInt64⟩
  sampleCount    := 1
  rawData        := frame.encoding

def advance (samplesCaptured : UInt64) (frame : Frame) : UInt64 :=
  samplesCaptured + UInt64.ofNat frame.encoding.length

theorem memcpy_self {dest src : Bytes} (h : dest.length = src.length) :
    memcpy dest src src.length = .ok src := by
  rw [memcpy, if_neg (by omega), List.take_length, List.drop_of_length_le (by omega), List.append_nil]

theorem addData_channel_run {domainPacket : DomainPacket} {data : Bytes} {memory : Memory}
    {sending : Except Exception Unit} :
    (CameraChannelImpl.addData domainPacket data data.length memory sending).run c =
      match sending with
      | .ok _    => .ok () { c with sent := c.sent ++ [⟨c.outputDescriptor, domainPacket, 1, data⟩] }
      | .error e => .error e c := by
  have hmemcpy : memcpy (allocate memory data.length) data data.length = .ok data :=
    memcpy_self length_allocate
  cases sending
  all_goals
    simp [CameraChannelImpl.addData, BinaryDataPacket, hmemcpy]

theorem addData_run (hc : d.channels[channel]? = some c) (hsending : frame.sending = .ok ()) :
    (addData channel frame.encoding frame.encoding.length frame.memory frame.sending).run d =
      .ok () { d with
        samplesCaptured := advance d.samplesCaptured frame
        channels        := d.channels.set channel { c with
          sent := c.sent ++ [packet d.timeDescriptor c.outputDescriptor d.samplesCaptured frame] } } := by
  rw [addData, tryCatch_run]
  simp [onChannel, hc, addData_channel_run, hsending, advance, packet]

theorem addData_throws {e : Exception} (hc : d.channels[channel]? = some c)
    (hsending : frame.sending = .error e) :
    (addData channel frame.encoding frame.encoding.length frame.memory frame.sending).run d =
      .error e { d with channels := d.channels.set channel c } := by
  rw [addData, tryCatch_run]
  simp [onChannel, hc, addData_channel_run, hsending]

theorem captureFrames_sent (hc : d.channels[channel]? = some c) :
    ((captureFrames channel frames).run d).state.channels[channel]? = some { c with
      sent := c.sent ++ (stamped advance d.samplesCaptured (frames.takeWhile Frame.isSent)).map
        fun s => packet d.timeDescriptor c.outputDescriptor s.1 s.2 } := by
  have hchannel : channel < d.channels.length := (List.getElem?_eq_some_iff.mp hc).1
  induction frames generalizing d c
  case nil => simpa [captureFrames] using hc
  case cons frame frames ih =>
    cases hempty : frame.empty
    case true => simpa [captureFrames, hempty, Frame.isSent] using hc
    case false =>
      cases hsending : frame.sending
      case error e =>
        have hsent : frame.isSent = false := by simp [Frame.isSent, hsending, Except.isOk, Except.toBool]
        simp [captureFrames, hempty, addData_throws hc hsending, hsent, hchannel]
      case ok =>
        have hsent : frame.isSent = true := by
          simp [Frame.isSent, hempty, hsending, Except.isOk, Except.toBool]
        have hrun := addData_run hc hsending
        have hrest : ((captureFrames channel (frame :: frames)).run d).state =
            ((captureFrames channel frames).run
              ((addData channel frame.encoding frame.encoding.length frame.memory frame.sending).run
                d).state).state := by
          simp [captureFrames, hempty, hrun]
        rw [hrest, hrun, Result.state_ok, ih (List.getElem?_set_self hchannel)]
        · simp [hsent]
        · simpa using hchannel

theorem sentBy_eq (hc : d.channels[channel]? = some c) : sentBy channel isOpened frames d =
    (stamped advance d.samplesCaptured (sentFrames isOpened frames)).map
      fun s => packet d.timeDescriptor c.outputDescriptor s.1 s.2 := by
  rw [sentBy, cameraDataThreadFunction, sentFrames]
  cases isOpened
  case false => simp
  case true  => simp [sent, hc, captureFrames_sent hc]

-- After frames of one byte each the counter has counted the frames.
theorem foldl_advance {samplesCaptured : UInt64} (h : ∀ frame ∈ frames, frame.encoding.length = 1) :
    frames.foldl advance samplesCaptured =
      (List.replicate frames.length 1).foldl (fun n l => n + UInt64.ofNat l) samplesCaptured := by
  have hlengths : frames.map (·.encoding.length) = List.replicate frames.length 1 := by
    rw [List.eq_replicate_iff, List.length_map]
    exact ⟨rfl, List.forall_mem_map.mpr h⟩
  rw [← hlengths, List.foldl_map]
  rfl

theorem getElem?_sentBy (isOpened : Bool) (frames : List Frame) (k : ℕ)
    (hc : d.channels[channel]? = some c) :
    (sentBy channel isOpened frames d)[k]? = (sentFrames isOpened frames)[k]?.map
      (packet d.timeDescriptor c.outputDescriptor
        (((sentFrames isOpened frames).take k).foldl advance d.samplesCaptured)) := by
  rw [sentBy_eq hc, List.getElem?_map, getElem?_stamped, Option.map_map]
  rfl

theorem offset_of_getElem? {k : ℕ} {p : DataPacket} (hc : d.channels[channel]? = some c)
    (hone : ∀ frame ∈ sentFrames isOpened frames, frame.encoding.length = 1)
    (hp : (sentBy channel isOpened frames d)[k]? = some p) : p.domainPacket.offset =
      ((List.replicate k 1).foldl (fun n l => n + UInt64.ofNat l) d.samplesCaptured).toInt64 := by
  rw [getElem?_sentBy isOpened frames k hc] at hp
  obtain ⟨frame, hframe, rfl⟩ := Option.map_eq_some_iff.mp hp
  have hk : k < (sentFrames isOpened frames).length := (List.getElem?_eq_some_iff.mp hframe).1
  rw [packet, foldl_advance fun frame hframe => hone frame (List.mem_of_mem_take hframe),
    List.length_take, Nat.min_eq_left hk.le]

theorem sampleCount_eq_one (hc : d.channels[channel]? = some c) :
    ∀ p ∈ sentBy channel isOpened frames d, p.sampleCount = 1 := by
  rw [sentBy_eq hc]
  exact List.forall_mem_map.mpr fun _ _ => rfl

-- A packet has as many times as its frame has bytes, and a single value.
theorem values_iff (hc : d.channels[channel]? = some c) :
    (∀ p ∈ sentBy channel isOpened frames d, p.domainPacket.sampleCount = p.sampleCount) ↔
      ∀ frame ∈ sentFrames isOpened frames, frame.encoding.length = 1 := by
  rw [sentBy_eq hc, List.forall_mem_map]
  exact forall_mem_stamped (P := fun frame : Frame => frame.encoding.length = 1)

-- The times of two runs from the same state are the same, and one for each value, if and only if no
-- frame that is sent has more or less than one byte.
theorem sameTimes_iff (d : CameraDeviceImpl) (channel : Fin d.channels.length) (isOpened : Bool)
    (frames frames' : List Frame) :
    SameTimes (sentBy channel isOpened frames d) (sentBy channel isOpened frames' d) ↔
      ∀ frame ∈ sentFrames isOpened frames ++ sentFrames isOpened frames',
        frame.encoding.length = 1 := by
  have hc : d.channels[(channel : ℕ)]? = some d.channels[channel] :=
    List.getElem?_eq_getElem channel.isLt
  constructor
  case mp =>
    intro h
    obtain ⟨hvalues, hvalues'⟩ := List.forall_mem_append.mp h.values
    exact List.forall_mem_append.mpr ⟨(values_iff hc).mp hvalues, (values_iff hc).mp hvalues'⟩
  case mpr =>
    intro h
    obtain ⟨hone, hone'⟩ := List.forall_mem_append.mp h
    have hvalues := (values_iff hc).mpr hone
    have hvalues' := (values_iff hc).mpr hone'
    refine ⟨fun hp hp' => ?_, fun hp hp' => ?_, List.forall_mem_append.mpr ⟨hvalues, hvalues'⟩⟩
    case refine_1 => rw [offset_of_getElem? hc hone hp, offset_of_getElem? hc hone' hp']
    case refine_2 =>
      have hmem := List.mem_of_getElem? hp
      have hmem' := List.mem_of_getElem? hp'
      rw [hvalues _ hmem, hvalues' _ hmem', sampleCount_eq_one hc _ hmem, sampleCount_eq_one hc _ hmem']

-- Two images of three and of four bytes before another one.
theorem not_sameTimes_of_sizes :
    ¬SameTimes
      (sentBy 0 true [{ encoding := [0xff, 0xd8, 0xd9] }, { encoding := [0xff, 0xd8] }] (create [0]))
      (sentBy 0 true [{ encoding := [0xff, 0xd8, 0x00, 0xd9] }, { encoding := [0xff, 0xd8] }]
        (create [0])) := by
  intro h
  have hoffset : (3 : Int64) = 4 := h.offset (k := 1) rfl rfl
  exact absurd hoffset (by decide)

end CameraDevice.CameraDeviceImpl
