import OpenDaqModules.Devices.Mtig710
import OpenDaqModules.Library.Stamps

namespace Mtig710Device.Mtig710DeviceImpl

open EStateM Devices Stamps
open AdvancedRecorder (DataDescriptor chunk)

variable {d : Mtig710DeviceImpl} {e : Call × Memory} {events : List (Call × Memory)}
variable {calls : List Call} {call : Call} {p : DataPacket} {k : ℕ}

-- What a new device sends.
def packets (events : List (Call × Memory)) : List DataPacket :=
  (Exec.run step events create).channel.sent

-- Whatever memory has held, the packets follow each other without gaps, and each sample is made of the
-- sample of the caller with the same index, which has `width` octets.
structure Whole (width : ℕ) (calls : List Call) : Prop where
  offset  : ∀ {events : List (Call × Memory)} {k : ℕ} {p : DataPacket}, events.map Prod.fst = calls →
    (packets events)[k]? = some p → p.domainPacket.offset =
      Int64.ofNat (((calls.filter Call.succeeds).take k).map (·.sampleCount)).sum
  size    : ∀ {events : List (Call × Memory)} {p : DataPacket}, events.map Prod.fst = calls →
    p ∈ packets events → p.rawData.length = p.sampleCount * 8
  samples : ∃ convert : Bytes → Bytes,
    ∀ {events : List (Call × Memory)} {k : ℕ} {p : DataPacket} {call : Call},
      events.map Prod.fst = calls → (packets events)[k]? = some p →
        (calls.filter Call.succeeds)[k]? = some call → ∀ i < call.sampleCount,
          chunk 8 i p.rawData = convert (chunk width i call.data)

def rawData (e : Call × Memory) : Bytes :=
  e.1.data.take (e.1.sampleCount * 4) ++
    (allocate e.2 (e.1.sampleCount * 8)).drop (e.1.sampleCount * 4)

def packet (timeDescriptor outputDescriptor : Option DataDescriptor) (samplesCaptured : Int64)
    (e : Call × Memory) : DataPacket where
  dataDescriptor := outputDescriptor
  domainPacket   := ⟨timeDescriptor, e.1.sampleCount, samplesCaptured⟩
  sampleCount    := e.1.sampleCount
  rawData        := rawData e

def advance (samplesCaptured : Int64) (e : Call × Memory) : Int64 :=
  samplesCaptured + Int64.ofNat e.1.sampleCount

theorem memcpy_eq : memcpy (allocate e.2 (e.1.sampleCount * 8)) e.1.data (e.1.sampleCount * 4) =
    .ok (rawData e) := by
  have henough : e.1.sampleCount * 4 ≤ e.1.data.length := e.1.enough
  rw [memcpy, length_allocate, if_neg (by omega), rawData]

def successes (events : List (Call × Memory)) : List (Call × Memory) :=
  events.filter (·.1.succeeds)

theorem successes_cons_of_ok (h : e.1.sending = .ok ()) :
    successes (e :: events) = e :: successes events := by
  simp [successes, Call.succeeds, h, Except.isOk, Except.toBool]

theorem successes_cons_of_error {error : Exception} (h : e.1.sending = .error error) :
    successes (e :: events) = successes events := by
  simp [successes, Call.succeeds, h, Except.isOk, Except.toBool]

theorem map_fst_successes (hcalls : events.map Prod.fst = calls) :
    (successes events).map Prod.fst = calls.filter Call.succeeds := by
  rw [← hcalls, List.filter_map]
  rfl

section Runs

variable (h : (d.channel.outputDescriptor.map (·.sampleType.size)).getD 0 = 8)
include h

theorem step_run (hsending : e.1.sending = .ok ()) : (step e).run d = .ok () { d with
    samplesCaptured := advance d.samplesCaptured e
    channel         := { d.channel with
      sent := d.channel.sent ++
        [packet d.timeDescriptor d.channel.outputDescriptor d.samplesCaptured e] } } := by
  rw [step, addData, tryCatch_run]
  simp [Mtig710ChannelImpl.addData, DataPacketWithDomain, h, memcpy_eq, hsending, advance, packet]

theorem step_throws {error : Exception} (hsending : e.1.sending = .error error) :
    (step e).run d = .error error d := by
  rw [step, addData, tryCatch_run]
  simp [Mtig710ChannelImpl.addData, DataPacketWithDomain, h, memcpy_eq, hsending]

-- A call that throws leaves the counter and the signal as they were.
theorem run_sent : (Exec.run step events d).channel.sent = d.channel.sent ++
    (stamped advance d.samplesCaptured (successes events)).map fun s =>
      packet d.timeDescriptor d.channel.outputDescriptor s.1 s.2 := by
  induction events generalizing d
  case nil => simp [successes]
  case cons e events ih =>
    rw [Exec.run_cons]
    cases hsending : e.1.sending
    case error error =>
      rw [step_throws h hsending, Result.state_error, ih h, successes_cons_of_error hsending]
    case ok =>
      rw [step_run h hsending, Result.state_ok, successes_cons_of_ok hsending]
      refine Eq.trans (ih ?_) ?_
      · exact h
      · simp

end Runs

theorem packets_eq : packets events =
    (stamped advance 0 (successes events)).map fun s =>
      packet create.timeDescriptor create.channel.outputDescriptor s.1 s.2 :=
  run_sent rfl

theorem getElem?_packets (events : List (Call × Memory)) (k : ℕ) : (packets events)[k]? =
    (successes events)[k]?.map
      (packet create.timeDescriptor create.channel.outputDescriptor
        (((successes events).take k).foldl advance 0)) := by
  rw [packets_eq, List.getElem?_map, getElem?_stamped, Option.map_map]
  rfl

-- The packets are contiguous however the calls end.
theorem offset_eq (hcalls : events.map Prod.fst = calls) (hp : (packets events)[k]? = some p) :
    p.domainPacket.offset =
      Int64.ofNat (((calls.filter Call.succeeds).take k).map (·.sampleCount)).sum := by
  rw [getElem?_packets] at hp
  obtain ⟨e, _, rfl⟩ := Option.map_eq_some_iff.mp hp
  have hcount : ((successes events).take k).foldl advance 0 = Int64.ofNat
      (0 + (((successes events).take k).map (·.1.sampleCount)).sum) :=
    foldl_count Int64.ofNat_add
  have hcounts : ((successes events).take k).map (·.1.sampleCount) =
      ((calls.filter Call.succeeds).take k).map (·.sampleCount) := by
    rw [← map_fst_successes hcalls, ← List.map_take, List.map_map]
    rfl
  rw [packet, hcount, hcounts, Nat.zero_add]

theorem length_rawData : (rawData e).length = e.1.sampleCount * 8 := by
  have henough : e.1.sampleCount * 4 ≤ e.1.data.length := e.1.enough
  rw [rawData, List.length_append, List.length_take, List.length_drop, length_allocate]
  omega

-- The second half of the packet is what memory has held.
theorem getElem?_rawData {i : ℕ} (hleft : e.1.sampleCount * 4 ≤ i) (hright : i < e.1.sampleCount * 8) :
    (rawData e)[i]? = some (e.2 i) := by
  have henough : e.1.sampleCount * 4 ≤ e.1.data.length := e.1.enough
  rw [rawData, List.getElem?_append_right (by rw [List.length_take]; omega), List.getElem?_drop,
    List.length_take, Nat.min_eq_left henough, Nat.add_sub_cancel' hleft, allocate, List.getElem?_map,
    List.getElem?_range hright, Option.map_some]

theorem size_eq : ∀ p ∈ packets events, p.rawData.length = p.sampleCount * 8 := by
  rw [packets_eq]
  exact List.forall_mem_map.mpr fun _ _ => length_rawData

-- In a run on the same memory throughout, every call that succeeds has its packet.
theorem exists_getElem?_packets (memory : Memory) (hk : (calls.filter Call.succeeds)[k]? = some call) :
    ∃ p, (packets (calls.map (·, memory)))[k]? = some p ∧ p.rawData = rawData (call, memory) := by
  have hsuccesses : successes (calls.map (·, memory)) = (calls.filter Call.succeeds).map (·, memory) := by
    rw [successes, List.filter_map]
    rfl
  have hp := getElem?_packets (calls.map (·, memory)) k
  rw [hsuccesses, List.getElem?_map, hk] at hp
  exact ⟨_, hp, rfl⟩

theorem Whole.sampleCount_eq_zero {width : ℕ} (h : Whole width calls)
    (hcall : call ∈ calls.filter Call.succeeds) : call.sampleCount = 0 := by
  obtain ⟨convert, hconvert⟩ := h.samples
  obtain ⟨k, hk⟩ := List.mem_iff_getElem?.mp hcall
  by_contra hne
  -- The last octet of the last sample is whatever memory has held.
  have hlast : ∀ octet : UInt8,
      (convert (chunk width (call.sampleCount - 1) call.data))[7]? = some octet := by
    intro octet
    have hcalls : (calls.map (·, (fun _ => octet : Memory))).map Prod.fst = calls := by
      rw [List.map_map]
      exact List.map_id calls
    obtain ⟨p, hp, hrawData⟩ := exists_getElem?_packets (fun _ => octet) hk
    rw [← hconvert hcalls hp hk (call.sampleCount - 1) (by omega), hrawData, chunk,
      List.getElem?_take_of_lt (by decide), List.getElem?_drop]
    exact getElem?_rawData (by dsimp only; omega) (by dsimp only; omega)
  exact absurd ((hlast 0).symm.trans (hlast 1)) (by decide)

-- The packets are whole if and only if there is nothing in them, however large the samples of the
-- caller are.
theorem whole_iff (width : ℕ) (calls : List Call) :
    Whole width calls ↔ ∀ call ∈ calls, call.succeeds → call.sampleCount = 0 := by
  constructor
  case mp =>
    intro h call hcall hsucceeds
    exact h.sampleCount_eq_zero (List.mem_filter.mpr ⟨hcall, hsucceeds⟩)
  case mpr =>
    intro h
    refine ⟨offset_eq, fun _ hp => size_eq _ hp, fun octets => octets, fun _ _ hcall i hi => ?_⟩
    have hmem := List.mem_filter.mp (List.mem_of_getElem? hcall)
    rw [h _ hmem.left hmem.right] at hi
    cases hi

-- One sample of four octets, and one of eight.
theorem not_whole_one_sample :
    ¬Whole 4 [{ data := [0x00, 0x00, 0x80, 0x3f], sampleCount := 1 }] ∧
      ¬Whole 8 [{ data := [0x00, 0x00, 0x00, 0x00, 0x00, 0x00, 0xf0, 0x3f], sampleCount := 1 }] :=
  ⟨fun h => absurd (h.sampleCount_eq_zero List.mem_cons_self) one_ne_zero,
    fun h => absurd (h.sampleCount_eq_zero List.mem_cons_self) one_ne_zero⟩

end Mtig710Device.Mtig710DeviceImpl
