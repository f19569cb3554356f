import OpenDaqModules.Library.Schedule
import OpenDaqModules.Playback.Collect
import OpenDaqModules.Playback.Steps

namespace PlaybackDevice

open EStateM
open Platform (Double)
open Sie (str)

-- The rule of a time signal is linear, so a reader knows the tick of every sample.
def DomainPacket.ticks (packet : DomainPacket) : List ℤ :=
  packet.descriptor.elim [] fun descriptor =>
    (List.range packet.sampleCount.toNat).map fun i : ℕ =>
      packet.offset.toInt + i * descriptor.delta.toInt

def tickStream {Double : Type} (sents : List (Sent Double)) : List ℤ :=
  sents.flatMap fun sent => sent.domainPacket.ticks

def valueStream {Double : Type} (sents : List (Sent Double)) : List Double :=
  sents.flatMap fun sent => sent.dataPacket.elim [] DataPacket.rawData

namespace Channel

variable [Platform] {c d : Channel} {l : Looped Double} {calls : List (ℤ × Bool)}
variable {value : SignalConfig ValueDescriptor} {timing : SignalConfig TimeDescriptor}

-- All packets that a sequence of calls sends.
def collectAll : List (ℤ × Bool) → Action (List (Sent Double))
  | []                      => return []
  | (time, active) :: calls => do
    let sent ← collectSamples time active
    let sents ← collectAll calls
    return sent.toList ++ sents

-- The tick of the `k`-th sample since the start.
def tick (c : Channel) (k : ℕ) : ℤ :=
  c.microSecondsFromEpochToStartTime.toInt + k * c.deltaT.toInt64.toInt

theorem tick_add {k i : ℕ} : c.tick (k + i) = c.tick k + i * c.deltaT.toInt64.toInt := by
  simp only [tick]
  push_cast
  ring

theorem tick_lt_tick (hdelta : 0 < c.deltaT.toInt64.toInt) {i k : ℕ} (h : i < k) :
    c.tick i < c.tick k := by
  have hmul : (i : ℤ) * c.deltaT.toInt64.toInt < k * c.deltaT.toInt64.toInt :=
    mul_lt_mul_of_pos_right (by exact_mod_cast h) hdelta
  simpa [tick] using hmul

-- The packet starts at the tick of its first sample, as long as that fits into its offset.
theorem offset_toInt (hdelta : 0 < c.deltaT.toInt64.toInt) {g : ℕ} (h : c.tick g < 2 ^ 63) :
    (UInt64.ofNat g * c.deltaT + c.microSecondsFromEpochToStartTime.toUInt64).toInt64.toInt =
      c.tick g := by
  have hbase : -2 ^ 63 ≤ c.microSecondsFromEpochToStartTime.toInt := Int64.le_toInt _
  have hnonneg : 0 ≤ (g : ℤ) * c.deltaT.toInt64.toInt := by positivity
  have hwrapped : (UInt64.ofNat g * c.deltaT +
      c.microSecondsFromEpochToStartTime.toUInt64).toInt64.toInt = (c.tick g).bmod (2 ^ 64) := by
    change (BitVec.ofNat 64 g * c.deltaT.toBitVec +
      c.microSecondsFromEpochToStartTime.toBitVec).toInt = _
    rw [BitVec.toInt_add, BitVec.toInt_mul, BitVec.toInt_ofNat', Int.bmod_mul_bmod, Int.bmod_add_bmod,
      Int.add_comm]
    rfl
  rw [hwrapped]
  apply Int.bmod_eq_of_le
  case hn' => simp only [tick] at h ⊢; omega
  case hn => omega

-- The packets for stretches of samples, each with the buffer played on from the one before.
def packets (send : ℕ → UInt64 → UInt64 → Sent Double) : ℕ → List (ℕ × ℕ) → List (Sent Double)
  | _, []              => []
  | i, (g, k) :: spans => send i (UInt64.ofNat g) (UInt64.ofNat k) :: packets send (i + k) spans

theorem sentAt_mod {i : ℕ} {g k : UInt64} :
    c.sentAt l value timing (i % l.items.length) g k = c.sentAt l value timing i g k := by
  rw [sentAt, Looped.window_mod]
  rfl

-- One call, as seen from the number of samples that the buffer has been played for.
theorem Loaded.collectSamples_played (h : c.Loaded l value timing) {i : ℕ} {time : ℤ}
    {count : ℤ → ℕ} (active : Bool) (hi : c.dataBufferIndex = i % l.items.length)
    (hsince : c.getSamplesSinceStart time = .ok (UInt64.ofNat (count time)))
    (hcount : count time < 2 ^ 64)
    (hle : c.samplesGenerated.toNat ≤ count time) : ∃ sent lastValue,
      let g := c.samplesGenerated.toNat
      let spans := Schedule.spans count g [(time, active)]
      (collectSamples time active).run c = .ok sent
        { c with
          samplesGenerated := UInt64.ofNat (count time)
          lastCollectTime  := time
          dataBufferIndex  := (i + (Schedule.numbers spans).length) % l.items.length
          lastValue } ∧
        sent.toList = packets (c.sentAt l value timing) i spans := by
  have hrun := h.collectSamples_run active hsince
  dsimp only at hrun
  generalize c.lastValueAt l c.dataBufferIndex _ = lastValue at hrun
  have hn : (UInt64.ofNat (count time)).toNat = count time := by
    rw [UInt64.toNat_ofNat', Nat.mod_eq_of_lt hcount]
  by_cases hnew : active = true ∧ c.samplesGenerated.toNat < count time
  case pos =>
    obtain ⟨rfl, hlt⟩ := hnew
    have hne : UInt64.ofNat (count time) ≠ c.samplesGenerated := by
      intro heq
      rw [← heq, hn] at hlt
      exact Nat.lt_irrefl _ hlt
    have hsub : (UInt64.ofNat (count time) - c.samplesGenerated).toNat =
        count time - c.samplesGenerated.toNat := by
      rw [UInt64.toNat_sub_of_le _ _ (by rwa [UInt64.le_iff_toNat_le, hn]), hn]
    have hsub' : UInt64.ofNat (count time - c.samplesGenerated.toNat) =
        UInt64.ofNat (count time) - c.samplesGenerated := by
      rw [← hsub, UInt64.ofNat_toNat]
    refine ⟨some (c.sentAt l value timing i c.samplesGenerated
      (UInt64.ofNat (count time) - c.samplesGenerated)), lastValue, hrun.trans ?_, ?_⟩
    case refine_1 => simp [Schedule.spans, hlt, hne, hsub, hi, sentAt_mod]
    case refine_2 => simp [Schedule.spans, hlt, packets, hsub']
  case neg =>
    have hnone : ¬(active = true ∧ UInt64.ofNat (count time) ≠ c.samplesGenerated) := by
      rintro ⟨hactive, hne⟩
      refine hnew ⟨hactive, Nat.lt_of_le_of_ne hle fun heq => hne ?_⟩
      rw [← heq, UInt64.ofNat_toNat]
    have hzero : (if active = true then
        (UInt64.ofNat (count time) - c.samplesGenerated).toNat else 0) = 0 := by
      split
      case isFalse => rfl
      case isTrue hactive =>
        have heq : UInt64.ofNat (count time) = c.samplesGenerated := by
          by_contra hne
          exact hnone ⟨hactive, hne⟩
        rw [heq, UInt64.sub_self]
        rfl
    refine ⟨none, lastValue, hrun.trans ?_, ?_⟩
    case refine_1 => simp [Schedule.spans, hnew, hnone, hzero, hi]
    case refine_2 => simp [Schedule.spans, hnew, packets]

theorem packets_append {send : ℕ → UInt64 → UInt64 → Sent Double} {i : ℕ}
    {spans spans' : List (ℕ × ℕ)} :
    packets send i (spans ++ spans') =
      packets send i spans ++ packets send (i + (Schedule.numbers spans).length) spans' := by
  induction spans generalizing i
  case nil => rfl
  case cons span spans ih => simp [packets, ih, Nat.add_assoc]

theorem collectAll_cons_run {time : ℤ} {active : Bool} {sent : Option (Sent Double)}
    {next : Channel} {sents : List (Sent Double)}
    (hrun : (collectSamples time active).run c = .ok sent next)
    (hrest : (collectAll calls).run next = .ok sents d) :
    (collectAll ((time, active) :: calls)).run c = .ok (sent.toList ++ sents) d := by
  simp only [collectAll, run_bind, hrun, hrest]
  rfl

theorem Loaded.collectAll_run (hexact : Platform.Exact) (h : c.Loaded l value timing) {i : ℕ}
    (hi : c.dataBufferIndex = i % l.items.length) (hstart : ∀ call ∈ calls, c.startTime ≤ call.1)
    (hcounts : ∀ call ∈ calls, c.samplesSinceStart call.1 < 2 ^ 64)
    (hascending : Schedule.Ascending c.samplesSinceStart c.samplesGenerated.toNat calls) :
    ∃ d, (collectAll calls).run c = .ok (packets (c.sentAt l value timing) i
        (Schedule.spans c.samplesSinceStart c.samplesGenerated.toNat calls)) d ∧
      d.samplesGenerated.toNat =
        Schedule.reached c.samplesSinceStart c.samplesGenerated.toNat calls ∧
      d.Loaded l value timing := by
  induction calls generalizing c i
  case nil => exact ⟨c, rfl, rfl, h⟩
  case cons call calls ih =>
    obtain ⟨time, active⟩ := call
    obtain ⟨hle, hascending⟩ := hascending
    have hcount : c.samplesSinceStart time < 2 ^ 64 := hcounts _ List.mem_cons_self
    have hsince := getSamplesSinceStart_of_exact hexact (hstart _ List.mem_cons_self)
    rw [if_pos hcount] at hsince
    obtain ⟨sent, lastValue, hrun, hsent⟩ := h.collectSamples_played active hi hsince hcount hle
    -- What the later calls rely on is as it was before this one.
    let next : Channel := { c with
      samplesGenerated := UInt64.ofNat (c.samplesSinceStart time)
      lastCollectTime  := time
      dataBufferIndex  := (i + (Schedule.numbers (Schedule.spans c.samplesSinceStart
        c.samplesGenerated.toNat [(time, active)])).length) % l.items.length
      lastValue }
    have hnext : next.Loaded l value timing :=
      ⟨h.valueSignal_eq, h.timeSignal_eq, h.dataBuffer_eq, Nat.mod_lt _ l.nonempty⟩
    have hgenerated : next.samplesGenerated.toNat = c.samplesSinceStart time := by
      rw [UInt64.toNat_ofNat', Nat.mod_eq_of_lt hcount]
    obtain ⟨d, hrest, hreached, hloaded⟩ := ih hnext rfl
      (fun call hcall => hstart call (List.mem_cons_of_mem _ hcall))
      (fun call hcall => hcounts call (List.mem_cons_of_mem _ hcall))
      (by rw [hgenerated]; exact hascending)
    rw [hgenerated] at hrest hreached
    refine ⟨d, (collectAll_cons_run hrun hrest).trans ?_, hreached, hloaded⟩
    have hspans : Schedule.spans c.samplesSinceStart c.samplesGenerated.toNat
        ((time, active) :: calls) = _ ++ Schedule.spans c.samplesSinceStart
          (c.samplesSinceStart time) calls := Schedule.spans_cons
    rw [hspans, packets_append, hsent]
    rfl

theorem valueStream_packets {i : ℕ} {spans : List (ℕ × ℕ)} (hfits : ∀ span ∈ spans, span.2 < 2 ^ 64) :
    valueStream (packets (c.sentAt l value timing) i spans) =
      (l.window i (Schedule.numbers spans).length).map (Platform.add · c.zeroOffset) := by
  induction spans generalizing i
  case nil => rfl
  case cons span spans ih =>
    obtain ⟨g, k⟩ := span
    have hk : (UInt64.ofNat k).toNat = k := by
      rw [UInt64.toNat_ofNat', Nat.mod_eq_of_lt (hfits _ List.mem_cons_self)]
    have hrest := ih (i := i + k) fun span hspan => hfits span (List.mem_cons_of_mem _ hspan)
    calc
      valueStream (packets (c.sentAt l value timing) i ((g, k) :: spans))
      _ = (l.window i (UInt64.ofNat k).toNat).map (Platform.add · c.zeroOffset) ++
          valueStream (packets (c.sentAt l value timing) (i + k) spans) := rfl
      _ = (l.window i k ++ l.window (i + k) (Schedule.numbers spans).length).map
          (Platform.add · c.zeroOffset) := by rw [hk, hrest, List.map_append]
      _ = _ := by
        rw [Looped.window_append, Schedule.numbers_cons, List.length_append, List.length_range']

theorem sentAt_ticks (hdelta : 0 < c.deltaT.toInt64.toInt)
    (hdescriptor : timing.descriptor = some c.timeDescriptor) {i g k : ℕ} (hk : k < 2 ^ 64)
    (htick : c.tick g < 2 ^ 63) :
    (c.sentAt l value timing i (UInt64.ofNat g) (UInt64.ofNat k)).domainPacket.ticks =
      (List.range' g k).map c.tick := by
  simp only [DomainPacket.ticks, sentAt, hdescriptor, Option.elim_some, timeDescriptor,
    offset_toInt hdelta htick, UInt64.toNat_ofNat', Nat.mod_eq_of_lt hk, List.range'_eq_map_range,
    List.map_map]
  exact List.map_congr_left fun i _ => tick_add.symm

theorem tickStream_packets (hdelta : 0 < c.deltaT.toInt64.toInt)
    (hdescriptor : timing.descriptor = some c.timeDescriptor) {i : ℕ} {spans : List (ℕ × ℕ)}
    (hfits : ∀ span ∈ spans, span.2 < 2 ^ 64) (hticks : ∀ span ∈ spans, c.tick span.1 < 2 ^ 63) :
    tickStream (packets (c.sentAt l value timing) i spans) =
      (Schedule.numbers spans).map c.tick := by
  induction spans generalizing i
  case nil => rfl
  case cons span spans ih =>
    obtain ⟨g, k⟩ := span
    have hhead : (c.sentAt l value timing i (UInt64.ofNat g) (UInt64.ofNat k)).domainPacket.ticks =
        (List.range' g k).map c.tick :=
      sentAt_ticks hdelta hdescriptor (hfits _ List.mem_cons_self) (hticks _ List.mem_cons_self)
    have hrest := ih (i := i + k) (fun span hspan => hfits span (List.mem_cons_of_mem _ hspan))
      fun span hspan => hticks span (List.mem_cons_of_mem _ hspan)
    rw [Schedule.numbers_cons, List.map_append, ← hhead, ← hrest]
    rfl

-- Calls in the order of time, the first of them not before the time of the samples generated so far,
-- and the last one while the ticks fit into the offsets of the packets.
structure Admits (c : Channel) (calls : List (ℤ × Bool)) : Prop where
  started : ∀ call ∈ calls, c.startTime ≤ call.1
  ordered : (calls.map Prod.fst).Pairwise (· ≤ ·)
  caught  : ∀ call ∈ calls.head?, c.samplesGenerated.toNat ≤ c.samplesSinceStart call.1
  counts  : ∀ call ∈ calls, c.samplesSinceStart call.1 < 2 ^ 64
  ticks   : ∀ call ∈ calls, c.tick (c.samplesSinceStart call.1 - 1) < 2 ^ 63

structure PlaysBack (c : Channel) (calls : List (ℤ × Bool)) (sents : List (Sent Double))
    (d : Channel) : Prop where
  generated  : ∀ call ∈ calls.getLast?, d.samplesGenerated.toNat = c.samplesSinceStart call.1
  index      : d.dataBuffer = c.dataBuffer ∧ d.dataBufferIndex < d.dataBuffer.length
  packets    : sents.map (fun sent => (sent.domainPacket.offset.toInt,
    sent.domainPacket.sampleCount.toNat)) =
      (Schedule.spans c.samplesSinceStart c.samplesGenerated.toNat calls).map
        fun span => (c.tick span.1, span.2)
  increasing : (tickStream sents).Pairwise (· < ·)
  complete   : (tickStream sents ++ (Schedule.numbers (Schedule.spans c.samplesSinceStart
    c.samplesGenerated.toNat (Schedule.complement calls))).map c.tick).Perm
      ((List.range' c.samplesGenerated.toNat (d.samplesGenerated.toNat -
        c.samplesGenerated.toNat)).map c.tick)
  values     : (valueStream sents).length = (tickStream sents).length ∧
    ∀ k < (valueStream sents).length, (valueStream sents)[k]? =
      c.dataBuffer[k % c.dataBuffer.length]?.map (Platform.add · c.zeroOffset)

theorem samplesSinceStart_mono {time time' : ℤ} (h : time ≤ time') :
    c.samplesSinceStart time ≤ c.samplesSinceStart time' := by
  refine Nat.div_le_div_right (Nat.mul_le_mul_right _ ?_)
  omega

namespace Admits

theorem ascending (h : c.Admits calls) :
    Schedule.Ascending c.samplesSinceStart c.samplesGenerated.toNat calls :=
  Schedule.Ascending.of_ordered (fun _ _ => samplesSinceStart_mono) h.ordered h.caught

theorem fits (h : c.Admits calls) (hdelta : 0 < c.deltaT.toInt64.toInt) {n : ℕ} {span : ℕ × ℕ}
    (hspan : span ∈ Schedule.spans c.samplesSinceStart n calls) :
    span.2 < 2 ^ 64 ∧ c.tick span.1 < 2 ^ 63 := by
  obtain ⟨call, hcall, hlt, hsum⟩ := Schedule.mem_spans hspan
  have hcount := h.counts call hcall
  refine ⟨by omega, lt_of_le_of_lt ?_ (h.ticks call hcall)⟩
  rcases Nat.eq_or_lt_of_le (Nat.le_sub_one_of_lt hlt) with heq | hlt'
  case inl => rw [heq]
  case inr => exact (tick_lt_tick hdelta hlt').le

end Admits

-- The run of all calls, and what its packets amount to.
theorem Loaded.collectAll_streams (hexact : Platform.Exact) (h : c.Loaded l value timing)
    (hindex : c.dataBufferIndex = 0) (hdescriptor : timing.descriptor = some c.timeDescriptor)
    (hdelta : 0 < c.deltaT.toInt64.toInt) (hcalls : c.Admits calls) :
    let spans := Schedule.spans c.samplesSinceStart c.samplesGenerated.toNat calls
    ∃ d, (collectAll calls).run c = .ok (packets (c.sentAt l value timing) 0 spans) d ∧
      d.samplesGenerated.toNat =
        Schedule.reached c.samplesSinceStart c.samplesGenerated.toNat calls ∧
      d.Loaded l value timing ∧
      tickStream (packets (c.sentAt l value timing) 0 spans) = (Schedule.numbers spans).map c.tick ∧
      valueStream (packets (c.sentAt l value timing) 0 spans) =
        (l.window 0 (Schedule.numbers spans).length).map (Platform.add · c.zeroOffset) := by
  intro spans
  obtain ⟨d, hrun, hreached, hloaded⟩ := h.collectAll_run hexact (i := 0) (by rw [hindex, Nat.zero_mod])
    hcalls.started hcalls.counts hcalls.ascending
  refine ⟨d, hrun, hreached, hloaded, ?_, ?_⟩
  case refine_1 =>
    exact tickStream_packets hdelta hdescriptor (fun span hspan => (hcalls.fits hdelta hspan).left)
      fun span hspan => (hcalls.fits hdelta hspan).right
  case refine_2 => exact valueStream_packets fun span hspan => (hcalls.fits hdelta hspan).left

theorem packets_shapes (hdelta : 0 < c.deltaT.toInt64.toInt) {i : ℕ} {spans : List (ℕ × ℕ)}
    (hfits : ∀ span ∈ spans, span.2 < 2 ^ 64 ∧ c.tick span.1 < 2 ^ 63) :
    (packets (c.sentAt l value timing) i spans).map (fun sent =>
      (sent.domainPacket.offset.toInt, sent.domainPacket.sampleCount.toNat)) =
        spans.map fun span => (c.tick span.1, span.2) := by
  induction spans generalizing i
  case nil => rfl
  case cons span spans ih =>
    obtain ⟨g, k⟩ := span
    obtain ⟨hk, htick⟩ := hfits _ List.mem_cons_self
    have hrest := ih (i := i + k) fun span hspan => hfits span (List.mem_cons_of_mem _ hspan)
    simp only [packets, List.map_cons, hrest]
    simp only [sentAt, offset_toInt hdelta htick, UInt64.toNat_ofNat', Nat.mod_eq_of_lt hk]

theorem Loaded.playsBack (hexact : Platform.Exact) (h : c.Loaded l value timing)
    (hindex : c.dataBufferIndex = 0) (hdescriptor : timing.descriptor = some c.timeDescriptor)
    (hdelta : 0 < c.deltaT.toInt64.toInt) (hcalls : c.Admits calls) :
    ∃ sents d, (collectAll calls).run c = .ok sents d ∧ c.PlaysBack calls sents d := by
  obtain ⟨d, hrun, hreached, hloaded, hticks, hvalues⟩ :=
    h.collectAll_streams hexact hindex hdescriptor hdelta hcalls
  refine ⟨_, d, hrun, ?_⟩
  constructor
  case generated =>
    intro call hcall
    rw [hreached, Schedule.reached_eq, Option.mem_def.mp hcall]
    rfl
  case index =>
    rw [h.dataBuffer_eq, hloaded.dataBuffer_eq]
    exact ⟨rfl, hloaded.index_lt⟩
  case packets => exact packets_shapes hdelta fun span hspan => hcalls.fits hdelta hspan
  case increasing =>
    rw [hticks, List.pairwise_map]
    exact hcalls.ascending.numbers_sorted.imp fun hlt => tick_lt_tick hdelta hlt
  case complete =>
    rw [hticks, hreached, ← List.map_append]
    exact hcalls.ascending.numbers_perm.map c.tick
  case values =>
    rw [hvalues, hticks, List.length_map, List.length_map, Looped.window_length]
    refine ⟨rfl, fun k hk => ?_⟩
    rw [h.dataBuffer_eq, Looped.getElem?_items (Nat.mod_lt k l.nonempty), Looped.get_mod]
    simp [Looped.window, hk]

-- With the value signal active all the time only the time of the last call matters.
theorem Loaded.streams_eq (hexact : Platform.Exact) (h : c.Loaded l value timing)
    (hindex : c.dataBufferIndex = 0) (hdescriptor : timing.descriptor = some c.timeDescriptor)
    (hdelta : 0 < c.deltaT.toInt64.toInt) {calls' : List (ℤ × Bool)} (hcalls : c.Admits calls)
    (hcalls' : c.Admits calls') (hactive : ∀ call ∈ calls, call.2 = true)
    (hactive' : ∀ call ∈ calls', call.2 = true)
    (hlast : calls.getLast?.map Prod.fst = calls'.getLast?.map Prod.fst) : ∃ sents sents' d d',
      (collectAll calls).run c = .ok sents d ∧ (collectAll calls').run c = .ok sents' d' ∧
      valueStream sents = valueStream sents' ∧ tickStream sents = tickStream sents' := by
  obtain ⟨d, hrun, -, -, hticks, hvalues⟩ :=
    h.collectAll_streams hexact hindex hdescriptor hdelta hcalls
  obtain ⟨d', hrun', -, -, hticks', hvalues'⟩ :=
    h.collectAll_streams hexact hindex hdescriptor hdelta hcalls'
  have hnumbers : Schedule.numbers (Schedule.spans c.samplesSinceStart c.samplesGenerated.toNat calls) =
      Schedule.numbers (Schedule.spans c.samplesSinceStart c.samplesGenerated.toNat calls') := by
    rw [hcalls.ascending.numbers_of_active hactive, hcalls'.ascending.numbers_of_active hactive',
      Schedule.reached_eq, Schedule.reached_eq, hlast]
  refine ⟨_, _, d, d', hrun, hrun', ?_, ?_⟩
  case refine_1 => rw [hvalues, hvalues', hnumbers]
  case refine_2 => rw [hticks, hticks', hnumbers]

-- From a buffer that has just been loaded on, playback leaves no gap but over the inactive calls,
-- and does not depend on when the calls in between come.
theorem gapless_of_dataSourceChanged (hexact : Platform.Exact) {c₀ : Channel}
    (hload : dataSourceChanged.run c₀ = .ok () c)
    (hbuffer : c.dataBuffer ≠ []) (hdelta : 0 < c.deltaT.toInt64.toInt) :
    (∀ calls, c.Admits calls →
      ∃ sents d, (collectAll calls).run c = .ok sents d ∧ c.PlaysBack calls sents d) ∧
    ∀ calls calls', c.Admits calls → c.Admits calls' →
      (∀ call ∈ calls, call.2 = true) → (∀ call ∈ calls', call.2 = true) →
      calls.getLast?.map Prod.fst = calls'.getLast?.map Prod.fst → ∃ sents sents' d d',
        (collectAll calls).run c = .ok sents d ∧ (collectAll calls').run c = .ok sents' d' ∧
        valueStream sents = valueStream sents' ∧ tickStream sents = tickStream sents' := by
  obtain ⟨hvalue, htime, hindex⟩ := of_dataSourceChanged hload hbuffer
  have hlength : 0 < c.dataBuffer.length := List.length_pos_iff.mpr hbuffer
  have hloaded : c.Loaded ⟨c.dataBuffer, hlength⟩ _ _ :=
    ⟨hvalue, htime, rfl, by rw [hindex]; exact hlength⟩
  constructor
  case left => exact fun calls hcalls => hloaded.playsBack hexact hindex rfl hdelta hcalls
  case right =>
    exact fun calls calls' hcalls hcalls' => hloaded.streams_eq hexact hindex rfl hdelta hcalls hcalls'

omit [Platform] in
theorem gapless_of_dataSourceChanged_default_values : let _ := Platform.exact
    let new : Channel := { startTime := 5, microSecondsFromEpochToStartTime := 1735689600000000 }
    let c := (dataSourceChanged.run ((valueDataArrayChanged valueArrayDefault).run new).state).state
    let calls := [(2005, true), (3005, false), (9005, true)]
    ∃ sents d, (collectAll calls).run c = .ok sents d ∧ c.PlaysBack calls sents d := by
  intro _ new c calls
  have hload := Result.eq_ok_of_value? (by decide +kernel : (dataSourceChanged.run
    ((valueDataArrayChanged valueArrayDefault).run new).state).value? = some ())
  apply (gapless_of_dataSourceChanged (fun _ => rfl) hload (by decide +kernel) (by decide +kernel)).left calls
  constructor <;> decide +kernel

omit [Platform] in
-- After little more than an hour the ticks of this file no longer fit into the offset of a packet.
theorem ticks_not_increasing : let _ := Platform.exact
    let new : Channel := { startTime := 0, microSecondsFromEpochToStartTime := 1735689600000000 }
    let file := str "T,V\nresolution=1000000/2147483647;delta=2147483647\n0,1\n"
    let c := Exec.run Event.step
      [.write (.filePath (str "fast.csv") (some file)), .write (.dataSource .file)]
      (initProperties.run new).state
    let calls := [(4294159054, false), (4294159055, true), (4294159056, true)]
    c.dataBuffer.length = 1 ∧ c.sampleRate = 1000000 ∧ c.deltaT = 2147483647 ∧
      ∃ sents d, (collectAll calls).run c = .ok sents d ∧ ¬(tickStream sents).Pairwise (· < ·) := by
  intro _ new file c calls
  refine ⟨by decide +kernel, by decide +kernel, by decide +kernel, ?_⟩
  have hticks : ((collectAll calls).run c).value?.map tickStream =
      some [9223372035681989938, -9223372035880078031] := by decide +kernel
  obtain ⟨sents, hsents, hstream⟩ := Option.map_eq_some_iff.mp hticks
  refine ⟨sents, _, Result.eq_ok_of_value? hsents, ?_⟩
  rw [hstream]
  decide

end Channel
end PlaybackDevice
