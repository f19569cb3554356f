import OpenDaqModules.Playback.Counting
import OpenDaqModules.Playback.Device
import OpenDaqModules.Playback.Theorems.Gapless

namespace List.Forall₂

variable {α β : Type} {R : α → β → Prop} {as : List α} {bs : List β} {a : α} {b : β}

theorem exists_mem_right (h : Forall₂ R as bs) (ha : a ∈ as) : ∃ b ∈ bs, R a b := by
  obtain ⟨⟨i, hi⟩, rfl⟩ := mem_iff_get.mp ha
  exact ⟨_, get_mem _ ⟨i, h.length_eq ▸ hi⟩, h.get hi _⟩

theorem exists_mem_left (h : Forall₂ R as bs) (hb : b ∈ bs) : ∃ a ∈ as, R a b := by
  obtain ⟨⟨i, hi⟩, rfl⟩ := mem_iff_get.mp hb
  exact ⟨_, get_mem _ ⟨i, h.length_eq ▸ hi⟩, h.get _ hi⟩

end List.Forall₂

namespace PlaybackDevice

open EStateM
open Platform (Double)
open Sie (str)

variable [Platform] {c : Channel} {ch ch' : DeviceChannel} {d d' : PlaybackDeviceImpl}
variable {base : Int64} {startTime time : ℤ} {active : Bool}

-- What the channel is after its construction.
def Channel.new (startTime : ℤ) (base : Int64) : Channel where
  startTime                        := startTime
  microSecondsFromEpochToStartTime := base
  sampleRate                       := 1000
  valueSignal                      :=
    some ⟨str "AI1", some ⟨⟨str "n/a", -1, str "not defined", str "n/a"⟩, str "AI1"⟩⟩
  timeSignal                       :=
    some ⟨str "AI1Time", some ⟨⟨1, 1000000⟩, 1000, str "AI1Time"⟩⟩
  signals                          := [str "AI1", str "AI1Time"]
  valueArrayBuffer                 := valueArrayDefault
  dataBuffer                       := valueArrayDefault

namespace Channel

theorem fileRate_default (hresolution : c.resolution = ⟨1, 1000000⟩) (hdelta : c.deltaT = 1000) :
    c.fileRate = 1000 := by
  rw [fileRate, hresolution, hdelta]
  decide

theorem initProperties_run (hvalue : Platform.acceptsId (str "AI1"))
    (htime : Platform.acceptsId (str "AI1Time")) :
    initProperties.run { startTime, microSecondsFromEpochToStartTime := base } =
      .ok () (new startTime base) := by
  have hnames : str "AI1" ≠ str "AI1Time" := by decide +kernel
  have hdelta : (1000 : UInt64) ≠ 0 := by decide
  let created : Channel := {
    startTime
    microSecondsFromEpochToStartTime := base
    valueArrayBuffer                 := valueArrayDefault }
  have hcreated : created.Ready := .empty rfl rfl rfl rfl
  have hfirst := hcreated.dataSourceChanged_run_equipped ⟨hvalue, htime, hnames⟩
    (List.cons_ne_nil _ _) hdelta
  rw [fileRate_default rfl rfl] at hfirst
  have hready : (new startTime base).Ready := .loaded _ _ rfl rfl rfl (Nat.zero_lt_succ _)
  have hsecond := hready.dataSourceChanged_run_equipped ⟨hvalue, htime, hnames⟩
    (List.cons_ne_nil _ _) hdelta
  rw [fileRate_default rfl rfl] at hsecond
  have hvalues : (valueDataArrayChanged valueArrayDefault).run
      { startTime, microSecondsFromEpochToStartTime := base } = .ok () (new startTime base) := hfirst
  rw [initProperties, run_bind, hvalues]
  exact hsecond

def defaultValues : Looped Double :=
  ⟨valueArrayDefault, Nat.zero_lt_succ _⟩

-- The samples since the start, of which there are none before it.
def counted (c : Channel) (time : ℤ) : ℕ :=
  count (time - c.startTime).toNat c.sampleRate

theorem counted_mono (hround : Platform.Rounds) {time' : ℤ} (h : time ≤ time') :
    c.counted time ≤ c.counted time' :=
  count_mono hround (Int.natCast_nonneg _) (by omega)

theorem counted_eq_zero (hround : Platform.Rounds) (hle : time ≤ c.startTime) :
    c.counted time = 0 := by
  have hzero : (time - c.startTime).toNat = 0 := by omega
  rw [counted, hzero, count, periods_eq hround]
  simp

-- As long as microseconds since the epoch fit into 64 bits, and the double product of the seconds
-- since the start is no further than a millisecond from the exact one.
structure Clocked (base : Int64) (time : ℤ) : Prop where
  fits    : base.toInt + time < 2 ^ 63
  precise : time < 2 ^ 52

-- With the default metadata nothing moves but the counters and the cursor.
structure Default (base : Int64) (c : Channel) : Prop where
  eq_new       : c = { new c.startTime base with
    samplesGenerated := c.samplesGenerated
    lastCollectTime  := c.lastCollectTime
    dataBufferIndex  := c.dataBufferIndex
    lastValue        := c.lastValue }
  start_nonneg : 0 ≤ c.startTime
  index_lt     : c.dataBufferIndex < defaultValues.items.length

namespace Default

theorem initial (h : 0 ≤ startTime) : (new startTime base).Default base :=
  ⟨rfl, h, Nat.zero_lt_succ _⟩

variable (h : c.Default base)
include h

theorem deltaT_eq : c.deltaT = 1000 := by
  rw [h.eq_new]
  rfl

theorem deltaT_toNat : (c.deltaT.toNat : ℤ) = 1000 := by
  rw [h.deltaT_eq]
  rfl

theorem tick_eq (k : ℕ) : c.tick k = base.toInt + k * 1000 := by
  rw [tick, h.eq_new]
  rfl

theorem sampleRate_toNat : c.sampleRate.toNat = 1000 := by
  rw [h.eq_new]
  rfl

-- Where a whole number of samples is due, the count may be one less.
theorem counted_bounds (hround : Platform.Rounds) (hclock : time < 2 ^ 52) :
    c.counted time * 1000 ≤ (time - c.startTime).toNat ∧
      (time - c.startTime).toNat ≤ (c.counted time + 1) * 1000 := by
  have hstart := h.start_nonneg
  have hprecise : Precise (time - c.startTime).toNat c.sampleRate :=
    precise_of_lt hround (Int.natCast_nonneg _) (h.sampleRate_toNat.trans (Nat.mul_one 1000).symm)
      (by decide : 1000 * 1000 = 1000000) (by omega) (by rw [h.sampleRate_toNat]; decide) (by omega)
  have hbounds := hprecise.count_bounds (periods_nonneg hround (Int.natCast_nonneg _))
  rw [h.sampleRate_toNat] at hbounds
  rw [counted]
  omega

theorem counted_after_second (hround : Platform.Rounds) :
    c.counted (c.startTime + 1001000) = 1000 := by
  have hrate : c.sampleRate = 1000 := UInt64.toNat_inj.mp h.sampleRate_toNat
  rw [counted, add_sub_cancel_left, hrate, count, periods_eq hround]
  decide +kernel

theorem le_counted_after_second (hround : Platform.Rounds) (hle : c.startTime + 1002000 ≤ time) :
    1002 ≤ c.counted time := by
  have hrate : c.sampleRate = 1000 := UInt64.toNat_inj.mp h.sampleRate_toNat
  have hcount : c.counted (c.startTime + 1002000) = 1002 := by
    rw [counted, add_sub_cancel_left, hrate, count, periods_eq hround]
    decide +kernel
  exact hcount.symm.le.trans (counted_mono hround hle)

theorem loaded : c.Loaded defaultValues ⟨str "AI1", c.valueDescriptor⟩
    ⟨str "AI1Time", c.timeDescriptor⟩ := by
  refine ⟨?_, ?_, ?_, h.index_lt⟩
  all_goals
    rw [h.eq_new]
    rfl

theorem moved {generated : UInt64} {collected : ℤ} {index : ℕ} {value : Double}
    (hindex : index < defaultValues.items.length) : Default base { c with
      samplesGenerated := generated
      lastCollectTime  := collected
      dataBufferIndex  := index
      lastValue        := value } := by
  refine ⟨?_, h.start_nonneg, hindex⟩
  rw [h.eq_new]
  rfl

-- What a call makes of the channel, and the tick of the last sample that it sends.
theorem collect (hround : Platform.Rounds) (active : Bool) (hstart : c.startTime ≤ time)
    (hclocked : Clocked base time) (hle : c.samplesGenerated.toNat ≤ c.counted time) : ∃ sent d,
      (collectSamples time active).run c = .ok sent d ∧ d.Default base ∧
      d.startTime = c.startTime ∧ d.samplesGenerated.toNat = c.counted time ∧
      (sent.bind fun sent => sent.domainPacket.ticks.getLast?) =
        if active ∧ c.samplesGenerated.toNat < c.counted time then
          some (c.tick (c.counted time - 1))
        else none := by
  have hbase : -2 ^ 63 ≤ base.toInt := Int64.le_toInt _
  have hfits := hclocked.fits
  have hcount := h.counted_bounds hround hclocked.precise
  have hnonneg := h.start_nonneg
  have hlt : c.counted time < 2 ^ 64 := by omega
  have hsince : c.getSamplesSinceStart time = .ok (UInt64.ofNat (c.counted time)) := by
    have helapsed : time - c.startTime = ((time - c.startTime).toNat : ℤ) := by omega
    rw [getSamplesSinceStart_of_periods (periods_nonneg hround (by omega)), helapsed]
    exact if_pos hlt
  obtain ⟨sent, lastValue, hrun, hsent⟩ := h.loaded.collectSamples_played active
    (Nat.mod_eq_of_lt h.index_lt).symm hsince hlt hle
  refine ⟨sent, _, hrun, h.moved (Nat.mod_lt _ defaultValues.nonempty), rfl, ?_, ?_⟩
  case refine_1 => exact UInt64.toNat_ofNat'.trans (Nat.mod_eq_of_lt hlt)
  case refine_2 =>
    by_cases hnew : active ∧ c.samplesGenerated.toNat < c.counted time
    case neg =>
      rw [if_neg hnew]
      simp only [Schedule.spans, if_neg hnew, List.append_nil, packets, Option.toList_eq_nil_iff] at hsent
      rw [hsent]
      rfl
    case pos =>
      rw [if_pos hnew]
      simp only [Schedule.spans, if_pos hnew, List.append_nil, packets, Option.toList_eq_singleton_iff]
        at hsent
      have hdelta : 0 < c.deltaT.toInt64.toInt := by
        rw [h.deltaT_eq]
        decide
      have htick : c.tick c.samplesGenerated.toNat < 2 ^ 63 := by
        rw [h.tick_eq]
        omega
      have hlast : c.samplesGenerated.toNat +
          (c.counted time - c.samplesGenerated.toNat) - 1 = c.counted time - 1 := by
        omega
      rw [hsent, Option.bind_some, sentAt_ticks hdelta rfl (by omega) htick, List.getLast?_map,
        List.getLast?_range', if_neg (by omega), hlast]
      rfl

end Default
end Channel

namespace PlaybackDeviceImpl

-- The tick of the last sample since the value signal was last found inactive.
def lastTick? : List Cycle → Option ℤ
  | []              => none
  | cycle :: cycles =>
    if cycle.active then
      (cycle.sent.bind fun sent => sent.domainPacket.ticks.getLast?).or (lastTick? cycles)
    else none

-- The last samples of any two active channels are at most one sample apart.
def Aligned (d : PlaybackDeviceImpl) : Prop :=
  ∀ ch ∈ d.channels, ∀ ch' ∈ d.channels, ∀ tick ∈ lastTick? ch.cycles,
    ∀ tick' ∈ lastTick? ch'.cycles, |tick - tick'| ≤ ch.channel.deltaT.toNat

instance : Decidable d.Aligned :=
  inferInstanceAs (Decidable (∀ ch ∈ d.channels, ∀ ch' ∈ d.channels, ∀ tick ∈ lastTick? ch.cycles,
    ∀ tick' ∈ lastTick? ch'.cycles, |tick - tick'| ≤ ch.channel.deltaT.toNat))

-- The steady clock does not go back.
structure Event.InOrder (e : Event) (d : PlaybackDeviceImpl) : Prop where
  after_cycle : d.lastCollectTime ≤ e.time
  after_start : ∀ ch ∈ d.channels, ch.channel.startTime ≤ e.time

-- In whichever cycle comes next, as long as the clocks allow.
def StaysAligned (d : PlaybackDeviceImpl) : Prop :=
  ∀ time active, (Event.cycle time active).InOrder d →
    Channel.Clocked d.microSecondsFromEpochToDeviceStart time →
      ((Event.cycle time active).step.run d).state.Aligned

-- A channel is added less than one sample after the start of each channel that stays.
def Event.Together : Event → PlaybackDeviceImpl → Prop
  | .write num time, d => d.channels.length < num →
    ∀ ch ∈ d.channels, time - ch.channel.startTime < 1000
  | .cycle _ _, _      => True

instance : {e : Event} → Decidable (e.Together d)
  | .write num time => inferInstanceAs (Decidable (d.channels.length < num →
      ∀ ch ∈ d.channels, time - ch.channel.startTime < 1000))
  | .cycle _ _      => .isTrue trivial

-- What the cycles leave of a channel, as of the last of them.
structure Steady (base : Int64) (collected : ℤ) (ch : DeviceChannel) : Prop where
  default : ch.channel.Default base
  counted : ch.channel.samplesGenerated.toNat = ch.channel.counted collected
  last    : ∀ tick ∈ lastTick? ch.cycles, 0 < ch.channel.samplesGenerated.toNat ∧
    tick = ch.channel.tick (ch.channel.samplesGenerated.toNat - 1)

-- What one more cycle makes of it.
structure Collected (base : Int64) (time : ℤ) (active : Prop) (ch ch' : DeviceChannel) : Prop where
  steady       : Steady base time ch'
  startTime_eq : ch'.channel.startTime = ch.channel.startTime
  sent         : active → ch.channel.samplesGenerated.toNat < ch'.channel.samplesGenerated.toNat →
    (lastTick? ch'.cycles).isSome

namespace Steady

variable {collected : ℤ}

theorem last_eq (h : Steady base collected ch) {tick : ℤ} (htick : tick ∈ lastTick? ch.cycles) :
    0 < ch.channel.counted collected ∧
      tick = base.toInt + ((ch.channel.counted collected : ℤ) - 1) * 1000 := by
  obtain ⟨hpos, rfl⟩ := h.last tick htick
  rw [h.default.tick_eq, Nat.cast_sub hpos, Nat.cast_one, ← h.counted]
  exact ⟨hpos, rfl⟩

theorem initial (hround : Platform.Rounds) (hstart : 0 ≤ startTime) (hcollected : collected ≤ startTime) :
    Steady base collected ⟨Channel.new startTime base, []⟩ := by
  refine ⟨.initial hstart, ?_, nofun⟩
  rw [Channel.counted_eq_zero hround hcollected]
  rfl

theorem collect (hround : Platform.Rounds) (h : Steady base collected ch) (active : Bool)
    (hcollected : collected ≤ time) (hstart : ch.channel.startTime ≤ time)
    (hclocked : Channel.Clocked base time) :
    ∃ ch', collectChannel time active ch = .ok ch' ∧ Collected base time active ch ch' := by
  have hle : ch.channel.samplesGenerated.toNat ≤ ch.channel.counted time :=
    h.counted.trans_le (Channel.counted_mono hround hcollected)
  obtain ⟨sent, c, hrun, hdefault, hsame, hgenerated, hsent⟩ :=
    h.default.collect hround active hstart hclocked hle
  have hcounted : c.samplesGenerated.toNat = c.counted time := by
    rw [hgenerated, Channel.counted, Channel.counted, hsame,
      UInt64.toNat_inj.mp (h.default.sampleRate_toNat.trans hdefault.sampleRate_toNat.symm)]
  rw [← hgenerated] at hsent hle
  have hlast : lastTick? (⟨active, sent⟩ :: ch.cycles) = if active then
      if ch.channel.samplesGenerated.toNat < c.samplesGenerated.toNat then
        some (c.tick (c.samplesGenerated.toNat - 1))
      else lastTick? ch.cycles
    else none := by
    rw [lastTick?, hsent, hdefault.tick_eq, h.default.tick_eq]
    cases active <;> simp
    split <;> simp
  refine ⟨⟨c, ⟨active, sent⟩ :: ch.cycles⟩, by rw [collectChannel, hrun],
    ⟨hdefault, hcounted, fun tick htick => ?_⟩, hsame, fun hactive hnew => ?_⟩
  case refine_1 =>
    rw [hlast] at htick
    split at htick
    case isFalse => cases htick
    case isTrue =>
      split at htick
      case isTrue hnew =>
        cases htick
        exact ⟨Nat.zero_lt_of_lt hnew, rfl⟩
      case isFalse hnew =>
        obtain ⟨hpos, rfl⟩ := h.last tick htick
        have hsameCount : c.samplesGenerated.toNat = ch.channel.samplesGenerated.toNat := by omega
        dsimp only
        rw [hsameCount, hdefault.tick_eq, h.default.tick_eq]
        exact ⟨hpos, rfl⟩
  case refine_2 =>
    rw [hlast, if_pos hactive, if_pos hnew]
    rfl

end Steady

theorem collectChannels_run (hround : Platform.Rounds) {collected : ℤ} {chs : List DeviceChannel}
    (active : ℕ → Bool) (h : ∀ ch ∈ chs, Steady base collected ch) (hcollected : collected ≤ time)
    (hstart : ∀ ch ∈ chs, ch.channel.startTime ≤ time) (hclocked : Channel.Clocked base time) :
    ∃ chs', collectChannels time active chs = .ok chs' ∧
      List.Forall₂ (Collected base time (∀ i, active i)) chs chs' := by
  induction chs generalizing active
  case nil => exact ⟨[], rfl, .nil⟩
  case cons ch chs ih =>
    obtain ⟨ch', hfirst, hsteady, hsame, hsent⟩ := (h ch List.mem_cons_self).collect hround (active 0)
      hcollected (hstart ch List.mem_cons_self) hclocked
    obtain ⟨chs', hrest, hall⟩ := ih (fun i => active (i + 1))
      (fun ch hch => h ch (List.mem_cons_of_mem _ hch))
      fun ch hch => hstart ch (List.mem_cons_of_mem _ hch)
    refine ⟨ch' :: chs', ?_, .cons ⟨hsteady, hsame, fun hactive => hsent (hactive 0)⟩ ?_⟩
    case refine_1 =>
      rw [collectChannels, hfirst, hrest]
      rfl
    case refine_2 =>
      exact hall.imp fun _ _ hch => { hch with sent := fun hactive => hch.sent fun i => hactive (i + 1) }

structure Regular (d : PlaybackDeviceImpl) : Prop where
  collected_nonneg : 0 ≤ d.lastCollectTime
  steady           : ∀ ch ∈ d.channels,
    Steady d.microSecondsFromEpochToDeviceStart d.lastCollectTime ch

-- Any two channels start less than one sample apart.
def Close (d : PlaybackDeviceImpl) : Prop :=
  ∀ ch ∈ d.channels, ∀ ch' ∈ d.channels, ch.channel.startTime - ch'.channel.startTime < 1000

namespace Regular

variable (hround : Platform.Rounds) (h : d.Regular)
include hround h

theorem cycle_run {active : ℕ → Bool} (horder : (Event.cycle time active).InOrder d)
    (hclocked : Channel.Clocked d.microSecondsFromEpochToDeviceStart time) :
    ∃ chs, (Event.cycle time active).step.run d =
        .ok () { d with channels := chs, lastCollectTime := time } ∧
      List.Forall₂ (Collected d.microSecondsFromEpochToDeviceStart time (∀ i, active i))
        d.channels chs := by
  have hcollected : d.lastCollectTime ≤ time := horder.after_cycle
  have hstart : ∀ ch ∈ d.channels, ch.channel.startTime ≤ time := horder.after_start
  obtain ⟨chs, hrun, hall⟩ := collectChannels_run hround active h.steady hcollected hstart hclocked
  refine ⟨chs, ?_, hall⟩
  change (acqLoop time active).run d = _
  rw [acqLoop, run_bind, run_get]
  dsimp only
  rw [run_bind, hrun]
  rfl

theorem cycle {active : ℕ → Bool} (horder : (Event.cycle time active).InOrder d)
    (hclocked : Channel.Clocked d.microSecondsFromEpochToDeviceStart time) :
    ((Event.cycle time active).step.run d).state.Regular := by
  obtain ⟨chs, hrun, hall⟩ := h.cycle_run hround horder hclocked
  rw [hrun]
  refine ⟨h.collected_nonneg.trans horder.after_cycle, fun ch' hch' => ?_⟩
  obtain ⟨_, _, hcollected⟩ := hall.exists_mem_left hch'
  exact hcollected.steady

theorem cycle_close (hclose : d.Close) {active : ℕ → Bool}
    (horder : (Event.cycle time active).InOrder d)
    (hclocked : Channel.Clocked d.microSecondsFromEpochToDeviceStart time) :
    ((Event.cycle time active).step.run d).state.Close := by
  obtain ⟨chs, hrun, hall⟩ := h.cycle_run hround horder hclocked
  rw [hrun]
  intro ch hch ch' hch'
  obtain ⟨before, hbefore, hcollected⟩ := hall.exists_mem_left hch
  obtain ⟨before', hbefore', hcollected'⟩ := hall.exists_mem_left hch'
  rw [hcollected.startTime_eq, hcollected'.startTime_eq]
  exact hclose before hbefore before' hbefore'

-- Of channels that start less than a sample apart, the numbers of samples differ by at most one.
theorem aligned (hclose : d.Close) (hclock : d.lastCollectTime < 2 ^ 52) : d.Aligned := by
  intro ch hch ch' hch' tick htick tick' htick'
  have hsteady := h.steady ch hch
  have hsteady' := h.steady ch' hch'
  obtain ⟨hpos, htick⟩ := hsteady.last_eq htick
  obtain ⟨hpos', htick'⟩ := hsteady'.last_eq htick'
  have hbounds := hsteady.default.counted_bounds hround hclock
  have hbounds' := hsteady'.default.counted_bounds hround hclock
  have hless := hclose ch hch ch' hch'
  have hless' := hclose ch' hch' ch hch
  rw [hsteady.default.deltaT_toNat, abs_le]
  omega

theorem staysAligned (hclose : d.Close) : d.StaysAligned := by
  intro time active horder hclocked
  have hregular := h.cycle hround horder hclocked
  obtain ⟨chs, hrun, -⟩ := h.cycle_run hround horder hclocked
  refine hregular.aligned hround (h.cycle_close hround hclose horder hclocked) ?_
  rw [hrun]
  exact hclocked.precise

-- After 1.001 seconds the product is rounded down to 1000 samples, and that of a channel a sample
-- older is not. Both channels have new samples then.
theorem lt_of_staysAligned {ch' : DeviceChannel} (hch : ch ∈ d.channels) (hch' : ch' ∈ d.channels)
    (hstart : ∀ ch ∈ d.channels, ch.channel.startTime ≤ ch'.channel.startTime)
    (hcollected : d.lastCollectTime ≤ ch'.channel.startTime)
    (hfits : d.microSecondsFromEpochToDeviceStart.toInt + ch'.channel.startTime < 2 ^ 62)
    (hclock : ch'.channel.startTime < 2 ^ 51) (haligned : d.StaysAligned) :
    ch'.channel.startTime - ch.channel.startTime < 1000 := by
  by_contra hapart
  obtain ⟨next, hnext⟩ : ∃ next, next = ch'.channel.startTime + 1001000 := ⟨_, rfl⟩
  have hlater : (Event.cycle next fun _ => true).InOrder d := by
    refine ⟨?_, fun ch hch => ?_⟩
    case refine_1 =>
      change d.lastCollectTime ≤ next
      omega
    case refine_2 =>
      change ch.channel.startTime ≤ next
      have hle := hstart ch hch
      omega
  have hclocked : Channel.Clocked d.microSecondsFromEpochToDeviceStart next := ⟨by omega, by omega⟩
  obtain ⟨chs, hrun, hall⟩ := h.cycle_run hround hlater hclocked
  have hsends : ∀ ch ∈ d.channels, ∃ after ∈ chs, after.channel.startTime = ch.channel.startTime ∧
      Steady d.microSecondsFromEpochToDeviceStart next after ∧
        ∃ tick, tick ∈ lastTick? after.cycles := by
    intro ch hch
    obtain ⟨after, hafter, hcollected⟩ := hall.exists_mem_right hch
    refine ⟨after, hafter, hcollected.startTime_eq, hcollected.steady, ?_⟩
    refine Option.isSome_iff_exists.mp (hcollected.sent (fun _ => rfl) ?_)
    have hbefore := (h.steady ch hch).default.counted_bounds hround
      (by omega : d.lastCollectTime < 2 ^ 52)
    have hbounds := hcollected.steady.default.counted_bounds hround hclocked.precise
    have hle := hstart ch hch
    rw [hcollected.startTime_eq] at hbounds
    rw [(h.steady ch hch).counted, hcollected.steady.counted]
    omega
  obtain ⟨last, hlast, hsame, hsteady, tick, htick⟩ := hsends ch hch
  obtain ⟨last', hlast', hsame', hsteady', tick', htick'⟩ := hsends ch' hch'
  have hdistance := haligned next (fun _ => true) hlater hclocked
  rw [hrun] at hdistance
  have hdistance := hdistance last hlast last' hlast' tick htick tick' htick'
  have hcount : 1002 ≤ last.channel.counted next :=
    hsteady.default.le_counted_after_second hround (by omega)
  have hcount' : last'.channel.counted next = 1000 := by
    rw [hnext, ← hsame']
    exact hsteady'.default.counted_after_second hround
  obtain ⟨-, htick⟩ := hsteady.last_eq htick
  obtain ⟨-, htick'⟩ := hsteady'.last_eq htick'
  rw [hsteady.default.deltaT_toNat, abs_le] at hdistance
  omega

end Regular

-- For half of the time in which the product is precise.
structure Event.Early (e : Event) (d : PlaybackDeviceImpl) : Prop where
  inOrder : e.InOrder d
  fits    : d.microSecondsFromEpochToDeviceStart.toInt + e.time < 2 ^ 62
  precise : e.time < 2 ^ 51

theorem Event.Early.clocked {e : Event} (h : e.Early d) :
    Channel.Clocked d.microSecondsFromEpochToDeviceStart e.time := by
  obtain ⟨-, hfits, hprecise⟩ := h
  exact ⟨by omega, by omega⟩

section Write

variable (hvalue : Platform.acceptsId (str "AI1")) (htime : Platform.acceptsId (str "AI1Time"))
variable {num : ℕ}
include hvalue htime

theorem createAndAddChannels_run {n : ℕ} :
    (createAndAddChannels time n).run d = .ok () { d with
      channels := d.channels ++
        List.replicate n ⟨Channel.new time d.microSecondsFromEpochToDeviceStart, []⟩ } := by
  induction n generalizing d
  case zero => simp [createAndAddChannels]
  case succ n ih =>
    have hcreate : d.createChannel time =
        .ok ⟨Channel.new time d.microSecondsFromEpochToDeviceStart, []⟩ := by
      rw [createChannel, Channel.initProperties_run hvalue htime]
    simp only [createAndAddChannels, run_bind, run_get, hcreate, ofExcept_ok, run_pure, run_set, ih]
    rw [List.append_assoc, List.replicate_succ, List.singleton_append]

theorem write_run : (Event.write num time).step.run d = .ok () { d with
    channels := d.channels.take num ++ List.replicate (num - (d.channels.take num).length)
      ⟨Channel.new time d.microSecondsFromEpochToDeviceStart, []⟩ } := by
  change (updateNumberOfChannels num time).run d = _
  simp only [updateNumberOfChannels, run_bind, run_modify, run_get,
    createAndAddChannels_run hvalue htime]

theorem mem_channels_write : ch ∈ ((Event.write num time).step.run d).state.channels ↔
    ch ∈ d.channels.take num ∨ d.channels.length < num ∧
      ch = ⟨Channel.new time d.microSecondsFromEpochToDeviceStart, []⟩ := by
  have hadded : num - (d.channels.take num).length ≠ 0 ↔ d.channels.length < num := by
    rw [List.length_take]
    omega
  rw [write_run hvalue htime, Result.state_ok, List.mem_append, List.mem_replicate, hadded]

theorem Regular.write (hround : Platform.Rounds) (h : d.Regular) (horder : (Event.write num time).InOrder d) :
    ((Event.write num time).step.run d).state.Regular := by
  have hcollected : d.lastCollectTime ≤ time := horder.after_cycle
  have hsteady : ∀ ch ∈ ((Event.write num time).step.run d).state.channels,
      Steady d.microSecondsFromEpochToDeviceStart d.lastCollectTime ch := by
    intro ch hch
    obtain hch | ⟨-, rfl⟩ := (mem_channels_write hvalue htime).mp hch
    case inl => exact h.steady ch (List.mem_of_mem_take hch)
    case inr => exact .initial hround (h.collected_nonneg.trans hcollected) hcollected
  rw [write_run hvalue htime] at hsteady ⊢
  exact ⟨h.collected_nonneg, hsteady⟩

theorem write_close (hclose : d.Close) (horder : (Event.write num time).InOrder d)
    (htogether : (Event.write num time).Together d) :
    ((Event.write num time).step.run d).state.Close := by
  have hstart : ∀ ch ∈ d.channels, ch.channel.startTime ≤ time := horder.after_start
  intro ch hch ch' hch'
  obtain hch | ⟨hlt, rfl⟩ := (mem_channels_write hvalue htime).mp hch <;>
    obtain hch' | ⟨-, rfl⟩ := (mem_channels_write hvalue htime).mp hch'
  case inl.inl => exact hclose ch (List.mem_of_mem_take hch) ch' (List.mem_of_mem_take hch')
  case inl.inr =>
    have hle := hstart ch (List.mem_of_mem_take hch)
    change ch.channel.startTime - time < 1000
    omega
  case inr.inl => exact htogether hlt ch' (List.mem_of_mem_take hch')
  case inr.inr => omega

theorem Event.InOrder.write (horder : (Event.write num time).InOrder d) :
    (Event.write num time).InOrder ((Event.write num time).step.run d).state := by
  refine ⟨?_, fun ch hch => ?_⟩
  case refine_1 =>
    rw [write_run hvalue htime]
    exact horder.after_cycle
  case refine_2 =>
    obtain hch | ⟨-, rfl⟩ := (mem_channels_write hvalue htime).mp hch
    case inl => exact horder.after_start ch (List.mem_of_mem_take hch)
    case inr => exact le_rfl

theorem together_of_staysAligned (hround : Platform.Rounds)
    (hregular : ((Event.write num time).step.run d).state.Regular)
    (horder : (Event.write num time).InOrder d)
    (hfits : d.microSecondsFromEpochToDeviceStart.toInt + time < 2 ^ 62) (hclock : time < 2 ^ 51)
    (haligned : ((Event.write num time).step.run d).state.StaysAligned) :
    (Event.write num time).Together d := by
  intro hlt ch hch
  have hkept : ch ∈ d.channels.take num := by
    rw [List.take_of_length_le hlt.le]
    exact hch
  have hafter := horder.write hvalue htime
  refine hregular.lt_of_staysAligned hround ((mem_channels_write hvalue htime).mpr (.inl hkept))
    ((mem_channels_write hvalue htime).mpr (.inr ⟨hlt, rfl⟩)) hafter.after_start hafter.after_cycle
    ?_ hclock haligned
  rw [write_run hvalue htime]
  exact hfits

-- In the runs from a new device, the channels stay aligned if and only if each write that adds
-- channels comes less than one sample after the start of every channel that it keeps.
theorem staysAligned_iff (hround : Platform.Rounds) {events : List Event}
    (h : Exec.Along Event.step Event.Early events { microSecondsFromEpochToDeviceStart := base }) :
    (∀ run, run <+: events →
        (Exec.run Event.step run { microSecondsFromEpochToDeviceStart := base }).StaysAligned) ↔
      Exec.Along Event.step Event.Together events { microSecondsFromEpochToDeviceStart := base } := by
  refine Exec.forall_prefix_iff_along (I := fun d => d.Regular ∧ d.Close) ⟨⟨le_rfl, nofun⟩, nofun⟩ h
    (fun d h => h.left.staysAligned hround h.right) (fun e d h hin htogether => ?_)
    fun e d h hin haligned => ?_
  case refine_1 =>
    obtain ⟨hregular, hclose⟩ := h
    have horder := hin.inOrder
    cases e
    case write num time =>
      exact ⟨hregular.write hvalue htime hround horder,
        write_close hvalue htime hclose horder htogether⟩
    case cycle time active =>
      exact ⟨hregular.cycle hround horder hin.clocked,
        hregular.cycle_close hround hclose horder hin.clocked⟩
  case refine_2 =>
    cases e
    case cycle => trivial
    case write num time =>
      exact together_of_staysAligned hvalue htime hround
        (h.left.write hvalue htime hround hin.inOrder) hin.inOrder hin.fits hin.precise haligned

end Write

omit [Platform] in
theorem staysAligned_iff_rewritten :
    let _ := Platform.binary64
    let new : PlaybackDeviceImpl := { microSecondsFromEpochToDeviceStart := 1700000000000000 }
    let all : ℕ → Bool := fun _ => true
    let events := [.write 2 40, .cycle 900 all, .write 3 1030, .cycle 5100 all, .write 1 9000]
    ∀ run, run <+: events → (Exec.run Event.step run new).StaysAligned := by
  intro _ new all events
  refine (staysAligned_iff (by decide +kernel) (by decide +kernel) (fun _ => rfl) ?_).mpr ?_
  case refine_1 =>
    refine ⟨⟨⟨?_, ?_⟩, ?_, ?_⟩, ⟨⟨?_, ?_⟩, ?_, ?_⟩, ⟨⟨?_, ?_⟩, ?_, ?_⟩,
      ⟨⟨?_, ?_⟩, ?_, ?_⟩, ⟨⟨?_, ?_⟩, ?_, ?_⟩, trivial⟩
    all_goals decide +kernel
  case refine_2 =>
    refine ⟨?_, ?_, ?_, ?_, ?_, trivial⟩
    all_goals decide +kernel

-- The time stamps of the second channel start where those of the first one do, 5 ms too early.
omit [Platform] in
theorem not_staysAligned_added_later :
    let _ := Platform.binary64
    let new : PlaybackDeviceImpl := { microSecondsFromEpochToDeviceStart := 1700000000000000 }
    let d := Exec.run Event.step [.write 1 0, .write 2 5000] new
    let cycle := Event.cycle 7000 fun _ => true
    cycle.InOrder d ∧ ¬(cycle.step.run d).state.Aligned ∧
      (cycle.step.run d).state.channels.map (fun ch => lastTick? ch.cycles) =
        [some 1700000000006000, some 1700000000001000] := by
  intro _ new d cycle
  exact ⟨⟨by decide +kernel, by decide +kernel⟩, by decide +kernel, by decide +kernel⟩

end PlaybackDeviceImpl
end PlaybackDevice
