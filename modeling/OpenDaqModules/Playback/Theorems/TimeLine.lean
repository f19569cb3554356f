import Mathlib.Tactic.FieldSimp
import Mathlib.Tactic.Linarith
import OpenDaqModules.Playback.Clock
import OpenDaqModules.Playback.Collect
import OpenDaqModules.Playback.CsvFile

namespace PlaybackDevice

open EStateM
open AdvancedRecorder (Ratio)
open Platform (Double)
open Sie (str)

namespace Clock

variable {clock : Clock} {steadyTime : ℤ}

-- The ticks of the device are seconds since the epoch, by the resolution of its domain.
def OnTimeLine (clock : Clock) (steadyTime : ℤ) : Prop :=
  (clock.onGetTicksSinceOrigin steadyTime).toNat * clock.tickResolution.toRat =
    (clock.microSecondsFromEpochToDeviceStart +
      clock.getMicroSecondsSinceDeviceStart steadyTime : ℚ) / 10 ^ 6

theorem emod_eq_thousandfold_iff {now : ℤ} : now % 2 ^ 64 = 1000 * now ↔ now = 0 := by
  constructor
  case mp =>
    intro h
    have hrest : 0 ≤ now % 2 ^ 64 := Int.emod_nonneg now (by norm_num)
    have hnow : 0 ≤ now := by linarith
    have hquotient : 0 ≤ now / 2 ^ 64 := Int.ediv_nonneg hnow (by norm_num)
    have hsplit : now % 2 ^ 64 + 2 ^ 64 * (now / 2 ^ 64) = now := Int.emod_add_mul_ediv now (2 ^ 64)
    exact le_antisymm (by linarith) hnow
  case mpr =>
    rintro rfl
    rfl

-- Ticks of a nanosecond that count microseconds are right about nothing but the epoch.
theorem onTimeLine_iff {start base : ℤ} :
    (initClock start base).OnTimeLine steadyTime ↔ base + (steadyTime - start) = 0 := by
  have hresolution : Ratio.toRat ⟨1, 1000000000⟩ = 1 / 10 ^ 9 := by decide +kernel
  have hticks : ((initClock start base).onGetTicksSinceOrigin steadyTime).toNat =
      ((base + (steadyTime - start)) % 2 ^ 64).toNat := by
    rw [onGetTicksSinceOrigin, UInt64.ofInt, UInt64.toNat_ofNat', Nat.mod_eq_of_lt (by omega)]
    simp only [initClock, getMicroSecondsSinceDeviceStart]
  have hnow : (initClock start base).OnTimeLine steadyTime ↔
      ((((base + (steadyTime - start)) % 2 ^ 64).toNat : ℤ) : ℚ) * (1 / 10 ^ 9) =
        ((base + (steadyTime - start) : ℤ) : ℚ) / 10 ^ 6 := by
    simp only [OnTimeLine, hticks]
    simp only [initClock, getMicroSecondsSinceDeviceStart, hresolution]
    push_cast
    rfl
  rw [hnow]
  generalize base + (steadyTime - start) = now
  rw [Int.toNat_of_nonneg (Int.emod_nonneg now (by norm_num)), ← emod_eq_thousandfold_iff,
    ← @Int.cast_inj ℚ]
  generalize now % 2 ^ 64 = ticks
  push_cast
  constructor
  case mp => intro h; linarith
  case mpr => intro h; linarith

end Clock

namespace Channel

variable [Platform] {c d : Channel} {sent : Sent Double} {descriptor : TimeDescriptor}

-- A packet starts, by the resolution of its descriptor, as many seconds after the epoch as its first
-- sample is.
def OnTimeLine (c : Channel) (packet : DomainPacket) : Prop :=
  ∃ descriptor, packet.descriptor = some descriptor ∧
    packet.offset.toInt * descriptor.tickResolution.toRat =
      (c.microSecondsFromEpochToStartTime.toInt : ℚ) / 10 ^ 6 +
        c.samplesGenerated.toNat * c.deltaT.toNat * descriptor.tickResolution.toRat

-- How often the ticks of the next packet overflow.
def overflows (c : Channel) : ℤ :=
  let ticks : ℤ := c.samplesGenerated.toNat * c.deltaT.toNat + c.microSecondsFromEpochToStartTime.toInt
  ticks.bdiv (2 ^ 64)

-- What overflows makes up for the microseconds that are no ticks.
def Balanced (c : Channel) (resolution : Ratio) : Prop :=
  c.overflows * 2 ^ 64 * (10 ^ 6 * resolution.numerator.toInt) =
    c.microSecondsFromEpochToStartTime.toInt *
      (10 ^ 6 * resolution.numerator.toInt - resolution.denominator.toInt)

-- Without overflow there are no such microseconds, or a tick is a microsecond.
theorem balanced_iff {resolution : Ratio} (h : c.overflows = 0) : c.Balanced resolution ↔
    c.microSecondsFromEpochToStartTime.toInt = 0 ∨
      10 ^ 6 * resolution.numerator.toInt = resolution.denominator.toInt := by
  rw [Balanced, h, zero_mul, zero_mul, eq_comm, mul_eq_zero, sub_eq_zero]

theorem of_collectSamples {time : ℤ} {active : Bool}
    (h : (collectSamples time active).run c = .ok (some sent) d) :
    ∃ k d', (sendSamples k active).run c = .ok (some sent) d' := by
  cases hsince : c.getSamplesSinceStart time
  case error e =>
    rw [collectSamples_run_error hsince] at h
    cases h
  case ok n =>
    by_cases hsame : n = c.samplesGenerated
    case pos =>
      rw [collectSamples_run_ok hsince (collectNewSamples_run_of_eq hsame)] at h
      cases h
    case neg =>
      cases hsend : (sendSamples (n - c.samplesGenerated) active).run c
      case error e d' =>
        rw [collectSamples_run_throws hsince (collectNewSamples_run_throws hsame hsend)] at h
        cases h
      case ok sent' d' =>
        rw [collectSamples_run_ok hsince (collectNewSamples_run_of_ne hsame hsend)] at h
        cases h
        exact ⟨_, d', hsend⟩

theorem of_generateSamples {curTime : Int64} {k : UInt64}
    (h : (generateSamples curTime k).run c = .ok sent d) : sent.domainPacket.offset = curTime := by
  simp only [generateSamples, run_bind, run_get] at h
  cases htiming : c.timeSignal
  case none =>
    rw [htiming] at h
    cases h
  case some timing =>
    rw [htiming] at h
    dsimp only at h
    split at h
    case isTrue =>
      cases h
      rfl
    case isFalse =>
      cases hvalue : c.valueSignal
      case none =>
        rw [hvalue] at h
        cases h
      case some value =>
        rw [hvalue] at h
        cases hplay : playBuffer c.dataBuffer c.zeroOffset k.toNat c.dataBufferIndex
        case error e =>
          rw [hplay] at h
          cases h
        case ok played =>
          rw [hplay] at h
          cases h
          rfl

theorem collectSamples_offset {time : ℤ} {active : Bool}
    (h : (collectSamples time active).run c = .ok (some sent) d) : sent.domainPacket.offset =
      (c.samplesGenerated * c.deltaT + c.microSecondsFromEpochToStartTime.toUInt64).toInt64 := by
  obtain ⟨k, d', hsend⟩ := of_collectSamples h
  simp only [sendSamples, run_bind, run_get, run_ite] at hsend
  split at hsend
  case isTrue =>
    split at hsend
    case h_1 _ _ hgenerate =>
      cases hsend
      exact of_generateSamples hgenerate
    case h_2 => cases hsend
  case isFalse => cases hsend

theorem packetTime_toInt :
    (c.samplesGenerated * c.deltaT + c.microSecondsFromEpochToStartTime.toUInt64).toInt64.toInt =
      c.samplesGenerated.toNat * c.deltaT.toNat + c.microSecondsFromEpochToStartTime.toInt -
        c.overflows * 2 ^ 64 := by
  have hproduct : (c.samplesGenerated.toBitVec * c.deltaT.toBitVec).toInt =
      (c.samplesGenerated.toNat * c.deltaT.toNat : ℤ).bmod (2 ^ 64) := by
    rw [BitVec.toInt_mul, BitVec.toInt_eq_toNat_bmod, BitVec.toInt_eq_toNat_bmod, Int.bmod_mul_bmod,
      Int.mul_bmod_bmod]
    rfl
  change (c.samplesGenerated.toBitVec * c.deltaT.toBitVec +
    c.microSecondsFromEpochToStartTime.toBitVec).toInt = _
  rw [BitVec.toInt_add, hproduct, Int.bmod_add_bmod, Int.bmod_eq_self_sub_bdiv_mul]
  rfl

theorem onTimeLine_iff {time : ℤ} {active : Bool}
    (h : (collectSamples time active).run c = .ok (some sent) d)
    (hdescriptor : sent.domainPacket.descriptor = some descriptor)
    (hdenominator : descriptor.tickResolution.denominator.toInt ≠ 0) :
    c.OnTimeLine sent.domainPacket ↔ c.Balanced descriptor.tickResolution := by
  have hunique : c.OnTimeLine sent.domainPacket ↔
      sent.domainPacket.offset.toInt * descriptor.tickResolution.toRat =
        (c.microSecondsFromEpochToStartTime.toInt : ℚ) / 10 ^ 6 +
          c.samplesGenerated.toNat * c.deltaT.toNat * descriptor.tickResolution.toRat := by
    simp only [OnTimeLine, hdescriptor, Option.some.injEq, exists_eq_left']
  have hpos : (descriptor.tickResolution.denominator.toInt : ℚ) ≠ 0 := by exact_mod_cast hdenominator
  rw [hunique, collectSamples_offset h, packetTime_toInt, Ratio.toRat, Balanced, ← @Int.cast_inj ℚ]
  push_cast
  field_simp
  constructor
  case mp => intro heq; linarith
  case mpr => intro heq; linarith

end Channel

open Channel

theorem timeLine_iff [Platform] {c d : Channel} {time : ℤ} {active : Bool} {sent : Sent Double}
    {descriptor : TimeDescriptor} (start base steadyTime : ℤ)
    (h : (collectSamples time active).run c = .ok (some sent) d)
    (hdescriptor : sent.domainPacket.descriptor = some descriptor)
    (hdenominator : descriptor.tickResolution.denominator.toInt ≠ 0) :
    (c.OnTimeLine sent.domainPacket ↔ c.Balanced descriptor.tickResolution) ∧
      ((Clock.initClock start base).OnTimeLine steadyTime ↔ base + (steadyTime - start) = 0) :=
  ⟨onTimeLine_iff h hdescriptor hdenominator, Clock.onTimeLine_iff⟩

-- The ticks of the channel are microseconds, and the clock of the device reads the epoch.
theorem timeLine_iff_microseconds :
    let _ := Platform.exact
    let new : Channel := {
      startTime                        := 0
      microSecondsFromEpochToStartTime := 1700000000000000
      valueArrayBuffer                 := valueArrayDefault }
    let c := (dataSourceChanged.run new).state
    ∃ sent d, (collectSamples 5000 true).run c = .ok (some sent) d ∧
      c.OnTimeLine sent.domainPacket ∧ (Clock.initClock 7 0).OnTimeLine 7 := by
  intro _ new c
  have hsample : ((collectSamples 5000 true).run c).value?.join.map (·.domainPacket.descriptor) =
      some (some ⟨⟨1, 1000000⟩, 1000, str "AI1Time"⟩) := by decide +kernel
  obtain ⟨sent, hsent, hdescriptor⟩ := Option.map_eq_some_iff.mp hsample
  have hrun := Result.eq_ok_of_value? (Option.join_eq_some_iff.mp hsent)
  obtain ⟨hpacket, hclock⟩ := timeLine_iff 7 0 7 hrun hdescriptor (by decide)
  have hbalanced : c.Balanced ⟨1, 1000000⟩ :=
    (balanced_iff (by decide +kernel)).mpr (.inr (by decide))
  exact ⟨sent, _, hrun, hpacket.mpr hbalanced, hclock.mpr (by norm_num)⟩

-- The samples of a file that counts milliseconds are thousands of years ahead, and the clock of the
-- device never gets past 1970.
theorem not_onTimeLine_milliseconds :
    let _ := Platform.exact
    let file := str "T,V\nresolution=1/1000;delta=1\n0,1\n"
    let new : Channel := {
      startTime                        := 0
      microSecondsFromEpochToStartTime := 1700000000000000 }
    let load := Write.filePath (str "slow.csv") (some file)
    let c := (load.handle.run { new with dataSource := .file }).state
    (∃ sent d, (collectSamples 5000 true).run c = .ok (some sent) d ∧
      ¬c.OnTimeLine sent.domainPacket) ∧ ¬(Clock.initClock 0 1700000000000000).OnTimeLine 5000 := by
  intro _ file new load c
  have hsample : ((collectSamples 5000 true).run c).value?.join.map (·.domainPacket.descriptor) =
      some (some ⟨⟨1, 1000⟩, 1, str "T"⟩) := by decide +kernel
  obtain ⟨sent, hsent, hdescriptor⟩ := Option.map_eq_some_iff.mp hsample
  have hrun := Result.eq_ok_of_value? (Option.join_eq_some_iff.mp hsent)
  have hunbalanced : ¬c.Balanced ⟨1, 1000⟩ := by
    rw [balanced_iff (by decide +kernel)]
    decide +kernel
  refine ⟨⟨sent, _, hrun, ?_⟩, ?_⟩
  case refine_1 => rwa [onTimeLine_iff hrun hdescriptor (by decide)]
  case refine_2 =>
    rw [Clock.onTimeLine_iff]
    norm_num

end PlaybackDevice
