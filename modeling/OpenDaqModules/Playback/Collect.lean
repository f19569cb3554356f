import Mathlib.Algebra.Order.Floor.Semifield
import OpenDaqModules.Library.Looped
import OpenDaqModules.Playback.DataSource

namespace PlaybackDevice.Channel

open EStateM
open Platform (Double)

variable [Platform] {c d : Channel} {time : ℤ} {n : UInt64} {active : Bool} {l : Looped Double}
variable {value : SignalConfig ValueDescriptor} {timing : SignalConfig TimeDescriptor}

theorem getSamplesSinceStart_of_periods (h : 0 ≤ periods (time - c.startTime) c.sampleRate) :
    c.getSamplesSinceStart time =
      if ⌊periods (time - c.startTime) c.sampleRate⌋₊ < 2 ^ 64 then
        .ok (UInt64.ofNat ⌊periods (time - c.startTime) c.sampleRate⌋₊)
      else .error .undefinedBehaviour := by
  simp only [getSamplesSinceStart]
  generalize periods (time - c.startTime) c.sampleRate = periods at h ⊢
  have htruncated : periods.num.tdiv periods.den = (⌊periods⌋₊ : ℤ) := by
    rw [Int.tdiv_eq_ediv_of_nonneg (Rat.num_nonneg.mpr h), Int.natCast_floor_eq_floor h,
      Rat.floor_def']
  rw [htruncated, Int.toNat_natCast]
  by_cases hfits : ⌊periods⌋₊ < 2 ^ 64
  case pos => rw [if_pos hfits, if_pos (by omega)]
  case neg => rw [if_neg hfits, if_neg (by omega)]

theorem toNat_of_getSamplesSinceStart (h : 0 ≤ periods (time - c.startTime) c.sampleRate)
    (hsince : c.getSamplesSinceStart time = .ok n) :
    n.toNat = ⌊periods (time - c.startTime) c.sampleRate⌋₊ := by
  rw [getSamplesSinceStart_of_periods h] at hsince
  split at hsince
  case isTrue hfits =>
    cases hsince
    rw [UInt64.toNat_ofNat', Nat.mod_eq_of_lt hfits]
  case isFalse => cases hsince

-- The count that `getSamplesSinceStart` stands for.
def samplesSinceStart (c : Channel) (time : ℤ) : ℕ :=
  (time - c.startTime).toNat * c.sampleRate.toNat / 1000000

theorem floor_periods_of_exact (hexact : Platform.Exact) (h : c.startTime ≤ time) :
    0 ≤ periods (time - c.startTime) c.sampleRate ∧
      ⌊periods (time - c.startTime) c.sampleRate⌋₊ = c.samplesSinceStart time := by
  have hperiods : periods (time - c.startTime) c.sampleRate =
      (((time - c.startTime).toNat * c.sampleRate.toNat : ℕ) : ℚ) / (1000000 : ℕ) := by
    have helapsed : ((time - c.startTime : ℤ) : ℚ) = ((time - c.startTime).toNat : ℕ) := by
      have hint : time - c.startTime = ((time - c.startTime).toNat : ℤ) := by omega
      exact_mod_cast congrArg (Int.cast : ℤ → ℚ) hint
    rw [periods, hexact, hexact, hexact, hexact, helapsed]
    push_cast
    ring
  rw [hperiods, Nat.floor_div_eq_div]
  exact ⟨by positivity, rfl⟩

theorem getSamplesSinceStart_of_exact (hexact : Platform.Exact) (h : c.startTime ≤ time) :
    c.getSamplesSinceStart time =
      if c.samplesSinceStart time < 2 ^ 64 then .ok (UInt64.ofNat (c.samplesSinceStart time))
      else .error .undefinedBehaviour := by
  obtain ⟨hnonneg, hfloor⟩ := floor_periods_of_exact hexact h
  rw [getSamplesSinceStart_of_periods hnonneg, hfloor]

theorem playBuffer_eq {zeroOffset : Double} {i k : ℕ} (h : i < l.items.length) :
    playBuffer l.items zeroOffset k i =
      .ok ((l.window i k).map (Platform.add · zeroOffset), (i + k) % l.items.length) := by
  induction k generalizing i
  case zero => simp [playBuffer, Nat.mod_eq_of_lt h]
  case succ k ih =>
    have hmod : (i + 1) % l.items.length < l.items.length := Nat.mod_lt _ l.nonempty
    have hend : ((i + 1) % l.items.length + k) % l.items.length = (i + (k + 1)) % l.items.length := by
      rw [Nat.mod_add_mod, Nat.add_assoc, Nat.add_comm 1 k]
    simp only [playBuffer, Looped.getElem?_items h, Looped.cursor_eq_mod h, ih hmod,
      Looped.window_mod, Looped.window_succ, hend]
    rfl

-- Playing moves the cursor and the value that is kept.
def Played (c d : Channel) : Prop :=
  ∃ dataBufferIndex lastValue, d = { c with dataBufferIndex, lastValue }

instance : Std.Refl Played :=
  ⟨fun c => ⟨c.dataBufferIndex, c.lastValue, rfl⟩⟩

instance : IsTrans Channel Played where
  trans := by
    rintro _ _ _ ⟨_, _, rfl⟩ ⟨dataBufferIndex, lastValue, rfl⟩
    exact ⟨dataBufferIndex, lastValue, rfl⟩

theorem generateSamples_keeps {curTime : Int64} {newSamples : UInt64} :
    Keeps Played (generateSamples curTime newSamples) := by
  apply Keeps.get_bind
  intro c
  cases htime : c.timeSignal
  case none => exact refl_of Played c
  case some timing =>
    change Played c (EStateM.run (if c.dataBuffer.isEmpty then _ else _) c).state
    split
    case isTrue => exact refl_of Played c
    case isFalse =>
      cases hvalue : c.valueSignal
      case none => exact refl_of Played c
      case some value =>
        cases playBuffer c.dataBuffer c.zeroOffset newSamples.toNat c.dataBufferIndex
        case error => exact refl_of Played c
        case ok played =>
          refine ⟨played.2, played.1.head?.elim c.lastValue (Platform.sub · c.zeroOffset), ?_⟩
          cases c
          cases hvalue
          cases htime
          rfl

theorem sendSamples_keeps {newSamples : UInt64} {active : Bool} :
    Keeps Played (sendSamples newSamples active) := by
  refine Keeps.bind Keeps.get fun _ => Keeps.ite (fun _ => ?_) fun _ => Keeps.pure
  exact Keeps.bind generateSamples_keeps fun _ => Keeps.pure

omit [Platform] in
theorem newSamples_pos {g : UInt64} (h : n ≠ g) : n - g > 0 := by
  refine UInt64.pos_iff_ne_zero.mpr fun hzero => h ?_
  rwa [UInt64.sub_eq_iff_eq_add, UInt64.zero_add] at hzero

theorem collectSamples_run : (collectSamples time active).run c =
    match c.getSamplesSinceStart time with
    | .error e => .error e c
    | .ok n    =>
      match (collectNewSamples n active).run c with
      | .error e d => .error e d
      | .ok sent d => .ok sent { d with lastCollectTime := time } := by
  rw [collectSamples, run_bind, run_get]
  dsimp only
  rw [run_bind]
  cases c.getSamplesSinceStart time
  case error e => rfl
  case ok n =>
    dsimp only
    change (collectNewSamples n active >>= fun sent => _).run c = _
    rw [run_bind]
    cases (collectNewSamples n active).run c <;> rfl

theorem collectSamples_run_error {e : Error} (hsince : c.getSamplesSinceStart time = .error e) :
    (collectSamples time active).run c = .error e c := by
  rw [collectSamples_run, hsince]

theorem collectSamples_run_throws {e : Error} (hsince : c.getSamplesSinceStart time = .ok n)
    (hnew : (collectNewSamples n active).run c = .error e d) :
    (collectSamples time active).run c = .error e d := by
  simp only [collectSamples_run, hsince, hnew]

theorem collectSamples_run_ok (hsince : c.getSamplesSinceStart time = .ok n)
    {sent : Option (Sent Double)} (hnew : (collectNewSamples n active).run c = .ok sent d) :
    (collectSamples time active).run c = .ok sent { d with lastCollectTime := time } := by
  simp only [collectSamples_run, hsince, hnew]

theorem collectNewSamples_run_of_eq (h : n = c.samplesGenerated) :
    (collectNewSamples n active).run c = .ok none c := by
  have hnone : ¬n - c.samplesGenerated > 0 := by
    rw [h, UInt64.sub_self]
    exact UInt64.lt_irrefl 0
  simp only [collectNewSamples, run_bind, run_get, hnone, if_false]
  rfl

theorem collectNewSamples_run_throws {e : Error} (h : n ≠ c.samplesGenerated)
    (hsend : (sendSamples (n - c.samplesGenerated) active).run c = .error e d) :
    (collectNewSamples n active).run c = .error e d := by
  simp only [collectNewSamples, run_bind, run_get, newSamples_pos h, if_true, hsend]

theorem collectNewSamples_run_of_ne (h : n ≠ c.samplesGenerated) {sent : Option (Sent Double)}
    (hsend : (sendSamples (n - c.samplesGenerated) active).run c = .ok sent d) :
    (collectNewSamples n active).run c = .ok sent { d with samplesGenerated := n } := by
  simp only [collectNewSamples, run_bind, run_get, newSamples_pos h, if_true, hsend, run_modify]
  rfl

-- Without signals only the counters move.
theorem collectSamples_run_of_none (hvalue : c.valueSignal = none)
    (hsince : c.getSamplesSinceStart time = .ok n) : (collectSamples time active).run c =
      .ok none { c with samplesGenerated := n, lastCollectTime := time } := by
  by_cases hsame : n = c.samplesGenerated
  case pos =>
    rw [collectSamples_run_ok hsince (collectNewSamples_run_of_eq hsame), hsame]
  case neg =>
    have hsend : (sendSamples (n - c.samplesGenerated) active).run c = .ok none c := by
      simp only [sendSamples, run_bind, run_get, hvalue, Option.isSome_none, Bool.false_and,
        Bool.false_eq_true, if_false]
      rfl
    exact collectSamples_run_ok hsince (collectNewSamples_run_of_ne hsame hsend)

-- A channel that holds both of its signals and a buffer to play.
structure Loaded (c : Channel) (l : Looped Double) (value : SignalConfig ValueDescriptor)
    (timing : SignalConfig TimeDescriptor) : Prop where
  valueSignal_eq : c.valueSignal = some value
  timeSignal_eq  : c.timeSignal = some timing
  dataBuffer_eq  : c.dataBuffer = l.items
  index_lt       : c.dataBufferIndex < l.items.length

-- What is sent of the `k` samples from number `g` on, with the buffer played up to position `i`.
def sentAt (c : Channel) (l : Looped Double) (value : SignalConfig ValueDescriptor)
    (timing : SignalConfig TimeDescriptor) (i : ℕ) (g k : UInt64) : Sent Double :=
  let packetTime := g * c.deltaT + c.microSecondsFromEpochToStartTime.toUInt64
  let domainPacket := ⟨timing.descriptor, k, packetTime.toInt64⟩
  let rawData := (l.window i k.toNat).map (Platform.add · c.zeroOffset)
  ⟨some ⟨value.descriptor, domainPacket, k, rawData⟩, domainPacket⟩

-- The value that is kept of such a packet: its first one, without the offset that was added to it.
def lastValueAt (c : Channel) (l : Looped Double) (i k : ℕ) : Double :=
  ((l.window i k).map (Platform.add · c.zeroOffset)).head?.elim c.lastValue
    (Platform.sub · c.zeroOffset)

namespace Loaded

theorem generateSamples_run (h : c.Loaded l value timing) {g k : UInt64} : (generateSamples
        (g * c.deltaT + c.microSecondsFromEpochToStartTime.toUInt64).toInt64 k).run c =
      .ok (c.sentAt l value timing c.dataBufferIndex g k)
        { c with
          dataBufferIndex := (c.dataBufferIndex + k.toNat) % l.items.length
          lastValue       := c.lastValueAt l c.dataBufferIndex k.toNat } := by
  have hbuffer : l.items.isEmpty = false := by
    rw [List.isEmpty_eq_false_iff]
    exact List.length_pos_iff.mp l.nonempty
  simp only [generateSamples, run_bind, run_get, h.valueSignal_eq, h.timeSignal_eq,
    h.dataBuffer_eq, hbuffer, playBuffer_eq h.index_lt, ofExcept_ok]
  rfl

theorem sendSamples_run (h : c.Loaded l value timing) (active : Bool) {k : UInt64} :
    (sendSamples k active).run c =
      .ok (if active then some (c.sentAt l value timing c.dataBufferIndex c.samplesGenerated k)
        else none)
        { c with
          dataBufferIndex := (c.dataBufferIndex + if active then k.toNat else 0) % l.items.length
          lastValue       := c.lastValueAt l c.dataBufferIndex (if active then k.toNat else 0) } := by
  cases active
  case false =>
    have hmod : c.dataBufferIndex % l.items.length = c.dataBufferIndex := Nat.mod_eq_of_lt h.index_lt
    simp only [sendSamples, run_bind, run_get, Bool.and_false, Bool.false_eq_true, if_false,
      Nat.add_zero, hmod]
    rfl
  case true =>
    have hrun := h.generateSamples_run (g := c.samplesGenerated) (k := k)
    simp only [sendSamples, run_bind, run_get, h.valueSignal_eq, Option.isSome_some, Bool.and_true,
      if_true, hrun]
    rfl

theorem collectSamples_run (h : c.Loaded l value timing) (active : Bool)
    (hsince : c.getSamplesSinceStart time = .ok n) :
    let k := if active then (n - c.samplesGenerated).toNat else 0
    (collectSamples time active).run c =
      .ok (if active ∧ n ≠ c.samplesGenerated then
          some (c.sentAt l value timing c.dataBufferIndex c.samplesGenerated (n - c.samplesGenerated))
        else none)
        { c with
          samplesGenerated := n
          lastCollectTime  := time
          dataBufferIndex  := (c.dataBufferIndex + k) % l.items.length
          lastValue        := c.lastValueAt l c.dataBufferIndex k } := by
  intro k
  by_cases hsame : n = c.samplesGenerated
  case pos =>
    have hmod : c.dataBufferIndex % l.items.length = c.dataBufferIndex := Nat.mod_eq_of_lt h.index_lt
    rw [collectSamples_run_ok hsince (collectNewSamples_run_of_eq hsame)]
    simp [k, hsame, hmod, lastValueAt]
  case neg =>
    have hrun := h.sendSamples_run active (k := n - c.samplesGenerated)
    rw [collectSamples_run_ok hsince (collectNewSamples_run_of_ne hsame hrun)]
    simp [k, hsame]

end Loaded
end PlaybackDevice.Channel
