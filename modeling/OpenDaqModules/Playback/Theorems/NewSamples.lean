import OpenDaqModules.Playback.Counting
import OpenDaqModules.Playback.Steps

namespace PlaybackDevice

open EStateM
open Platform (Double)
open Sie (str)

namespace Channel

variable [Platform] {c d : Channel} {startTime : ℤ} {base : Int64} {rate : UInt64}

-- When samples were collected for the last time, or else the start.
def since (c : Channel) : ℤ :=
  max c.lastCollectTime c.startTime

-- At that time the samples of a rate, as doubles count them, are no fewer than `samplesGenerated`,
-- and the exact ones at most one more.
def CountsAt (c : Channel) (rate : UInt64) : Prop :=
  c.samplesGenerated.toNat ≤ periods (c.since - c.startTime) rate ∧
    (c.since - c.startTime) * rate.toNat ≤ (c.samplesGenerated.toNat + 1) * 1000000

-- A call of `collectSamples` at that time subtracts without underflow, and finds no more than one
-- sample above the periods that have elapsed.
def NeverWraps (c : Channel) (time : ℤ) : Prop :=
  ∀ n, c.getSamplesSinceStart time = .ok n → c.samplesGenerated ≤ n ∧
    (n - c.samplesGenerated).toNat ≤ (time - c.since).toNat * c.sampleRate.toNat / 1000000 + 1

theorem CountsAt.neverWraps (hround : Platform.Rounds) (h : c.CountsAt c.sampleRate) {time : ℤ}
    (htime : c.since ≤ time) (hprecise : Precise (time - c.startTime) c.sampleRate) :
    c.NeverWraps time := by
  intro n hsince
  obtain ⟨hlow, hhigh⟩ := h
  have hstart : c.startTime ≤ c.since := le_max_right _ _
  have hnonneg : 0 ≤ periods (time - c.startTime) c.sampleRate :=
    periods_nonneg hround (by omega)
  have hn : n.toNat = count (time - c.startTime) c.sampleRate :=
    toNat_of_getSamplesSinceStart hnonneg hsince
  have hle : c.samplesGenerated ≤ n := by
    rw [UInt64.le_iff_toNat_le, hn]
    exact Nat.le_floor (hlow.trans (periods_mono hround (by omega) (by omega)))
  refine ⟨hle, ?_⟩
  have hcount := (hprecise.count_bounds hnonneg).left
  rw [UInt64.toNat_sub_of_le _ _ hle]
  rw [← hn] at hcount
  have hsplit : (time - c.startTime) * c.sampleRate.toNat =
      (c.since - c.startTime) * c.sampleRate.toNat + (time - c.since).toNat * c.sampleRate.toNat := by
    rw [Int.toNat_of_nonneg (by omega)]
    ring
  rw [hsplit] at hcount
  norm_cast at hcount hhigh ⊢
  omega

-- Everything that decides on the counts and on the next rate.
structure SameCounts (c d : Channel) : Prop where
  startTime_eq        : d.startTime = c.startTime
  lastCollectTime_eq  : d.lastCollectTime = c.lastCollectTime
  samplesGenerated_eq : d.samplesGenerated = c.samplesGenerated
  sampleRate_eq       : d.sampleRate = c.sampleRate
  deltaT_eq           : d.deltaT = c.deltaT
  fileRate_eq         : d.fileRate = c.fileRate
  sourceBuffer_eq     : d.sourceBuffer = c.sourceBuffer

namespace SameCounts

theorem refl : SameCounts c c := by
  constructor <;> rfl

instance : Std.Refl SameCounts :=
  ⟨fun _ => refl⟩

theorem trans {e : Channel} (h : SameCounts c d) (h' : SameCounts d e) : SameCounts c e where
  startTime_eq        := h'.startTime_eq.trans h.startTime_eq
  lastCollectTime_eq  := h'.lastCollectTime_eq.trans h.lastCollectTime_eq
  samplesGenerated_eq := h'.samplesGenerated_eq.trans h.samplesGenerated_eq
  sampleRate_eq       := h'.sampleRate_eq.trans h.sampleRate_eq
  deltaT_eq           := h'.deltaT_eq.trans h.deltaT_eq
  fileRate_eq         := h'.fileRate_eq.trans h.fileRate_eq
  sourceBuffer_eq     := h'.sourceBuffer_eq.trans h.sourceBuffer_eq

instance : IsTrans Channel SameCounts :=
  ⟨fun _ _ _ => trans⟩

theorem rated (h : SameCounts c d) {r : UInt64} :
    SameCounts { c with sampleRate := r } { d with sampleRate := r } where
  startTime_eq        := h.startTime_eq
  lastCollectTime_eq  := h.lastCollectTime_eq
  samplesGenerated_eq := h.samplesGenerated_eq
  sampleRate_eq       := rfl
  deltaT_eq           := h.deltaT_eq
  fileRate_eq         := h.fileRate_eq
  sourceBuffer_eq     := h.sourceBuffer_eq

theorem collected (h : SameCounts c d) {n : UInt64} {time : ℤ} :
    SameCounts { c with samplesGenerated := n, lastCollectTime := time }
      { d with samplesGenerated := n, lastCollectTime := time } where
  startTime_eq        := h.startTime_eq
  lastCollectTime_eq  := rfl
  samplesGenerated_eq := rfl
  sampleRate_eq       := h.sampleRate_eq
  deltaT_eq           := h.deltaT_eq
  fileRate_eq         := h.fileRate_eq
  sourceBuffer_eq     := h.sourceBuffer_eq

theorem of_signals (h : SameButSignals c d) : SameCounts c d := by
  obtain ⟨_, _, _, rfl⟩ := h
  constructor <;> rfl

theorem of_played (h : Played c d) : SameCounts c d := by
  obtain ⟨_, _, rfl⟩ := h
  constructor <;> rfl

end SameCounts

theorem sameCounts_applyDataSource : SameCounts c c.applyDataSource := by
  rw [applyDataSource_eq]
  constructor <;> rfl

-- The data source assigns the rate.
structure AssignsRate (c : Channel) : Prop where
  removed  : (removeChannelSignals.run c).Returns
  nonempty : c.sourceBuffer ≠ []
  divides  : c.deltaT ≠ 0

-- A data source changes the rate at most to that of the data it brings, and leaves the counts.
theorem dataSourceChanged_state : ∃ r, SameCounts { c with sampleRate := r }
    (dataSourceChanged.run c).state ∧ (r = c.sampleRate ∨ c.AssignsRate ∧ r = c.fileRate) := by
  have hremoved := SameCounts.of_signals (removeChannelSignals_keeps c)
  rw [dataSourceChanged, run_bind]
  cases hrun : removeChannelSignals.run c
  case error e d =>
    rw [hrun] at hremoved
    exact ⟨c.sampleRate, hremoved, .inl rfl⟩
  case ok _ d =>
    rw [hrun] at hremoved
    have happlied : SameCounts c d.applyDataSource := hremoved.trans sameCounts_applyDataSource
    have hbuffer : d.applyDataSource.dataBuffer = c.sourceBuffer := by
      rw [applyDataSource_eq]
      exact hremoved.sourceBuffer_eq
    simp only [run_bind, run_modify]
    generalize d.applyDataSource = a at happlied hbuffer
    rw [replaceMetaData_run]
    by_cases hempty : a.dataBuffer = []
    case pos =>
      rw [if_pos hempty]
      exact ⟨c.sampleRate, happlied, .inl rfl⟩
    case neg =>
      rw [if_neg hempty]
      by_cases hdelta : a.deltaT = 0
      case pos =>
        rw [if_pos hdelta]
        exact ⟨c.sampleRate, happlied, .inl rfl⟩
      case neg =>
        rw [if_neg hdelta]
        refine ⟨a.fileRate, ?_, .inr ⟨⟨?_, ?_, ?_⟩, happlied.fileRate_eq⟩⟩
        · exact happlied.rated.trans (.of_signals (createSignals_keeps _))
        · rw [hrun]
          exact Result.returns_ok
        · rwa [hbuffer] at hempty
        · rwa [happlied.deltaT_eq] at hdelta

-- A call either fails and leaves the counts as they were, or brings them up to date.
theorem collectSamples_state (time : ℤ) (active : Bool) :
    SameCounts c ((collectSamples time active).run c).state ∨
      ∃ n, c.getSamplesSinceStart time = .ok n ∧
        SameCounts { c with samplesGenerated := n, lastCollectTime := time }
          ((collectSamples time active).run c).state := by
  cases hsince : c.getSamplesSinceStart time
  case error e =>
    rw [collectSamples_run_error hsince]
    exact .inl SameCounts.refl
  case ok n =>
    by_cases hsame : n = c.samplesGenerated
    case pos =>
      rw [collectSamples_run_ok hsince (collectNewSamples_run_of_eq hsame)]
      refine .inr ⟨n, rfl, ?_⟩
      rw [hsame]
      exact SameCounts.refl
    case neg =>
      have hsent : SameCounts c ((sendSamples (n - c.samplesGenerated) active).run c).state :=
        .of_played (sendSamples_keeps c)
      cases hrun : (sendSamples (n - c.samplesGenerated) active).run c
      case error e d =>
        rw [hrun] at hsent
        rw [collectSamples_run_throws hsince (collectNewSamples_run_throws hsame hrun)]
        exact .inl hsent
      case ok sent d =>
        rw [hrun] at hsent
        rw [collectSamples_run_ok hsince (collectNewSamples_run_of_ne hsame hrun)]
        exact .inr ⟨n, rfl, hsent.collected⟩

namespace CountsAt

theorem congr (h : c.CountsAt rate) (hstart : d.startTime = c.startTime)
    (hlast : d.lastCollectTime = c.lastCollectTime)
    (hgenerated : d.samplesGenerated = c.samplesGenerated) : d.CountsAt rate := by
  rw [CountsAt, since, hstart, hlast, hgenerated]
  exact h

-- Right after a collection the count is that of the rate in force.
theorem collected (hround : Platform.Rounds) {time : ℤ} {n : UInt64} (htime : c.since ≤ time)
    (hprecise : Precise (time - c.startTime) c.sampleRate)
    (hsince : c.getSamplesSinceStart time = .ok n) :
    CountsAt { c with samplesGenerated := n, lastCollectTime := time } c.sampleRate := by
  have hstart : c.startTime ≤ time := (le_max_right _ _).trans htime
  have hmax : max time c.startTime = time := max_eq_left hstart
  have hnonneg : 0 ≤ periods (time - c.startTime) c.sampleRate :=
    periods_nonneg hround (by omega)
  have hn : n.toNat = count (time - c.startTime) c.sampleRate :=
    toNat_of_getSamplesSinceStart hnonneg hsince
  simp only [CountsAt, since, hmax, hn]
  exact ⟨Nat.floor_le hnonneg, (hprecise.count_bounds hnonneg).right⟩

-- Nothing is to be counted before the first collection.
theorem initial (hround : Platform.Rounds) (hstart : c.startTime = c.since)
    (hgenerated : c.samplesGenerated = 0) : c.CountsAt rate := by
  rw [CountsAt, ← hstart, hgenerated, sub_self]
  exact ⟨by simpa using periods_nonneg hround le_rfl, by simp⟩

end CountsAt

theorem countsAt_of_initProperties (hround : Platform.Rounds) (hstart : 0 ≤ startTime)
    (h : initProperties.run { startTime, microSecondsFromEpochToStartTime := base } = .ok () c) :
    c.CountsAt rate := by
  obtain ⟨d, hfirst, hsecond⟩ := of_initProperties h
  let new : Channel := {
    startTime
    microSecondsFromEpochToStartTime := base
    valueArrayBuffer                 := valueArrayDefault
  }
  obtain ⟨r, hsame, -⟩ := dataSourceChanged_state (c := new)
  obtain ⟨r', hsame', -⟩ := dataSourceChanged_state (c := d)
  rw [hfirst, Result.state_ok] at hsame
  rw [hsecond, Result.state_ok] at hsame'
  have hstartTime : c.startTime = startTime := hsame'.startTime_eq.trans hsame.startTime_eq
  have hlast : c.lastCollectTime = 0 := hsame'.lastCollectTime_eq.trans hsame.lastCollectTime_eq
  apply CountsAt.initial hround
  case hgenerated => exact hsame'.samplesGenerated_eq.trans hsame.samplesGenerated_eq
  case hstart =>
    rw [since, hlast, hstartTime]
    exact (max_eq_right hstart).symm

end Channel

variable [Platform] {c d : Channel} {w : Write} {e : Event} {events : List Event}

-- Where a write assigns the rate, it assigns the one in force, or one at which the samples generated
-- so far would have been as many.
def Write.KeepsCount (w : Write) (c : Channel) : Prop :=
  ∀ d, w.prepare.run c = .ok () d → d.AssignsRate →
    d.fileRate = c.sampleRate ∨ c.CountsAt d.fileRate

theorem Write.keepsCount_valueArray {values : List Double} (h : c.fileRate = c.sampleRate) :
    (Write.valueArray values).KeepsCount c := by
  intro d hprepare _
  cases hprepare
  exact .inl h

def Event.KeepsCount : Event → Channel → Prop
  | .write property, c    => property.KeepsCount c
  | .zero _, _            => True
  | .collect curTime _, c => Channel.Precise (curTime - c.startTime) c.sampleRate

-- No time is earlier than the one before.
def Event.InOrder : Event → Channel → Prop
  | .write _, _           => True
  | .zero _, _            => True
  | .collect curTime _, c => c.since ≤ curTime

theorem Write.countsAt (hkeeps : w.KeepsCount c) (h : c.CountsAt c.sampleRate) :
    (w.handle.run c).state.CountsAt (w.handle.run c).state.sampleRate := by
  have huntouched : Untouched c (w.prepare.run c).state := w.prepare_untouched
  cases hprepare : w.prepare.run c
  case error error d =>
    rw [hprepare, Result.state_error] at huntouched
    rw [w.handle_run_error hprepare, Result.state_error, huntouched.sampleRate_eq]
    exact h.congr huntouched.startTime_eq huntouched.lastCollectTime_eq huntouched.samplesGenerated_eq
  case ok _ d =>
    rw [hprepare, Result.state_ok] at huntouched
    obtain ⟨r, hsame, hrate⟩ := Channel.dataSourceChanged_state (c := d)
    have hcounts : c.CountsAt r := by
      rcases hrate with hunchanged | ⟨hassigns, hfile⟩
      case inl => rwa [hunchanged, huntouched.sampleRate_eq]
      case inr =>
        rcases hkeeps d hprepare hassigns with hequal | hcounts
        case inl => rwa [hfile, hequal]
        case inr => rwa [hfile]
    rw [w.handle_run_ok hprepare, hsame.sampleRate_eq]
    refine hcounts.congr ?_ ?_ ?_
    · exact hsame.startTime_eq.trans huntouched.startTime_eq
    · exact hsame.lastCollectTime_eq.trans huntouched.lastCollectTime_eq
    · exact hsame.samplesGenerated_eq.trans huntouched.samplesGenerated_eq

theorem Event.countsAt (hround : Platform.Rounds) (horder : e.InOrder c)
    (hkeeps : e.KeepsCount c) (h : c.CountsAt c.sampleRate) :
    (e.step.run c).state.CountsAt (e.step.run c).state.sampleRate := by
  cases e
  case write w => exact w.countsAt hkeeps h
  case zero targetValue => exact h
  case collect curTime active =>
    rw [collect_state]
    rcases Channel.collectSamples_state (c := c) curTime active with hsame | ⟨n, hsince, hsame⟩
    case inl =>
      rw [hsame.sampleRate_eq]
      exact h.congr hsame.startTime_eq hsame.lastCollectTime_eq hsame.samplesGenerated_eq
    case inr =>
      rw [hsame.sampleRate_eq]
      exact (Channel.CountsAt.collected hround horder hkeeps hsince).congr hsame.startTime_eq
        hsame.lastCollectTime_eq hsame.samplesGenerated_eq

-- In the runs from a new channel that call `collectSamples` in the order of time, the count never
-- wraps while no write brings a rate at which it is another one, and no double product is rounded
-- beyond an integer.
theorem Channel.neverWraps_of_run (hround : Platform.Rounds) {startTime : ℤ} {base : Int64}
    (hstart : 0 ≤ startTime)
    (hcreate : initProperties.run { startTime, microSecondsFromEpochToStartTime := base } = .ok () c)
    {time : ℤ} {active : Bool}
    (horder : Exec.Along Event.step Event.InOrder (events ++ [.collect time active]) c)
    (hkeeps : Exec.Along Event.step Event.KeepsCount (events ++ [.collect time active]) c) :
    (Exec.run Event.step events c).NeverWraps time := by
  obtain ⟨horder, hlater, -⟩ := Exec.along_append.mp horder
  obtain ⟨hkeeps, hprecise, -⟩ := Exec.along_append.mp hkeeps
  have hcounts : CountsAt (Exec.run Event.step events c) (Exec.run Event.step events c).sampleRate := by
    refine Exec.run_invariant_along (P := fun c => c.CountsAt c.sampleRate) ?_ (horder.and hkeeps) ?_
    case refine_1 => exact countsAt_of_initProperties hround hstart hcreate
    case refine_2 => exact fun _ _ h hstep => Event.countsAt hround hstep.left hstep.right h
  exact hcounts.neverWraps hround hlater hprecise

omit [Platform] in
theorem Channel.neverWraps_of_run_other_values : let _ := Platform.binary64
    let new : Channel := { startTime := 5, microSecondsFromEpochToStartTime := 0 }
    let events := [.collect 1001005 true, .write (.valueArray [(7 : ℚ)])]
    (Exec.run Event.step events (initProperties.run new).state).samplesGenerated = 1000 ∧
      (Exec.run Event.step events (initProperties.run new).state).NeverWraps 1002005 := by
  intro _ new events
  have hround : Platform.Rounds := fun _ => rfl
  have hfirst : (initProperties.run new).state.since ≤ 1001005 := by decide +kernel
  have hsecond : (Exec.run Event.step events (initProperties.run new).state).since ≤ 1002005 := by
    decide +kernel
  have horder : Exec.Along Event.step Event.InOrder (events ++ [.collect 1002005 true])
      (initProperties.run new).state := ⟨hfirst, trivial, hsecond, trivial⟩
  have hprecise : ∀ c : Channel, c.startTime = 5 → c.sampleRate = 1000 → ∀ time : ℤ, 5 ≤ time →
      time < 2 ^ 52 → Precise (time - c.startTime) c.sampleRate := by
    intro c hstart hrate time hlow hhigh
    have hfactor : c.sampleRate.toNat = 1000 * 1 := by
      rw [hrate]
      rfl
    exact precise_of_lt hround (by omega) hfactor (by decide : 1000 * 1000 = 1000000) (by omega)
      (by omega) (by omega)
  obtain ⟨⟨⟩, hcreate⟩ := Result.returns_iff.mp (by decide +kernel : (initProperties.run new).Returns)
  refine ⟨by decide +kernel, neverWraps_of_run hround (by decide) hcreate horder ?_⟩
  refine Exec.along_append.mpr
    ⟨⟨?_, Write.keepsCount_valueArray (by decide +kernel), trivial⟩, ?_, trivial⟩
  case refine_1 =>
    exact hprecise _ (by decide +kernel) (by decide +kernel) 1001005 (by decide) (by decide)
  case refine_2 =>
    exact hprecise _ (by decide +kernel) (by decide +kernel) 1002005 (by decide) (by decide)

omit [Platform] in
-- A file with fewer samples a second than were generated before makes the count wrap.
theorem Channel.wraps_slower_file : let _ := Platform.binary64
    let new : Channel := { startTime := 0, microSecondsFromEpochToStartTime := 0 }
    let file := str "T,V\nresolution=1/1000;delta=100\n0,1\n"
    let events := [.collect 100000 true, .write (.filePath (str "slow.csv") (some file)),
      .write (.dataSource .file)]
    (initProperties.run new).Returns ∧
      ¬(Exec.run Event.step events (initProperties.run new).state).NeverWraps 200000 := by
  intro _ new file events
  refine ⟨by decide +kernel, fun h => ?_⟩
  have hwrapped := h 2 (by decide +kernel)
  exact absurd hwrapped.left (by decide +kernel)

end PlaybackDevice
