import Mathlib.Algebra.Order.Ring.Int
import OpenDaqModules.Playback.AcqLoop

namespace PlaybackDevice.AcqThread

open EStateM

variable {t : AcqThread} {e : Event} {events : List Event} {duration : ℕ} {last : Collection}
variable {rest : List Collection}

-- The last two collections are as far apart as the period in force and the duration of the first one
-- of them demand.
structure OnTime (t : AcqThread) : Prop where
  period  : ∀ {next before rest}, t.collections = next :: before :: rest →
    next.start - before.start = max (milli next.acqLoopTime) before.duration
  not_now : ∀ {next before rest}, t.collections = next :: before :: rest →
    before.duration < milli next.acqLoopTime → before.start + before.duration < next.start

-- What is left of a period.
def pause (loopTime : ℤ) (duration : ℕ) : ℤ :=
  max 0 (loopTime - duration)

-- The pause that is due before the last collection: the one before it, or else the wait for the
-- lock, has used up a part of the period.
def duePause (t : AcqThread) : List Collection → ℤ
  | last :: before :: _ => pause (milli last.acqLoopTime) before.duration
  | _                   => pause t.loopTime t.lockTime

-- The loop counts the due pause as a part of the time that the last collection took, and its period
-- is the one that it has started with.
def Event.Timely : Event → AcqThread → Prop
  | .write _, _ => True
  | .turn _, t  => ∀ last ∈ t.collections.head?,
    let due := t.duePause t.collections
    due + milli t.acqLoopTime = t.loopTime ∨
      milli t.acqLoopTime ≤ last.duration ∧ t.loopTime ≤ due + last.duration

structure Regular (t : AcqThread) : Prop where
  onTime   : t.OnTime
  first    : t.collections = [] → t.now = t.startLoopTime + t.lockTime
  start_eq : ∀ last ∈ t.collections.head?, last.start = t.startLoopTime + t.duePause t.collections
  now_eq   : ∀ last ∈ t.collections.head?, t.now = last.start + last.duration

theorem waitTime_eq : t.waitTime = max 0 (t.loopTime - (t.now - t.startLoopTime)) := by
  rw [waitTime]
  omega

theorem onTime_turn (h : t.collections = []) : (t.turn duration).OnTime := by
  constructor
  all_goals
    intro next before rest hturn
    rw [turn, h] at hturn
    cases hturn

-- After a collection the next one is on time if and only if the thread waits for the rest of the
-- period in force.
theorem onTime_turn_iff (h : t.collections = last :: rest) (hnow : t.now = last.start + last.duration) :
    (t.turn duration).OnTime ↔ t.waitTime = pause (milli t.acqLoopTime) last.duration := by
  have hturn : (t.turn duration).collections =
      ⟨t.now + t.waitTime, duration, t.acqLoopTime⟩ :: last :: rest := congrArg _ h
  rw [pause]
  constructor
  case mp =>
    intro honTime
    have hperiod := honTime.period hturn
    dsimp only at hperiod
    omega
  case mpr =>
    intro hwait
    constructor
    all_goals
      intro next before rest' hnext
      cases hturn.symm.trans hnext
      dsimp only
      omega

theorem Regular.start {acqLoopTime : UInt64} {now : ℤ} {lockTime : ℕ} :
    (start acqLoopTime now lockTime).Regular := by
  refine ⟨⟨?_, ?_⟩, fun _ => rfl, nofun, nofun⟩
  all_goals
    intro next before rest h
    cases h

namespace Regular

variable (h : t.Regular)
include h

theorem updateAcqLoopTime {loopTime : Int64} : (t.updateAcqLoopTime loopTime).Regular :=
  ⟨⟨h.onTime.period, h.onTime.not_now⟩, h.first, h.start_eq, h.now_eq⟩

-- The wait takes the pause before the last collection for a part of that.
theorem waitTime_eq (hcollections : t.collections = last :: rest) :
    t.waitTime = max 0 (t.loopTime - (t.duePause t.collections + last.duration)) := by
  have hlast : last ∈ t.collections.head? := by rw [hcollections]; rfl
  rw [AcqThread.waitTime_eq, h.now_eq last hlast, h.start_eq last hlast]
  omega

theorem onTime_turn_iff : (t.turn duration).OnTime ↔ (Event.turn duration).Timely t := by
  cases hcollections : t.collections
  case nil =>
    refine iff_of_true (onTime_turn hcollections) fun last hlast => ?_
    rw [hcollections] at hlast
    cases hlast
  case cons last rest =>
    have hlast : last ∈ t.collections.head? := by rw [hcollections]; rfl
    rw [AcqThread.onTime_turn_iff hcollections (h.now_eq last hlast), h.waitTime_eq hcollections, pause]
    constructor
    case mp =>
      intro hwait last' hlast'
      rw [hcollections] at hlast'
      cases hlast'
      dsimp only
      omega
    case mpr =>
      intro htimely
      have htimely := htimely last hlast
      dsimp only at htimely
      omega

theorem waitTime_eq_duePause_turn (htimely : (Event.turn duration).Timely t) :
    t.waitTime = (t.turn duration).duePause (t.turn duration).collections := by
  cases hcollections : t.collections
  case nil =>
    have hdue : (t.turn duration).duePause (t.turn duration).collections =
        pause t.loopTime t.lockTime := by
      rw [AcqThread.turn, hcollections]
      rfl
    rw [hdue, AcqThread.waitTime_eq, h.first hcollections, pause]
    omega
  case cons last rest =>
    have hdue : (t.turn duration).duePause (t.turn duration).collections =
        pause (milli t.acqLoopTime) last.duration := by
      rw [AcqThread.turn, hcollections]
      rfl
    have hnow : t.now = last.start + last.duration := h.now_eq last (by rw [hcollections]; rfl)
    rw [hdue]
    exact (AcqThread.onTime_turn_iff hcollections hnow).mp (h.onTime_turn_iff.mpr htimely)

theorem turn (htimely : (Event.turn duration).Timely t) : (t.turn duration).Regular where
  onTime   := h.onTime_turn_iff.mpr htimely
  first    := nofun
  start_eq := by
    rintro _ ⟨⟩
    exact congrArg (t.now + ·) (h.waitTime_eq_duePause_turn htimely)
  now_eq   := by
    rintro _ ⟨⟩
    rfl

end Regular

-- In the runs of a thread, however long it waits for the lock, every collection is on time if and only
-- if each turn is timely.
theorem onTime_iff (acqLoopTime : UInt64) (now : ℤ) (lockTime : ℕ) (events : List Event) :
    (∀ run, run <+: events → (Exec.run Event.step run (start acqLoopTime now lockTime)).OnTime) ↔
      Exec.Along Event.step Event.Timely events (start acqLoopTime now lockTime) := by
  refine Exec.forall_prefix_iff_along (D := fun _ _ => True) Regular.start
    (Exec.along_of_forall fun _ _ _ => trivial) (fun _ h => h.onTime) ?_ ?_
  case refine_1 =>
    intro e t h _ htimely
    cases e
    case write loopTime => exact h.updateAcqLoopTime
    case turn duration  => exact h.turn htimely
  case refine_2 =>
    intro e t h _ honTime
    cases e
    case write loopTime => trivial
    case turn duration  => exact h.onTime_turn_iff.mp honTime

-- Without a wait for the lock the first two collections follow each other at once, and a new period
-- is never taken up.
theorem not_onTime_short_collections :
    ¬(Exec.run Event.step [.turn 5, .turn 5] (start 20 0 0)).OnTime ∧
      ¬(Exec.run Event.step [.turn 30, .write 100, .turn 30] (start 20 0 0)).OnTime := by
  constructor
  case left =>
    intro h
    have hperiod : (5 : ℤ) = max 20 5 := h.period rfl
    exact absurd hperiod (by decide)
  case right =>
    intro h
    have hperiod : (30 : ℤ) = max 100 30 := h.period rfl
    exact absurd hperiod (by decide)

end PlaybackDevice.AcqThread
