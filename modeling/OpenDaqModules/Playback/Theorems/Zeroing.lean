import OpenDaqModules.Playback.Steps

namespace PlaybackDevice

open EStateM
open Platform (Double)

-- Arithmetic that does not round.
structure ExactArithmetic [Platform] : Prop where
  sub_add       : ∀ x y : Double, Platform.sub (Platform.add x y) y = x
  sub_injective : ∀ x : Double, Function.Injective (Platform.sub x)

-- A channel, and the last sample that it has sent, without the offset that was added to it.
structure Playing [Platform] where
  channel : Channel
  latest  : Option Double := none

variable [Platform] {c : Channel} {p : Playing} {e : Event} {events : List Event} {l : Looped Double}
variable {value : SignalConfig ValueDescriptor} {timing : SignalConfig TimeDescriptor}

namespace Playing

def withChannel (c : Channel) (p : Playing) : Playing where
  __      := p
  channel := c

def note (zeroOffset : Double) (sent : Option (Sent Double)) (p : Playing) : Playing where
  __     := p
  latest :=
    let sample := do
      let packet ← (← sent).dataPacket
      packet.rawData.getLast?
    (sample.map (Platform.sub · zeroOffset)).or p.latest

def step : Event → EStateM Error Playing Unit
  | .collect curTime active => do
    let p ← get
    let sent ← zoom channel withChannel (Channel.collectSamples curTime active)
    modify (note p.channel.zeroOffset sent)
  | e => zoom channel withChannel e.step

-- Zeroing refers to the last sample, however often it has been done before.
structure ZeroesLatest (p : Playing) : Prop where
  offset : ∀ raw ∈ p.latest, ∀ target : Double,
    ((Channel.zero target).run p.channel).state.zeroOffset = Platform.sub target raw
  again  : ∀ target : Double,
    ((Channel.zero target).run ((Channel.zero target).run p.channel).state).state =
      ((Channel.zero target).run p.channel).state

end Playing

def Event.IsWrite : Event → Prop
  | .write _ => True
  | _        => False

-- A packet ends with the sample of the buffer that it starts with.
def Event.EndsAsItStarts : Event → Playing → Prop
  | .collect curTime true, p =>
    let c := p.channel
    ∀ n, c.getSamplesSinceStart curTime = .ok n → n ≠ c.samplesGenerated →
      c.dataBuffer[(c.dataBufferIndex + (n - c.samplesGenerated).toNat - 1) % c.dataBuffer.length]? =
        c.dataBuffer[c.dataBufferIndex]?
  | _, _ => True

namespace Playing

-- In exact arithmetic the value that is kept is a sample of the buffer.
theorem lastValueAt_succ (hexact : ExactArithmetic) {i k : ℕ} :
    c.lastValueAt l i (k + 1) = l.get i := by
  rw [Channel.lastValueAt, List.head?_map, Looped.window_head?]
  exact hexact.sub_add _ _

theorem note_sentAt (hexact : ExactArithmetic) {i : ℕ} {g k : UInt64} (hk : k ≠ 0) :
    (note c.zeroOffset (some (c.sentAt l value timing i g k)) p).latest =
      some (l.get (i + k.toNat - 1)) := by
  obtain ⟨m, hm⟩ : ∃ m, k.toNat = m + 1 := by
    refine Nat.exists_eq_add_one.mpr (Nat.pos_of_ne_zero fun hzero => hk ?_)
    exact UInt64.toNat_inj.mp hzero
  change ((((l.window i k.toNat).map (Platform.add · c.zeroOffset)).getLast?.map
    (Platform.sub · c.zeroOffset)).or p.latest) = _
  rw [hm, List.getLast?_map, Looped.window_getLast?, Nat.add_sub_assoc (by omega)]
  exact congrArg some (hexact.sub_add _ _)

theorem collect_run_error {time : ℤ} {active : Bool} {error : Error}
    (h : p.channel.getSamplesSinceStart time = .error error) :
    ((step (.collect time active)).run p).state = p := by
  rw [step, run_bind, run_get]
  dsimp only
  rw [run_bind, run_zoom, Channel.collectSamples_run_error h]
  rfl

-- The channel keeps the sample that a packet starts with, while the last one that was sent is the one
-- that it ends with.
theorem collect_run (hexact : ExactArithmetic) (h : p.channel.Loaded l value timing) {time : ℤ}
    (active : Bool) {n : UInt64} (hsince : p.channel.getSamplesSinceStart time = .ok n) :
    let c := p.channel
    let q := ((step (.collect time active)).run p).state
    q.channel.Loaded l value timing ∧
      if active ∧ n ≠ c.samplesGenerated then
        q.channel.lastValue = l.get c.dataBufferIndex ∧
          q.latest = some (l.get (c.dataBufferIndex + (n - c.samplesGenerated).toNat - 1))
      else q.channel.lastValue = c.lastValue ∧ q.latest = p.latest := by
  intro c q
  have hrun := h.collectSamples_run active hsince
  dsimp only at hrun
  have hq : ∀ sent d, (Channel.collectSamples time active).run c = .ok sent d →
      q = note c.zeroOffset sent (p.withChannel d) := by
    intro sent d hrun
    simp only [q, step, run_bind, run_get, run_zoom, run_modify]
    rw [hrun]
    rfl
  have hq := hq _ _ hrun
  refine ⟨?_, ?_⟩
  case refine_1 =>
    rw [hq]
    exact ⟨h.valueSignal_eq, h.timeSignal_eq, h.dataBuffer_eq, Nat.mod_lt _ l.nonempty⟩
  case refine_2 =>
    split
    case isTrue hsends =>
      obtain ⟨rfl, hne⟩ := hsends
      have hpos : n - c.samplesGenerated ≠ 0 :=
        (UInt64.pos_iff_ne_zero.mp (Channel.newSamples_pos hne))
      obtain ⟨m, hm⟩ := Nat.exists_eq_add_one.mpr (Nat.pos_of_ne_zero fun hzero =>
        hpos (UInt64.toNat_inj.mp hzero))
      refine ⟨?_, ?_⟩
      case refine_1 =>
        rw [hq]
        change c.lastValueAt l c.dataBufferIndex (n - c.samplesGenerated).toNat = _
        rw [hm]
        exact lastValueAt_succ hexact
      case refine_2 =>
        rw [hq, if_pos ⟨rfl, hne⟩]
        exact note_sentAt hexact hpos
    case isFalse hsilent =>
      have hzero : (if active then (n - c.samplesGenerated).toNat else 0) = 0 := by
        split
        case isFalse => rfl
        case isTrue hactive =>
          have hsame : n = c.samplesGenerated := by
            by_contra hne
            exact hsilent ⟨hactive, hne⟩
          rw [hsame, UInt64.sub_self]
          rfl
      rw [hq, if_neg hsilent]
      refine ⟨?_, rfl⟩
      change c.lastValueAt l c.dataBufferIndex (if active then (n - c.samplesGenerated).toNat else 0) = _
      rw [hzero]
      rfl

-- What zeroing refers to.
structure Refers (l : Looped Double) (p : Playing) : Prop where
  loaded : ∃ value timing, p.channel.Loaded l value timing
  latest : ∀ raw ∈ p.latest, p.channel.lastValue = raw

theorem Refers.initial (h : c.Loaded l value timing) : Refers l { channel := c } := by
  refine ⟨⟨value, timing, h⟩, fun raw hraw => ?_⟩
  cases hraw

theorem Refers.zeroesLatest (h : p.Refers l) : p.ZeroesLatest where
  offset raw hraw target := congrArg (Platform.sub target) (h.latest raw hraw)
  again _                := rfl

theorem endsAsItStarts_iff (h : p.channel.Loaded l value timing) {time : ℤ} {active : Bool} :
    (Event.collect time active).EndsAsItStarts p ↔
      let c := p.channel
      ∀ n, c.getSamplesSinceStart time = .ok n → active ∧ n ≠ c.samplesGenerated →
        l.get (c.dataBufferIndex + (n - c.samplesGenerated).toNat - 1) = l.get c.dataBufferIndex := by
  cases active
  case false => simp [Event.EndsAsItStarts]
  case true =>
    simp only [Event.EndsAsItStarts, h.dataBuffer_eq, Looped.getElem?_items_mod,
      Looped.getElem?_items h.index_lt, Option.some.injEq, true_and]

theorem Refers.step (hexact : ExactArithmetic) (h : p.Refers l) (hwrite : ¬e.IsWrite)
    (hends : e.EndsAsItStarts p) : ((Playing.step e).run p).state.Refers l := by
  obtain ⟨⟨value, timing, hloaded⟩, hlatest⟩ := h
  cases e
  case write => exact absurd trivial hwrite
  case zero target =>
    exact ⟨⟨value, timing, hloaded.valueSignal_eq, hloaded.timeSignal_eq, hloaded.dataBuffer_eq,
      hloaded.index_lt⟩, hlatest⟩
  case collect time active =>
    cases hsince : p.channel.getSamplesSinceStart time
    case error error =>
      rw [collect_run_error hsince]
      exact ⟨⟨value, timing, hloaded⟩, hlatest⟩
    case ok n =>
      obtain ⟨hloaded', hsent⟩ := collect_run hexact hloaded active hsince
      refine ⟨⟨value, timing, hloaded'⟩, ?_⟩
      split at hsent
      case isTrue hsends =>
        rw [hsent.left, hsent.right]
        rintro raw ⟨⟩
        exact ((endsAsItStarts_iff hloaded).mp hends n hsince hsends).symm
      case isFalse =>
        rw [hsent.left, hsent.right]
        exact hlatest

-- After any other packet zeroing refers to a sample that is not the last one.
theorem Refers.of_zeroesLatest (hexact : ExactArithmetic) (h : p.Refers l) (hwrite : ¬e.IsWrite)
    (hzeroes : ((Playing.step e).run p).state.ZeroesLatest) : e.EndsAsItStarts p := by
  obtain ⟨⟨value, timing, hloaded⟩, hlatest⟩ := h
  cases e
  case write => exact absurd trivial hwrite
  case zero target => trivial
  case collect time active =>
    refine (endsAsItStarts_iff hloaded).mpr fun n hsince hsends => ?_
    obtain ⟨-, hsent⟩ := collect_run hexact hloaded active hsince
    rw [if_pos hsends] at hsent
    have hoffset := hzeroes.offset _ hsent.right (Platform.ofNat 0)
    have hlast := hexact.sub_injective _ hoffset
    rw [hsent.left] at hlast
    exact hlast.symm

-- In the runs of a channel that has a buffer to play, zeroing refers to the last sample in every
-- state reached if and only if every packet ends with the sample that it starts with.
theorem zeroesLatest_iff (hexact : ExactArithmetic) (hloaded : c.Loaded l value timing)
    (hevents : ∀ e ∈ events, ¬e.IsWrite) :
    (∀ run, run <+: events → (Exec.run Playing.step run { channel := c }).ZeroesLatest) ↔
      Exec.Along Playing.step Event.EndsAsItStarts events { channel := c } := by
  refine Exec.forall_prefix_iff_along (I := Refers l) (.initial hloaded)
    (Exec.along_of_forall fun e he _ => hevents e he) ?_ ?_ ?_
  case refine_1 => exact fun _ h => h.zeroesLatest
  case refine_2 => exact fun _ _ h hwrite hends => h.step hexact hwrite hends
  case refine_3 => exact fun _ _ h hwrite hzeroes => h.of_zeroesLatest hexact hwrite hzeroes

-- While the buffer repeats one sample, every packet ends with it.
theorem Refers.along_of_constant (hexact : ExactArithmetic) (hconstant : ∀ i j, l.get i = l.get j)
    (h : p.Refers l) (hevents : ∀ e ∈ events, ¬e.IsWrite) :
    Exec.Along Playing.step Event.EndsAsItStarts events p := by
  induction events generalizing p
  case nil => trivial
  case cons e events ih =>
    have hwrite : ¬e.IsWrite := hevents e List.mem_cons_self
    have hends : e.EndsAsItStarts p := by
      obtain ⟨⟨value, timing, hloaded⟩, -⟩ := h
      cases e
      case write => exact absurd trivial hwrite
      case zero => trivial
      case collect time active =>
        exact (endsAsItStarts_iff hloaded).mpr fun _ _ _ => hconstant _ _
    exact ⟨hends, ih (h.step hexact hwrite hends) fun e he => hevents e (List.mem_cons_of_mem _ he)⟩

omit [Platform] in
theorem exactArithmetic : let _ := Platform.exact
    ExactArithmetic := by
  intro _
  exact ⟨@add_sub_cancel_right ℚ _, @sub_right_injective ℚ _⟩

omit [Platform] in
theorem zeroesLatest_iff_constant : let _ := Platform.exact
    let new : Channel := { startTime := 0, microSecondsFromEpochToStartTime := 0 }
    let c := ((Channel.valueDataArrayChanged [(2 : ℚ)]).run new).state
    let events := [.collect 5000 true, .zero (0 : ℚ), .collect 7000 true, .zero (1 : ℚ)]
    (Exec.run Playing.step events { channel := c }).ZeroesLatest := by
  intro _ new c events
  let l : Looped ℚ := ⟨[2], by decide⟩
  have hloaded : c.Loaded l ⟨Sie.str "AI1", c.valueDescriptor⟩ ⟨Sie.str "AI1Time", c.timeDescriptor⟩ :=
    ⟨rfl, rfl, rfl, by decide⟩
  have hconstant : ∀ i j, l.get i = l.get j := by
    intro i j
    simp [l, Looped.get]
  have hevents : ∀ e ∈ events, ¬e.IsWrite := by simp [events, Event.IsWrite]
  have halong := Refers.along_of_constant exactArithmetic hconstant (.initial hloaded) hevents
  exact (zeroesLatest_iff exactArithmetic hloaded hevents).mpr halong events List.prefix_rfl

-- The offset refers to the first of two samples.
omit [Platform] in
theorem not_zeroesLatest_two_samples : let _ := Platform.exact
    let new : Channel := { startTime := 0, microSecondsFromEpochToStartTime := 0 }
    let c := ((Channel.valueDataArrayChanged [(1 : ℚ), (2 : ℚ)]).run new).state
    let p := Exec.run Playing.step [.collect 2000 true] { channel := c }
    p.latest = some (2 : ℚ) ∧ ¬p.ZeroesLatest := by
  intro _ new c p
  let l : Looped ℚ := ⟨[1, 2], by decide⟩
  have hloaded : c.Loaded l ⟨Sie.str "AI1", c.valueDescriptor⟩ ⟨Sie.str "AI1Time", c.timeDescriptor⟩ :=
    ⟨rfl, rfl, rfl, by decide⟩
  have hsince : c.getSamplesSinceStart 2000 = .ok 2 := by decide +kernel
  have hgenerated : c.samplesGenerated = 0 := rfl
  have hindex : c.dataBufferIndex = 0 := rfl
  obtain ⟨-, hsent⟩ := collect_run exactArithmetic (p := { channel := c }) hloaded true hsince
  dsimp only at hsent
  rw [hgenerated, hindex, if_pos (by decide)] at hsent
  generalize hp : ((step (.collect 2000 true)).run { channel := c }).state = q at hsent
  obtain ⟨hlast, hlatest⟩ := hsent
  have hp : p = q := hp
  rw [hp]
  refine ⟨hlatest, fun h => ?_⟩
  have hoffset := exactArithmetic.sub_injective (0 : ℚ) (h.offset _ hlatest (0 : ℚ))
  have hequal : (1 : ℚ) = 2 := hlast.symm.trans hoffset
  norm_num at hequal

end Playing

end PlaybackDevice
