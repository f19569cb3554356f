import Mathlib.Tactic.Ring
import OpenDaqModules.Recorder.Sie.Decoder

-- What a decoder does to its input, iteration by iteration.
namespace Sie.Decoder

-- An octet of the input that is read, or a position in it that is gone to.
inductive Access
  | read (offset length : ℕ)
  | seek (offset : ℕ)
  deriving DecidableEq, Repr

-- The end of what an access needs of the input.
def Access.stop : Access → ℕ
  | read offset length => offset + length
  | seek offset        => offset

def Access.isRead : Access → Bool
  | read .. => true
  | seek _  => false

def Op.access (input : Bytes) (op : Op) (s : State) : Option Access :=
  match op with
  | read _ _ bits _ _ => some (.read (input.length - s.rest.length) (bits / 8))
  | readRaw _ octets  =>
    (octets.eval s.env).map fun n => .read (input.length - s.rest.length) n.toNat
  | seek offset       => (offset.eval s.env).map fun n => .seek n.toNat
  | sample            => none

def accesses (input : Bytes) : List Op → State → List Access
  | [], _        => []
  | op :: ops, s => (op.access input s).toList ++ (op.exec input s).elim [] (accesses input ops)

-- The states in which the complete iterations of a loop start and end.
def Loop.trace (l : Loop) (input : Bytes) (increment : ℤ) : ℕ → ℤ → State → List (State × State)
  | 0, _, _ => []
  | fuel + 1, i, s =>
    if l.stops i s.env then []
    else
      match execAll input l.body (l.bindVar i s) with
      | none    => []
      | some s' =>
        (l.bindVar i s, s') :: l.trace input increment fuel (i + increment) { s' with samples := [] }

def trace (d : Decoder) (input : Bytes) : List (State × State) :=
  (do
    let s ← execAll input d.prologue { rest := input }
    let start ← d.loop.start.eval s.env
    let increment ← d.loop.increment.eval s.env
    return d.loop.trace input increment input.length start s).getD []

-- What each complete iteration reads, and where it goes to.
def iterationAccesses (d : Decoder) (input : Bytes) : List (List Access) :=
  (d.trace input).map fun x => accesses input d.loop.body x.1

-- The accesses of all complete iterations, and those before the first one.
def allAccesses (d : Decoder) (input : Bytes) : List Access :=
  accesses input d.prologue { rest := input } ++ (d.iterationAccesses input).flatten

section

variable {input : Bytes} {ops ops' : List Op} {s s' : State}

theorem exec_read {x : String} {type : ReadType} {bits : ℕ} {endian : Endian}
    (h : splitOctets (bits / 8) s.rest = some (octets, rest)) :
    Op.exec input (.read x type bits endian none) s =
      some ({ s with rest }.bind x (type.value endian octets)) := by
  simp [Op.exec, h]

theorem exec_seek {offset : Expr} {n : ℕ} (h : offset.eval s.env = some (n : ℤ)) :
    Op.exec input (.seek offset) s = some { s with rest := input.drop n } := by
  simp [Op.exec, h]

theorem access_seek {offset : Expr} {n : ℕ} (h : offset.eval s.env = some (n : ℤ)) :
    Op.access input (.seek offset) s = some (.seek n) := by
  simp [Op.access, h]

theorem execAll_cons {op : Op} (h : op.exec input s = some s') :
    execAll input (op :: ops) s = execAll input ops s' := by
  rw [execAll, h]
  rfl

theorem accesses_cons {op : Op} (h : op.exec input s = some s') :
    accesses input (op :: ops) s = (op.access input s).toList ++ accesses input ops s' := by
  rw [accesses, h, Option.elim_some]

theorem accesses_singleton {op : Op} : accesses input [op] s = (op.access input s).toList := by
  rw [accesses]
  cases op.exec input s <;> exact List.append_nil _

theorem execAll_append :
    execAll input (ops ++ ops') s = (execAll input ops s).bind (execAll input ops') := by
  induction ops generalizing s
  case nil            => rfl
  case cons op ops ih =>
    rw [List.cons_append, execAll, execAll]
    cases op.exec input s
    case none   => rfl
    case some s => exact ih

theorem accesses_append (h : execAll input ops s = some s') :
    accesses input (ops ++ ops') s = accesses input ops s ++ accesses input ops' s' := by
  induction ops generalizing s
  case nil =>
    cases h
    rfl
  case cons op ops ih =>
    obtain ⟨_, hfirst, hlater⟩ := Option.bind_eq_some_iff.mp h
    rw [List.cons_append, accesses, accesses, hfirst]
    simp only [Option.elim_some, ih hlater, List.append_assoc]

end

section

variable {l : Loop} {input : Bytes} {start increment : ℤ} {fuel n : ℕ} {s : State}

theorem Loop.run_eq_trace :
    l.run input increment fuel start s = (l.trace input increment fuel start s).map Prod.snd := by
  induction fuel generalizing start s
  case zero         => rfl
  case succ fuel ih =>
    rw [run, trace]
    split
    case isTrue  => rfl
    case isFalse => cases execAll input l.body (l.bindVar start s) <;> simp [ih]

theorem samples_eq_trace {d : Decoder} :
    d.samples input = (d.trace input).flatMap fun x => x.2.samples := by
  rw [samples, iterations, trace]
  cases execAll input d.prologue { rest := input }
  case none   => rfl
  case some s =>
    cases hstart : d.loop.start.eval s.env
    case none       => simp [hstart]
    case some start =>
      cases hincrement : d.loop.increment.eval s.env
      case none           => simp [hincrement, hstart]
      case some increment =>
        simp [hincrement, hstart, Loop.run_eq_trace, List.flatMap_map]

theorem samples_map_eq {d : Decoder} {proj : Env → α} {g : ℕ → α} {ks : List ℕ}
    (h : (d.trace input).map (fun x => x.2.samples.map proj) = ks.map fun k => [g k]) :
    (d.samples input).map proj = ks.map g := by
  rw [samples_eq_trace, List.map_flatMap, List.flatMap_def, h, ← List.flatMap_def,
    ← List.map_eq_flatMap]

theorem start_succ {start increment : ℤ} {k : ℕ} :
    start + (k + 1 : ℕ) * increment = start + increment + k * increment := by
  push_cast
  ring

-- A loop makes `n` iterations if an invariant makes them succeed, and ends after them.
theorem Loop.trace_map_eq {P : ℕ → State → Prop} {f : State × State → α} {g : ℕ → α}
    (hstep : ∀ k < n, ∀ s, P k s → l.stops (start + k * increment) s.env = false ∧
      ∃ s', execAll input l.body (l.bindVar (start + k * increment) s) = some s' ∧
        f (l.bindVar (start + k * increment) s, s') = g k ∧ P (k + 1) { s' with samples := [] })
    (hend : ∀ s, P n s → l.stops (start + n * increment) s.env = true ∨
      execAll input l.body (l.bindVar (start + n * increment) s) = none)
    (hfuel : n ≤ fuel) (hs : P 0 s) :
    (l.trace input increment fuel start s).map f = (List.range n).map g := by
  induction n generalizing start fuel s P g
  case zero =>
    cases fuel
    case zero      => rfl
    case succ fuel =>
      have hend := hend s hs
      rw [Nat.cast_zero, zero_mul, add_zero] at hend
      rw [trace]
      cases hend
      case inl hstops => simp [hstops]
      case inr hnone  => simp [hnone]
  case succ n ih =>
    cases fuel
    case zero      => exact absurd hfuel (Nat.not_succ_le_zero n)
    case succ fuel =>
      obtain ⟨hstops, s', hexec, hf, hs'⟩ := hstep 0 (Nat.zero_lt_succ n) s hs
      rw [Nat.cast_zero, zero_mul, add_zero] at hstops hexec hf
      have hlater : (l.trace input increment fuel (start + increment) { s' with samples := [] }).map f =
          (List.range n).map fun k => g (k + 1) := by
        refine ih (P := fun k => P (k + 1)) (fun k hk s hs => ?_) (fun s hs => ?_)
          (Nat.le_of_succ_le_succ hfuel) hs'
        case refine_1 =>
          have hstep := hstep (k + 1) (Nat.succ_lt_succ hk) s hs
          rwa [start_succ] at hstep
        case refine_2 =>
          have hend := hend s hs
          rwa [start_succ] at hend
      rw [trace, hstops, if_neg Bool.false_ne_true, hexec, List.range_succ_eq_map]
      simp only [List.map_cons, List.map_map, hf, hlater]
      rfl

-- What an invariant tells about an iteration holds of each one that the loop makes.
theorem Loop.trace_getElem? {P : ℕ → State → Prop} {f : State × State → α} {g : ℕ → α}
    (hstep : ∀ k s s', P k s → l.stops (start + k * increment) s.env = false →
      execAll input l.body (l.bindVar (start + k * increment) s) = some s' →
        f (l.bindVar (start + k * increment) s, s') = g k ∧ P (k + 1) { s' with samples := [] })
    (hs : P 0 s) {k : ℕ}
    (hk : ((l.trace input increment fuel start s).map f)[k]? = some y) : y = g k := by
  induction fuel generalizing start s P g k
  case zero => simp [trace] at hk
  case succ fuel ih =>
    rw [trace] at hk
    cases hstops : l.stops start s.env
    case true => simp [hstops] at hk
    case false =>
      rw [hstops, if_neg Bool.false_ne_true] at hk
      cases hexec : execAll input l.body (l.bindVar start s)
      case none => simp [hexec] at hk
      case some s' =>
        have hfirst := hstep 0 s s' hs
        rw [Nat.cast_zero, zero_mul, add_zero] at hfirst
        obtain ⟨hf, hs'⟩ := hfirst hstops hexec
        rw [hexec, List.map_cons] at hk
        cases k
        case zero =>
          cases hk
          exact hf
        case succ k =>
          refine ih (P := fun k => P (k + 1)) (g := fun k => g (k + 1)) ?_ hs' hk
          intro k s s' hs
          have hstep := hstep (k + 1) s s' hs
          rwa [start_succ] at hstep

end
end Sie.Decoder
