import Mathlib.Data.Int.Basic
import OpenDaqModules.Library.Endian
import OpenDaqModules.Library.Framing

-- The decoder language of the SIE format: a decoder turns the octets of a stream or of a block's
-- payload into variables and samples.
namespace Sie.Decoder

-- An attribute such as `{$size - 20}`.
inductive Expr
  | num (n : ℤ)
  | var (name : String)
  | add (a b : Expr)
  | sub (a b : Expr)
  | mul (a b : Expr)
  deriving DecidableEq, Repr

inductive ReadType
  | uint
  | int
  | float
  deriving DecidableEq, Repr

inductive Op
  | read (var : String) (type : ReadType) (bits : ℕ) (endian : Endian) (value : Option Expr)
  | readRaw (var : String) (octets : Expr)
  | seek (offset : Expr)
  | sample
  deriving DecidableEq, Repr

-- A loop without a `stop` runs until its input is used up.
structure Loop where
  var       : Option String := none
  start     : Expr          := .num 0
  increment : Expr          := .num 1
  stop      : Option Expr   := none
  body      : List Op
  deriving DecidableEq, Repr

end Decoder

structure Decoder where
  prologue : List Decoder.Op := []
  loop     : Decoder.Loop
  deriving DecidableEq, Repr

namespace Decoder

-- The octets of a number without an integer value are kept as they are.
inductive Value
  | num (n : ℤ)
  | raw (bs : Bytes)
  deriving DecidableEq, Repr

abbrev Env := List (String × Value)

structure State where
  rest    : Bytes
  env     : Env := []
  samples : List Env := []

def Env.num? (env : Env) (name : String) : Option ℤ :=
  match env.lookup name with
  | some (.num n) => some n
  | _             => none

def Env.raw? (env : Env) (name : String) : Option Bytes :=
  match env.lookup name with
  | some (.raw bs) => some bs
  | _              => none

def Expr.eval (env : Env) : Expr → Option ℤ
  | num n   => some n
  | var x   => env.num? x
  | add a b => do return (← a.eval env) + (← b.eval env)
  | sub a b => do return (← a.eval env) - (← b.eval env)
  | mul a b => do return (← a.eval env) * (← b.eval env)

def ReadType.value (type : ReadType) (endian : Endian) (bs : Bytes) : Value :=
  match type with
  | uint  => .num (endian.toNat bs)
  | int   => .num (Int.bmod (endian.toNat bs) (256 ^ bs.length))
  | float => .raw bs

-- The next `n` octets, if the input has that many left.
def splitOctets (n : ℕ) (bs : Bytes) : Option (Bytes × Bytes) :=
  if n ≤ bs.length then some (bs.take n, bs.drop n) else none

def State.bind (s : State) (name : String) (v : Value) : State :=
  { s with env := (name, v) :: s.env }

-- An operation fails where its input ends before it, and where a `read` does not find the value
-- which it demands. A seek is relative to the start of the `input`.
def Op.exec (input : Bytes) (op : Op) (s : State) : Option State :=
  match op with
  | read x type bits endian value => do
    let (octets, rest) ← splitOctets (bits / 8) s.rest
    let v := type.value endian octets
    match value with
    | none   => return { s with rest }.bind x v
    | some e => if v = .num (← e.eval s.env) then return { s with rest }.bind x v else none
  | readRaw x octets => do
    let n ← octets.eval s.env
    if n < 0 then none
    else
      let (octets, rest) ← splitOctets n.toNat s.rest
      return { s with rest }.bind x (.raw octets)
  | seek offset => do
    let n ← offset.eval s.env
    if n < 0 then none else return { s with rest := input.drop n.toNat }
  | sample => return { s with samples := s.samples ++ [s.env] }

def execAll (input : Bytes) : List Op → State → Option State
  | [], s        => some s
  | op :: ops, s => do execAll input ops (← op.exec input s)

def Loop.bindVar (l : Loop) (i : ℤ) (s : State) : State :=
  match l.var with
  | none   => s
  | some x => s.bind x (.num i)

def Loop.stops (l : Loop) (i : ℤ) (env : Env) : Bool :=
  match l.stop.bind (·.eval env) with
  | none   => false
  | some n => n ≤ i

-- The states in which the complete iterations of the loop end. What an iteration that runs out of
-- input had read does not count.
def Loop.run (l : Loop) (input : Bytes) (increment : ℤ) : ℕ → ℤ → State → List State
  | 0, _, _ => []
  | fuel + 1, i, s =>
    if l.stops i s.env then []
    else
      match execAll input l.body (l.bindVar i s) with
      | none    => []
      | some s' => s' :: l.run input increment fuel (i + increment) { s' with samples := [] }

-- No iteration of a decoder is without input, so there are not more of them than octets.
def iterations (d : Decoder) (input : Bytes) : List State :=
  (do
    let s ← execAll input d.prologue { rest := input }
    let start ← d.loop.start.eval s.env
    let increment ← d.loop.increment.eval s.env
    return d.loop.run input increment input.length start s).getD []

def samples (d : Decoder) (input : Bytes) : List Env :=
  (d.iterations input).flatMap State.samples

section

variable {env : Env} {x y : String} {n : ℤ} {bs : Bytes}

@[simp]
theorem Env.num?_cons_num : Env.num? ((x, .num n) :: env) y = if y = x then some n else env.num? y := by
  by_cases h : y = x <;> simp [num?, List.lookup_cons, h, beq_eq_false_iff_ne.mpr]

@[simp]
theorem Env.num?_cons_raw : Env.num? ((x, .raw bs) :: env) y = if y = x then none else env.num? y := by
  by_cases h : y = x <;> simp [num?, List.lookup_cons, h, beq_eq_false_iff_ne.mpr]

@[simp]
theorem Env.raw?_cons_num : Env.raw? ((x, .num n) :: env) y = if y = x then none else env.raw? y := by
  by_cases h : y = x <;> simp [raw?, List.lookup_cons, h, beq_eq_false_iff_ne.mpr]

@[simp]
theorem Env.raw?_cons_raw : Env.raw? ((x, .raw bs) :: env) y = if y = x then some bs else env.raw? y := by
  by_cases h : y = x <;> simp [raw?, List.lookup_cons, h, beq_eq_false_iff_ne.mpr]

theorem Env.num?_cons_of_ne {v : Value} (h : y ≠ x) : Env.num? ((x, v) :: env) y = env.num? y := by
  simp [num?, List.lookup_cons, beq_eq_false_iff_ne.mpr h]

variable {a b : Bytes} {n : ℕ}

theorem splitOctets_append (h : a.length = n) : splitOctets n (a ++ b) = some (a, b) := by
  simp [splitOctets, List.take_left' h, List.drop_left' h, h]

theorem splitOctets_eq_some : splitOctets n bs = some (a, b) ↔ a.length = n ∧ bs = a ++ b := by
  constructor
  case mp =>
    intro h
    simp only [splitOctets] at h
    split at h <;> cases h
    simp [*]
  case mpr =>
    intro ⟨hn, hbs⟩
    exact hbs ▸ splitOctets_append hn

end

-- A loop that is only ended by the end of its input reads a stream of frames, if each iteration
-- reads one of them. What the iterations tell about the values is found by `values`.
theorem Loop.run_eq_decode {l : Loop} {f : Framing α UInt8} {values : State → List α}
    (hvar : l.var = none) (hstop : l.stop = none)
    (hexec : ∀ s, s.samples = [] → (execAll input l.body s).map (fun s' => (values s', s'.rest)) =
      (f.read s.rest).map (fun x => ([x.1], x.2)))
    (hs : s.samples = []) :
    (l.run input step fuel i s).flatMap values = Framing.decode.go f fuel s.rest := by
  induction fuel generalizing i s
  case zero => rfl
  case succ fuel ih =>
    have hexec := hexec s hs
    have hstops : l.stops i s.env = false := by simp [stops, hstop]
    have hbind : l.bindVar i s = s := by simp [bindVar, hvar]
    simp only [Loop.run, hstops, hbind, Framing.decode.go]
    cases hr : f.read s.rest
    case none =>
      rw [hr, Option.map_none, Option.map_eq_none_iff] at hexec
      simp [hexec]
    case some x =>
      rw [hr, Option.map_some, Option.map_eq_some_iff] at hexec
      obtain ⟨s', hs', hx⟩ := hexec
      simp only [Prod.mk.injEq] at hx
      simp [hs', hx.left, hx.right, ih]

end Decoder
end Sie
