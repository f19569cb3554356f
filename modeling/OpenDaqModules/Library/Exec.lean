import Mathlib.Data.List.Basic

theorem Except.bind_eq_ok {ε α β : Type} {x : Except ε α} {f : α → Except ε β} {b : β} :
    x >>= f = .ok b ↔ ∃ a, x = .ok a ∧ f a = .ok b := by
  cases x
  case error e => exact iff_of_false (fun h => nomatch h) fun ⟨_, h, _⟩ => nomatch h
  case ok a    =>
    constructor
    case mp  => exact fun h => ⟨a, rfl, h⟩
    case mpr =>
      rintro ⟨_, h, hb⟩
      cases h
      exact hb

-- Operations that may throw, on states that outlive the exception: the result of running one is
-- `ok` or `error`, and both carry the state in which the operation left its caller.
namespace EStateM

variable {ε σ τ α β : Type}

def Result.state : Result ε σ α → σ
  | .ok _ s    => s
  | .error _ s => s

def Result.Returns : Result ε σ α → Prop
  | .ok ..    => True
  | .error .. => False

instance {r : Result ε σ α} : Decidable r.Returns :=
  match r with
  | .ok ..    => .isTrue trivial
  | .error .. => .isFalse id

@[simp]
theorem Result.state_ok {s : σ} {a : α} : (.ok a s : Result ε σ α).state = s :=
  rfl

@[simp]
theorem Result.state_error {s : σ} {e : ε} : (.error e s : Result ε σ α).state = s :=
  rfl

@[simp]
theorem Result.returns_ok {s : σ} {a : α} : (.ok a s : Result ε σ α).Returns :=
  trivial

@[simp]
theorem Result.not_returns_error {s : σ} {e : ε} : ¬(.error e s : Result ε σ α).Returns :=
  id

theorem Result.returns_iff {r : Result ε σ α} : r.Returns ↔ ∃ a, r = .ok a r.state := by
  cases r <;> simp [Returns, state]

def Result.value? : Result ε σ α → Option α
  | .ok a _   => some a
  | .error .. => none

theorem Result.eq_ok_of_value? {r : Result ε σ α} {a : α} (h : r.value? = some a) :
    r = .ok a r.state := by
  cases r <;> cases h
  rfl

@[simp]
theorem run_ite {p : Prop} [Decidable p] {x y : EStateM ε σ α} {s : σ} :
    (if p then x else y).run s = if p then x.run s else y.run s := by
  split <;> rfl

@[simp]
theorem ofExcept_ok {a : α} :
    (MonadExcept.ofExcept (.ok a : Except ε α) : EStateM ε σ α) = Pure.pure a :=
  rfl

@[simp]
theorem ofExcept_error {e : ε} :
    (MonadExcept.ofExcept (.error e : Except ε α) : EStateM ε σ α) = MonadExcept.throw e :=
  rfl

theorem forM_modify_run {ι : Type} {f : ι → σ → σ} {is : List ι} {s : σ} :
    (forM is fun i => (modify (f i) : EStateM ε σ PUnit)).run s =
      .ok () (is.foldl (fun s i => f i s) s) := by
  induction is generalizing s
  case nil          => rfl
  case cons i is ih => exact ih

-- No state is restored when an exception is caught.
theorem tryCatch_run {x : EStateM ε σ α} {handle : ε → EStateM ε σ α} {s : σ} :
    (tryCatch x handle).run s =
      match x.run s with
      | .ok a s    => .ok a s
      | .error e s => (handle e).run s := by
  change EStateM.tryCatch x handle s = _
  unfold EStateM.tryCatch EStateM.run
  cases x s <;> rfl

-- Runs an operation on a part of the state.
def zoom (get : σ → τ) (set : τ → σ → σ) (x : EStateM ε τ α) : EStateM ε σ α := fun s =>
  match x.run (get s) with
  | .ok a t    => .ok a (set t s)
  | .error e t => .error e (set t s)

@[simp]
theorem run_zoom {get : σ → τ} {set : τ → σ → σ} {x : EStateM ε τ α} {s : σ} :
    (zoom get set x).run s =
      match x.run (get s) with
      | .ok a t    => .ok a (set t s)
      | .error e t => .error e (set t s) :=
  rfl

theorem zoom_state {get : σ → τ} {set : τ → σ → σ} {x : EStateM ε τ α} {s : σ} :
    ((zoom get set x).run s).state = set (x.run (get s)).state s := by
  rw [run_zoom]
  cases x.run (get s) <;> rfl

theorem zoom_returns {get : σ → τ} {set : τ → σ → σ} {x : EStateM ε τ α} {s : σ} :
    ((zoom get set x).run s).Returns ↔ (x.run (get s)).Returns := by
  rw [run_zoom]
  cases x.run (get s) <;> rfl

-- However `x` ends, the states before and after it are related.
def Keeps (R : σ → σ → Prop) (x : EStateM ε σ α) : Prop :=
  ∀ s, R s (x.run s).state

-- The relation that makes `Keeps` the preservation of a property.
def Preserved (P : σ → Prop) (s s' : σ) : Prop :=
  P s → P s'

instance {P : σ → Prop} : Std.Refl (Preserved P) :=
  ⟨fun _ => id⟩

instance {P : σ → Prop} : IsTrans σ (Preserved P) :=
  ⟨fun _ _ _ h h' => h' ∘ h⟩

namespace Keeps

variable {R : σ → σ → Prop} {x : EStateM ε σ α} {f : α → EStateM ε σ β}

theorem pure [Std.Refl R] {a : α} : Keeps R (Pure.pure a : EStateM ε σ α) :=
  fun s => Std.Refl.refl s

theorem throw [Std.Refl R] {e : ε} : Keeps R (MonadExcept.throw e : EStateM ε σ α) :=
  fun s => Std.Refl.refl s

theorem get [Std.Refl R] : Keeps R (MonadState.get : EStateM ε σ σ) :=
  fun s => Std.Refl.refl s

theorem mono {Q : σ → σ → Prop} (h : ∀ s t, R s t → Q s t) (hx : Keeps R x) : Keeps Q x :=
  fun s => h s _ (hx s)

theorem modify {f : σ → σ} (h : ∀ s, R s (f s)) : Keeps R (modify f : EStateM ε σ PUnit) :=
  h

theorem ofExcept [Std.Refl R] {r : Except ε α} :
    Keeps R (MonadExcept.ofExcept r : EStateM ε σ α) := by
  cases r
  · exact throw
  · exact pure

theorem bind [IsTrans σ R] (hx : Keeps R x) (hf : ∀ a, Keeps R (f a)) : Keeps R (x >>= f) := by
  intro s
  have hs := hx s
  rw [run_bind]
  cases h : x.run s
  case ok a t    => exact trans_of R (by simpa [h] using hs) (hf a t)
  case error e t => simpa [h] using hs

theorem tryCatch [IsTrans σ R] {handle : ε → EStateM ε σ α} (hx : Keeps R x)
    (hhandle : ∀ e, Keeps R (handle e)) : Keeps R (MonadExcept.tryCatch x handle) := by
  intro s
  have hs := hx s
  rw [tryCatch_run]
  cases h : x.run s
  case ok a t    => simpa [h] using hs
  case error e t => exact trans_of R (by simpa [h] using hs) (hhandle e t)

theorem zoom {Q : τ → τ → Prop} {get : σ → τ} {set : τ → σ → σ} {x : EStateM ε τ α}
    (hx : Keeps Q x) (hset : ∀ s t, Q (get s) t → R s (set t s)) :
    Keeps R (EStateM.zoom get set x) := by
  intro s
  have ht := hx (get s)
  rw [run_zoom]
  cases h : x.run (get s) <;> exact hset s _ (by simpa [h] using ht)

theorem forM [Std.Refl R] [IsTrans σ R] {ι : Type} {is : List ι} {f : ι → EStateM ε σ PUnit}
    (hf : ∀ i ∈ is, Keeps R (f i)) : Keeps R (is.forM f) := by
  induction is
  case nil => exact pure
  case cons i is ih =>
    exact bind (hf i List.mem_cons_self) fun _ => ih fun j hj => hf j (List.mem_cons_of_mem i hj)

-- The branches after a test may rely on what was read before it.
theorem get_bind {f : σ → EStateM ε σ β} (hf : ∀ s, R s ((f s).run s).state) :
    Keeps R (MonadState.get >>= f) :=
  hf

theorem ite {p : Prop} [Decidable p] {y : EStateM ε σ α} (hx : p → Keeps R x) (hy : ¬p → Keeps R y) :
    Keeps R (if p then x else y) := by
  split
  case isTrue h  => exact hx h
  case isFalse h => exact hy h

end Keeps

-- Only such errors are thrown.
def Raises (E : ε → Prop) (x : EStateM ε σ α) : Prop :=
  ∀ s e t, x.run s = .error e t → E e

namespace Raises

variable {E : ε → Prop} {x : EStateM ε σ α} {f : α → EStateM ε σ β}

theorem pure {a : α} : Raises E (Pure.pure a : EStateM ε σ α) :=
  fun _ _ _ h => nomatch h

theorem throw {e : ε} (h : E e) : Raises E (MonadExcept.throw e : EStateM ε σ α) := by
  rintro _ _ _ ⟨⟩
  exact h

theorem get : Raises E (MonadState.get : EStateM ε σ σ) :=
  fun _ _ _ h => nomatch h

theorem modify {f : σ → σ} : Raises E (modify f : EStateM ε σ PUnit) :=
  fun _ _ _ h => nomatch h

theorem set {s : σ} : Raises E (MonadStateOf.set s : EStateM ε σ PUnit) :=
  fun _ _ _ h => nomatch h

theorem bind (hx : Raises E x) (hf : ∀ a, Raises E (f a)) : Raises E (x >>= f) := by
  intro s e t h
  rw [run_bind] at h
  cases hrun : x.run s
  case ok a s'    =>
    rw [hrun] at h
    exact hf a s' e t h
  case error e' s' =>
    rw [hrun] at h
    cases h
    exact hx s e _ hrun

theorem ite {p : Prop} [Decidable p] {y : EStateM ε σ α} (hx : p → Raises E x)
    (hy : ¬p → Raises E y) : Raises E (if p then x else y) := by
  split
  case isTrue h  => exact hx h
  case isFalse h => exact hy h

end Raises
end EStateM

-- The runs of a system whose environment goes on after an exception.
namespace Exec

open EStateM

variable {ε σ τ ι : Type} {step : ι → EStateM ε σ Unit} {s : σ} {i : ι} {is js : List ι}

def run (step : ι → EStateM ε σ Unit) : List ι → σ → σ
  | [], s      => s
  | i :: is, s => run step is ((step i).run s).state

@[simp]
theorem run_nil : run step [] s = s :=
  rfl

@[simp]
theorem run_cons : run step (i :: is) s = run step is ((step i).run s).state :=
  rfl

@[simp]
theorem run_append : run step (is ++ js) s = run step js (run step is s) := by
  induction is generalizing s
  case nil        => rfl
  case cons i is ih => exact ih

theorem run_concat : run step (is ++ [i]) s = ((step i).run (run step is s)).state := by
  simp

-- What holds initially and is preserved by every step of the run holds at its end.
theorem run_invariant {P : σ → Prop} (hs : P s)
    (hstep : ∀ i ∈ is, ∀ s, P s → P ((step i).run s).state) : P (run step is s) := by
  induction is generalizing s
  case nil => exact hs
  case cons i is ih =>
    apply ih (hstep i List.mem_cons_self s hs)
    intro j hj
    exact hstep j (List.mem_cons_of_mem i hj)

-- Every step of the run is taken in a state that suits it.
def Along (step : ι → EStateM ε σ Unit) (Q : ι → σ → Prop) : List ι → σ → Prop
  | [], _      => True
  | i :: is, s => Q i s ∧ Along step Q is ((step i).run s).state

theorem along_of_forall {Q : ι → σ → Prop} (h : ∀ i ∈ is, ∀ s, Q i s) : Along step Q is s := by
  induction is generalizing s
  case nil => trivial
  case cons i is ih =>
    exact ⟨h i List.mem_cons_self s, ih fun j hj => h j (List.mem_cons_of_mem i hj)⟩

theorem Along.and {Q Q' : ι → σ → Prop} (h : Along step Q is s) (h' : Along step Q' is s) :
    Along step (fun i s => Q i s ∧ Q' i s) is s := by
  induction is generalizing s
  case nil => trivial
  case cons i is ih => exact ⟨⟨h.left, h'.left⟩, ih h.right h'.right⟩

theorem along_append {Q : ι → σ → Prop} :
    Along step Q (is ++ js) s ↔ Along step Q is s ∧ Along step Q js (run step is s) := by
  induction is generalizing s
  case nil => simp [Along]
  case cons i is ih => simp [Along, ih, and_assoc]

theorem run_invariant_along {P : σ → Prop} {Q : ι → σ → Prop} (hs : P s) (h : Along step Q is s)
    (hstep : ∀ i s, P s → Q i s → P ((step i).run s).state) : P (run step is s) := by
  induction is generalizing s
  case nil => exact hs
  case cons i is ih =>
    obtain ⟨hi, his⟩ := h
    exact ih (hstep i s hs hi) his

-- Where an invariant of the suitable steps is lost by any other one, the states of a run show
-- whether all of its steps were suitable.
theorem forall_prefix_iff_along {P I : σ → Prop} {D Q : ι → σ → Prop} (hs : I s)
    (h : Along step D is s) (himp : ∀ s, I s → P s)
    (hkeep : ∀ i s, I s → D i s → Q i s → I ((step i).run s).state)
    (hneed : ∀ i s, I s → D i s → P ((step i).run s).state → Q i s) :
    (∀ js, js <+: is → P (run step js s)) ↔ Along step Q is s := by
  induction is generalizing s
  case nil =>
    refine ⟨fun _ => trivial, fun _ js hjs => ?_⟩
    rw [List.prefix_nil.mp hjs]
    exact himp s hs
  case cons i is ih =>
    obtain ⟨hi, his⟩ := h
    constructor
    case mp =>
      intro hprefix
      have hone : P ((step i).run s).state := hprefix [i] (List.prefix_append [i] is)
      have hsuits : Q i s := hneed i s hs hi hone
      have htail := ih (hkeep i s hs hi hsuits) his
      exact ⟨hsuits, htail.mp fun js hjs => hprefix (i :: js) (List.cons_prefix_cons.mpr ⟨rfl, hjs⟩)⟩
    case mpr =>
      intro halong js hjs
      obtain ⟨hsuits, htail⟩ := halong
      cases js
      case nil => exact himp s hs
      case cons j js =>
        obtain ⟨hj, hjs⟩ := List.cons_prefix_cons.mp hjs
        rw [hj]
        exact (ih (hkeep i s hs hi hsuits) his).mpr htail js hjs

-- A reflexive and transitive relation of the states around every step relates the ends of a run.
theorem run_rel {R : σ → σ → Prop} (refl : ∀ s, R s s) (trans : ∀ {a b c}, R a b → R b c → R a c)
    (hstep : ∀ i s, R s ((step i).run s).state) : R s (run step is s) := by
  induction is generalizing s
  case nil          => exact refl s
  case cons i is ih => exact trans (hstep i s) ih

end Exec
