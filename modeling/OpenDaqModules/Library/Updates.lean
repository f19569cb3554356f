import OpenDaqModules.Library.Exec

-- Updates that are made in place as they are found, until one of them cannot be.
namespace Updates

open EStateM

variable {ε σ υ ι α : Type} {apply : υ → σ → σ} {s : σ} {u : υ} {us : List υ}
variable {rs rs' : List (Except ε υ)} {get : σ → α} {read? : υ → Option α}

def perform (apply : υ → σ → σ) (rs : List (Except ε υ)) : EStateM ε σ PUnit :=
  rs.forM fun r => do
    let u ← MonadExcept.ofExcept r
    modify (apply u)

-- The state after all of the updates.
def made (apply : υ → σ → σ) (us : List υ) (s : σ) : σ :=
  us.foldl (fun s u => apply u s) s

-- The updates before the first failure, and that failure.
def taken : List (Except ε υ) → List υ
  | .ok u :: rs => u :: taken rs
  | _           => []

def failure? : List (Except ε υ) → Option ε
  | .ok _ :: rs    => failure? rs
  | .error e :: _  => some e
  | []             => none

theorem perform_run : (perform apply rs).run s =
    match failure? rs with
    | none   => .ok () (made apply (taken rs) s)
    | some e => .error e (made apply (taken rs) s) := by
  induction rs generalizing s
  case nil => rfl
  case cons r rs ih =>
    cases r
    case error e => rfl
    case ok u =>
      have hstep : (perform apply (.ok u :: rs)).run s = (perform apply rs).run (apply u s) := by
        simp only [perform, List.forM_eq_forM, List.forM_cons, run_bind, run_modify, ofExcept_ok,
          run_pure]
      rw [hstep, ih]
      rfl

theorem perform_state : ((perform apply rs).run s).state = made apply (taken rs) s := by
  rw [perform_run]
  cases failure? rs <;> rfl

theorem failure?_eq_none_iff : failure? rs = none ↔ ∀ r ∈ rs, ∃ u, r = .ok u := by
  induction rs
  case nil => simp [failure?]
  case cons r rs ih => cases r <;> simp [failure?, ih]

-- Without a failure all of the updates are made.
theorem taken_eq_filterMap (h : failure? rs = none) : taken rs = rs.filterMap Except.toOption := by
  induction rs
  case nil => rfl
  case cons r rs ih =>
    cases r
    case error e => cases h
    case ok u => simp [taken, Except.toOption, ih h]

theorem perform_returns_iff : ((perform apply rs).run s).Returns ↔ failure? rs = none := by
  rw [perform_run]
  cases failure? rs <;> simp

theorem failure?_of_run {t : σ} (h : (perform apply rs).run s = .ok () t) :
    failure? rs = none ∧ t = made apply (taken rs) s := by
  rw [perform_run] at h
  cases hfailure : failure? rs
  case none =>
    rw [hfailure] at h
    cases h
    exact ⟨rfl, rfl⟩
  case some e =>
    rw [hfailure] at h
    cases h

@[simp]
theorem made_nil : made apply [] s = s :=
  rfl

@[simp]
theorem made_cons : made apply (u :: us) s = made apply us (apply u s) :=
  rfl

@[simp]
theorem perform_nil : perform apply ([] : List (Except ε υ)) = pure () :=
  rfl

@[simp]
theorem perform_singleton {r : Except ε υ} :
    perform apply [r] = (do let u ← MonadExcept.ofExcept r; modify (apply u)) := by
  simp [perform]

theorem perform_append :
    perform apply (rs ++ rs') = perform apply rs >>= fun _ => perform apply rs' :=
  List.forM_append

theorem perform_flatMap {f : ι → List (Except ε υ)} {is : List ι} :
    perform apply (is.flatMap f) = is.forM fun i => perform apply (f i) := by
  induction is
  case nil => rfl
  case cons i is ih =>
    rw [List.flatMap_cons, perform_append, ih]
    rfl

-- What every update overwrites or leaves alone is what the last one that is about it says.
theorem get_made (h : ∀ u s, get (apply u s) = (read? u).getD (get s)) :
    get (made apply us s) = (us.filterMap read?).getLast?.getD (get s) := by
  induction us generalizing s
  case nil => rfl
  case cons u us ih =>
    rw [made_cons, ih, h, List.filterMap_cons]
    cases read? u
    case none => rfl
    case some a => simp [List.getLast?_cons]

theorem getD_eq_iff {o : Option α} {a : α} : o.getD a = a ↔ ∀ b ∈ o, b = a := by
  cases o <;> simp

theorem getD_eq_getD_iff {o : Option α} {a b : α} : o.getD a = o.getD b ↔ (o = none → a = b) := by
  cases o <;> simp

-- What every update adds to or leaves alone is made of what they say about it.
theorem get_made_append {get : σ → List α} (h : ∀ u s, get (apply u s) = get s ++ (read? u).toList) :
    get (made apply us s) = get s ++ us.filterMap read? := by
  induction us generalizing s
  case nil => exact (List.append_nil _).symm
  case cons u us ih =>
    rw [made_cons, ih, h, List.filterMap_cons, List.append_assoc]
    cases read? u <;> rfl

end Updates
