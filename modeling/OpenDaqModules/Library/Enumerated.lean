import Mathlib.Data.List.Basic

-- What the elements of a list contribute when each of them is handled together with its number.
namespace Enumerated

variable {α β : Type} {xs : List α} {g : α × ℕ → List β} {f : α → List β} {k n : ℕ}

theorem flatMap_zipIdx_eq_nil (h : ∀ x i, n ≤ i → g (x, i) = []) :
    (xs.zipIdx n).flatMap g = [] := by
  rw [List.flatMap_eq_nil_iff]
  intro x hx
  exact h x.1 x.2 (List.le_snd_of_mem_zipIdx hx)

theorem flatMap_zipIdx_of_le (h : ∀ x i, n ≤ i → g (x, i) = f x) :
    (xs.zipIdx n).flatMap g = xs.flatMap f := by
  induction xs generalizing n
  case nil => rfl
  case cons x xs ih =>
    have hlater : (xs.zipIdx (n + 1)).flatMap g = xs.flatMap f := ih fun y i hi => h y i (by omega)
    rw [List.zipIdx_cons, List.flatMap_cons, List.flatMap_cons, h x n (Nat.le_refl n), hlater]

theorem flatMap_zipIdx_add_at (h : ∀ x i, i ≠ n + k → g (x, i) = []) :
    (xs.zipIdx n).flatMap g = xs[k]?.toList.flatMap fun x => g (x, n + k) := by
  induction xs generalizing n k
  case nil => rfl
  case cons x xs ih =>
    rw [List.zipIdx_cons, List.flatMap_cons]
    cases k
    case zero =>
      have hlater : (xs.zipIdx (n + 1)).flatMap g = [] :=
        flatMap_zipIdx_eq_nil fun y i hi => h y i (by omega)
      rw [hlater]
      simp
    case succ k =>
      have hshift : n + 1 + k = n + (k + 1) := by omega
      have hlater := ih (n := n + 1) (k := k) fun y i hi => h y i (by omega)
      rw [h x n (by omega), List.nil_append, hlater, hshift]
      rfl

theorem flatMap_zipIdx_add_from (hbefore : ∀ x i, i < n + k → g (x, i) = [])
    (h : ∀ x i, n + k ≤ i → g (x, i) = f x) :
    (xs.zipIdx n).flatMap g = (xs.drop k).flatMap f := by
  induction xs generalizing n k
  case nil => simp
  case cons x xs ih =>
    cases k
    case zero => exact flatMap_zipIdx_of_le h
    case succ k =>
      rw [List.zipIdx_cons, List.flatMap_cons, List.drop_succ_cons, hbefore x n (by omega)]
      exact ih (fun y i hi => hbefore y i (by omega)) fun y i hi => h y i (by omega)

-- Only the element with one number contributes.
theorem flatMap_zipIdx_at (h : ∀ x i, i ≠ k → g (x, i) = []) :
    xs.zipIdx.flatMap g = xs[k]?.toList.flatMap fun x => g (x, k) := by
  rw [← Nat.zero_add k]
  rw [← Nat.zero_add k] at h
  simpa using flatMap_zipIdx_add_at h

-- The elements contribute from some number on.
theorem flatMap_zipIdx_from (hbefore : ∀ x i, i < k → g (x, i) = [])
    (h : ∀ x i, k ≤ i → g (x, i) = f x) : xs.zipIdx.flatMap g = (xs.drop k).flatMap f :=
  flatMap_zipIdx_add_from (fun x i hi => hbefore x i (by omega)) fun x i hi => h x i (by omega)

end Enumerated
