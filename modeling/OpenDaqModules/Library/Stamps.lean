import Mathlib.Algebra.GroupWithZero.Nat

-- What is numbered in turn by a counter that advances with every element.
namespace Stamps

variable {σ α : Type} {advance : σ → α → σ} {s : σ} {a : α} {as : List α} {k : ℕ}

def stamped (advance : σ → α → σ) (s : σ) (as : List α) : List (σ × α) :=
  (as.scanl advance s).zip as

@[simp]
theorem stamped_nil : stamped advance s [] = [] :=
  List.zip_nil_right

@[simp]
theorem stamped_cons : stamped advance s (a :: as) = (s, a) :: stamped advance (advance s a) as := by
  rw [stamped, List.scanl_cons, List.zip_cons_cons, stamped]

theorem getElem?_stamped :
    (stamped advance s as)[k]? = as[k]?.map ((as.take k).foldl advance s, ·) := by
  induction as generalizing s k
  case nil => simp
  case cons a as ih =>
    cases k
    case zero   => simp
    case succ k => simp [ih]

theorem map_snd_stamped : (stamped advance s as).map Prod.snd = as := by
  induction as generalizing s
  case nil          => rw [stamped_nil, List.map_nil]
  case cons a as ih => rw [stamped_cons, List.map_cons, ih]

theorem forall_mem_stamped {P : α → Prop} : (∀ t ∈ stamped advance s as, P t.2) ↔ ∀ a ∈ as, P a := by
  rw [← List.forall_mem_map (f := Prod.snd), map_snd_stamped]

-- A counter of any size holds the sum of what it has counted, reduced to that size.
theorem foldl_count {cast : ℕ → σ} [Add σ] (hcast : ∀ m n, cast (m + n) = cast m + cast n)
    {count : α → ℕ} {n : ℕ} :
    as.foldl (fun s a => s + cast (count a)) (cast n) = cast (n + (as.map count).sum) := by
  induction as generalizing n
  case nil => rw [List.foldl_nil, List.map_nil, List.sum_nil, Nat.add_zero]
  case cons a as ih =>
    rw [List.foldl_cons, ← hcast, ih, List.map_cons, List.sum_cons, Nat.add_assoc]

end Stamps
