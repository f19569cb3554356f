import Mathlib.Data.List.Perm.Basic
import Mathlib.Data.List.Range

-- A counter that is looked at from time to time, with some of the looks active: which numbers are
-- new at which look.
namespace Schedule

variable {τ : Type} {count : τ → ℕ} {n k : ℕ} {t : τ} {active : Bool} {looks : List (τ × Bool)}

-- Where the last look finds the counter.
def reached (count : τ → ℕ) : ℕ → List (τ × Bool) → ℕ
  | n, []              => n
  | _, (t, _) :: looks => reached count (count t) looks

-- No look finds less than the one before.
def Ascending (count : τ → ℕ) : ℕ → List (τ × Bool) → Prop
  | _, []              => True
  | n, (t, _) :: looks => n ≤ count t ∧ Ascending count (count t) looks

-- The numbers that are new at the active looks, as the first of them and their amount.
def spans (count : τ → ℕ) : ℕ → List (τ × Bool) → List (ℕ × ℕ)
  | _, []                   => []
  | n, (t, active) :: looks =>
    (if active = true ∧ n < count t then [(n, count t - n)] else []) ++ spans count (count t) looks

def numbers (spans : List (ℕ × ℕ)) : List ℕ :=
  spans.flatMap fun s => List.range' s.1 s.2

-- The same looks, with the others active.
def complement (looks : List (τ × Bool)) : List (τ × Bool) :=
  looks.map fun look => (look.1, !look.2)

@[simp]
theorem numbers_nil : numbers [] = [] :=
  rfl

@[simp]
theorem numbers_cons {s : ℕ × ℕ} {spans : List (ℕ × ℕ)} :
    numbers (s :: spans) = List.range' s.1 s.2 ++ numbers spans :=
  rfl

theorem range'_append_sub {m : ℕ} (hk : n ≤ k) (hm : k ≤ m) :
    List.range' n (k - n) ++ List.range' k (m - k) = List.range' n (m - n) := by
  have hstart : n + (k - n) = k := Nat.add_sub_cancel' hk
  have hlength : k - n + (m - k) = m - n := by omega
  calc
    List.range' n (k - n) ++ List.range' k (m - k)
    _ = List.range' n (k - n) ++ List.range' (n + (k - n)) (m - k) := by rw [hstart]
    _ = List.range' n (k - n + (m - k)) := List.range'_append_1
    _ = List.range' n (m - n) := by rw [hlength]

theorem spans_cons {look : τ × Bool} :
    spans count n (look :: looks) = spans count n [look] ++ spans count (count look.1) looks := by
  simp [spans]

theorem numbers_spans_cons (h : n ≤ count t) :
    numbers (spans count n ((t, active) :: looks)) =
      (if active then List.range' n (count t - n) else []) ++
        numbers (spans count (count t) looks) := by
  cases active
  case false => rfl
  case true =>
    rcases Nat.eq_or_lt_of_le h with heq | hlt
    case inl => simp [spans, ← heq]
    case inr => simp [spans, hlt]

-- A stretch ends where the look that emits it finds the counter.
theorem mem_spans {s : ℕ × ℕ} (h : s ∈ spans count n looks) :
    ∃ look ∈ looks, s.1 < count look.1 ∧ s.1 + s.2 = count look.1 := by
  induction looks generalizing n
  case nil => cases h
  case cons look looks ih =>
    obtain ⟨t, active⟩ := look
    rcases List.mem_append.mp h with hhead | htail
    case inr =>
      obtain ⟨look, hlook, hspan⟩ := ih htail
      exact ⟨look, List.mem_cons_of_mem _ hlook, hspan⟩
    case inl =>
      split at hhead
      case isFalse => cases hhead
      case isTrue hnew =>
        rw [List.mem_singleton.mp hhead]
        exact ⟨(t, active), List.mem_cons_self, hnew.right, Nat.add_sub_cancel' hnew.right.le⟩

namespace Ascending

theorem of_ordered [LE τ] (hcount : ∀ t t', t ≤ t' → count t ≤ count t')
    (hordered : (looks.map Prod.fst).Pairwise (· ≤ ·))
    (hfirst : ∀ look ∈ looks.head?, n ≤ count look.1) : Ascending count n looks := by
  induction looks generalizing n
  case nil => trivial
  case cons look looks ih =>
    obtain ⟨hle, hordered⟩ := List.pairwise_cons.mp hordered
    refine ⟨hfirst look rfl, ih hordered fun next hnext => hcount _ _ (hle next.1 ?_)⟩
    exact List.mem_map_of_mem (List.mem_of_mem_head? hnext)

theorem le_reached (h : Ascending count n looks) : n ≤ reached count n looks := by
  induction looks generalizing n
  case nil => exact Nat.le_refl n
  case cons look looks ih =>
    obtain ⟨hle, htail⟩ := h
    exact Nat.le_trans hle (ih htail)

theorem complement (h : Ascending count n looks) : Ascending count n (complement looks) := by
  induction looks generalizing n
  case nil => trivial
  case cons look looks ih =>
    obtain ⟨hle, htail⟩ := h
    exact ⟨hle, ih htail⟩

theorem mem_numbers (h : Ascending count n looks) (hk : k ∈ numbers (spans count n looks)) :
    n ≤ k ∧ k < reached count n looks := by
  induction looks generalizing n
  case nil => cases hk
  case cons look looks ih =>
    obtain ⟨t, active⟩ := look
    obtain ⟨hle, htail⟩ := h
    rw [numbers_spans_cons hle, List.mem_append] at hk
    have hreached : count t ≤ reached count (count t) looks := htail.le_reached
    change n ≤ k ∧ k < reached count (count t) looks
    rcases hk with hhead | hrest
    case inl =>
      cases active
      case false => cases hhead
      case true =>
        have hmem := List.mem_range'_1.mp hhead
        omega
    case inr =>
      have hmem := ih htail hrest
      omega

-- No number is emitted twice, and none out of its order.
theorem numbers_sorted (h : Ascending count n looks) :
    (numbers (spans count n looks)).Pairwise (· < ·) := by
  induction looks generalizing n
  case nil => exact List.Pairwise.nil
  case cons look looks ih =>
    obtain ⟨t, active⟩ := look
    obtain ⟨hle, htail⟩ := h
    rw [numbers_spans_cons hle, List.pairwise_append]
    refine ⟨?_, ih htail, fun a ha b hb => ?_⟩
    case refine_1 =>
      cases active
      case false => exact List.Pairwise.nil
      case true  => exact List.pairwise_lt_range'
    case refine_2 =>
      have hb' := (htail.mem_numbers hb).left
      cases active
      case false => cases ha
      case true =>
        have ha' := List.mem_range'_1.mp ha
        omega

-- What the active looks leave out is what the other ones would have emitted.
theorem numbers_perm (h : Ascending count n looks) :
    (numbers (spans count n looks) ++ numbers (spans count n (Schedule.complement looks))).Perm
      (List.range' n (reached count n looks - n)) := by
  induction looks generalizing n
  case nil => simp [spans, Schedule.complement, reached]
  case cons look looks ih =>
    obtain ⟨t, active⟩ := look
    obtain ⟨hle, htail⟩ := h
    have hreached : count t ≤ reached count (count t) looks := htail.le_reached
    have hperm := (ih htail).append_left (List.range' n (count t - n))
    rw [range'_append_sub hle hreached] at hperm
    change (_ ++ numbers (spans count n ((t, !active) :: Schedule.complement looks))).Perm
      (List.range' n (reached count (count t) looks - n))
    rw [numbers_spans_cons hle, numbers_spans_cons hle]
    refine List.Perm.trans ?_ hperm
    cases active
    case false =>
      apply (List.perm_append_comm_assoc _ _ _).trans
      exact List.Perm.refl _
    case true => simp

-- With every look active the looks in between make no difference.
theorem numbers_of_active (h : Ascending count n looks) (hactive : ∀ look ∈ looks, look.2 = true) :
    numbers (spans count n looks) = List.range' n (reached count n looks - n) := by
  induction looks generalizing n
  case nil => simp [spans, reached]
  case cons look looks ih =>
    obtain ⟨t, active⟩ := look
    obtain ⟨hle, htail⟩ := h
    have hhead : active = true := hactive _ List.mem_cons_self
    have hreached : count t ≤ reached count (count t) looks := htail.le_reached
    rw [numbers_spans_cons hle, if_pos hhead,
      ih htail (fun look hlook => hactive look (List.mem_cons_of_mem _ hlook))]
    exact range'_append_sub hle hreached

end Ascending

-- The last look alone decides how far the counter gets.
theorem reached_eq : reached count n looks = (looks.getLast?.map Prod.fst).elim n count := by
  induction looks generalizing n
  case nil => rfl
  case cons look looks ih =>
    cases looks
    case nil => rfl
    case cons next looks =>
      rw [List.getLast?_cons_cons]
      exact ih (n := count look.1)

end Schedule
