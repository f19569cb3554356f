import Mathlib.Data.List.Range

-- A list that is not empty, read over and over.
structure Looped (α : Type) where
  items    : List α
  nonempty : 0 < items.length

namespace Looped

variable {α : Type} {l : Looped α} {i k m n : ℕ}

def get (l : Looped α) (k : ℕ) : α :=
  l.items.get ⟨k % l.items.length, Nat.mod_lt k l.nonempty⟩

-- As many as `n` items, from the `k`-th on.
def window (l : Looped α) (k n : ℕ) : List α :=
  (List.range' k n).map l.get

theorem getElem?_items (h : i < l.items.length) : l.items[i]? = some (l.get i) := by
  have hi : i % l.items.length = i := Nat.mod_eq_of_lt h
  simp only [get, List.get_eq_getElem, hi]
  exact List.getElem?_eq_getElem h

@[simp]
theorem get_mod : l.get (k % l.items.length) = l.get k := by
  simp [get]

@[simp]
theorem window_zero : l.window k 0 = [] :=
  rfl

@[simp]
theorem window_length : (l.window k n).length = n := by
  simp [window]

theorem window_succ : l.window k (n + 1) = l.get k :: l.window (k + 1) n := by
  rw [window, List.range'_succ]
  rfl

theorem window_head? : (l.window k (n + 1)).head? = some (l.get k) := by
  rw [window_succ]
  rfl

theorem window_getLast? : (l.window k (n + 1)).getLast? = some (l.get (k + n)) := by
  rw [window, List.range'_1_concat, List.map_append, List.map_singleton, List.getLast?_concat]

theorem getElem?_items_mod : l.items[k % l.items.length]? = some (l.get k) := by
  rw [getElem?_items (Nat.mod_lt k l.nonempty), get_mod]

theorem window_append : l.window k m ++ l.window (k + m) n = l.window k (m + n) := by
  rw [window, window, ← List.map_append, List.range'_append_1]
  rfl

-- A window does not depend on how often the list was read before.
theorem window_mod : l.window (k % l.items.length) n = l.window k n := by
  induction n generalizing k
  case zero => rfl
  case succ n ih =>
    have hnext : (k % l.items.length + 1) % l.items.length = (k + 1) % l.items.length :=
      Nat.mod_add_mod k l.items.length 1
    calc
      l.window (k % l.items.length) (n + 1)
      _ = l.get (k % l.items.length) :: l.window (k % l.items.length + 1) n := window_succ
      _ = l.get k :: l.window ((k % l.items.length + 1) % l.items.length) n := by rw [get_mod, ih]
      _ = l.get k :: l.window (k + 1) n := by rw [hnext, ih]
      _ = l.window k (n + 1) := window_succ.symm

-- A cursor that turns back at the end needs no division.
theorem cursor_eq_mod (h : i < n) : (if i + 1 ≥ n then 0 else i + 1) = (i + 1) % n := by
  split
  case isTrue hge =>
    have heq : i + 1 = n := by omega
    rw [heq, Nat.mod_self]
  case isFalse hlt => exact (Nat.mod_eq_of_lt (by omega)).symm

end Looped
