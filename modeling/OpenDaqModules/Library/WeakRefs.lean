import Mathlib.Data.List.Basic

-- Objects that others may end at any time, and a table that refers to them without keeping them.
namespace WeakRefs

inductive Lifetime
  | live
  -- Still there, but no longer in use.
  | removed
  | destroyed
  deriving DecidableEq

structure Object (α : Type) where
  value    : α
  lifetime : Lifetime
  deriving DecidableEq

-- An object is named by the number of objects before it. It keeps its place when it has ended.
abbrev Heap (α : Type) :=
  List (Object α)

variable {α : Type} {heap heap' : Heap α} {ref ref' : ℕ} {value value' : α} {key : α → ℕ}
variable {slots : List (Option ℕ)} {keep : ℕ → Bool}

namespace Heap

def Live (heap : Heap α) (ref : ℕ) (value : α) : Prop :=
  heap[ref]? = some ⟨value, .live⟩

-- What a weak reference gives.
def getRef (heap : Heap α) (ref : ℕ) : Option (Object α) :=
  heap[ref]?.filter (·.lifetime ≠ .destroyed)

def isRemoved (heap : Heap α) (ref : ℕ) : Bool :=
  (heap.getRef ref).any (·.lifetime = .removed)

def remove (heap : Heap α) (ref : ℕ) : Heap α :=
  heap.modify ref fun o => if o.lifetime = .live then { o with lifetime := .removed } else o

def destroy (heap : Heap α) (ref : ℕ) : Heap α :=
  heap.modify ref ({ · with lifetime := .destroyed })

-- No object comes back to life, and none is forgotten.
structure Ends (heap heap' : Heap α) : Prop where
  length_eq : heap'.length = heap.length
  live      : ∀ {ref value}, heap'.Live ref value → heap.Live ref value

theorem live_modify {f : Object α → Object α} (h : ∀ o, (f o).lifetime ≠ .live)
    (hlive : Live (heap.modify ref f) ref' value) : ref ≠ ref' ∧ heap.Live ref' value := by
  rw [Live, List.getElem?_modify, Option.map_eq_map, Option.map_eq_some_iff] at hlive
  obtain ⟨o, ho, hsame⟩ := hlive
  split at hsame
  case isTrue       => exact absurd (congrArg Object.lifetime hsame) (h o)
  case isFalse href => exact ⟨href, ho.trans (congrArg some hsame)⟩

theorem remove_lifetime {o : Object α} :
    (if o.lifetime = .live then { o with lifetime := .removed } else o).lifetime ≠ .live := by
  split
  case isTrue  => nofun
  case isFalse => assumption

theorem ends_remove : heap.Ends (heap.remove ref) where
  length_eq  := List.length_modify _ _ _
  live hlive := (live_modify (fun _ => remove_lifetime) hlive).right

theorem ends_destroy : heap.Ends (heap.destroy ref) where
  length_eq  := List.length_modify _ _ _
  live hlive := (live_modify (fun _ => Lifetime.noConfusion) hlive).right

theorem not_live_remove : ¬(heap.remove ref).Live ref value :=
  fun hlive => (live_modify (fun _ => remove_lifetime) hlive).left rfl

theorem not_live_destroy : ¬(heap.destroy ref).Live ref value :=
  fun hlive => (live_modify (fun _ => Lifetime.noConfusion) hlive).left rfl

theorem Live.lt_length (h : heap.Live ref value) : ref < heap.length :=
  (List.getElem?_eq_some_iff.mp h).fst

theorem Live.getRef (h : heap.Live ref value) : heap.getRef ref = some ⟨value, .live⟩ := by
  rw [Heap.getRef, show heap[ref]? = _ from h]
  rfl

theorem Live.isRemoved (h : heap.Live ref value) : heap.isRemoved ref = false := by
  rw [Heap.isRemoved, h.getRef]
  rfl

-- A reference that is neither gone nor removed is one to what is alive.
theorem live_iff : ((heap.getRef ref).isSome && !heap.isRemoved ref) = true ↔
    ∃ value, heap.Live ref value := by
  constructor
  case mp =>
    intro h
    rw [isRemoved] at h
    obtain ⟨hsome, hremoved⟩ := Bool.and_eq_true_iff.mp h
    obtain ⟨⟨value, lifetime⟩, ho⟩ := Option.isSome_iff_exists.mp hsome
    rw [ho] at hremoved
    obtain ⟨hget, hdestroyed⟩ := Option.filter_eq_some_iff.mp ho
    cases lifetime
    case live      => exact ⟨value, hget⟩
    case removed   => cases hremoved
    case destroyed => cases hdestroyed
  case mpr =>
    rintro ⟨value, h⟩
    rw [h.getRef, h.isRemoved]
    rfl

theorem live_concat (h : Live (heap ++ [⟨value, .live⟩]) ref value') :
    heap.Live ref value' ∨ ref = heap.length ∧ value' = value := by
  simp only [Live] at h ⊢
  by_cases hlt : ref < heap.length
  case pos => exact .inl (List.getElem?_append_left hlt ▸ h)
  case neg =>
    rw [List.getElem?_append_right (Nat.le_of_not_lt hlt), List.getElem?_singleton] at h
    split at h
    case isFalse => cases h
    case isTrue hzero =>
      cases h
      exact .inr ⟨by omega, rfl⟩

theorem Live.concat (h : heap.Live ref value') (value : α) :
    Live (heap ++ [⟨value, .live⟩]) ref value' := by
  rw [Live, List.getElem?_append_left h.lt_length]
  exact h

theorem live_length : Live (heap ++ [⟨value, .live⟩]) heap.length value :=
  List.getElem?_concat_length

end Heap

open Heap

-- What is alive is what the slot of its key refers to.
structure Tracked (key : α → ℕ) (heap : Heap α) (slots : List (Option ℕ)) : Prop where
  held   : ∀ {ref value}, heap.Live ref value → slots[key value]? = some (some ref)
  named  : ∀ {i : ℕ} {ref value}, slots[i]? = some (some ref) → heap.Live ref value → key value = i
  ref_lt : ∀ {i ref : ℕ}, slots[i]? = some (some ref) → ref < heap.length

namespace Tracked

theorem empty {n : ℕ} : Tracked key [] (List.replicate n none) where
  held hlive   := nomatch hlive
  named _      := fun hlive => nomatch hlive
  ref_lt hslot := by cases List.eq_of_mem_replicate (List.mem_of_getElem? hslot)

theorem unique (h : Tracked key heap slots) (hlive : heap.Live ref value)
    (hlive' : heap.Live ref' value') (hkey : key value = key value') : ref = ref' := by
  have hsame := (h.held hlive).symm.trans (hkey ▸ h.held hlive')
  exact Option.some.inj (Option.some.inj hsame)

theorem key_lt (h : Tracked key heap slots) (hlive : heap.Live ref value) :
    key value < slots.length :=
  (List.getElem?_eq_some_iff.mp (h.held hlive)).fst

theorem ends (h : Tracked key heap slots) (hends : heap.Ends heap') : Tracked key heap' slots where
  held hlive        := h.held (hends.live hlive)
  named hslot hlive := h.named hslot (hends.live hlive)
  ref_lt hslot      := hends.length_eq ▸ h.ref_lt hslot

theorem getElem?_clear {i : ℕ} : (slots.map (·.filter keep))[i]? = some (some ref) ↔
    slots[i]? = some (some ref) ∧ keep ref := by
  rw [List.getElem?_map]
  cases slots[i]?
  case none => simp
  case some slot => simp [Option.filter_eq_some_iff]

-- Slots may be emptied of what is not alive.
theorem clear (h : Tracked key heap slots) (hkeep : ∀ {ref value}, heap.Live ref value → keep ref) :
    Tracked key heap (slots.map (·.filter keep)) where
  held hlive  := getElem?_clear.mpr ⟨h.held hlive, hkeep hlive⟩
  named hslot := h.named (getElem?_clear.mp hslot).left
  ref_lt hslot := h.ref_lt (getElem?_clear.mp hslot).left

-- A free slot may be given to a new object.
theorem add (h : Tracked key heap slots) (hfree : ∀ {ref v}, heap.Live ref v → key v ≠ key value)
    (hlt : key value < slots.length) :
    Tracked key (heap ++ [⟨value, .live⟩]) (slots.set (key value) (some heap.length)) where
  held := by
    intro ref value' hlive
    rcases live_concat hlive with hold | ⟨rfl, rfl⟩
    case inl =>
      rw [List.getElem?_set_ne (hfree hold).symm]
      exact h.held hold
    case inr => exact List.getElem?_set_self hlt
  named := by
    intro i ref value' hslot hlive
    by_cases hi : key value = i
    case pos =>
      rw [← hi, List.getElem?_set_self hlt] at hslot
      cases hslot
      rcases live_concat hlive with hold | ⟨-, rfl⟩
      · exact absurd hold.lt_length (Nat.lt_irrefl _)
      · exact hi
    case neg =>
      rw [List.getElem?_set_ne hi] at hslot
      rcases live_concat hlive with hold | ⟨rfl, -⟩
      · exact h.named hslot hold
      · exact absurd (h.ref_lt hslot) (Nat.lt_irrefl _)
  ref_lt := by
    intro i ref hslot
    rw [List.length_append, List.length_singleton]
    by_cases hi : key value = i
    case pos =>
      rw [← hi, List.getElem?_set_self hlt] at hslot
      cases hslot
      exact Nat.lt_succ_self _
    case neg =>
      rw [List.getElem?_set_ne hi] at hslot
      exact Nat.lt_succ_of_lt (h.ref_lt hslot)

-- A slot refers to something alive if there is something alive of its key.
theorem refers_iff (h : Tracked key heap slots) {i : ℕ} :
    (∃ ref value, slots[i]? = some (some ref) ∧ heap.Live ref value) ↔
      ∃ ref value, heap.Live ref value ∧ key value = i := by
  constructor
  case mp =>
    rintro ⟨ref, value, hslot, hlive⟩
    exact ⟨ref, value, hlive, h.named hslot hlive⟩
  case mpr =>
    rintro ⟨ref, value, hlive, rfl⟩
    exact ⟨ref, value, h.held hlive, hlive⟩

end Tracked
end WeakRefs
