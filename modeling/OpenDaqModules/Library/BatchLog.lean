import Mathlib.Data.List.Infix

-- An append-only log of items, in which every now and then a batch announces the items that were
-- appended since the previous batch.
inductive BatchLog.Record (α : Type*)
  | item (a : α)
  | batch (as : List α)

structure BatchLog (α : Type*) where
  log     : List (BatchLog.Record α) := []
  pending : List α                   := []

namespace BatchLog

variable {α : Type*}

def Record.items : Record α → List α
  | .item a  => [a]
  | .batch _ => []

def Record.announced : Record α → List α
  | .item _   => []
  | .batch as => as

def items (log : List (Record α)) : List α :=
  log.flatMap Record.items

def announced (log : List (Record α)) : List α :=
  log.flatMap Record.announced

def add (l : BatchLog α) (a : α) : BatchLog α where
  log     := l.log ++ [.item a]
  pending := l.pending ++ [a]

def emit (l : BatchLog α) : BatchLog α where
  log := l.log ++ [.batch l.pending]

-- An item that is going to be announced although it is not in the log.
def note (l : BatchLog α) (a : α) : BatchLog α :=
  { l with pending := l.pending ++ [a] }

-- A batch that is not made of the pending items.
def insert (l : BatchLog α) (as : List α) : BatchLog α :=
  { l with log := l.log ++ [.batch as] }

-- Every item is announced or pending, in the order of the log.
def Covered (l : BatchLog α) : Prop :=
  (items l.log).Sublist (announced l.log ++ l.pending)

-- No item is lost or announced twice, and nothing is announced before it is in the log.
structure Balanced (l : BatchLog α) : Prop where
  conserved : announced l.log ++ l.pending = items l.log
  preceded  : ∀ log, log <+: l.log → announced log <+: items log
  nonempty  : ∀ as, .batch as ∈ l.log → as ≠ []
  closed    : ∀ as, l.log.getLast? = some (.batch as) → l.pending = []

-- Logs that end with a batch, where each batch announces what stands between it and the one before.
inductive Closed : List (Record α) → Prop
  | nil : Closed []
  | chunk {log : List (Record α)} {as : List α} (h : Closed log) (hne : as ≠ []) :
    Closed (log ++ as.map .item ++ [.batch as])

-- What is pending was appended after the last batch.
def Chunked (l : BatchLog α) : Prop :=
  ∃ log, Closed log ∧ l.log = log ++ l.pending.map .item

variable {l : BatchLog α} {a : α} {log : List (Record α)}

@[simp]
theorem items_append : items (log ++ log') = items log ++ items log' :=
  List.flatMap_append

@[simp]
theorem announced_append : announced (log ++ log') = announced log ++ announced log' :=
  List.flatMap_append

@[simp]
theorem items_item : items [.item a] = [a] :=
  rfl

@[simp]
theorem items_batch : items [.batch as] = ([] : List α) :=
  rfl

@[simp]
theorem items_map_item {as : List α} : items (as.map .item) = as := by
  simp [items, List.flatMap_map, Record.items]

@[simp]
theorem announced_item : announced [.item a] = ([] : List α) :=
  rfl

@[simp]
theorem announced_batch : announced [.batch as] = (as : List α) := by
  simp [announced, Record.announced]

namespace Covered

theorem empty : Covered ({} : BatchLog α) :=
  .slnil

theorem add (h : l.Covered) : (l.add a).Covered := by
  simp only [Covered, BatchLog.add, items_append, items_item, announced_append, announced_item,
    List.append_nil]
  rw [← List.append_assoc]
  exact h.append_right [a]

theorem emit (h : l.Covered) : l.emit.Covered := by
  simpa [Covered, BatchLog.emit] using h

theorem note (h : l.Covered) : (l.note a).Covered := by
  simp only [Covered, BatchLog.note]
  rw [← List.append_assoc]
  exact h.trans <| List.sublist_append_left _ _

theorem insert (h : l.Covered) : (l.insert as).Covered := by
  simp only [Covered, BatchLog.insert, items_append, items_batch, announced_append,
    announced_batch, List.append_nil]
  exact h.trans <| (List.sublist_append_left _ as).append_right _

end Covered

namespace Balanced

theorem empty : Balanced ({} : BatchLog α) where
  conserved      := rfl
  preceded log h := by simp [List.prefix_nil.mp h, announced]
  nonempty _ h   := nomatch h
  closed _ h     := nomatch h

theorem announced_prefix (h : l.Balanced) : announced l.log <+: items l.log :=
  ⟨l.pending, h.conserved⟩

theorem add (h : l.Balanced) : (l.add a).Balanced where
  conserved := by
    simp only [BatchLog.add, announced_append, announced_item, List.append_nil, items_append,
      items_item, ← h.conserved, List.append_assoc]
  preceded log hlog := by
    cases List.prefix_concat_iff.mp hlog
    case inr hlog => exact h.preceded log hlog
    case inl hlog =>
      rw [hlog, announced_append, items_append, announced_item, List.append_nil]
      exact h.announced_prefix.trans (List.prefix_append _ _)
  nonempty as has := by
    apply h.nonempty as
    simpa [BatchLog.add] using has
  closed as hlast := by simp [BatchLog.add] at hlast

theorem emit (h : l.Balanced) (hne : l.pending ≠ []) : l.emit.Balanced where
  conserved := by
    simp only [BatchLog.emit, announced_append, announced_batch, items_append, items_batch,
      List.append_nil, h.conserved]
  preceded log hlog := by
    cases List.prefix_concat_iff.mp hlog
    case inr hlog => exact h.preceded log hlog
    case inl hlog => simp [hlog, h.conserved]
  nonempty as has := by
    cases List.mem_append.mp has
    case inl has => exact h.nonempty as has
    case inr has =>
      cases List.mem_singleton.mp has
      exact hne
  closed _ _ := rfl

-- Once everything is announced, the batches list the items one by one.
theorem announced_eq (h : l.Balanced) (hp : l.pending = []) : announced l.log = items l.log := by
  simpa [hp] using h.conserved

theorem announced_eq_of_closed (h : l.Balanced) (hl : ∀ r ∈ l.log.getLast?, ∃ as, r = .batch as) :
    announced l.log = items l.log := by
  apply h.announced_eq
  cases hlast : l.log.getLast?
  case some r =>
    have ⟨as, has⟩ := hl r hlast
    exact h.closed as (has ▸ hlast)
  case none =>
    have hnil := List.getLast?_eq_none_iff.mp hlast
    simpa [hnil, announced, items] using h.conserved

-- What a batch announces stands in front of it.
theorem mem_items_of_batch (h : l.Balanced) (hlog : l.log = log ++ .batch as :: log')
    (ha : a ∈ as) : a ∈ items log := by
  have hpre : log ++ [.batch as] <+: l.log := ⟨log', by simp [hlog]⟩
  have hsub := (h.preceded _ hpre).subset
  simp only [announced_append, announced_batch, items_append, items_batch, List.append_nil] at hsub
  exact hsub (List.mem_append_right _ ha)

-- The items which are not announced yet.
theorem length_items (h : l.Balanced) :
    (items l.log).length = (announced l.log).length + l.pending.length := by
  rw [← h.conserved, List.length_append]

end Balanced

namespace Chunked

theorem empty : Chunked ({} : BatchLog α) :=
  ⟨[], .nil, rfl⟩

theorem add (h : l.Chunked) : (l.add a).Chunked := by
  obtain ⟨log, hclosed, hlog⟩ := h
  exact ⟨log, hclosed, by simp [BatchLog.add, hlog]⟩

theorem emit (h : l.Chunked) (hne : l.pending ≠ []) : l.emit.Chunked := by
  obtain ⟨log, hclosed, hlog⟩ := h
  exact ⟨_, hclosed.chunk hne, by simp [BatchLog.emit, hlog]⟩

theorem closed (h : l.Chunked) (hp : l.pending = []) : Closed l.log := by
  obtain ⟨log, hclosed, hlog⟩ := h
  rw [hlog, hp, List.map_nil, List.append_nil]
  exact hclosed

end Chunked
end BatchLog
