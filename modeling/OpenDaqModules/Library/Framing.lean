import Mathlib.Data.List.Basic
import Mathlib.Data.List.Infix
import Mathlib.Order.Basic

-- A stream format in which every value is written as one frame, and in which a reader finds the
-- end of a frame without looking past it.
structure Framing (α β : Type*) where
  write : α → List β
  read  : List β → Option (α × List β)

namespace Framing

variable {α β : Type*}

def size (f : Framing α β) (a : α) : ℕ :=
  (f.write a).length

def stream (f : Framing α β) (as : List α) : List β :=
  as.flatMap f.write

-- The values of a stream with the offsets of their frames, the first of which starts at `offset`.
def placed (f : Framing α β) (offset : ℕ) : List α → List (ℕ × α)
  | []      => []
  | a :: as => (offset, a) :: f.placed (offset + f.size a) as

-- Reads frames until there is no further complete one. Every frame takes some input, so the
-- length of the input bounds their number.
def decode (f : Framing α β) (bs : List β) : List α :=
  go bs.length bs
where
  go : ℕ → List β → List α
    | 0, _ => []
    | fuel + 1, bs =>
      match f.read bs with
      | none           => []
      | some (a, rest) => a :: go fuel rest

-- Reads frames from the end of the input, where `lastSize` finds the size of the last one.
def decodeBack (f : Framing α β) (lastSize : List β → Option ℕ) (bs : List β) : List α :=
  go bs.length bs
where
  go : ℕ → List β → List α
    | 0, _ => []
    | fuel + 1, bs =>
      match lastSize bs with
      | none   => []
      | some n =>
        match f.read (bs.drop (bs.length - n)) with
        | none        => []
        | some (a, _) => a :: go fuel (bs.take (bs.length - n))

-- The value of the frame that starts at an offset of the input.
def readAt (f : Framing α β) (bs : List β) (offset : ℕ) : Option α :=
  (f.read (bs.drop offset)).map Prod.fst

-- The value of the frame that ends at an offset of the input.
def readBefore (f : Framing α β) (lastSize : List β → Option ℕ) (bs : List β) (stop : ℕ) :
    Option α :=
  (lastSize (bs.take stop)).bind fun n => f.readAt bs (stop - n)

-- What makes the values with `valid` readable: a frame is not empty, it is read back whatever
-- follows it, and no proper prefix of it is taken for a frame.
structure Lawful (f : Framing α β) (valid : α → Prop) : Prop where
  read_nil   : f.read [] = none
  size_pos   : valid a → 0 < f.size a
  read_write : valid a → ∀ bs, f.read (f.write a ++ bs) = some (a, bs)
  read_cut   : valid a → n < f.size a → f.read ((f.write a).take n) = none

-- What finding the size of the last frame takes.
def FindsLast (f : Framing α β) (valid : α → Prop) (lastSize : List β → Option ℕ) : Prop :=
  lastSize [] = none ∧ ∀ a bs, valid a → lastSize (bs ++ f.write a) = some (f.size a)

variable {f : Framing α β} {valid : α → Prop} {a : α} {as as' : List α} {o k n : ℕ}

@[simp]
theorem stream_nil : f.stream [] = [] :=
  rfl

@[simp]
theorem stream_cons : f.stream (a :: as) = f.write a ++ f.stream as :=
  rfl

@[simp]
theorem stream_append : f.stream (as ++ as') = f.stream as ++ f.stream as' :=
  List.flatMap_append

@[simp]
theorem placed_nil : f.placed o [] = [] :=
  rfl

@[simp]
theorem placed_cons : f.placed o (a :: as) = (o, a) :: f.placed (o + f.size a) as :=
  rfl

theorem placed_map_snd : (f.placed o as).map Prod.snd = as := by
  induction as generalizing o
  case nil          => rfl
  case cons a as ih => simp [ih]

theorem le_of_mem_placed (h : x ∈ f.placed o as) : o ≤ x.1 := by
  induction as generalizing o
  case nil => simp at h
  case cons a as ih =>
    cases h
    case head   => exact le_rfl
    case tail h => exact Nat.le_trans (Nat.le_add_right _ _) (ih h)

theorem exists_of_mem_placed (h : x ∈ f.placed o as) :
    ∃ before after, as = before ++ x.2 :: after ∧ x.1 = o + (f.stream before).length := by
  induction as generalizing o
  case nil => simp at h
  case cons a as ih =>
    cases h
    case head   => exact ⟨[], as, rfl, rfl⟩
    case tail h =>
      obtain ⟨before, after, rfl, hoffset⟩ := ih h
      exact ⟨a :: before, after, rfl, by simp [hoffset, size, Nat.add_assoc]⟩

theorem mem_placed_end_le (h : x ∈ f.placed o as) :
    x.1 + f.size x.2 ≤ o + (f.stream as).length := by
  induction as generalizing o
  case nil => simp at h
  case cons a as ih =>
    cases h
    case head   => simp [size]
    case tail h => simpa [size, Nat.add_assoc] using ih h

theorem placed_append : f.placed o (as ++ as') = f.placed o as ++ f.placed (o + (f.stream as).length) as' := by
  induction as generalizing o
  case nil          => rfl
  case cons a as ih => simp [ih, size, Nat.add_assoc]

-- The values whose frames end before a place are the first ones.
theorem prefix_filter_placed :
    ((f.placed o as).filter (fun x => x.1 + f.size x.2 ≤ o + k)).map Prod.snd <+: as := by
  induction as generalizing o k
  case nil          => exact List.prefix_rfl
  case cons a as ih =>
    by_cases hk : f.size a ≤ k
    case pos =>
      have ih := ih (o := o + f.size a) (k := k - f.size a)
      rw [show o + f.size a + (k - f.size a) = o + k by omega] at ih
      rw [placed_cons, List.filter_cons_of_pos (by simpa using hk), List.map_cons]
      exact (List.prefix_cons_inj a).mpr ih
    case neg =>
      have hnone : (f.placed o (a :: as)).filter (fun x => x.1 + f.size x.2 ≤ o + k) = [] := by
        apply List.filter_eq_nil_iff.mpr
        intro x hx
        have hle : o + f.size a ≤ x.1 + f.size x.2 := by
          cases hx
          case head   => exact le_rfl
          case tail h => exact (le_of_mem_placed h).trans (Nat.le_add_right _ _)
        simp only [decide_eq_true_eq]
        omega
      rw [hnone]
      exact List.nil_prefix

namespace Lawful

theorem length_le_stream (l : f.Lawful valid) (hv : ∀ a ∈ as, valid a) :
    as.length ≤ (f.stream as).length := by
  induction as
  case nil => simp
  case cons a as ih =>
    have ha := l.size_pos (hv a List.mem_cons_self)
    have := ih fun b hb => hv b (List.mem_cons_of_mem a hb)
    simp only [size] at ha
    simp only [stream_cons, List.length_append, List.length_cons]
    omega

theorem decode_go_nil (l : f.Lawful valid) : decode.go f n [] = [] := by
  cases n <;> simp [decode.go, l.read_nil]

-- The first value is found whatever follows its frame.
theorem decode_write_append (l : f.Lawful valid) (ha : valid a) (bs : List β) :
    (f.decode (f.write a ++ bs)).head? = some a := by
  have hpos := l.size_pos ha
  obtain ⟨n, hn⟩ : ∃ n, (f.write a ++ bs).length = n + 1 := by
    apply Nat.exists_eq_succ_of_ne_zero
    rw [List.length_append]
    exact (Nat.add_pos_left hpos _).ne'
  rw [decode, hn, decode.go, l.read_write ha, List.head?_cons]

-- The induction is on the frames: one that fits is read and leaves the rest of the prefix to the
-- others, and the first one that is cut ends the run, as all later ones start behind the cut.
theorem decode_go_take (l : f.Lawful valid) (hv : ∀ a ∈ as, valid a) (hn : k ≤ n) :
    decode.go f n ((f.stream as).take k) =
      ((f.placed o as).filter (fun x => x.1 + f.size x.2 ≤ o + k)).map Prod.snd := by
  induction as generalizing o k n
  case nil => simp [l.decode_go_nil]
  case cons a as ih =>
    have ha := hv a List.mem_cons_self
    have hpos := l.size_pos ha
    by_cases hk : f.size a ≤ k
    case pos =>
      obtain ⟨n, rfl⟩ : ∃ m, n = m + 1 := ⟨n - 1, by omega⟩
      have htake : (f.stream (a :: as)).take k =
          f.write a ++ (f.stream as).take (k - f.size a) := by
        rw [stream_cons, List.take_append, List.take_of_length_le hk, size]
      have hrest := ih (o := o + f.size a) (k := k - f.size a) (n := n)
        (fun b hb => hv b (List.mem_cons_of_mem a hb)) (by omega)
      have hend : o + f.size a + (k - f.size a) = o + k := by omega
      rw [htake, decode.go, l.read_write ha]
      simp [hrest, hend, hk]
    case neg =>
      have htake : (f.stream (a :: as)).take k = (f.write a).take k := by
        rw [stream_cons, List.take_append_of_le_length (by simp [size] at hk; omega)]
      have hread : decode.go f n ((f.write a).take k) = [] := by
        cases n <;> simp [decode.go, l.read_cut ha (by omega : k < f.size a)]
      have hlater : (f.placed (o + f.size a) as).filter (fun x => x.1 + f.size x.2 ≤ o + k) = [] := by
        apply List.filter_eq_nil_iff.mpr
        intro x hx
        have := le_of_mem_placed hx
        simp only [decide_eq_true_eq]
        omega
      rw [htake, hread]
      simp [hk, hlater]

theorem decode_take (l : f.Lawful valid) (hv : ∀ a ∈ as, valid a) (hk : k ≤ (f.stream as).length) :
    f.decode ((f.stream as).take k) =
      ((f.placed 0 as).filter (fun x => x.1 + f.size x.2 ≤ k)).map Prod.snd := by
  have := l.decode_go_take (o := 0) hv (List.length_take_of_le hk).ge
  simpa [decode] using this

-- What is found in the first part of a stream are its first values, among them all whose frames are
-- there.
theorem prefix_of_decode_take (l : f.Lawful valid) (hv : ∀ a ∈ as, valid a) (k : ℕ) :
    f.decode ((f.stream as).take k) <+: as := by
  have hprefix : ((f.placed 0 as).filter (fun x => x.1 + f.size x.2 ≤ 0 + min k (f.stream as).length)).map
      Prod.snd <+: as := by exact prefix_filter_placed
  rw [Nat.zero_add] at hprefix
  rwa [List.take_eq_take_min, l.decode_take hv (Nat.min_le_right _ _)]

theorem prefix_decode_take (l : f.Lawful valid) (hv : ∀ a ∈ as, valid a) (has : as' <+: as)
    (hle : (f.stream as').length ≤ k) : as' <+: f.decode ((f.stream as).take k) := by
  obtain ⟨later, rfl⟩ := has
  have hall : ∀ x ∈ f.placed 0 as', x.1 + f.size x.2 ≤ min k (f.stream (as' ++ later)).length := by
    intro x hx
    have hend := mem_placed_end_le hx
    rw [stream_append, List.length_append]
    omega
  rw [List.take_eq_take_min, l.decode_take hv (Nat.min_le_right _ _), placed_append, List.filter_append,
    List.filter_eq_self.mpr (by simpa using hall), List.map_append, placed_map_snd]
  exact List.prefix_append _ _

theorem decode_stream (l : f.Lawful valid) (hv : ∀ a ∈ as, valid a) :
    f.decode (f.stream as) = as := by
  have h := l.decode_take hv le_rfl
  have hall : ∀ x ∈ f.placed 0 as, x.1 + f.size x.2 ≤ (f.stream as).length := by
    intro x hx
    simpa using mem_placed_end_le hx
  rw [List.take_length, List.filter_eq_self.mpr (by simpa using hall), placed_map_snd] at h
  exact h

-- The beginning of one more frame does not disturb the reader.
theorem decode_stream_append_take (l : f.Lawful valid) (hv : ∀ a ∈ as, valid a) (ha : valid a)
    (hn : n < f.size a) : f.decode (f.stream as ++ (f.write a).take n) = as := by
  have hvalid : ∀ b ∈ as ++ [a], valid b := by simpa [or_imp, forall_and] using ⟨hv, ha⟩
  have hle : (f.stream as).length + n ≤ (f.stream (as ++ [a])).length := by
    rw [size] at hn
    simpa using hn.le
  have htake : f.stream as ++ (f.write a).take n =
      (f.stream (as ++ [a])).take ((f.stream as).length + n) := by
    simp [List.take_append]
  have hall : ∀ x ∈ f.placed 0 as, x.1 + f.size x.2 ≤ (f.stream as).length + n := by
    intro x hx
    have hend := mem_placed_end_le hx
    omega
  have hlast : ∀ x ∈ f.placed (0 + (f.stream as).length) [a],
      ¬x.1 + f.size x.2 ≤ (f.stream as).length + n := by
    intro x hx
    cases List.mem_singleton.mp hx
    dsimp only
    omega
  rw [htake, l.decode_take hvalid hle, placed_append, List.filter_append,
    List.filter_eq_self.mpr (by simpa using hall), List.filter_eq_nil_iff.mpr (by simpa using hlast),
    List.append_nil, placed_map_snd]

theorem readAt_stream (l : f.Lawful valid) (ha : valid a) (later : List α) :
    f.readAt (f.stream (as ++ a :: later)) (f.stream as).length = some a := by
  rw [readAt, stream_append, List.drop_left, stream_cons, l.read_write ha, Option.map_some]

-- A frame is found again at the offset that it was placed at.
theorem readAt_placed (l : f.Lawful valid) (hv : ∀ a ∈ as, valid a) (hx : x ∈ f.placed 0 as) :
    f.readAt (f.stream as) x.1 = some x.2 := by
  obtain ⟨before, after, rfl, hoffset⟩ := exists_of_mem_placed hx
  rw [hoffset, Nat.zero_add]
  exact l.readAt_stream (hv x.2 (by simp)) _

theorem readBefore_stream (l : f.Lawful valid) (hl : f.FindsLast valid lastSize) (ha : valid a)
    (later : List α) : f.readBefore lastSize (f.stream (as ++ a :: later))
      (f.stream (as ++ [a])).length = some a := by
  have htake : (f.stream (as ++ a :: later)).take (f.stream (as ++ [a])).length =
      f.stream as ++ f.write a := by
    have hstream : f.stream (as ++ a :: later) = f.stream (as ++ [a]) ++ f.stream later := by simp
    rw [hstream, List.take_left]
    simp
  have hstart : (f.stream (as ++ [a])).length - f.size a = (f.stream as).length := by
    simp [size]
  rw [readBefore, htake, hl.right a _ ha, Option.bind_some, hstart,
    l.readAt_stream ha]

theorem decodeBack_go (l : f.Lawful valid) (hl : f.FindsLast valid lastSize)
    (hv : ∀ a ∈ as, valid a) (hn : as.length ≤ n) :
    decodeBack.go f lastSize n (f.stream as) = as.reverse := by
  induction as using List.reverseRecOn generalizing n
  case nil => cases n <;> simp [decodeBack.go, hl.left]
  case append_singleton as a ih =>
    have ha := hv a (by simp)
    obtain ⟨n, rfl⟩ : ∃ m, n = m + 1 := ⟨n - 1, by simp at hn; omega⟩
    have hstream : f.stream (as ++ [a]) = f.stream as ++ f.write a := by simp
    have hlen : (f.stream as ++ f.write a).length - f.size a = (f.stream as).length := by
      simp [size]
    have hread := List.append_nil (f.write a) ▸ l.read_write ha []
    rw [hstream, decodeBack.go]
    simp only [hl.right a (f.stream as) ha, hlen, List.drop_left, List.take_left, hread]
    simp [ih (fun b hb => hv b (by simp [hb])) (by simp at hn; omega)]

theorem decodeBack_stream (l : f.Lawful valid) (hl : f.FindsLast valid lastSize)
    (hv : ∀ a ∈ as, valid a) : f.decodeBack lastSize (f.stream as) = as.reverse :=
  l.decodeBack_go hl hv (l.length_le_stream hv)

end Lawful
end Framing
