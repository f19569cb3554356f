import OpenDaqModules.Recorder.Sie.Theorems.FailedFlush

-- A reader that finds its way through a file by the index blocks.
namespace Sie

-- The block that an entry is about.
def IndexEntry.block (bs : Bytes) (e : IndexEntry) : Option StoredBlock :=
  blockFraming.readAt bs e.offset.toNat

def blockBefore (bs : Bytes) (stop : ℕ) : Option StoredBlock :=
  blockFraming.readBefore lastBlockSize bs stop

-- The entries of the index blocks up to a place at which one of them has to end. The first block
-- that it lists is taken to follow the index block before.
def listedBefore (bs : Bytes) : ℕ → ℕ → Option (List IndexEntry)
  | 0, _           => none
  | fuel + 1, stop =>
    if stop = 0 then some [] else do
      let b ← blockBefore bs stop
      if b.group = groups.INDEX then
        let es := decodeEntries b.payload
        let first ← es.head?
        return (← listedBefore bs fuel first.offset.toNat) ++ es
      else none

def listedEntries (bs : Bytes) : Option (List IndexEntry) :=
  listedBefore bs (bs.length + 1) bs.length

-- The blocks of a group. Those of the other groups are passed over.
def readGroup (bs : Bytes) (group : UInt32) : Option (List StoredBlock) := do
  let es ← listedEntries bs
  (es.filter (·.group = group)).mapM (·.block bs)

-- The log which a sequence of blocks is, if it starts at an offset.
def logged (o : ℕ) (bs : List StoredBlock) : List (BatchLog.Record IndexEntry) :=
  (blockFraming.placed o bs).map fun x => recordOf (x.1, x.2.toBlock)

variable {b : StoredBlock} {bs bs' later : List StoredBlock} {o n : ℕ}
  {log log' : List (BatchLog.Record IndexEntry)}

@[simp]
theorem logged_cons :
    logged o (b :: bs) = recordOf (o, b.toBlock) :: logged (o + blockFraming.size b) bs :=
  rfl

theorem logged_append :
    logged o (bs ++ bs') = logged o bs ++ logged (o + (blockFraming.stream bs).length) bs' := by
  rw [logged, Framing.placed_append, List.map_append]
  rfl

theorem logged_length : (logged o bs).length = bs.length := by
  rw [logged, List.length_map, ← List.length_map Prod.snd, Framing.placed_map_snd]

theorem exists_of_logged_eq_append (h : logged o bs = log ++ log') :
    ∃ bs₁ bs₂, bs = bs₁ ++ bs₂ ∧ logged o bs₁ = log ∧
      logged (o + (blockFraming.stream bs₁).length) bs₂ = log' := by
  refine ⟨bs.take log.length, bs.drop log.length, (List.take_append_drop _ bs).symm, ?_⟩
  have hle : log.length ≤ bs.length := by
    rw [← logged_length (o := o), h, List.length_append]
    exact Nat.le_add_right _ _
  rw [← List.take_append_drop log.length bs, logged_append] at h
  exact List.append_inj h (by rw [logged_length, List.length_take_of_le hle])

theorem recordOf_eq_batch {x : ℕ × Block} (h : recordOf x = .batch es) :
    x.2.group = groups.INDEX ∧ decodeEntries x.2.payload = es := by
  rw [recordOf] at h
  split at h
  case isTrue hgroup => exact ⟨hgroup, by cases h; rfl⟩
  case isFalse       => cases h

theorem recordOf_eq_item {x : ℕ × Block} (h : recordOf x = .item e) :
    x.2.group ≠ groups.INDEX ∧ entryOf x = e := by
  rw [recordOf] at h
  split at h
  case isTrue         => cases h
  case isFalse hgroup => exact ⟨hgroup, by cases h; rfl⟩

-- The blocks of the last index block start where the index block before ends, so the index is found
-- chunk by chunk.
theorem listedBefore_stream (hclosed : BatchLog.Closed log) (hlog : logged 0 bs = log)
    (hfits : ∀ b ∈ bs, b.Fits) (hlt : (blockFraming.stream bs).length < 2 ^ 64)
    (hn : bs.length < n) (later : List StoredBlock) :
    listedBefore (blockFraming.stream (bs ++ later)) n (blockFraming.stream bs).length =
      some (BatchLog.items log) := by
  induction hclosed generalizing bs n later
  case nil =>
    have hnil : bs = [] := by rw [← List.length_eq_zero_iff, ← logged_length (o := 0), hlog, List.length_nil]
    obtain ⟨n, rfl⟩ := Nat.exists_eq_add_of_lt hn
    rw [hnil, listedBefore, if_pos (by rfl)]
    rfl
  case chunk log es hclosed hne ih =>
    obtain ⟨front, last, rfl, hfront, hlast⟩ := exists_of_logged_eq_append hlog
    obtain ⟨old, new, rfl, hold, hnew⟩ := exists_of_logged_eq_append hfront
    obtain ⟨x, rfl⟩ : ∃ x, last = [x] := by
      rw [← List.length_eq_one_iff, ← logged_length, hlast, List.length_singleton]
    obtain ⟨e, es, rfl⟩ := List.exists_cons_of_ne_nil hne
    cases new
    case nil => cases hnew
    case cons y new =>
      obtain ⟨hgroup, hentries⟩ : x.group = groups.INDEX ∧ decodeEntries x.payload = e :: es := by
        exact recordOf_eq_batch (List.cons.inj hlast).left
      obtain ⟨_, hentry⟩ := recordOf_eq_item (List.cons.inj hnew).left
      have hlt' : (blockFraming.stream old).length < 2 ^ 64 := by
        simp only [Framing.stream_append, List.length_append] at hlt
        omega
      have hoffset : e.offset.toNat = (blockFraming.stream old).length := by
        rw [← hentry, entryOf, UInt64.toNat_ofNat', Nat.zero_add, Nat.mod_eq_of_lt hlt']
      have hbefore : blockBefore (blockFraming.stream (old ++ y :: new ++ [x] ++ later))
          (blockFraming.stream (old ++ y :: new ++ [x])).length = some x := by
        rw [List.append_assoc _ [x], List.singleton_append]
        exact blockFraming_lawful.readBefore_stream lastBlockSize_findsLast (hfits x (by simp)) later
      have hpos : 0 < (blockFraming.stream [x]).length := by
        simp [Block.size]
      have hne : (blockFraming.stream (old ++ y :: new ++ [x])).length ≠ 0 := by
        rw [Framing.stream_append, List.length_append]
        omega
      cases n
      case zero => exact absurd hn (Nat.not_lt_zero _)
      case succ n =>
        have ih := ih hold (fun b hb => hfits b (by simp [hb])) hlt' (n := n)
          (by simp only [List.length_append, List.length_cons] at hn; omega) (y :: new ++ [x] ++ later)
        rw [← hoffset, ← List.append_assoc, ← List.append_assoc] at ih
        rw [listedBefore, if_neg hne, hbefore, Option.bind_eq_bind, Option.bind_some, if_pos hgroup]
        simp only [hentries, List.head?_cons, Option.bind_eq_bind, Option.bind_some, ih,
          BatchLog.items_append, BatchLog.items_map_item, BatchLog.items_batch, List.append_nil]
        rfl

-- The index leads to all blocks but the index blocks, in their order.
theorem listedEntries_stream (hclosed : BatchLog.Closed (logged 0 bs)) (hfits : ∀ b ∈ bs, b.Fits)
    (hlt : (blockFraming.stream bs).length < 2 ^ 64) :
    listedEntries (blockFraming.stream bs) = some (BatchLog.items (logged 0 bs)) := by
  have hn : bs.length < (blockFraming.stream bs).length + 1 := by
    exact Nat.lt_succ_of_le (blockFraming_lawful.length_le_stream hfits)
  have hlisted := listedBefore_stream hclosed rfl hfits hlt hn []
  rwa [List.append_nil] at hlisted

theorem items_logged : BatchLog.items (logged 0 bs) =
    ((blockFraming.placed 0 bs).filter (·.2.group ≠ groups.INDEX)).map
      fun x => entryOf (x.1, x.2.toBlock) := by
  have hmap : logged 0 bs =
      ((blockFraming.placed 0 bs).map fun x => (x.1, x.2.toBlock)).map recordOf := by
    rw [List.map_map]
    rfl
  rw [hmap, items_recordOf, indexable, List.filter_map, List.map_map]
  rfl

theorem mapM_map_eq_some {f : β → Option γ} {g : α → β} {h : α → γ} {as : List α}
    (hf : ∀ a ∈ as, f (g a) = some (h a)) : (as.map g).mapM f = some (as.map h) := by
  induction as
  case nil          => rfl
  case cons a as ih =>
    rw [List.forall_mem_cons] at hf
    rw [List.map_cons, List.mapM_cons, hf.left, ih hf.right]
    rfl

-- Reading a group through the index comes to the same as reading the file from start to end.
theorem readGroup_stream (hclosed : BatchLog.Closed (logged 0 bs)) (hfits : ∀ b ∈ bs, b.Fits)
    (hlt : (blockFraming.stream bs).length < 2 ^ 64) {group : UInt32} (hgroup : group ≠ groups.INDEX) :
    readGroup (blockFraming.stream bs) group = some (bs.filter (·.group = group)) := by
  have hentries : (BatchLog.items (logged 0 bs)).filter (·.group = group) =
      ((blockFraming.placed 0 bs).filter (·.2.group = group)).map
        fun x => entryOf (x.1, x.2.toBlock) := by
    rw [items_logged, List.filter_map, List.filter_filter]
    congr 2
    funext x
    by_cases hx : x.2.group = group <;> simp [entryOf, hx, hgroup]
  have hread : ∀ x ∈ (blockFraming.placed 0 bs).filter (·.2.group = group),
      (entryOf (x.1, x.2.toBlock)).block (blockFraming.stream bs) = some x.2 := by
    intro x hx
    have hx := (List.mem_filter.mp hx).left
    have hend := Framing.mem_placed_end_le hx
    have hoffset : (entryOf (x.1, x.2.toBlock)).offset.toNat = x.1 := by
      rw [entryOf, UInt64.toNat_ofNat', Nat.mod_eq_of_lt (by omega)]
    rw [IndexEntry.block, hoffset, blockFraming_lawful.readAt_placed hfits hx]
  have hfilter : ((blockFraming.placed 0 bs).map Prod.snd).filter (·.group = group) =
      ((blockFraming.placed 0 bs).filter (·.2.group = group)).map Prod.snd := by
    rw [List.filter_map]
    rfl
  rw [readGroup, listedEntries_stream hclosed hfits hlt, Option.bind_eq_bind, Option.bind_some, hentries,
    mapM_map_eq_some hread, ← hfilter, Framing.placed_map_snd]

end Sie
