import OpenDaqModules.Recorder.Sie.BlockLog

namespace Sie

structure IndexedWriter where
  writer : BlockWriter
  index  : List IndexEntry := []
  offset : UInt64 := 0

namespace IndexedWriter

def INDEX_EVERY : ℕ :=
  100

def file (w : IndexedWriter) : File :=
  w.writer.file

-- A writer on a file that was just opened.
def create (schedule : List Outcome) : IndexedWriter where
  writer := { file := { schedule } }

section

variable [Crc32]

def writeToWriter (group : UInt32) (args : List Bytes) : EStateM Error IndexedWriter Unit := do
  let size ← EStateM.zoom IndexedWriter.writer (fun v w => { w with writer := v })
    (BlockWriter.writeBlock group args)
  modify fun w => { w with offset := w.offset + size }

def flushIndex : EStateM Error IndexedWriter Unit := do
  unless (← get).index.isEmpty do
    writeToWriter groups.INDEX [(← get).index.flatMap IndexEntry.toBytes]
    modify fun w => { w with index := [] }

def writeBlock (group : UInt32) (args : List Bytes) : EStateM Error IndexedWriter Unit := do
  unless group = groups.INDEX do
    modify fun w => { w with index := w.index ++ [{ offset := w.offset, group }] }
  writeToWriter group args
  if INDEX_EVERY ≤ (← get).index.length then
    flushIndex

-- The destructor `~basic_indexed_writer`.
def destroy : EStateM Error IndexedWriter Unit := do
  try flushIndex catch _ => pure ()

end

inductive Op
  | writeBlock (group : UInt32) (args : List Bytes)
  | flushIndex
  | destroy

-- The block which a call asks for.
def Op.block? : Op → Option Block
  | .writeBlock group args => some { group, payload := args.flatten }
  | _                      => none

def exec [Crc32] : Op → EStateM Error IndexedWriter Unit
  | .writeBlock group args => writeBlock group args
  | .flushIndex            => flushIndex
  | .destroy               => destroy

def indexBlock (w : IndexedWriter) : Block where
  group   := groups.INDEX
  payload := w.index.flatMap IndexEntry.toBytes

-- The state in which the index has an entry for the block that is going to be written.
def noted (w : IndexedWriter) (b : Block) : IndexedWriter :=
  if b.group = groups.INDEX then w
  else { w with index := w.index ++ [{ offset := w.offset, group := b.group }] }

def cleared (w : IndexedWriter) : IndexedWriter :=
  { w with index := [] }

-- The state after a block was passed to the file. Only a complete write moves the offset.
def pushed [Crc32] (w : IndexedWriter) (b : Block) : IndexedWriter where
  writer.file := w.file.push b.encode
  index       := w.index
  offset      :=
    match w.file.outcome b.encode with
    | .complete => w.offset + UInt64.ofNat b.size
    | .fails _  => w.offset

-- The two things a writer does to its file, whether they succeed or not.
def written [Crc32] (w : IndexedWriter) (b : Block) : IndexedWriter :=
  (w.noted b).pushed b

def flushed [Crc32] (w : IndexedWriter) : IndexedWriter :=
  match w.file.outcome w.indexBlock.encode with
  | .complete => (w.pushed w.indexBlock).cleared
  | .fails _  => w.pushed w.indexBlock

variable {w : IndexedWriter} {b : Block} {group : UInt32} {args : List Bytes}

@[simp]
theorem cleared_file : w.cleared.file = w.file :=
  rfl

@[simp]
theorem cleared_offset : w.cleared.offset = w.offset :=
  rfl

@[simp]
theorem noted_file : (w.noted b).file = w.file := by
  rw [noted]
  split <;> rfl

@[simp]
theorem noted_offset : (w.noted b).offset = w.offset := by
  rw [noted]
  split <;> rfl

theorem noted_index (h : b.group ≠ groups.INDEX) :
    (w.noted b).index = w.index ++ [{ offset := w.offset, group := b.group }] := by
  rw [noted, if_neg h]

variable [Crc32]

@[simp]
theorem pushed_file : (w.pushed b).file = w.file.push b.encode :=
  rfl

@[simp]
theorem pushed_index : (w.pushed b).index = w.index :=
  rfl

theorem pushed_offset_complete (h : w.file.outcome b.encode = .complete) :
    (w.pushed b).offset = w.offset + UInt64.ofNat b.size := by
  simp [pushed, h]

theorem pushed_offset_fails (h : w.file.outcome b.encode ≠ .complete) :
    (w.pushed b).offset = w.offset := by
  rw [pushed]
  split <;> trivial

@[simp]
theorem written_file : (w.written b).file = w.file.push b.encode := by
  simp [written]

@[simp]
theorem flushed_file : w.flushed.file = w.file.push w.indexBlock.encode := by
  rw [flushed]
  split <;> rfl

theorem writeToWriter_run (group : UInt32) (args : List Bytes) (w : IndexedWriter) :
    (writeToWriter group args).run w =
      let b : Block := ⟨group, args.flatten⟩
      match w.file.outcome b.encode with
      | .complete => .ok () (w.pushed b)
      | .fails _  => .error File.writeError (w.pushed b) := by
  simp only [writeToWriter, EStateM.run_bind, EStateM.run_zoom, BlockWriter.writeBlock_run]
  rw [← file]
  cases h : w.file.outcome (Block.encode ⟨group, args.flatten⟩) <;> simp [pushed, h]

theorem flushIndex_run :
    flushIndex.run w =
      if w.index = [] then .ok () w else
      match w.file.outcome w.indexBlock.encode with
      | .complete => .ok () w.flushed
      | .fails _  => .error File.writeError w.flushed := by
  by_cases h : w.index = []
  case pos => simp [flushIndex, h]
  case neg =>
    have hempty : w.index.isEmpty = false := by simpa using h
    have hblock : Block.mk groups.INDEX [w.index.flatMap IndexEntry.toBytes].flatten =
        w.indexBlock := by simp [indexBlock]
    have hwrite := writeToWriter_run groups.INDEX [w.index.flatMap IndexEntry.toBytes] w
    rw [hblock] at hwrite
    simp only [flushIndex, EStateM.run_bind, EStateM.run_get, hempty, if_neg h,
      Bool.false_eq_true, if_false, hwrite]
    cases hout : w.file.outcome w.indexBlock.encode
    case complete =>
      simp only [flushed, hout]
      rfl
    case fails => simp only [flushed, hout]

theorem writeBlock_run :
    (writeBlock group args).run w =
      let b : Block := ⟨group, args.flatten⟩
      match w.file.outcome b.encode with
      | .complete =>
        if INDEX_EVERY ≤ (w.written b).index.length then flushIndex.run (w.written b)
        else .ok () (w.written b)
      | .fails _  => .error File.writeError (w.written b) := by
  let b : Block := ⟨group, args.flatten⟩
  have hrun : (writeBlock group args).run w =
      (do writeToWriter group args
          if INDEX_EVERY ≤ (← get).index.length then flushIndex).run (w.noted b) := by
    by_cases h : group = groups.INDEX <;> simp [writeBlock, noted, h, b]
  rw [hrun, EStateM.run_bind, writeToWriter_run, noted_file]
  cases hout : w.file.outcome b.encode
  case fails =>
    simp only [b] at hout
    simp only [hout]
    rfl
  case complete =>
    simp only [b] at hout
    simp only [hout, EStateM.run_bind, EStateM.run_get, EStateM.run_ite, written, b]
    rfl

theorem destroy_run : destroy.run w = .ok () (flushIndex.run w).state := by
  change EStateM.run (tryCatch flushIndex fun _ => pure ()) w = _
  rw [EStateM.tryCatch_run]
  cases flushIndex.run w <;> rfl

-- The rule for one operation: `Q` holds until the writer is done or about to flush, and `R` holds
-- afterwards. An operation leaves `INDEX_EVERY` entries behind only because a write failed.
theorem exec_rule {op : Op} {Q R : IndexedWriter → Prop} (hstart : op.block? = none → Q w)
    (hwritten : ∀ b ∈ op.block?, Q (w.written b))
    (hflushed : ∀ w, w.index ≠ [] → Q w → R w.flushed)
    (hend : ∀ w, w.index.length < INDEX_EVERY ∨ ¬w.file.AllComplete → Q w → R w) :
    R ((exec op).run w).state := by
  have hflush : ∀ w, Q w → R (flushIndex.run w).state := by
    intro w hw
    rw [flushIndex_run]
    split
    case isTrue h  => exact hend w (.inl (by simp [h, INDEX_EVERY])) hw
    case isFalse h => split <;> exact hflushed w h hw
  cases op
  case flushIndex => exact hflush w (hstart rfl)
  case destroy    => simpa [exec, destroy_run] using hflush w (hstart rfl)
  case writeBlock group args =>
    have hb := hwritten _ rfl
    rw [exec, writeBlock_run]
    dsimp only
    split
    case h_1 =>
      split
      case isTrue    => exact hflush _ hb
      case isFalse h => exact hend _ (.inl (Nat.lt_of_not_le h)) hb
    case h_2 hout =>
      refine hend _ (.inr fun hc => ?_) hb
      have := (File.AllComplete.of_push (written_file ▸ hc)).right
      simp [hout] at this

-- What the elementary operations preserve holds after every operation.
theorem exec_preserves {op : Op} {P : IndexedWriter → Prop} (hw : P w)
    (hwritten : ∀ b ∈ op.block?, ∀ w, P w → P (w.written b))
    (hflushed : ∀ w, w.index ≠ [] → P w → P w.flushed) : P ((exec op).run w).state :=
  exec_rule (fun _ => hw) (fun b hb => hwritten b hb w hw) hflushed (fun _ _ => id)

-- Whatever happens, a file only grows.
theorem exec_writes (op : Op) : w.file.writes <+: ((exec op).run w).state.file.writes := by
  let P (v : IndexedWriter) := w.file.writes <+: v.file.writes
  refine exec_preserves (P := P) List.prefix_rfl (fun b _ v h => ?_) (fun v _ h => ?_)
  · exact h.trans (by simp)
  · exact h.trans (by simp)

theorem run_writes : w.file.writes <+: (Exec.run exec ops w).file.writes := by
  let R (v v' : IndexedWriter) := v.file.writes <+: v'.file.writes
  exact Exec.run_rel (R := R) (fun _ => List.prefix_rfl) List.IsPrefix.trans (fun op _ => exec_writes op)

end IndexedWriter
end Sie
