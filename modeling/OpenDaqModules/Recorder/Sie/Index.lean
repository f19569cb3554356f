import OpenDaqModules.Library.BatchLog
import OpenDaqModules.Recorder.Sie.IndexedWriter

namespace Sie

-- The index entry which a block should have.
def entryOf (x : ℕ × Block) : IndexEntry where
  offset := UInt64.ofNat x.1
  group  := x.2.group

-- Where an entry says that a block of its group starts.
def IndexEntry.position (e : IndexEntry) : ℕ × UInt32 :=
  (e.offset.toNat, e.group)

-- A file is a log in which the index blocks announce the other ones.
def recordOf (x : ℕ × Block) : BatchLog.Record IndexEntry :=
  if x.2.group = groups.INDEX then .batch (decodeEntries x.2.payload) else .item (entryOf x)

-- The entries of all index blocks.
def indexed (bs : List (ℕ × Block)) : List IndexEntry :=
  (bs.filter (·.2.group = groups.INDEX)).flatMap (fun x => decodeEntries x.2.payload)

-- The entries which the other blocks should have.
def indexable (bs : List (ℕ × Block)) : List IndexEntry :=
  (bs.filter (·.2.group ≠ groups.INDEX)).map entryOf

-- Where the blocks other than index blocks really start.
def positions (bs : List (ℕ × Block)) : List (ℕ × UInt32) :=
  (bs.filter (·.2.group ≠ groups.INDEX)).map (fun x => (x.1, x.2.group))

def dataBlocks (bs : List (ℕ × Block)) : List Block :=
  (bs.filter (·.2.group ≠ groups.INDEX)).map Prod.snd

theorem announced_recordOf {bs : List (ℕ × Block)} :
    BatchLog.announced (bs.map recordOf) = indexed bs := by
  rw [indexed]
  induction bs
  case nil => rfl
  case cons x xs ih =>
    simp only [BatchLog.announced] at ih
    by_cases h : x.2.group = groups.INDEX <;>
      simp [BatchLog.announced, BatchLog.Record.announced, recordOf, h, ih]

theorem items_recordOf {bs : List (ℕ × Block)} :
    BatchLog.items (bs.map recordOf) = indexable bs := by
  rw [indexable]
  induction bs
  case nil => rfl
  case cons x xs ih =>
    simp only [BatchLog.items] at ih
    by_cases h : x.2.group = groups.INDEX <;>
      simp [BatchLog.items, BatchLog.Record.items, recordOf, h, ih]

theorem offset_le_of_mem_placedBlocks (h : x ∈ placedBlocks o ws) :
    x.1 ≤ o + (ws.flatMap Write.accepted).length := by
  induction ws generalizing o
  case nil => simp [placedBlocks] at h
  case cons w ws ih =>
    rw [List.flatMap_cons, List.length_append, ← Nat.add_assoc]
    by_cases hw : w.Complete <;> simp only [placedBlocks, hw, if_true, if_false] at h
    case neg => exact ih h
    case pos =>
      cases h
      case head   => simp [Nat.add_assoc]
      case tail h => exact ih h

-- The offsets of a file fit into its index entries.
theorem File.position_entryOf {f : File} (h : x ∈ f.blocks) :
    (entryOf x).position = (x.1, x.2.group) := by
  have hle := offset_le_of_mem_placedBlocks h
  have hmax := f.bytes_length_le
  simp only [bytes, OFF_MAX] at hmax
  have : x.1 < 2 ^ 64 := by omega
  simpa [IndexEntry.position, entryOf] using this

theorem File.map_position_indexable {f : File} :
    (indexable f.blocks).map IndexEntry.position = positions f.blocks := by
  rw [indexable, positions, List.map_map]
  exact List.map_congr_left fun x hx => position_entryOf (List.mem_filter.mp hx).left

namespace IndexedWriter

-- All entries, those which wait for an index block last.
def entries (w : IndexedWriter) : List IndexEntry :=
  indexed w.file.blocks ++ w.index

def log (w : IndexedWriter) : BatchLog IndexEntry where
  log     := w.file.blocks.map recordOf
  pending := w.index

-- Only complete writes are counted by the offset, which therefore is right until one is torn.
def OffsetTrue (w : IndexedWriter) : Prop :=
  w.offset.toNat = w.file.bytes.length

variable {w : IndexedWriter} {b : Block}

theorem OffsetTrue.offset_eq (h : w.OffsetTrue) : w.offset = UInt64.ofNat w.file.bytes.length := by
  rw [← h, UInt64.ofNat_toNat]

theorem decodeEntries_ne_nil (h : w.log.Balanced) (hx : x ∈ w.file.blocks)
    (hgroup : x.2.group = groups.INDEX) : decodeEntries x.2.payload ≠ [] := by
  refine h.nonempty _ <| List.mem_map.mpr ⟨x, hx, ?_⟩
  simp [recordOf, hgroup]

theorem mem_positions (h : w.log.Balanced) (hblocks : w.file.blocks = before ++ x :: after)
    (hgroup : x.2.group = groups.INDEX) (he : e ∈ decodeEntries x.2.payload) :
    e.position ∈ positions before := by
  have hlog : w.log.log = before.map recordOf ++
      .batch (decodeEntries x.2.payload) :: after.map recordOf := by
    simp [log, hblocks, recordOf, hgroup]
  have hmem := h.mem_items_of_batch hlog he
  rw [items_recordOf, indexable] at hmem
  obtain ⟨y, hy, rfl⟩ := List.mem_map.mp hmem
  have hfile : y ∈ w.file.blocks := by
    rw [hblocks]
    exact List.mem_append_left _ (List.mem_filter.mp hy).left
  rw [File.position_entryOf hfile]
  exact List.mem_map.mpr ⟨y, hy, rfl⟩

theorem listed (h : BatchLog.announced w.log.log = BatchLog.items w.log.log) :
    (indexed w.file.blocks).map IndexEntry.position = positions w.file.blocks := by
  simp only [log, announced_recordOf, items_recordOf] at h
  rw [h, File.map_position_indexable]

-- Blocks that wait for an index block are in the pending index.
theorem length_positions (h : w.log.Balanced) :
    (positions w.file.blocks).length = (indexed w.file.blocks).length + w.index.length := by
  have hlen := h.length_items
  simp only [log, announced_recordOf, items_recordOf] at hlen
  rw [← hlen, ← File.map_position_indexable, List.length_map]

variable [Crc32]

-- A flush that fails keeps the entries, and one that succeeds moves them to the file.
theorem flushed_log :
    w.flushed.log =
      match w.file.outcome w.indexBlock.encode with
      | .complete => w.log.emit
      | .fails _  => w.log := by
  cases hout : w.file.outcome w.indexBlock.encode
  case complete =>
    simp only [log, flushed, hout, cleared_file, pushed_file, File.blocks_push_complete hout]
    simp [BatchLog.emit, cleared, recordOf, indexBlock, decodeEntries_flatMap]
  case fails =>
    have hfails : w.file.outcome w.indexBlock.encode ≠ .complete := by simp [hout]
    simp only [log, flushed, hout, pushed_file, pushed_index, File.blocks_push_fails hfails]

-- A write that fails leaves the entry of a block that is not in the file.
theorem written_log_fails (hb : b.group ≠ groups.INDEX)
    (hout : w.file.outcome b.encode ≠ .complete) :
    (w.written b).log = w.log.note { offset := w.offset, group := b.group } := by
  simp only [log, written_file, File.blocks_push_fails hout, BatchLog.note]
  simp [written, noted_index hb]

theorem written_log_index (hb : b.group = groups.INDEX) :
    (w.written b).log =
      match w.file.outcome b.encode with
      | .complete => w.log.insert (decodeEntries b.payload)
      | .fails _  => w.log := by
  cases hout : w.file.outcome b.encode
  case complete =>
    simp only [log, written_file, File.blocks_push_complete hout, BatchLog.insert]
    simp [written, noted, hb, recordOf]
  case fails =>
    have hfails : w.file.outcome b.encode ≠ .complete := by simp [hout]
    simp only [log, written_file, File.blocks_push_fails hfails]
    simp [written, noted, hb]

-- With a true offset, a complete write adds the entry of its block.
theorem OffsetTrue.written_log (h : w.OffsetTrue) (hb : b.group ≠ groups.INDEX)
    (hout : w.file.outcome b.encode = .complete) :
    (w.written b).log = w.log.add (entryOf (w.file.bytes.length, b)) := by
  simp only [log, written_file, File.blocks_push_complete hout, BatchLog.add]
  simp [written, noted_index hb, recordOf, hb, entryOf, h.offset_eq]

end IndexedWriter
end Sie
