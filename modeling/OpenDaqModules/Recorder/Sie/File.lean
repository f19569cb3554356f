import OpenDaqModules.Library.Endian
import OpenDaqModules.Library.Exec

namespace Sie

-- The exceptions which reach the recorder's code. All of them derive from `std::exception`.
inductive Error
  | system (what : String)
  | invalidParameter (what : String)
  | notAssigned
  | conversionFailed
  | outOfRange
  | alreadyExists
  deriving DecidableEq, Repr

-- What the operating system makes of one write: it takes over all bytes, or it takes over only
-- `accepted` of them and then reports an error.
inductive Outcome
  | complete
  | fails (accepted : ℕ)
  deriving DecidableEq, Repr

structure Write where
  data    : Bytes
  outcome : Outcome
  deriving DecidableEq

namespace Write

def accepted (w : Write) : Bytes :=
  match w.outcome with
  | .complete => w.data
  | .fails n  => w.data.take n

def Complete (w : Write) : Prop :=
  w.outcome = .complete

instance : DecidablePred Complete :=
  fun w => inferInstanceAs (Decidable (w.outcome = .complete))

-- A write that failed after some bytes had already reached the file.
def Torn (w : Write) : Prop :=
  ¬w.Complete ∧ w.accepted ≠ []

instance : DecidablePred Torn :=
  fun w => inferInstanceAs (Decidable (¬w.Complete ∧ w.accepted ≠ []))

variable {w : Write}

theorem Complete.accepted_eq (h : w.Complete) : w.accepted = w.data := by
  simp only [Complete] at h
  simp [accepted, h]

theorem accepted_eq_nil (hc : ¬w.Complete) (ht : ¬w.Torn) : w.accepted = [] := by
  simpa [Torn, hc] using ht

end Write

-- `off_t` is a signed 64-bit integer, so this is the size of the largest file.
def OFF_MAX : ℕ :=
  2 ^ 63 - 1

-- A file that was opened for writing, with the writes made so far and with what the operating
-- system is going to make of the next ones (all later writes are complete).
structure File where
  writes   : List Write   := []
  schedule : List Outcome := []
  size_le  : (writes.flatMap Write.accepted).length ≤ OFF_MAX := by simp

namespace File

def bytes (f : File) : Bytes :=
  f.writes.flatMap Write.accepted

def AllComplete (f : File) : Prop :=
  ∀ w ∈ f.writes, w.Complete

-- No write left a part of its data behind.
def Clean (f : File) : Prop :=
  ∀ w ∈ f.writes, ¬w.Torn

-- The scheduled outcome of the next write, unless the file has no room for its data. A write that
-- fails leaves at least one byte behind.
def outcome (f : File) (data : Bytes) : Outcome :=
  let room := OFF_MAX - f.bytes.length
  match f.schedule.head? with
  | some (.fails n) => .fails (min n (min (data.length - 1) room))
  | _               => if data.length ≤ room then .complete else .fails room

variable {f : File} {data : Bytes}

theorem le_room_of_complete (h : f.outcome data = .complete) :
    data.length ≤ OFF_MAX - f.bytes.length := by
  simp only [outcome] at h
  split at h <;> try contradiction
  split at h <;> try contradiction
  assumption

theorem le_room_of_fails (h : f.outcome data = .fails n) : n ≤ OFF_MAX - f.bytes.length := by
  simp only [outcome] at h
  split at h
  case h_1 => cases h; exact (Nat.min_le_right _ _).trans (Nat.min_le_right _ _)
  case h_2 => split at h <;> cases h; exact le_rfl

theorem accepted_length_le :
    (Write.accepted ⟨data, f.outcome data⟩).length ≤ OFF_MAX - f.bytes.length := by
  cases h : f.outcome data
  case complete => exact le_room_of_complete h
  case fails n  => exact Nat.le_trans (List.length_take_le n data) (le_room_of_fails h)

-- The state of a file after one more write.
def push (f : File) (data : Bytes) : File where
  writes   := f.writes ++ [⟨data, f.outcome data⟩]
  schedule := f.schedule.tail
  size_le  := by
    have hf := f.size_le
    have hw : (Write.accepted ⟨data, f.outcome data⟩).length ≤ _ := accepted_length_le
    simp only [bytes] at hw
    simp only [List.flatMap_append, List.length_append, List.flatMap_singleton]
    omega

def writeError : Error :=
  .system "failed to write to file"

-- The contract of `VectorIoFile::write()`: the data segments are appended one after another, and
-- an exception says that the file did not take all of them.
def write (segments : List Bytes) : EStateM Error File Unit := fun f =>
  let data := segments.flatten
  match f.outcome data with
  | .complete => .ok () (f.push data)
  | .fails _  => .error writeError (f.push data)

@[simp]
theorem push_writes : (f.push data).writes = f.writes ++ [⟨data, f.outcome data⟩] :=
  rfl

theorem push_bytes : (f.push data).bytes = f.bytes ++ Write.accepted ⟨data, f.outcome data⟩ := by
  simp [bytes]

theorem push_bytes_complete (h : f.outcome data = .complete) :
    (f.push data).bytes = f.bytes ++ data := by
  rw [push_bytes, Write.Complete.accepted_eq (w := ⟨data, f.outcome data⟩) h]

theorem bytes_length_le (f : File) : f.bytes.length ≤ OFF_MAX :=
  f.size_le

theorem AllComplete.clean (h : f.AllComplete) : f.Clean :=
  fun w hw ht => ht.left (h w hw)

theorem AllComplete.of_push (h : (f.push data).AllComplete) :
    f.AllComplete ∧ f.outcome data = .complete :=
  ⟨fun w hw => h w (List.mem_append_left _ hw), h _ (List.mem_append_right _ List.mem_cons_self)⟩

theorem AllComplete.of_writes {g : File} (h : g.AllComplete) (hf : f.writes <+: g.writes) :
    f.AllComplete :=
  fun w hw => h w (hf.subset hw)

theorem Clean.of_push (h : (f.push data).Clean) : f.Clean :=
  fun w hw => h w (List.mem_append_left _ hw)

theorem Clean.push_bytes (h : (f.push data).Clean) (hout : f.outcome data ≠ .complete) :
    (f.push data).bytes = f.bytes := by
  have ht := h _ (List.mem_append_right _ List.mem_cons_self)
  have hc : ¬Write.Complete ⟨data, f.outcome data⟩ := hout
  rw [File.push_bytes, Write.accepted_eq_nil hc ht, List.append_nil]

theorem write_run :
    (write segments).run f =
      match f.outcome segments.flatten with
      | .complete => .ok () (f.push segments.flatten)
      | .fails _  => .error writeError (f.push segments.flatten) :=
  rfl

end File
end Sie
