import OpenDaqModules.Recorder.Sie.PosixVectorIoFile

namespace Sie

-- What a call of `std::fwrite` makes of the bytes that it is offered, and the flags that it sets.
structure Fwrite where
  written : ℕ
  error   : Bool := false
  eof     : Bool := false
  deriving DecidableEq

abbrev StandardLibrary :=
  ℕ → ℕ → Fwrite

-- A call that is offered something writes some of it and sets no flag.
def StandardLibrary.Lawful (library : StandardLibrary) : Prop :=
  ∀ call size, 0 < size → 0 < (library call size).written ∧ (library call size).written ≤ size ∧
    (library call size).error = false ∧ (library call size).eof = false

-- A stream with the bytes written to it and with its flags, which stay set.
structure FallbackVectorIoFile where
  bytes : Bytes := []
  calls : ℕ     := 0
  error : Bool  := false
  eof   : Bool  := false
  deriving DecidableEq

namespace FallbackVectorIoFile

abbrev Action :=
  EStateM VectorIoError FallbackVectorIoFile

def fwrite (library : StandardLibrary) (data : Bytes) (size : ℕ) : Action ℕ := fun f =>
  let call := library f.calls size
  .ok call.written {
    bytes := f.bytes ++ data.take call.written
    calls := f.calls + 1
    error := f.error || call.error
    eof   := f.eof || call.eof }

def writeError : VectorIoError :=
  .runtimeError "failed to write to file"

def prematureEof : VectorIoError :=
  .runtimeError "failed to write to file: premature EOF"

-- The loop for one segment. What is left to write gets smaller, but `data` remains its beginning.
def writeSegment (library : StandardLibrary) (data : Bytes) (size : ℕ) : Action Unit := do
  if size = 0 then return
  let written ← fwrite library data size
  let f ← get
  if f.error then throw writeError
  else if f.eof || written = 0 then throw prematureEof
  else if written ≥ size then return
  else writeSegment library data (size - written)
termination_by size
decreasing_by
  rename_i _ _ hwritten _
  simp only [Bool.or_eq_true, decide_eq_true_eq, not_or] at hwritten
  omega

def write (library : StandardLibrary) : List Bytes → Action Unit
  | []           => return
  | data :: args => do
    writeSegment library data data.length
    write library args

-- How many bytes the calls for one segment write, as long as they write any.
def counts (library : StandardLibrary) (call size : ℕ) : List ℕ :=
  let written := (library call size).written
  if size = 0 ∨ written = 0 then []
  else written :: counts library (call + 1) (size - written)
termination_by size

variable {library : StandardLibrary} {f : FallbackVectorIoFile} {call size count : ℕ}
variable {data : Bytes} {segments : List Bytes}

theorem counts_zero : counts library call 0 = [] := by
  rw [counts]
  rfl

theorem counts_of_pos (hlibrary : library.Lawful) (h : 0 < size) : counts library call size =
    (library call size).written ::
      counts library (call + 1) (size - (library call size).written) := by
  have hpos := (hlibrary call size h).left
  rw [counts]
  exact if_neg (by omega)

theorem counts_sum (hlibrary : library.Lawful) : (counts library call size).sum = size := by
  induction hsize : size using Nat.strong_induction_on generalizing size call
  case h n ih =>
    subst hsize
    by_cases h : size = 0
    case pos => rw [h, counts_zero, List.sum_nil]
    case neg =>
      obtain ⟨hpos, hle, -⟩ := hlibrary call size (Nat.pos_of_ne_zero h)
      rw [counts_of_pos hlibrary (Nat.pos_of_ne_zero h), List.sum_cons, ih _ (by omega) rfl]
      omega

-- The stream after calls that wrote these counts, each from the beginning of the segment.
def sent (f : FallbackVectorIoFile) (data : Bytes) (counts : List ℕ) : FallbackVectorIoFile where
  __    := f
  bytes := f.bytes ++ counts.flatMap data.take
  calls := f.calls + counts.length

def Unflagged (f : FallbackVectorIoFile) : Prop :=
  f.error = false ∧ f.eof = false

theorem sent_nil : f.sent data [] = f := by
  simp [sent]

theorem sent_cons {rest : List ℕ} :
    (f.sent data [count]).sent data rest = f.sent data (count :: rest) := by
  simp [sent]
  omega

theorem fwrite_run (hlibrary : library.Lawful) (hsize : 0 < size) :
    (fwrite library data size).run f =
      .ok (library f.calls size).written (f.sent data [(library f.calls size).written]) := by
  obtain ⟨-, -, herror, heof⟩ := hlibrary f.calls size hsize
  simp [EStateM.run, fwrite, sent, herror, heof]

theorem writeSegment_zero_run : (writeSegment library data 0).run f = .ok () f := by
  rw [writeSegment]
  rfl

namespace Unflagged

theorem sent (h : f.Unflagged) (data : Bytes) (counts : List ℕ) : (f.sent data counts).Unflagged :=
  h

-- One turn of the loop.
theorem writeSegment_run_of_pos (h : f.Unflagged) (hlibrary : library.Lawful) (hsize : 0 < size) :
    (writeSegment library data size).run f =
      (writeSegment library data (size - (library f.calls size).written)).run
        (f.sent data [(library f.calls size).written]) := by
  obtain ⟨hpos, hle, -⟩ := hlibrary f.calls size hsize
  have hne : size ≠ 0 := Nat.ne_of_gt hsize
  have hwritten : (library f.calls size).written ≠ 0 := Nat.ne_of_gt hpos
  obtain ⟨herror, heof⟩ := h.sent data [(library f.calls size).written]
  rw [writeSegment]
  simp [hne, EStateM.run_bind, fwrite_run hlibrary hsize, herror, heof, hwritten]
  intro hdone
  rw [Nat.sub_eq_zero_of_le hdone, writeSegment_zero_run]

theorem writeSegment_run (h : f.Unflagged) (hlibrary : library.Lawful) :
    (writeSegment library data size).run f = .ok () (f.sent data (counts library f.calls size)) := by
  induction hsize : size using Nat.strong_induction_on generalizing size f
  case h n ih =>
    subst hsize
    by_cases hzero : size = 0
    case pos => rw [hzero, counts_zero, sent_nil, writeSegment_zero_run]
    case neg =>
      have hpos : 0 < size := Nat.pos_of_ne_zero hzero
      have hshorter : size - (library f.calls size).written < size :=
        Nat.sub_lt hpos (hlibrary f.calls size hpos).left
      rw [h.writeSegment_run_of_pos hlibrary hpos, ih _ hshorter (h.sent _ _) rfl, sent_cons,
        counts_of_pos hlibrary hpos]
      rfl

end Unflagged

-- What the calls for a segment write is what is due: whenever a call comes after others, the bytes
-- that it takes from the beginning of the segment equal those after what the others wrote.
def Repeats (data : Bytes) : ℕ → List ℕ → Prop
  | _, []               => True
  | done, count :: rest =>
    data.take count = (data.drop done).take count ∧ Repeats data (done + count) rest

theorem repeats_iff {done : ℕ} {rest : List ℕ} (h : done + rest.sum ≤ data.length) :
    Repeats data done rest ↔ rest.flatMap data.take = (data.drop done).take rest.sum := by
  induction rest generalizing done
  case nil => simp [Repeats]
  case cons count rest ih =>
    rw [List.sum_cons] at h
    have hsplit : (data.drop done).take (count + rest.sum) =
        (data.drop done).take count ++ (data.drop (done + count)).take rest.sum := by
      rw [List.take_add, List.drop_drop]
    have hlength : (data.take count).length = ((data.drop done).take count).length := by
      rw [List.length_take, List.length_take, List.length_drop]
      omega
    rw [Repeats, ih (by omega), List.flatMap_cons, List.sum_cons, hsplit,
      List.append_eq_append_iff_of_size_eq_left hlength]

theorem flatMap_take_length {rest : List ℕ} (h : rest.sum ≤ data.length) :
    (rest.flatMap data.take).length = rest.sum := by
  induction rest
  case nil => rfl
  case cons count rest ih =>
    rw [List.sum_cons] at h
    rw [List.flatMap_cons, List.length_append, ih (by omega), List.length_take, List.sum_cons,
      Nat.min_eq_left (by omega)]

def AllRepeat (library : StandardLibrary) : ℕ → List Bytes → Prop
  | _, []              => True
  | call, data :: args =>
    let counts := counts library call data.length
    Repeats data 0 counts ∧ AllRepeat library (call + counts.length) args

-- As many bytes are written as there are in the segments.
theorem Unflagged.write_run (h : f.Unflagged) (hlibrary : library.Lawful) (segments : List Bytes) :
    ∃ g written,
    (write library segments).run f = .ok () g ∧ g.bytes = f.bytes ++ written ∧
      written.length = segments.flatten.length ∧
      (written = segments.flatten ↔ AllRepeat library f.calls segments) := by
  induction segments generalizing f
  case nil => exact ⟨f, [], rfl, (List.append_nil _).symm, rfl, iff_of_true rfl trivial⟩
  case cons data args ih =>
    let counts := counts library f.calls data.length
    have hsum : counts.sum = data.length := counts_sum hlibrary
    have hlength : (counts.flatMap data.take).length = data.length :=
      (flatMap_take_length hsum.le).trans hsum
    have hrepeats : Repeats data 0 counts ↔ counts.flatMap data.take = data := by
      have hle : 0 + counts.sum ≤ data.length := by omega
      rw [repeats_iff hle, hsum, List.drop_zero, List.take_length]
    obtain ⟨g, written, hrun, hbytes, hwritten, hiff⟩ := ih (h.sent data counts)
    refine ⟨g, counts.flatMap data.take ++ written, ?_, ?_, ?_, ?_⟩
    case refine_1 =>
      rw [write, EStateM.run_bind, h.writeSegment_run hlibrary]
      exact hrun
    case refine_2 => rw [hbytes, FallbackVectorIoFile.sent, List.append_assoc]
    case refine_3 => rw [List.length_append, List.flatten_cons, List.length_append, hlength, hwritten]
    case refine_4 =>
      rw [List.flatten_cons, List.append_eq_append_iff_of_size_eq_left hlength, hiff, AllRepeat,
        hrepeats]
      rfl

-- Short counts are made up for by the beginning of the segment.
theorem write_appends_iff (hlibrary : library.Lawful) (hflags : f.Unflagged) :
    (∃ g, (write library segments).run f = .ok () g ∧ g.bytes = f.bytes ++ segments.flatten) ↔
      AllRepeat library f.calls segments := by
  obtain ⟨g, written, hrun, hbytes, -, hiff⟩ := hflags.write_run hlibrary segments
  rw [← hiff]
  constructor
  case mp =>
    rintro ⟨g', hrun', hbytes'⟩
    rw [hrun] at hrun'
    cases hrun'
    rw [hbytes] at hbytes'
    exact List.append_cancel_left hbytes'
  case mpr => exact fun heq => ⟨g, hrun, by rw [hbytes, heq]⟩

-- One byte at a time.
theorem write_appends_iff_single_bytes :
    let library : StandardLibrary := fun _ _ => { written := 1 }
    (∃ g, (write library [[7, 7], [8]]).run {} = .ok () g ∧ g.bytes = [7, 7, 8]) ↔
      AllRepeat library 0 [[7, 7], [8]] := by
  intro library
  have hlibrary : library.Lawful := fun call size hsize => ⟨Nat.one_pos, hsize, rfl, rfl⟩
  exact write_appends_iff (f := {}) hlibrary ⟨rfl, rfl⟩

-- The first byte of the segment is written a second time in place of the second one.
theorem write_resends_head :
    let library : StandardLibrary := fun _ _ => { written := 1 }
    library.Lawful ∧ ¬∃ g, (write library [[1, 2]]).run {} = .ok () g ∧ g.bytes = [1, 2] := by
  intro library
  refine ⟨fun call size hsize => ⟨Nat.one_pos, hsize, rfl, rfl⟩, ?_⟩
  rintro ⟨g, hrun, hbytes⟩
  have hsent : ((write library [[1, 2]]).run {}).state.bytes = [1, 1] := by decide +kernel
  rw [hrun, EStateM.Result.state_ok, hbytes] at hsent
  exact absurd hsent (by decide)

end FallbackVectorIoFile
end Sie
