import OpenDaqModules.Recorder.Sie.File

namespace Sie

inductive VectorIoError
  | systemError (what : String)
  | runtimeError (what : String)
  -- An access beyond the end of the segment array.
  | outOfBounds
  deriving DecidableEq, Repr

-- What a system call makes of the bytes that it is offered.
inductive Transfer
  | bytes (count : ℕ)
  | fails
  deriving DecidableEq, Repr

-- The outcome of a call depends on the calls before it, and on how many bytes it is offered.
abbrev OperatingSystem :=
  ℕ → ℕ → Transfer

-- A call that is offered something takes some of it over, or it fails.
def OperatingSystem.Lawful (os : OperatingSystem) : Prop :=
  ∀ call offered count, 0 < offered → os call offered = .bytes count → 0 < count ∧ count ≤ offered

-- The calls from this one on took these counts of what was left of the bytes to be written.
def OperatingSystem.Took (os : OperatingSystem) : ℕ → ℕ → List ℕ → Prop
  | _, _, []                        => True
  | call, offered, count :: counts =>
    os call offered = .bytes count ∧ 0 < count ∧ count ≤ offered ∧
      os.Took (call + 1) (offered - count) counts

-- A file with the bytes in it and with the calls made so far.
structure PosixVectorIoFile where
  bytes     : Bytes         := []
  transfers : List Transfer := []
  deriving DecidableEq

namespace PosixVectorIoFile

abbrev Action :=
  EStateM VectorIoError PosixVectorIoFile

def writev (os : OperatingSystem) (segments : List Bytes) : Action ℤ := fun f =>
  let transfer := os f.transfers.length segments.flatten.length
  let transfers := f.transfers ++ [transfer]
  match transfer with
  | .bytes count => .ok count { bytes := f.bytes ++ segments.flatten.take count, transfers }
  | .fails       => .ok (-1) { f with transfers }

-- The inner loop of `write`: the segments that remain after some bytes of them were written.
def advance : List Bytes → ℕ → Except VectorIoError (List Bytes)
  | [], _                            => .error .outOfBounds
  | currentSegment :: later, written =>
    if currentSegment.length ≤ written then
      let written := written - currentSegment.length
      if written = 0 then .ok later else advance later written
    else .ok (currentSegment.drop written :: later)

variable {segments later : List Bytes} {written : ℕ}

theorem advance_eq_ok (h : advance segments written = .ok later) :
    written ≤ segments.flatten.length ∧ later.flatten = segments.flatten.drop written := by
  induction segments generalizing written
  case nil => exact nomatch h
  case cons segment segments ih =>
    rw [advance] at h
    rw [List.flatten_cons, List.length_append]
    split at h
    case isFalse hlt =>
      cases h
      have hle : written ≤ segment.length := Nat.le_of_not_le hlt
      exact ⟨by omega, by rw [List.flatten_cons, List.drop_append_of_le_length hle]⟩
    case isTrue hle =>
      dsimp only at h
      split at h
      case isTrue hzero =>
        cases h
        have hwritten : written = segment.length := by omega
        exact ⟨by omega, by rw [hwritten, List.drop_left]⟩
      case isFalse =>
        obtain ⟨hrest, hflatten⟩ := ih h
        refine ⟨by omega, ?_⟩
        rw [hflatten, List.drop_append, List.drop_eq_nil_of_le hle, List.nil_append]

theorem advance_returns (hpos : 0 < written) (h : written ≤ segments.flatten.length) :
    ∃ later, advance segments written = .ok later := by
  induction segments generalizing written
  case nil =>
    rw [List.flatten_nil, List.length_nil] at h
    omega
  case cons segment segments ih =>
    rw [List.flatten_cons, List.length_append] at h
    rw [advance]
    split
    case isFalse => exact ⟨_, rfl⟩
    case isTrue hle =>
      dsimp only
      split
      case isTrue  => exact ⟨_, rfl⟩
      case isFalse => exact ih (by omega) (by omega)

-- What remains is shorter, so there is an end to the calls.
theorem advance_shorter (hpos : 0 < written) (h : advance segments written = .ok later) :
    later.flatten.length < segments.flatten.length := by
  obtain ⟨hle, hflatten⟩ := advance_eq_ok h
  rw [hflatten, List.length_drop]
  omega

def writeError : VectorIoError :=
  .systemError "failed to write to file"

def prematureEof : VectorIoError :=
  .runtimeError "failed to write to file: premature EOF"

def write (os : OperatingSystem) (segments : List Bytes) : Action Unit := do
  if segments.isEmpty then return
  let written ← writev os segments
  if written < 0 then throw writeError
  else if _ : written = 0 then throw prematureEof
  else match _ : advance segments written.toNat with
    | .error e  => throw e
    | .ok later => write os later
termination_by segments.flatten.length
decreasing_by
  rename_i hpos hlater
  exact advance_shorter (by omega) hlater

variable {os : OperatingSystem} {f : PosixVectorIoFile} {count : ℕ}

-- The file after calls that transferred these counts of the bytes of some segments.
def transferred (f : PosixVectorIoFile) (segments : List Bytes) (counts : List ℕ) :
    PosixVectorIoFile where
  bytes     := f.bytes ++ segments.flatten.take counts.sum
  transfers := f.transfers ++ counts.map .bytes

-- The file after a call that failed.
def failed (f : PosixVectorIoFile) : PosixVectorIoFile where
  __        := f
  transfers := f.transfers ++ [.fails]

theorem writev_run_bytes
    (hcall : os f.transfers.length segments.flatten.length = .bytes count) :
    (writev os segments).run f = .ok (count : ℤ) (f.transferred segments [count]) := by
  simp only [EStateM.run, writev, hcall, transferred, List.sum_singleton, List.map_cons, List.map_nil]

theorem writev_run_fails (hcall : os f.transfers.length segments.flatten.length = .fails) :
    (writev os segments).run f = .ok (-1) f.failed := by
  simp only [EStateM.run, writev, hcall, failed]

theorem write_nil_run : (write os []).run f = .ok () f := by
  rw [write]
  rfl

theorem write_run_fails (hne : segments ≠ [])
    (hcall : os f.transfers.length segments.flatten.length = .fails) :
    (write os segments).run f = .error writeError f.failed := by
  rw [write]
  simp [hne, EStateM.run_bind, writev_run_fails hcall]

-- A call that takes nothing over counts as the end of the file, even if nothing was offered.
theorem write_run_zero (hne : segments ≠ [])
    (hcall : os f.transfers.length segments.flatten.length = .bytes 0) :
    (write os segments).run f = .error prematureEof (f.transferred segments [0]) := by
  rw [write]
  simp [hne, EStateM.run_bind, writev_run_bytes hcall]

theorem write_run_bytes (hpos : 0 < count)
    (hcall : os f.transfers.length segments.flatten.length = .bytes count)
    (hadvance : advance segments count = .ok later) :
    (write os segments).run f = (write os later).run (f.transferred segments [count]) := by
  have hne : segments ≠ [] := by
    rintro rfl
    exact nomatch hadvance
  have hnonneg : ¬(count : ℤ) < 0 := by omega
  rw [write]
  simp [hne, EStateM.run_bind, writev_run_bytes hcall, Nat.ne_of_gt hpos, hnonneg]
  split
  case h_1 h =>
    rw [hadvance] at h
    cases h
  case h_2 h =>
    rw [hadvance] at h
    cases h
    rfl

theorem transferred_nil : f.transferred segments [] = f := by
  simp [transferred]

theorem transferred_cons {counts : List ℕ} (h : later.flatten = segments.flatten.drop count) :
    (f.transferred segments [count]).transferred later counts =
      f.transferred segments (count :: counts) := by
  simp only [transferred, List.sum_cons, List.sum_nil, Nat.add_zero, List.map_cons, List.map_nil, h,
    List.append_assoc, List.take_add, List.singleton_append]

-- The last segment, if there is one, is not empty.
def Ended (segments : List Bytes) : Prop :=
  ∀ last ∈ segments.getLast?, last ≠ []

theorem Ended.flatten_ne_nil (h : Ended segments) (hne : segments ≠ []) : segments.flatten ≠ [] := by
  have hlast := h _ (List.getLast?_eq_some_getLast hne)
  have hmem := List.getLast_mem hne
  exact fun hflatten => hlast (List.flatten_eq_nil_iff.mp hflatten _ hmem)

theorem Ended.tail {segment : Bytes} (h : Ended (segment :: segments)) : Ended segments := by
  intro last hlast
  apply h
  rw [Option.mem_def] at hlast ⊢
  rw [List.getLast?_cons, hlast, Option.getD_some]

theorem Ended.advance (h : Ended segments) (hadvance : advance segments written = .ok later) :
    Ended later := by
  induction segments generalizing written
  case nil => exact nomatch hadvance
  case cons segment segments ih =>
    rw [PosixVectorIoFile.advance] at hadvance
    split at hadvance
    case isFalse hlt =>
      cases hadvance
      intro last hlast
      cases segments
      case nil =>
        cases hlast
        exact fun hdrop => hlt (List.drop_eq_nil_iff.mp hdrop)
      case cons => exact h.tail last hlast
    case isTrue =>
      dsimp only at hadvance
      split at hadvance
      case isTrue =>
        cases hadvance
        exact h.tail
      case isFalse => exact ih h.tail hadvance

-- Every call but the last one transfers something. The last one does too if `write` returns, else
-- it is the first one that fails.
theorem Ended.write_run (h : Ended segments) (hos : os.Lawful) : ∃ counts,
    os.Took f.transfers.length segments.flatten.length counts ∧
    ((write os segments).run f = .ok () (f.transferred segments counts) ∧
        counts.sum = segments.flatten.length ∨
      (write os segments).run f = .error writeError (f.transferred segments counts).failed ∧
        counts.sum < segments.flatten.length ∧
        os (f.transfers.length + counts.length) (segments.flatten.length - counts.sum) = .fails) := by
  induction hlength : segments.flatten.length using Nat.strong_induction_on generalizing segments f
  case h n ih =>
    by_cases hne : segments = []
    case pos =>
      subst hne
      exact ⟨[], trivial, .inl ⟨by rw [write_nil_run, transferred_nil], hlength⟩⟩
    case neg =>
      have hpos : 0 < segments.flatten.length := List.length_pos_iff.mpr (h.flatten_ne_nil hne)
      cases hcall : os f.transfers.length segments.flatten.length
      case fails =>
        refine ⟨[], trivial, .inr ⟨?_, by rwa [List.sum_nil, ← hlength], hlength ▸ hcall⟩⟩
        rw [write_run_fails hne hcall, transferred_nil]
      case bytes count =>
        obtain ⟨hcount, hle⟩ := hos _ _ _ hpos hcall
        obtain ⟨later, hlater⟩ := advance_returns hcount hle
        obtain ⟨-, hflatten⟩ := advance_eq_ok hlater
        have hlt := advance_shorter hcount hlater
        rw [hlength] at hlt
        have hcalls : (f.transferred segments [count]).transfers.length = f.transfers.length + 1 := by
          simp [transferred]
        obtain ⟨counts, htook, hrun⟩ :=
          ih _ hlt (h.advance hlater) (f := f.transferred segments [count]) rfl
        rw [transferred_cons hflatten, ← write_run_bytes hcount hcall hlater, hflatten, hcalls,
          List.length_drop, hlength] at hrun
        rw [hflatten, hcalls, List.length_drop, hlength] at htook
        rw [hlength] at hcall hle
        refine ⟨count :: counts, ⟨hcall, hcount, hle, htook⟩, hrun.imp ?_ ?_⟩
        case refine_1 =>
          rintro ⟨hrun, hsum⟩
          refine ⟨hrun, ?_⟩
          rw [List.sum_cons]
          omega
        case refine_2 =>
          rintro ⟨hrun, hsum, hfails⟩
          refine ⟨hrun, ?_, ?_⟩
          · rw [List.sum_cons]
            omega
          · rwa [List.sum_cons, List.length_cons, ← Nat.sub_sub, Nat.add_comm counts.length,
              ← Nat.add_assoc]

-- A file of the recorder stands for one whose calls transfer as many bytes in the end.
theorem Ended.write_file (h : Ended segments) (hos : os.Lawful) : ∃ outcome, ∀ file : File,
    file.bytes = f.bytes → file.schedule.head? = some outcome →
    segments.flatten.length ≤ OFF_MAX - file.bytes.length →
    ((File.write segments).run file).state.bytes = ((write os segments).run f).state.bytes ∧
      (((File.write segments).run file).Returns ↔ ((write os segments).run f).Returns) := by
  obtain ⟨counts, -, ⟨hrun, hsum⟩ | ⟨hrun, hsum, -⟩⟩ := h.write_run hos (f := f)
  case inl =>
    refine ⟨.complete, fun file hbytes hschedule hroom => ?_⟩
    have houtcome : file.outcome segments.flatten = .complete := by
      simp only [File.outcome, hschedule, if_pos hroom]
    rw [hrun, File.write_run, houtcome]
    refine ⟨?_, iff_of_true trivial trivial⟩
    rw [EStateM.Result.state_ok, EStateM.Result.state_ok, File.push_bytes_complete houtcome, hbytes,
      transferred, hsum, List.take_length]
  case inr =>
    refine ⟨.fails counts.sum, fun file hbytes hschedule hroom => ?_⟩
    have hmin : min counts.sum (min (segments.flatten.length - 1) (OFF_MAX - file.bytes.length)) =
        counts.sum := by omega
    have houtcome : file.outcome segments.flatten = .fails counts.sum := by
      simp only [File.outcome, hschedule, hmin]
    rw [hrun, File.write_run, houtcome]
    simp [File.push_bytes, houtcome, Write.accepted, hbytes, transferred, failed]

-- Whatever the calls make of the bytes that they are offered, `write` appends each byte once and in
-- order, up to the first call that fails.
theorem write_appends (hos : os.Lawful) (hlast : segments.getLast? = some last) (hne : last ≠ []) :
    ∃ counts : List ℕ, os.Took f.transfers.length segments.flatten.length counts ∧
      ((write os segments).run f = .ok () {
            bytes     := f.bytes ++ segments.flatten
            transfers := f.transfers ++ counts.map .bytes } ∧
          counts.sum = segments.flatten.length ∨
        (write os segments).run f = .error writeError {
            bytes     := f.bytes ++ segments.flatten.take counts.sum
            transfers := f.transfers ++ counts.map .bytes ++ [.fails] } ∧
          counts.sum < segments.flatten.length ∧
          os (f.transfers.length + counts.length) (segments.flatten.length - counts.sum) =
            .fails) := by
  have hended : Ended segments := by
    intro segment hsegment
    rw [hlast, Option.mem_some] at hsegment
    exact hsegment ▸ hne
  obtain ⟨counts, htook, hrun⟩ := hended.write_run hos (f := f)
  refine ⟨counts, htook, hrun.imp_left ?_⟩
  rintro ⟨hrun, hsum⟩
  refine ⟨?_, hsum⟩
  rw [hrun, transferred, hsum, List.take_length]

-- The first call ends where an empty segment begins, the second one within a segment, and the third
-- one fails.
theorem write_appends_three_calls :
    let os : OperatingSystem := fun call offered =>
      if call = 0 then .bytes (min 2 offered) else if call = 1 then .bytes 1 else .fails
    (write os [[1, 2], [], [3, 4, 5]]).run {} = .error writeError {
      bytes     := [1, 2, 3]
      transfers := [.bytes 2, .bytes 1, .fails] } := by
  intro os
  have hos : os.Lawful := by
    intro call offered count hoffered hcall
    simp only [os] at hcall
    split at hcall
    case isTrue =>
      cases hcall
      omega
    case isFalse =>
      split at hcall <;> cases hcall
      omega
  have hlast : [[1, 2], [], [3, 4, 5]].getLast? = some ([3, 4, 5] : Bytes) := rfl
  obtain ⟨counts, htook, h⟩ := write_appends (f := {}) hos hlast (by decide)
  -- The answers leave no other counts than 2 and 1.
  cases counts
  case nil =>
    obtain ⟨-, hsum⟩ | ⟨-, -, hfails⟩ := h
    · exact absurd hsum (by decide)
    · exact absurd hfails (by decide)
  case cons first counts =>
    obtain ⟨hfirst, -, -, htook⟩ := htook
    cases (Transfer.bytes.inj hfirst : 2 = first)
    cases counts
    case nil =>
      obtain ⟨-, hsum⟩ | ⟨-, -, hfails⟩ := h
      · exact absurd hsum (by decide)
      · exact absurd hfails (by decide)
    case cons second counts =>
      obtain ⟨hsecond, -, -, htook⟩ := htook
      cases (Transfer.bytes.inj hsecond : 1 = second)
      cases counts
      case cons => exact absurd htook.left nofun
      case nil =>
        obtain ⟨-, hsum⟩ | ⟨hrun, -, -⟩ := h
        · exact absurd hsum (by decide)
        · exact hrun

example : ((write (fun _ offered => .bytes (min 2 offered)) [[1, 2], [], [3, 4, 5]]).run {}).state =
    { bytes := [1, 2, 3, 4, 5], transfers := [.bytes 2, .bytes 2, .bytes 1] } := by
  decide +kernel

end PosixVectorIoFile
end Sie
