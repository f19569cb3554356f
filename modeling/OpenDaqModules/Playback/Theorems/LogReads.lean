import Mathlib.Algebra.Order.Ring.Int
import OpenDaqModules.Playback.DeviceLog

namespace PlaybackDevice.Logging

open Sie (str)

variable {file : LogFile} {path : Bytes} {size offset : Int64} {position : ℤ} {k : ℕ}

-- What is read from the log with the right id.
abbrev read (path : Bytes) (file : LogFile) (size offset : Int64) : Except Error Bytes :=
  onGetLog ⟨true, path⟩ (some file) path size offset

-- From an offset within the file, -1 stands for what is left.
def slice (file : LogFile) (size offset : Int64) : Bytes :=
  if 0 ≤ offset.toInt ∧ offset.toInt < file.contents.length ∧ -1 ≤ size.toInt then
    let rest := file.contents.drop offset.toInt.toNat
    if size = -1 then rest else rest.take size.toInt.toNat
  else []

-- Past the end nothing is wanted, and nothing of a negative size or from before the beginning, where
-- nothing is read unless the difference to the end overflows.
def Sensible (file : LogFile) (size offset : Int64) : Prop :=
  (file.contents.length : ℤ) ≤ offset.toInt ∨ 0 ≤ offset.toInt ∧ -1 ≤ size.toInt ∨
    size = 0 ∧ file.contents.length - offset.toInt < 2 ^ 63

theorem seek_read (h0 : 0 ≤ position) (h : position + k ≤ file.contents.length) :
    (LogStream.seekg { contents := file.contents } position).read (List.replicate k 0) =
      (file.contents.drop position.toNat).take k := by
  have hlength : ((file.contents.drop position.toNat).take k).length = k := by
    rw [List.length_take, List.length_drop]
    omega
  have hseek : LogStream.seekg { contents := file.contents } position =
      ⟨file.contents, position.toNat, false⟩ := if_neg (not_lt.mpr h0)
  simp [hseek, LogStream.read, hlength]

-- The stream has failed, and the buffer is still full of zeros.
theorem seek_read_of_neg (h : position < 0) :
    (LogStream.seekg { contents := file.contents } position).read (List.replicate k 0) =
      List.replicate k 0 := by
  rw [LogStream.seekg, if_pos h, LogStream.read]
  rfl

theorem toInt_eq_neg_one : size.toInt = -1 ↔ size = -1 :=
  Int64.toInt_inj (y := -1)

-- The length of the buffer where there is one.
def bufferSize (file : LogFile) (size offset : Int64) : ℤ :=
  if size = -1 then file.contents.length - offset.toInt
  else min size.toInt (file.contents.length - offset.toInt)

theorem bufferSize_eq : bufferSize file size offset =
    if size.toInt = -1 then file.contents.length - offset.toInt
    else min size.toInt (file.contents.length - offset.toInt) := by
  simp only [bufferSize, toInt_eq_neg_one]

theorem bufferSize_neg_iff (h : offset.toInt < file.contents.length) :
    bufferSize file size offset < 0 ↔ size.toInt < -1 := by
  rw [bufferSize_eq]
  omega

theorem bufferSize_eq_zero_iff (h : offset.toInt < file.contents.length) :
    bufferSize file size offset = 0 ↔ size.toInt = 0 := by
  rw [bufferSize_eq]
  omega

theorem take_bufferSize (h0 : 0 ≤ offset.toInt) (h : offset.toInt < file.contents.length)
    (hsize : -1 ≤ size.toInt) :
    (file.contents.drop offset.toInt.toNat).take (bufferSize file size offset).toNat =
      slice file size offset := by
  rw [slice, if_pos ⟨h0, h, hsize⟩, bufferSize]
  split
  case isTrue =>
    refine List.take_of_length_le ?_
    rw [List.length_drop]
    omega
  case isFalse hne =>
    rw [← toInt_eq_neg_one] at hne
    rw [← List.take_length (l := file.contents.drop offset.toInt.toNat), List.take_take,
      List.take_take, List.length_drop]
    congr 1
    omega

theorem read_of_end (h : (file.contents.length : ℤ) ≤ offset.toInt) :
    read path file size offset = .ok [] := by
  simp [read, onGetLog, h]

theorem read_of_lt (h : offset.toInt < file.contents.length) : read path file size offset =
    if 2 ^ 63 ≤ file.contents.length - offset.toInt then .error .undefinedBehaviour
    else if bufferSize file size offset < 0 then .error .lengthError
    else .ok ((LogStream.seekg { contents := file.contents } offset.toInt).read
      (List.replicate (bufferSize file size offset).toNat 0)) := by
  simp only [read, onGetLog, bufferSize, not_true_eq_false, ne_eq, if_false, ge_iff_le,
    if_neg (not_le.mpr h)]
  rfl

theorem slice_eq_nil (h : ¬(0 ≤ offset.toInt ∧ offset.toInt < file.contents.length ∧ -1 ≤ size.toInt)) :
    slice file size offset = [] :=
  if_neg h

theorem read_eq_slice_iff : read path file size offset = .ok (slice file size offset) ↔
    Sensible file size offset := by
  have hsmall : (file.contents.length : ℤ) < 2 ^ 63 := by exact_mod_cast file.small
  have hzero : size = 0 ↔ size.toInt = 0 := (Int64.toInt_inj (y := 0)).symm
  rw [Sensible, hzero]
  rcases le_or_gt (file.contents.length : ℤ) offset.toInt with hend | hlt
  case inl =>
    rw [read_of_end hend, slice_eq_nil (by omega)]
    exact iff_of_true rfl (.inl hend)
  case inr =>
    rw [read_of_lt hlt]
    by_cases hoverflow : 2 ^ 63 ≤ file.contents.length - offset.toInt
    case pos =>
      rw [if_pos hoverflow]
      exact iff_of_false nofun (by omega)
    case neg =>
      rw [if_neg hoverflow]
      by_cases hneg : bufferSize file size offset < 0
      case pos =>
        have hsize := (bufferSize_neg_iff hlt).mp hneg
        rw [if_pos hneg]
        exact iff_of_false nofun (by omega)
      case neg =>
        have hsize := mt (bufferSize_neg_iff hlt).mpr hneg
        rw [if_neg hneg]
        rcases lt_or_ge offset.toInt 0 with hbefore | hwithin
        case inl =>
          have hempty : bufferSize file size offset = 0 ↔ size.toInt = 0 := bufferSize_eq_zero_iff hlt
          rw [seek_read_of_neg hbefore, slice_eq_nil (by omega), Except.ok.injEq,
            List.replicate_eq_nil_iff]
          omega
        case inr =>
          have hbuffer : offset.toInt + (bufferSize file size offset).toNat ≤ file.contents.length := by
            rw [bufferSize]
            split <;> omega
          rw [seek_read hwithin hbuffer, take_bufferSize hwithin hlt (by omega)]
          exact iff_of_true rfl (.inr (.inl ⟨hwithin, by omega⟩))

-- Chunk after chunk is read, up to one that reaches the end.
def readChunks (path : Bytes) (file : LogFile) (size : Int64) : Except Error Bytes := do
  let chunks ← (List.range (file.contents.length / size.toInt.toNat + 1)).mapM fun i =>
    read path file size (Int64.ofNat (i * size.toInt.toNat))
  return chunks.flatten

theorem mapM_eq_ok {f : ℕ → Except Error Bytes} {g : ℕ → Bytes} {is : List ℕ}
    (h : ∀ i ∈ is, f i = .ok (g i)) : is.mapM f = .ok (is.map g) := by
  induction is
  case nil => rfl
  case cons i is ih =>
    rw [List.mapM_cons, h i List.mem_cons_self, ih fun j hj => h j (List.mem_cons_of_mem i hj)]
    rfl

theorem flatten_chunks {bytes : Bytes} (k n : ℕ) :
    ((List.range n).map fun i => (bytes.drop (i * k)).take k).flatten = bytes.take (n * k) := by
  induction n
  case zero => simp
  case succ n ih =>
    rw [List.range_succ, List.map_append, List.flatten_append, ih, Nat.succ_mul, List.take_add]
    simp

theorem slice_of_nonneg (h0 : 0 ≤ offset.toInt) (hsize : 0 ≤ size.toInt) :
    slice file size offset = (file.contents.drop offset.toInt.toNat).take size.toInt.toNat := by
  rcases le_or_gt (file.contents.length : ℤ) offset.toInt with hend | hlt
  case inl =>
    rw [slice_eq_nil (by omega), List.drop_of_length_le (by omega), List.take_nil]
  case inr =>
    have hne : size ≠ -1 := by
      rw [ne_eq, ← toInt_eq_neg_one]
      omega
    rw [slice, if_pos ⟨h0, hlt, by omega⟩]
    exact if_neg hne

theorem readChunks_eq (h : 0 < size.toInt) : readChunks path file size = .ok file.contents := by
  have hpos : 0 < size.toInt.toNat := by omega
  rw [readChunks]
  generalize hk : size.toInt.toNat = k at hpos
  have hchunk : ∀ i ∈ List.range (file.contents.length / k + 1),
      read path file size (Int64.ofNat (i * k)) = .ok ((file.contents.drop (i * k)).take k) := by
    intro i hi
    have hle : i * k ≤ file.contents.length :=
      (Nat.mul_le_mul_right k (Nat.le_of_lt_succ (List.mem_range.mp hi))).trans (Nat.div_mul_le_self _ k)
    have hoffset : (Int64.ofNat (i * k)).toInt = (i * k : ℕ) :=
      Int64.toInt_ofNat_of_lt (lt_of_le_of_lt hle file.small)
    have hslice : slice file size (Int64.ofNat (i * k)) = _ :=
      slice_of_nonneg (hoffset ▸ Int.natCast_nonneg _) h.le
    rw [hoffset, hk, Int.toNat_natCast] at hslice
    rw [← hslice, read_eq_slice_iff]
    exact .inr (.inl ⟨by omega, by omega⟩)
  have hall : file.contents.length ≤ (file.contents.length / k + 1) * k :=
    (Nat.lt_div_mul_add hpos).le.trans_eq (Nat.succ_mul _ _).symm
  rw [mapM_eq_ok hchunk]
  change Except.ok _ = _
  rw [flatten_chunks, List.take_of_length_le hall]

theorem reads_iff (path : Bytes) (file : LogFile) :
    (∀ size offset, read path file size offset = .ok (slice file size offset) ↔
      Sensible file size offset) ∧
    ∀ size : Int64, 0 < size.toInt → readChunks path file size = .ok file.contents :=
  ⟨fun _ _ => read_eq_slice_iff, fun _ => readChunks_eq⟩

theorem reads_iff_three :
    let file : LogFile := ⟨str "abc", by decide⟩
    read (str "a.log") file (-1) 1 = .ok (str "bc") ∧
      readChunks (str "a.log") file 2 = .ok (str "abc") := by
  intro file
  obtain ⟨hread, hchunks⟩ := reads_iff (str "a.log") file
  exact ⟨(hread (-1) 1).mpr (.inr (.inl ⟨by decide, by decide⟩)), hchunks 2 (by decide)⟩

-- Nothing is before the beginning of the file, and two zeros are read from there.
theorem read_before_start :
    let file : LogFile := ⟨str "abc", by decide⟩
    read (str "a.log") file 2 (-1) ≠ .ok (slice file 2 (-1)) := by
  decide +kernel

end PlaybackDevice.Logging
