import Mathlib.Data.List.TakeWhile
import OpenDaqModules.Playback.DeviceModule

namespace PlaybackDevice

open Sie (str)

variable {text : Bytes} {n : ℕ}

-- What is left of a text where `stoi` looks for digits.
def unsigned (text : Bytes) : Bytes :=
  let text := text.dropWhile isSpace
  text.drop (if text.head? = some 0x2b ∨ text.head? = some 0x2d then 1 else 0)

def startsNumber (text : Bytes) : Bool :=
  (unsigned text).head?.any isDigit

def numberOf (text : Bytes) : ℤ :=
  let digits := (unsigned text).takeWhile isDigit
  if (text.dropWhile isSpace).head? = some 0x2d then -Decimal.toNat digits else Decimal.toNat digits

theorem takeWhile_isEmpty {p : UInt8 → Bool} : (text.takeWhile p).isEmpty = !text.head?.any p := by
  cases text
  case nil => rfl
  case cons b text => cases h : p b <;> simp [h]

theorem head?_mem_signs : text.head? ∈ [some 0x2b, some 0x2d] ↔
    text.head? = some 0x2b ∨ text.head? = some 0x2d := by
  simp

theorem stoi_eq : stoi text =
    if ¬startsNumber text then .error .invalidArgument
    else if numberOf text < -2 ^ 31 ∨ 2 ^ 31 ≤ numberOf text then .error .outOfRange
    else .ok (Int32.ofInt (numberOf text)) := by
  have hdigits : ((unsigned text).takeWhile isDigit).isEmpty = !startsNumber text :=
    takeWhile_isEmpty
  by_cases hnumber : startsNumber text
  case neg =>
    have hempty : ((unsigned text).takeWhile isDigit).isEmpty := by simpa [hnumber] using hdigits
    rw [if_pos hnumber]
    simp only [unsigned] at hempty
    simp only [stoi, head?_mem_signs, hempty, if_true]
    rfl
  case pos =>
    have hsome : ¬((unsigned text).takeWhile isDigit).isEmpty := by simpa [hnumber] using hdigits
    rw [if_neg (not_not.mpr hnumber)]
    by_cases hrange : numberOf text < -2 ^ 31 ∨ 2 ^ 31 ≤ numberOf text
    case pos =>
      rw [if_pos hrange]
      simp only [numberOf, unsigned] at hsome hrange
      simp only [stoi, head?_mem_signs, if_neg hsome, if_pos hrange]
      rfl
    case neg =>
      rw [if_neg hrange]
      simp only [numberOf, unsigned] at hsome hrange ⊢
      simp only [stoi, head?_mem_signs, if_neg hsome, if_neg hrange]
      rfl

theorem isDigit_of_mem_ofNat (h : b ∈ Decimal.ofNat n) : isDigit b := by
  have hb := Decimal.mem_ofNat h
  simp [isDigit, UInt8.le_iff_toNat_le, hb]

theorem not_space_or_sign_of_isDigit {b : UInt8} (h : isDigit b) :
    ¬isSpace b ∧ b ≠ 0x2b ∧ b ≠ 0x2d := by
  simp only [isDigit, isSpace, Bool.and_eq_true, Bool.or_eq_true, decide_eq_true_eq, beq_iff_eq,
    UInt8.le_iff_toNat_le, ← UInt8.toNat_inj, UInt8.reduceToNat, ne_eq] at h ⊢
  omega

theorem unsigned_of_isDigit {b : UInt8} (h : isDigit b) : unsigned (b :: text) = b :: text := by
  obtain ⟨hspace, hplus, hminus⟩ := not_space_or_sign_of_isDigit h
  simp [unsigned, hspace, hplus, hminus]

theorem ofNat_eq_cons (n : ℕ) : ∃ b digits, Decimal.ofNat n = b :: digits ∧ isDigit b := by
  cases hdigits : Decimal.ofNat n
  case nil => exact absurd hdigits Decimal.ofNat_ne_nil
  case cons b digits => exact ⟨b, digits, rfl, isDigit_of_mem_ofNat (hdigits ▸ List.mem_cons_self)⟩

theorem startsNumber_ofNat : startsNumber (Decimal.ofNat n) := by
  obtain ⟨b, digits, hdigits, hb⟩ := ofNat_eq_cons n
  rw [hdigits, startsNumber, unsigned_of_isDigit hb]
  exact hb

theorem numberOf_ofNat : numberOf (Decimal.ofNat n) = n := by
  obtain ⟨b, digits, hdigits, hb⟩ := ofNat_eq_cons n
  obtain ⟨hspace, -, hminus⟩ := not_space_or_sign_of_isDigit hb
  have hall : (Decimal.ofNat n).takeWhile isDigit = Decimal.ofNat n :=
    List.takeWhile_eq_self_iff.mpr fun _ => isDigit_of_mem_ofNat
  have hunsigned : unsigned (Decimal.ofNat n) = Decimal.ofNat n := by
    rw [hdigits, unsigned_of_isDigit hb]
  have hsign : ((Decimal.ofNat n).dropWhile isSpace).head? ≠ some 0x2d := by
    simp [hdigits, hspace, hminus]
  simp only [numberOf, hunsigned, hall, if_neg hsign, Decimal.toNat_ofNat]

theorem stoi_ofNat : stoi (Decimal.ofNat n) =
    if 2 ^ 31 ≤ n then .error .outOfRange else .ok (Int32.ofNat n) := by
  have hrange : ((n : ℤ) < -2 ^ 31 ∨ (2 : ℤ) ^ 31 ≤ n) ↔ 2 ^ 31 ≤ n := by omega
  rw [stoi_eq, if_neg (not_not.mpr startsNumber_ofNat), numberOf_ofNat]
  simp only [hrange]
  rfl

namespace PlaybackDeviceModule

variable {connectionString rest : Bytes} {id : UInt64}

theorem isPrefixOf_connectionString {serialNumber : Option Bytes} :
    prefixWithDeviceStr.isPrefixOf (CreateDeviceInfo id serialNumber).connectionString := by
  rw [List.isPrefixOf_iff_prefix]
  exact List.prefix_append _ _

theorem getIdFromConnectionString_append :
    getIdFromConnectionString (prefixWithDeviceStr ++ rest) = catchInvalidArgument (stoi rest) := by
  have hprefix : prefixWithDeviceStr.isPrefixOf (prefixWithDeviceStr ++ rest) :=
    List.isPrefixOf_iff_prefix.mpr (List.prefix_append _ _)
  rw [getIdFromConnectionString, if_neg (not_not.mpr hprefix), List.drop_left]

-- What is written for a device is read back, up to the numbers that do not fit.
theorem getIdFromConnectionString_info {serialNumber : Option Bytes} :
    getIdFromConnectionString (CreateDeviceInfo id serialNumber).connectionString =
      if 2 ^ 31 ≤ id.toNat then .error .outOfRange else .ok id := by
  change getIdFromConnectionString (prefixWithDeviceStr ++ Decimal.ofNat id.toNat) = _
  rw [getIdFromConnectionString_append, stoi_ofNat]
  by_cases hrange : 2 ^ 31 ≤ id.toNat
  case pos => rw [if_pos hrange, if_pos hrange, catchInvalidArgument]
  case neg =>
    have hwide : (Int32.ofNat id.toNat).toInt64 = Int64.ofNat id.toNat := by
      rw [← Int64.toInt_inj, Int32.toInt_toInt64, Int32.toInt_ofNat_of_lt (by omega),
        Int64.toInt_ofNat_of_lt (by omega)]
    rw [if_neg hrange, if_neg hrange, catchInvalidArgument, hwide, Int64.toUInt64_ofNat',
      UInt64.ofNat_toNat]

-- A string is accepted as the number of the device that it is written for, and refused as an invalid
-- parameter if there is none.
structure Exact (connectionString : Bytes) : Prop where
  accepts : ∀ {id}, getIdFromConnectionString connectionString = .ok id ↔
    connectionString = (CreateDeviceInfo id none).connectionString
  refuses : ∀ {e}, getIdFromConnectionString connectionString = .error e → e = .invalidParameter

-- After the prefix there is no number, or nothing but one that fits.
def Regular (connectionString : Bytes) : Prop :=
  ∀ rest, connectionString = prefixWithDeviceStr ++ rest → startsNumber rest →
    ∃ n < 2 ^ 31, rest = Decimal.ofNat n

theorem connectionString_inj {id' : UInt64} :
    (CreateDeviceInfo id none).connectionString = (CreateDeviceInfo id' none).connectionString ↔
      id = id' := by
  constructor
  case mp  => exact fun h => UInt64.toNat_inj.mp (Decimal.ofNat_injective (List.append_cancel_left h))
  case mpr => exact fun h => h ▸ rfl

theorem Exact.of_written (h : id.toNat < 2 ^ 31) :
    Exact (CreateDeviceInfo id none).connectionString := by
  have hid : getIdFromConnectionString (CreateDeviceInfo id none).connectionString = _ :=
    getIdFromConnectionString_info
  rw [if_neg (not_le.mpr h)] at hid
  constructor
  case accepts =>
    intro id'
    rw [hid, connectionString_inj, Except.ok.injEq]
  case refuses =>
    intro e he
    cases hid.symm.trans he

theorem Exact.of_refused {connectionString : Bytes}
    (h : getIdFromConnectionString connectionString = .error .invalidParameter)
    (hwritten : ∀ id, connectionString ≠ (CreateDeviceInfo id none).connectionString) :
    Exact connectionString := by
  constructor
  case accepts =>
    intro id
    exact iff_of_false (fun hid => nomatch h.symm.trans hid) (hwritten id)
  case refuses =>
    intro e he
    cases h.symm.trans he
    rfl

theorem exact_iff (connectionString : Bytes) : Exact connectionString ↔ Regular connectionString := by
  constructor
  case mp =>
    rintro ⟨haccepts, hrefuses⟩ rest rfl hnumber
    cases hid : getIdFromConnectionString (prefixWithDeviceStr ++ rest)
    case error e =>
      cases hrefuses hid
      rw [getIdFromConnectionString_append, stoi_eq, if_neg (not_not.mpr hnumber)] at hid
      split at hid <;> cases hid
    case ok id =>
      have hwritten := haccepts.mp hid
      have hrest : rest = Decimal.ofNat id.toNat := List.append_cancel_left hwritten
      refine ⟨id.toNat, ?_, hrest⟩
      rw [hwritten, getIdFromConnectionString_info] at hid
      split at hid
      case isTrue         => cases hid
      case isFalse hrange => exact not_le.mp hrange
  case mpr =>
    intro h
    by_cases hprefix : prefixWithDeviceStr.isPrefixOf connectionString
    case neg =>
      refine .of_refused (if_pos hprefix) fun id hwritten => hprefix ?_
      rw [hwritten]
      exact isPrefixOf_connectionString
    case pos =>
      obtain ⟨rest, rfl⟩ := List.isPrefixOf_iff_prefix.mp hprefix
      by_cases hnumber : startsNumber rest
      case pos =>
        obtain ⟨n, hn, rfl⟩ := h rest rfl hnumber
        have hid : (UInt64.ofNat n).toNat = n :=
          UInt64.toNat_ofNat'.trans (Nat.mod_eq_of_lt (by omega))
        have hexact : Exact (CreateDeviceInfo (UInt64.ofNat n) none).connectionString :=
          .of_written (hid.symm ▸ hn)
        rwa [CreateDeviceInfo, hid] at hexact
      case neg =>
        refine .of_refused ?_ fun id hwritten => hnumber ?_
        case refine_1 =>
          rw [getIdFromConnectionString_append, stoi_eq, if_pos hnumber, catchInvalidArgument]
          exact nofun
        case refine_2 =>
          rw [List.append_cancel_left hwritten]
          exact startsNumber_ofNat

-- One more than the largest number that fits.
theorem not_exact_too_large : ¬Exact (str "daqpb://device2147483648") := by
  intro h
  have hthrows : getIdFromConnectionString (str "daqpb://device2147483648") = .error .outOfRange := by
    decide +kernel
  cases h.refuses hthrows

end PlaybackDeviceModule
end PlaybackDevice
