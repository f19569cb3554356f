import OpenDaqModules.Library.Enumerated
import OpenDaqModules.Playback.Entries
import OpenDaqModules.Playback.FileData

namespace PlaybackDevice

open EStateM Enumerated Updates
open AdvancedRecorder (Ratio)
open Platform (Double)

variable [Platform] {c d : Channel} {contents metaData cell : Bytes} {line column : ℕ} {α : Type}
variable {read? : Entry → Option α}

-- What a file says, by the line and the column of its cells.
namespace CsvFile

omit [Platform] in
def cells (contents : Bytes) : List (List Bytes) :=
  (splitString 0x0a contents).map (splitString 0x2c)

def cell? (contents : Bytes) (line column : ℕ) : Option Bytes :=
  (cells contents)[line]?.bind (·[column]?)

-- The items in a cell of the second line.
def items (contents : Bytes) (column : ℕ) : List Bytes :=
  (cell? contents 1 column).toList.flatMap (splitString 0x3b)

def ratio? (resolution : Bytes) : Option Ratio :=
  match splitString 0x2f resolution with
  | numerator :: denominator :: _ => do
    let numerator ← (stoi numerator).toOption
    let denominator ← (stoi denominator).toOption
    guard (Platform.acceptsRatio numerator.toInt64 denominator.toInt64)
    return ⟨numerator.toInt64, denominator.toInt64⟩
  | _ => none

def unit? (unit : Bytes) : Option ValueUnit :=
  match splitString 0x2e unit with
  | symbol :: id :: name :: quantity :: _ => do
    let id ← (stoi id).toOption
    return ⟨symbol, id.toInt64, name, quantity⟩
  | _ => none

def resolutionOf? (metaData : Bytes) : Option Ratio :=
  (metaValue? RESOLUTION_STR metaData).bind ratio?

def deltaOf? (metaData : Bytes) : Option Int32 :=
  (metaValue? DELTAT_STR metaData).bind fun delta => (stoi delta).toOption

def unitOf? (metaData : Bytes) : Option ValueUnit :=
  (metaValue? UNIT_STR metaData).bind unit?

def timeSignalName? (contents : Bytes) : Option Bytes :=
  cell? contents 0 0

-- Each cell after the first one overwrites the name.
def valueSignalName? (contents : Bytes) : Option Bytes :=
  ((cells contents)[0]?.toList.flatMap (·.drop 1)).getLast?

def resolution? (contents : Bytes) : Option Ratio :=
  ((items contents 0).filterMap resolutionOf?).getLast?

def delta? (contents : Bytes) : Option Int32 :=
  ((items contents 0).filterMap deltaOf?).getLast?

def valueUnit? (contents : Bytes) : Option ValueUnit :=
  ((items contents 1).filterMap unitOf?).getLast?

def samples (contents : Bytes) : List Double :=
  ((cells contents).drop 2).filterMap fun cells =>
    cells[1]?.bind fun cell => (Platform.stod cell).toOption

end CsvFile

-- The cells that an entry comes from.
def Entry.At (line column : ℕ) : Entry → Prop
  | .timeSignalName _  => line = 0 ∧ column = 0
  | .valueSignalName _ => line = 0 ∧ column ≠ 0
  | .resolution _      => line = 1 ∧ column = 0
  | .deltaT _          => line = 1 ∧ column = 0
  | .valueUnit _       => line = 1 ∧ column = 1
  | .sample _          => 2 ≤ line ∧ column = 1

namespace CsvFile

-- The entries that can be converted.
def converted (entries : Entries) : List Entry :=
  entries.filterMap Except.toOption

theorem converted_singleton {entry : Except Error Entry} :
    converted [entry] = entry.toOption.toList := by
  cases entry <;> rfl

theorem converted_flatMap {ι : Type} {f : ι → Entries} {is : List ι} :
    converted (is.flatMap f) = is.flatMap fun i => converted (f i) := by
  simp only [converted, List.filterMap_flatMap]

theorem converted_entries : converted (entries contents) = (cells contents).zipIdx.flatMap fun line =>
    line.1.zipIdx.flatMap fun cell => converted (cellEntries line.2 cell.2 cell.1) := by
  simp only [entries, converted_flatMap, cells, List.zipIdx_map, List.flatMap_map]
  rfl

theorem converted_resolutionEntries {resolution : Bytes} :
    converted (resolutionEntries resolution) = ((ratio? resolution).map Entry.resolution).toList := by
  unfold resolutionEntries ratio?
  rcases splitString 0x2f resolution with _ | ⟨numerator, _ | ⟨denominator, rest⟩⟩
  case nil => rfl
  case cons.nil => rfl
  case cons.cons =>
    dsimp only
    rw [converted_singleton]
    cases stoi numerator
    case error => rfl
    case ok numerator =>
      cases stoi denominator
      case error => rfl
      case ok denominator =>
        change (if Platform.acceptsRatio numerator.toInt64 denominator.toInt64 then .ok _
          else .error _ : Except Error Entry).toOption.toList = _
        cases haccepts : Platform.acceptsRatio numerator.toInt64 denominator.toInt64
        case false => simp [Except.toOption, haccepts]
        case true => simp [Except.toOption, haccepts]

theorem converted_deltaEntries {delta : Bytes} : converted (deltaEntries delta) =
    ((stoi delta).toOption.map fun delta => Entry.deltaT delta.toInt64.toUInt64).toList := by
  rw [deltaEntries, converted_singleton]
  cases stoi delta <;> rfl

theorem converted_unitEntries {unit : Bytes} :
    converted (unitEntries unit) = ((unit? unit).map Entry.valueUnit).toList := by
  unfold unitEntries unit?
  rcases splitString 0x2e unit with _ | ⟨symbol, _ | ⟨id, _ | ⟨name, _ | ⟨quantity, rest⟩⟩⟩⟩
  case cons.cons.cons.cons =>
    dsimp only
    rw [converted_singleton]
    cases stoi id <;> rfl
  all_goals rfl

-- An item has one name.
omit [Platform] in
theorem metaValue?_delta_of_resolution {resolution : Bytes}
    (h : metaValue? RESOLUTION_STR metaData = some resolution) :
    metaValue? DELTAT_STR metaData = none := by
  rw [metaValue?, Option.ite_none_right_eq_some] at h
  rw [metaValue?, if_neg]
  cases metaData
  case nil => decide +kernel
  case cons b metaData =>
    intro hdelta
    have hr := (List.cons_prefix_cons.mp (List.isPrefixOf_iff_prefix.mp h.left)).left
    have hd := (List.cons_prefix_cons.mp (List.isPrefixOf_iff_prefix.mp hdelta)).left
    exact absurd (hr.trans hd.symm) (by decide)

theorem converted_timeItem : converted (metaDataEntries 0 metaData) =
    ((resolutionOf? metaData).map Entry.resolution).toList ++
      ((deltaOf? metaData).map fun delta => Entry.deltaT delta.toInt64.toUInt64).toList := by
  rw [metaDataEntries, if_pos rfl, resolutionOf?, deltaOf?]
  cases hresolution : metaValue? RESOLUTION_STR metaData
  case some resolution =>
    dsimp only
    rw [metaValue?_delta_of_resolution hresolution, converted_resolutionEntries]
    exact (List.append_nil _).symm
  case none =>
    cases metaValue? DELTAT_STR metaData
    case none => rfl
    case some delta => exact converted_deltaEntries

theorem converted_valueItem : converted (metaDataEntries 1 metaData) =
    ((unitOf? metaData).map Entry.valueUnit).toList := by
  rw [metaDataEntries, if_neg (by decide), if_pos rfl, unitOf?]
  cases metaValue? UNIT_STR metaData
  case none => rfl
  case some unit => exact converted_unitEntries

theorem converted_otherItem (hcolumn : 2 ≤ column) :
    converted (metaDataEntries column metaData) = [] := by
  rw [metaDataEntries, if_neg (by omega), if_neg (by omega)]
  rfl

theorem at_of_mem_metaDataEntries {e : Entry} (h : e ∈ converted (metaDataEntries column metaData)) :
    e.At 1 column := by
  obtain rfl | rfl | hcolumn : column = 0 ∨ column = 1 ∨ 2 ≤ column := by omega
  case inl =>
    rw [converted_timeItem, List.mem_append, Option.mem_toList, Option.mem_toList,
      Option.map_eq_some_iff, Option.map_eq_some_iff] at h
    obtain ⟨_, -, rfl⟩ | ⟨_, -, rfl⟩ := h
    case inl => exact ⟨rfl, rfl⟩
    case inr => exact ⟨rfl, rfl⟩
  case inr.inl =>
    rw [converted_valueItem, Option.mem_toList, Option.map_eq_some_iff] at h
    obtain ⟨_, -, rfl⟩ := h
    exact ⟨rfl, rfl⟩
  case inr.inr =>
    rw [converted_otherItem hcolumn] at h
    cases h

theorem converted_nameCell : converted (cellEntries 0 column cell) =
    [if column = 0 then .timeSignalName cell else .valueSignalName cell] :=
  rfl

theorem converted_metaDataCell : converted (cellEntries 1 column cell) =
    (splitString 0x3b cell).flatMap fun metaData => converted (metaDataEntries column metaData) :=
  converted_flatMap

theorem converted_sampleCell (hline : 2 ≤ line) : converted (cellEntries line column cell) =
    if column = 1 then ((Platform.stod cell).toOption.map Entry.sample).toList else [] := by
  rw [cellEntries, if_neg (by omega), if_neg (by omega)]
  split
  case isFalse => rfl
  case isTrue =>
    rw [converted_singleton]
    cases Platform.stod cell <;> rfl

theorem at_of_mem_cellEntries {e : Entry} (h : e ∈ converted (cellEntries line column cell)) :
    e.At line column := by
  obtain rfl | rfl | hline : line = 0 ∨ line = 1 ∨ 2 ≤ line := by omega
  case inl =>
    rw [converted_nameCell, List.mem_singleton] at h
    split at h
    case isTrue hcolumn =>
      subst h
      exact ⟨rfl, hcolumn⟩
    case isFalse hcolumn =>
      subst h
      exact ⟨rfl, hcolumn⟩
  case inr.inl =>
    rw [converted_metaDataCell, List.mem_flatMap] at h
    obtain ⟨_, -, hmem⟩ := h
    exact at_of_mem_metaDataEntries hmem
  case inr.inr =>
    rw [converted_sampleCell hline] at h
    split at h
    case isTrue hcolumn =>
      rw [Option.mem_toList, Option.map_eq_some_iff] at h
      obtain ⟨_, -, rfl⟩ := h
      exact ⟨hline, hcolumn⟩
    case isFalse => cases h

theorem filterMap_cellEntries_eq_nil (h : ∀ e : Entry, e.At line column → read? e = none) :
    (converted (cellEntries line column cell)).filterMap read? = [] := by
  rw [List.filterMap_eq_nil_iff]
  exact fun e he => h e (at_of_mem_cellEntries he)

-- A member that only one cell of a file is about.
theorem filterMap_entries_at (line column : ℕ)
    (h : ∀ e : Entry, read? e = none ∨ ∀ l k, e.At l k → l = line ∧ k = column) :
    (converted (entries contents)).filterMap read? =
      (cell? contents line column).toList.flatMap fun cell =>
        (converted (cellEntries line column cell)).filterMap read? := by
  have hsilent : ∀ l k cell, l ≠ line ∨ k ≠ column →
      (converted (cellEntries l k cell)).filterMap read? = [] := by
    intro l k cell hne
    refine filterMap_cellEntries_eq_nil fun e he => (h e).resolve_right fun hat => ?_
    obtain ⟨hl, hk⟩ := hat l k he
    exact hne.elim (· hl) (· hk)
  have hline : (converted (entries contents)).filterMap read? =
      (cells contents)[line]?.toList.flatMap fun cells => cells.zipIdx.flatMap fun cell =>
        (converted (cellEntries line cell.2 cell.1)).filterMap read? := by
    simp only [converted_entries, List.filterMap_flatMap]
    refine flatMap_zipIdx_at fun cells l hl => ?_
    rw [List.flatMap_eq_nil_iff]
    exact fun cell _ => hsilent l cell.2 cell.1 (.inl hl)
  have hcell : ∀ cells : List Bytes,
      (cells.zipIdx.flatMap fun cell => (converted (cellEntries line cell.2 cell.1)).filterMap read?) =
        cells[column]?.toList.flatMap fun cell =>
          (converted (cellEntries line column cell)).filterMap read? :=
    fun cells => flatMap_zipIdx_at fun cell k hk => hsilent line k cell (.inr hk)
  rw [hline, cell?]
  cases (cells contents)[line]?
  case none => rfl
  case some cells => simpa using hcell cells

-- A member that only the items in one cell of the second line are about.
theorem filterMap_entries_items (column : ℕ) {of? : Bytes → Option α}
    (h : ∀ e : Entry, read? e = none ∨ ∀ l k, e.At l k → l = 1 ∧ k = column)
    (hitem : ∀ metaData,
      (converted (metaDataEntries column metaData)).filterMap read? = (of? metaData).toList) :
    (converted (entries contents)).filterMap read? = (items contents column).filterMap of? := by
  rw [filterMap_entries_at 1 column h, items, List.filterMap_flatMap]
  refine List.flatMap_congr fun cell _ => ?_
  rw [converted_metaDataCell, List.filterMap_flatMap, List.filterMap_eq_flatMap_toList]
  exact List.flatMap_congr fun metaData _ => hitem metaData

theorem filterMap_timeSignalName? :
    (converted (entries contents)).filterMap Entry.timeSignalName? =
      (timeSignalName? contents).toList := by
  have hat : ∀ e : Entry, e.timeSignalName? = none ∨ ∀ l k, e.At l k → l = 0 ∧ k = 0 := by
    intro e
    cases e
    case timeSignalName => exact .inr fun _ _ hat => hat
    all_goals exact .inl rfl
  rw [filterMap_entries_at 0 0 hat, timeSignalName?]
  cases cell? contents 0 0 <;> rfl

theorem filterMap_valueSignalName? :
    (converted (entries contents)).filterMap Entry.valueSignalName? =
      (cells contents)[0]?.toList.flatMap (·.drop 1) := by
  have hline : ∀ cells : List Bytes, (cells.zipIdx.flatMap fun cell =>
      (converted (cellEntries 0 cell.2 cell.1)).filterMap Entry.valueSignalName?) = cells.drop 1 := by
    intro cells
    rw [flatMap_zipIdx_from (k := 1) (f := fun cell => [cell]), List.flatMap_singleton']
    case hbefore =>
      intro cell k hk
      rw [converted_nameCell, if_pos (by omega)]
      rfl
    case h =>
      intro cell k hk
      rw [converted_nameCell, if_neg (by omega)]
      rfl
  have hlines : (converted (entries contents)).filterMap Entry.valueSignalName? =
      (cells contents)[0]?.toList.flatMap fun cells => cells.zipIdx.flatMap fun cell =>
        (converted (cellEntries 0 cell.2 cell.1)).filterMap Entry.valueSignalName? := by
    simp only [converted_entries, List.filterMap_flatMap]
    refine flatMap_zipIdx_at fun cells l hl => ?_
    rw [List.flatMap_eq_nil_iff]
    refine fun cell _ => filterMap_cellEntries_eq_nil fun e he => ?_
    cases e
    case valueSignalName => exact absurd he.left hl
    all_goals rfl
  rw [hlines]
  exact List.flatMap_congr fun cells _ => hline cells

theorem filterMap_sample? :
    (converted (entries contents)).filterMap Entry.sample? = samples contents := by
  have hline : ∀ l, 2 ≤ l → ∀ cells : List Bytes, (cells.zipIdx.flatMap fun cell =>
      (converted (cellEntries l cell.2 cell.1)).filterMap Entry.sample?) =
        (cells[1]?.bind fun cell => (Platform.stod cell).toOption).toList := by
    intro l hl cells
    have hcell : ∀ cell k, k ≠ 1 → (converted (cellEntries l k cell)).filterMap Entry.sample? = [] := by
      intro cell k hk
      rw [converted_sampleCell hl, if_neg hk]
      rfl
    rw [flatMap_zipIdx_at hcell]
    simp only [converted_sampleCell hl, if_true]
    cases cells[1]?
    case none => rfl
    case some cell => cases hvalue : (Platform.stod cell).toOption <;> simp [hvalue, Entry.sample?]
  simp only [converted_entries, List.filterMap_flatMap]
  rw [samples, List.filterMap_eq_flatMap_toList]
  refine flatMap_zipIdx_from (fun cells l hl => ?_) fun cells l hl => hline l hl cells
  rw [List.flatMap_eq_nil_iff]
  refine fun cell _ => filterMap_cellEntries_eq_nil fun e he => ?_
  cases e
  case sample => exact absurd he.left (by omega)
  all_goals rfl

theorem filterMap_resolution? :
    (converted (entries contents)).filterMap Entry.resolution? =
      (items contents 0).filterMap resolutionOf? := by
  refine filterMap_entries_items 0 ?_ fun metaData => ?_
  case refine_1 =>
    intro e
    cases e
    case resolution => exact .inr fun _ _ hat => hat
    all_goals exact .inl rfl
  case refine_2 =>
    rw [converted_timeItem]
    cases resolutionOf? metaData <;> cases deltaOf? metaData <;> rfl

theorem filterMap_deltaT? :
    (converted (entries contents)).filterMap Entry.deltaT? =
      (items contents 0).filterMap fun metaData =>
        (deltaOf? metaData).map fun delta => delta.toInt64.toUInt64 := by
  refine filterMap_entries_items 0 ?_ fun metaData => ?_
  case refine_1 =>
    intro e
    cases e
    case deltaT => exact .inr fun _ _ hat => hat
    all_goals exact .inl rfl
  case refine_2 =>
    rw [converted_timeItem]
    cases resolutionOf? metaData <;> cases deltaOf? metaData <;> rfl

theorem filterMap_valueUnit? :
    (converted (entries contents)).filterMap Entry.valueUnit? =
      (items contents 1).filterMap unitOf? := by
  refine filterMap_entries_items 1 ?_ fun metaData => ?_
  case refine_1 =>
    intro e
    cases e
    case valueUnit => exact .inr fun _ _ hat => hat
    all_goals exact .inl rfl
  case refine_2 =>
    rw [converted_valueItem]
    cases unitOf? metaData <;> rfl

end CsvFile

-- What a file leaves of the data that were there: the names and the metadata that it does not have.
def FileData.reading (f : FileData) (contents : Bytes) : FileData where
  fileDataBuffer  := CsvFile.samples contents
  timeSignalName  := (CsvFile.timeSignalName? contents).getD f.timeSignalName
  valueSignalName := (CsvFile.valueSignalName? contents).getD f.valueSignalName
  resolution      := (CsvFile.resolution? contents).getD f.resolution
  deltaT          := ((CsvFile.delta? contents).map (·.toInt64.toUInt64)).getD f.deltaT
  valueUnit       := (CsvFile.valueUnit? contents).getD f.valueUnit

open CsvFile

theorem FileData.after_converted {f : FileData} :
    f.after (converted (entries contents)) = f.reading contents := by
  have hdelta : ((converted (entries contents)).filterMap Entry.deltaT?).getLast? =
      (delta? contents).map fun delta => delta.toInt64.toUInt64 := by
    rw [filterMap_deltaT?, ← List.map_filterMap, List.getLast?_map, delta?]
  rw [after, reading, filterMap_sample?, filterMap_timeSignalName?, filterMap_valueSignalName?,
    filterMap_resolution?, hdelta, filterMap_valueUnit?, valueSignalName?, resolution?, valueUnit?]
  cases timeSignalName? contents <;> rfl

-- A file that is read to its end is read by lines and columns.
theorem Channel.openCSVSignal_fileData (h : (openCSVSignal (some contents)).run c = .ok () d) :
    d.fileData = c.fileData.reading contents := by
  rw [openCSVSignal_run] at h
  obtain ⟨hfailure, rfl⟩ := failure?_of_run h
  rw [made_put_fileData, taken_eq_filterMap hfailure]
  exact FileData.after_converted

end PlaybackDevice
