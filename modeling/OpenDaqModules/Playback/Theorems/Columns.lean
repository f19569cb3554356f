import OpenDaqModules.Playback.Cells

namespace PlaybackDevice

open CsvFile EStateM Updates
open Platform (Double)
open Sie (str)

variable [Platform] {c d : Channel} {contents time value : Bytes} {further : List Bytes}

namespace Channel

-- The conversions of the header are those of its second line, and of the lines after it only the
-- second cells are converted.
theorem openCSVSignal_returns_iff : ((openCSVSignal (some contents)).run c).Returns ↔
    (∀ line, (splitString 0x0a contents)[1]? = some line → ((readLine 1 line).run c).Returns) ∧
      ∀ row ∈ (cells contents).drop 2, ∀ cell, row[1]? = some cell →
        ∃ value, Platform.stod cell = .ok value := by
  rw [openCSVSignal_run, perform_returns_iff, failure?_eq_none_iff]
  constructor
  case mp =>
    intro h
    refine ⟨fun line hline => ?_, fun row hrow cell hcell => ?_⟩
    case refine_1 =>
      rw [readLine_eq, perform_returns_iff, failure?_eq_none_iff]
      have hmem : (line, 1) ∈ (splitString 0x0a contents).zipIdx :=
        List.mk_mem_zipIdx_iff_getElem?.mpr hline
      exact fun entry hentry => h entry (List.mem_flatMap.mpr ⟨_, hmem, hentry⟩)
    case refine_2 =>
      obtain ⟨l, hl⟩ := List.getElem?_of_mem hrow
      rw [List.getElem?_drop, cells, List.getElem?_map, Option.map_eq_some_iff] at hl
      obtain ⟨line, hline, rfl⟩ := hl
      have hentry : (do let value ← Platform.stod cell; return .sample value) ∈ entries contents := by
        refine List.mem_flatMap.mpr ⟨_, List.mk_mem_zipIdx_iff_getElem?.mpr hline, ?_⟩
        refine List.mem_flatMap.mpr ⟨_, List.mk_mem_zipIdx_iff_getElem?.mpr hcell, ?_⟩
        rw [cellEntries, if_neg (by omega), if_neg (by omega), if_pos rfl]
        exact List.mem_singleton_self _
      obtain ⟨entry, hok⟩ := h _ hentry
      obtain ⟨value, hvalue, -⟩ := Except.bind_eq_ok.mp hok
      exact ⟨value, hvalue⟩
  case mpr =>
    rintro ⟨hheader, hvalues⟩ entry hentry
    obtain ⟨⟨line, l⟩, hline, hcell⟩ := List.mem_flatMap.mp hentry
    have hline := List.mk_mem_zipIdx_iff_getElem?.mp hline
    obtain rfl | rfl | hdata : l = 0 ∨ l = 1 ∨ 2 ≤ l := by omega
    case inr.inl =>
      have hreturns := hheader line hline
      rw [readLine_eq, perform_returns_iff, failure?_eq_none_iff] at hreturns
      exact hreturns entry hcell
    all_goals obtain ⟨⟨cell, k⟩, hcell, hentry⟩ := List.mem_flatMap.mp hcell
    case inl =>
      cases List.mem_singleton.mp hentry
      exact ⟨_, rfl⟩
    case inr.inr =>
      have hcell := List.mk_mem_zipIdx_iff_getElem?.mp hcell
      rw [cellEntries, if_neg (by omega), if_neg (by omega)] at hentry
      split at hentry
      case isFalse => cases hentry
      case isTrue hk =>
        dsimp only at hk
        subst hk
        have hrow : splitString 0x2c line ∈ (cells contents).drop 2 := by
          refine List.mem_of_getElem? (i := l - 2) ?_
          rw [List.getElem?_drop, Nat.add_sub_cancel' hdata, cells, List.getElem?_map, hline]
          rfl
        obtain ⟨value, hvalue⟩ := hvalues _ hrow cell hcell
        cases List.mem_singleton.mp hentry
        exact ⟨.sample value, by rw [hvalue]; rfl⟩

theorem fileDataBuffer_of_openCSVSignal (h : (openCSVSignal (some contents)).run c = .ok () d) :
    d.fileDataBuffer.map .ok =
      ((cells contents).drop 2).filterMap fun row => row[1]?.map Platform.stod := by
  have hreturns : ((openCSVSignal (some contents)).run c).Returns := by
    rw [h]
    trivial
  have hbuffer : d.fileDataBuffer = samples contents :=
    congrArg FileData.fileDataBuffer (openCSVSignal_fileData h)
  rw [hbuffer, samples, List.map_filterMap]
  refine List.filterMap_congr fun row hrow => ?_
  cases hcell : row[1]?
  case none => rfl
  case some cell =>
    obtain ⟨value, hvalue⟩ := (openCSVSignal_returns_iff.mp hreturns).right row hrow cell hcell
    simp [hvalue, Except.toOption]

theorem openCSVSignal_samples
    (hheader : ∀ line, (splitString 0x0a contents)[1]? = some line → ((readLine 1 line).run c).Returns)
    (hvalues : ∀ row ∈ (cells contents).drop 2, ∀ cell, row[1]? = some cell →
      ∃ value, Platform.stod cell = .ok value) :
    ∃ d, (openCSVSignal (some contents)).run c = .ok () d ∧ d.fileDataBuffer.map .ok =
      ((cells contents).drop 2).filterMap fun row => row[1]?.map Platform.stod := by
  have hreturns : ((openCSVSignal (some contents)).run c).Returns :=
    openCSVSignal_returns_iff.mpr ⟨hheader, hvalues⟩
  obtain ⟨⟨⟩, hrun⟩ := Result.returns_iff.mp hreturns
  exact ⟨_, hrun, fileDataBuffer_of_openCSVSignal hrun⟩

-- Blank lines, rows of other lengths and what has been read before do not matter.
omit [Platform] in
theorem openCSVSignal_samples_ragged :
    let _ := Platform.exact
    let c : Channel := {
      startTime                        := 0
      microSecondsFromEpochToStartTime := 0
      fileDataBuffer                   := [7, 8].map Platform.ofNat }
    let contents := str "T,V,W\ndelta=5;resolution=1/1000\n0,3\n\n1\n2,4,x\n"
    ∃ d, (openCSVSignal (some contents)).run c = .ok () d ∧
      d.fileDataBuffer = [3, 4].map Platform.ofNat := by
  intro _ c contents
  have hlines : splitString 0x0a contents = [str "T,V,W", str "delta=5;resolution=1/1000",
      str "0,3", [], str "1", str "2,4,x"] := by decide +kernel
  have hrows : (cells contents).drop 2 =
      [[str "0", str "3"], [], [str "1"], [str "2", str "4", str "x"]] := by decide +kernel
  have hheader : ∀ line, (splitString 0x0a contents)[1]? = some line →
      ((readLine 1 line).run c).Returns := by
    intro line hline
    rw [hlines] at hline
    cases hline
    decide +kernel
  have hvalues : ∀ row ∈ (cells contents).drop 2, ∀ cell, row[1]? = some cell →
      ∃ value, Platform.stod cell = .ok value := by
    intro row hrow cell hcell
    rw [hrows] at hrow
    simp only [List.mem_cons, List.not_mem_nil, or_false] at hrow
    obtain rfl | rfl | rfl | rfl := hrow <;> cases hcell
    case inl => exact ⟨(3 : ℚ), rfl⟩
    case inr.inr.inr => exact ⟨(4 : ℚ), rfl⟩
  obtain ⟨d, hrun, hbuffer⟩ := openCSVSignal_samples hheader hvalues
  refine ⟨d, hrun, ?_⟩
  rw [hrows] at hbuffer
  have hinjective : Function.Injective (List.map (Except.ok : ℚ → Except Error ℚ)) :=
    List.map_injective_iff.mpr fun _ _ => Except.ok.inj
  exact hinjective hbuffer

-- The name of the value signal, its unit and its samples are those of one column. A column without
-- a unit has that of the file before.
structure FromColumn (column : ℕ) (contents : Bytes) (c d : Channel) : Prop where
  name    : cell? contents 0 column = some d.valueSignalName
  unit    : d.valueUnit = ((items contents column).filterMap unitOf?).getLast?.getD c.valueUnit
  samples : d.fileDataBuffer.map .ok =
    ((cells contents).drop 2).filterMap fun row => row[column]?.map Platform.stod

-- Each cell of the first line after the first one is taken for the name.
theorem fromColumn_iff (h : (openCSVSignal (some contents)).run c = .ok () d)
    (hcolumns : (cells contents)[0]? = some (time :: value :: further)) :
    FromColumn 1 contents c d ↔ (value :: further).getLast? = some value := by
  have hdata : d.fileData = c.fileData.reading contents := openCSVSignal_fileData h
  have hname : some d.valueSignalName = (value :: further).getLast? := by
    have hread : d.valueSignalName = (valueSignalName? contents).getD c.valueSignalName :=
      congrArg FileData.valueSignalName hdata
    rw [hread, valueSignalName?, hcolumns]
    simp [List.getLast?_cons]
  have hcell : cell? contents 0 1 = some value := by
    rw [cell?, hcolumns]
    rfl
  constructor
  case mp =>
    intro hcolumn
    rw [← hname, ← hcolumn.name, hcell]
  case mpr =>
    intro hlast
    refine ⟨?_, congrArg FileData.valueUnit hdata, fileDataBuffer_of_openCSVSignal h⟩
    rw [hcell, hname, hlast]

omit [Platform] in
theorem fromColumn_iff_two_columns :
    let _ := Platform.exact
    let c : Channel := { startTime := 0, microSecondsFromEpochToStartTime := 0 }
    let contents := str "T,V\nresolution=1/1000,unit=V.1.volts.voltage\n0,3\n1,4"
    ∃ d, (openCSVSignal (some contents)).run c = .ok () d ∧ FromColumn 1 contents c d := by
  intro _ c contents
  obtain ⟨⟨⟩, hrun⟩ := Result.returns_iff.mp
    (by decide +kernel : ((openCSVSignal (some contents)).run c).Returns)
  have hcolumns : (cells contents)[0]? = some [str "T", str "V"] := by decide +kernel
  exact ⟨_, hrun, (fromColumn_iff hrun hcolumns).mpr rfl⟩

-- The samples of the second column are published under the name of the third one.
omit [Platform] in
theorem not_fromColumn_three_columns :
    let _ := Platform.exact
    let c : Channel := { startTime := 0, microSecondsFromEpochToStartTime := 0 }
    let contents := str "T,V,W\nresolution=1/1000,unit=V.1.volts.voltage,\n0,3,9\n1,4,9"
    ∃ d, (openCSVSignal (some contents)).run c = .ok () d ∧ d.valueSignalName = str "W" ∧
      ¬FromColumn 1 contents c d := by
  intro _ c contents
  obtain ⟨⟨⟩, hrun⟩ := Result.returns_iff.mp
    (by decide +kernel : ((openCSVSignal (some contents)).run c).Returns)
  refine ⟨_, hrun, by decide +kernel, fun hcolumn => ?_⟩
  exact absurd hcolumn.name (by decide +kernel)

end Channel

end PlaybackDevice
