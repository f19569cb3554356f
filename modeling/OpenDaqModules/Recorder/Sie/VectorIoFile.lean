import OpenDaqModules.Recorder.Sie.FallbackVectorIoFile

-- The two implementations that `vector_io_file` can stand for.
namespace Sie

-- Every byte that is offered is taken over in one call.
def OperatingSystem.accepting : OperatingSystem :=
  fun _ offered => .bytes offered

def StandardLibrary.accepting : StandardLibrary :=
  fun _ size => { written := size }

theorem StandardLibrary.accepting_lawful : StandardLibrary.accepting.Lawful :=
  fun _ size hpos => ⟨hpos, Nat.le_refl size, rfl, rfl⟩

variable {segments later : List Bytes} {written : ℕ}

namespace PosixVectorIoFile

variable {f : PosixVectorIoFile}

-- After the one call it is only a matter of what remains of the segments.
theorem write_run_accepting (hpos : 0 < segments.flatten.length) : ∃ later,
    advance segments segments.flatten.length = .ok later ∧ later.flatten = [] ∧
      (write .accepting segments).run f =
        (write .accepting later).run (f.transferred segments [segments.flatten.length]) := by
  obtain ⟨later, hlater⟩ := advance_returns hpos (Nat.le_refl segments.flatten.length)
  obtain ⟨-, hflatten⟩ := advance_eq_ok hlater
  rw [List.drop_length] at hflatten
  exact ⟨later, hlater, hflatten, write_run_bytes hpos rfl hlater⟩

theorem Ended.write_run_accepting (h : Ended segments) : ∃ g,
    (write .accepting segments).run f = .ok () g ∧ g.bytes = f.bytes ++ segments.flatten := by
  by_cases hne : segments = []
  case pos => exact ⟨f, by rw [hne, write_nil_run], by rw [hne, List.flatten_nil, List.append_nil]⟩
  case neg =>
    have hpos : 0 < segments.flatten.length := List.length_pos_iff.mpr (h.flatten_ne_nil hne)
    obtain ⟨later, hlater, hflatten, hrun⟩ := PosixVectorIoFile.write_run_accepting (f := f) hpos
    have hnil : later = [] := by
      by_contra hne
      exact (h.advance hlater).flatten_ne_nil hne hflatten
    rw [hnil, write_nil_run] at hrun
    exact ⟨_, hrun, by simp only [transferred, List.sum_singleton, List.take_length]⟩

-- An empty segment at the end is never passed together with the bytes before it.
theorem advance_getLast? (hlast : segments.getLast? = some []) (hpos : 0 < written)
    (h : advance segments written = .ok later) : later ≠ [] := by
  induction segments generalizing written
  case nil => cases h
  case cons segment segments ih =>
    rw [List.getLast?_cons] at hlast
    rw [advance] at h
    split at h
    case isFalse =>
      cases h
      exact List.cons_ne_nil _ _
    case isTrue hle =>
      have hlast' : segments = [] → segment = [] := by
        rintro rfl
        simpa using hlast
      dsimp only at h
      split at h
      case isTrue hzero =>
        cases h
        intro hnil
        rw [hlast' hnil, List.length_nil] at hzero
        omega
      case isFalse hrest =>
        have hne : segments ≠ [] := by
          rintro rfl
          cases h
        have hsome := List.getLast?_eq_some_getLast hne
        rw [hsome, Option.getD_some] at hlast
        exact ih (hlast ▸ hsome) (Nat.pos_of_ne_zero hrest) h

-- The call for nothing but empty segments takes nothing over.
theorem write_throws_accepting (hne : segments ≠ []) (hempty : segments.flatten = []) : ∃ g,
    (write .accepting segments).run f = .error prematureEof g := by
  have hcall : OperatingSystem.accepting f.transfers.length segments.flatten.length = .bytes 0 := by
    rw [hempty]
    rfl
  exact ⟨_, write_run_zero hne hcall⟩

theorem write_throws_of_getLast? (hlast : segments.getLast? = some []) : ∃ g,
    (write .accepting segments).run f = .error prematureEof g := by
  by_cases hempty : segments.flatten = []
  case pos =>
    refine write_throws_accepting ?_ hempty
    rintro rfl
    exact nomatch hlast
  case neg =>
    have hpos : 0 < segments.flatten.length := List.length_pos_iff.mpr hempty
    obtain ⟨later, hlater, hflatten, hrun⟩ := write_run_accepting (f := f) hpos
    rw [hrun]
    exact write_throws_accepting (advance_getLast? hlast hpos hlater) hflatten

end PosixVectorIoFile

namespace FallbackVectorIoFile

variable {f : FallbackVectorIoFile}

theorem repeats_accepting {call : ℕ} {data : Bytes} :
    Repeats data 0 (counts .accepting call data.length) := by
  by_cases hpos : 0 < data.length
  case pos =>
    rw [counts_of_pos StandardLibrary.accepting_lawful hpos]
    simp [StandardLibrary.accepting, counts_zero, Repeats]
  case neg =>
    rw [Nat.eq_zero_of_not_pos hpos, counts_zero]
    trivial

theorem allRepeat_accepting {call : ℕ} : AllRepeat .accepting call segments := by
  induction segments generalizing call
  case nil               => trivial
  case cons data args ih => exact ⟨repeats_accepting, ih⟩

theorem Unflagged.write_run_accepting (h : f.Unflagged) (segments : List Bytes) : ∃ g,
    (write .accepting segments).run f = .ok () g ∧ g.bytes = f.bytes ++ segments.flatten := by
  obtain ⟨g, written, hrun, hbytes, -, hiff⟩ :=
    h.write_run StandardLibrary.accepting_lawful segments
  exact ⟨g, hrun, by rw [hbytes, hiff.mpr allRepeat_accepting]⟩

end FallbackVectorIoFile

-- The two agree on a list of segments if and only if the last one is not empty.
theorem VectorIoFile.write_agrees_iff {f : PosixVectorIoFile} {f' : FallbackVectorIoFile}
    (hflags : f'.Unflagged) (hne : segments ≠ []) :
    (∃ g g' written, (PosixVectorIoFile.write .accepting segments).run f = .ok () g ∧
      (FallbackVectorIoFile.write .accepting segments).run f' = .ok () g' ∧
      g.bytes = f.bytes ++ written ∧ g'.bytes = f'.bytes ++ written) ↔
      segments.getLast hne ≠ [] := by
  have hsome := List.getLast?_eq_some_getLast hne
  constructor
  case mp =>
    rintro ⟨g, _, _, hrun, -⟩ hlast
    rw [hlast] at hsome
    obtain ⟨g', hthrows⟩ := PosixVectorIoFile.write_throws_of_getLast? (f := f) hsome
    rw [hrun] at hthrows
    cases hthrows
  case mpr =>
    intro hlast
    have hended : PosixVectorIoFile.Ended segments := by
      intro segment hsegment
      rw [hsome, Option.mem_some] at hsegment
      exact hsegment ▸ hlast
    obtain ⟨g, hrun, hbytes⟩ := hended.write_run_accepting (f := f)
    obtain ⟨g', hrun', hbytes'⟩ := hflags.write_run_accepting segments
    exact ⟨g, g', segments.flatten, hrun, hrun', hbytes, hbytes'⟩

theorem VectorIoFile.write_agrees_iff_empty_inside :
    let segments : List Bytes := [[], [1, 2], [], [3]]
    (∃ g g' written, (PosixVectorIoFile.write .accepting segments).run {} = .ok () g ∧
      (FallbackVectorIoFile.write .accepting segments).run {} = .ok () g' ∧
      g.bytes = written ∧ g'.bytes = written) ↔ segments.getLast (by decide) ≠ [] := by
  intro segments
  have hflags : FallbackVectorIoFile.Unflagged {} := ⟨rfl, rfl⟩
  exact write_agrees_iff (f := {}) hflags (by decide)

-- All bytes were written, but one of the two reports the end of the file.
theorem VectorIoFile.not_agrees_empty_last :
    let segments : List Bytes := [[1, 2], []]
    (∃ g, (FallbackVectorIoFile.write .accepting segments).run {} = .ok () g ∧ g.bytes = [1, 2]) ∧
      ((PosixVectorIoFile.write .accepting segments).run {}).state.bytes = [1, 2] ∧
      ¬((PosixVectorIoFile.write .accepting segments).run {}).Returns := by
  intro segments
  refine ⟨FallbackVectorIoFile.Unflagged.write_run_accepting (f := {}) ⟨rfl, rfl⟩ segments, ?_, ?_⟩
  case refine_1 => decide +kernel
  case refine_2 => decide +kernel

end Sie
