import OpenDaqModules.Recorder.Growth

namespace AdvancedRecorder.AdvancedRecorderImpl

open Sie EStateM

-- A file whose first block says what an SIE file looks like.
def StartsWithPreamble (f : File) : Prop :=
  ∀ x ∈ (decodedBlocks f.bytes).head?, x.2.group = groups.METADATA ∧ PREAMBLE <+: x.2.payload

theorem PREAMBLE_prefix : PREAMBLE <+: preamble :=
  List.prefix_append _ _

theorem preambleBlock_size : preambleBlock.size < 2 ^ 32 := by
  decide +kernel

variable {f : File} [Crc32]

-- A recorder writes the preamble before anything else.
def Initialized (f : File) : Prop :=
  ∃ outcome, [⟨preambleBlock.encode, outcome⟩] <+: f.writes

theorem decodedBlocks_of_starts (h : preambleBlock.encode <+: bs) :
    (decodedBlocks bs).head? = some (0, preambleBlock) := by
  obtain ⟨rest, rfl⟩ := h
  have hfits : preambleBlock.stored.Fits := preambleBlock_size
  have hhead := blockFraming_lawful.decode_write_append hfits rest
  rw [blockFraming_write, Block.toBytes_stored] at hhead
  have ⟨bs, hbs⟩ := List.head?_eq_some_iff.mp hhead
  rw [decodedBlocks, decodeBlocks_eq, hbs, Framing.placed_cons, List.map_cons, List.head?_cons]
  rfl

theorem Initialized.startsWithPreamble (h : Initialized f)
    (hfirst : (∀ v ∈ f.writes.head?, v.Complete) ∨ f.bytes = []) : StartsWithPreamble f := by
  obtain ⟨outcome, writes, hwrites⟩ := h
  intro x hx
  cases hfirst
  case inr hempty =>
    rw [hempty] at hx
    exact nomatch hx
  case inl hcomplete =>
    have hfirst : Write.Complete ⟨preambleBlock.encode, outcome⟩ := hcomplete _ (by simp [← hwrites])
    have hbytes : preambleBlock.encode <+: f.bytes := by
      rw [File.bytes, ← hwrites, List.flatMap_append, List.flatMap_singleton, hfirst.accepted_eq]
      exact List.prefix_append _ _
    rw [decodedBlocks_of_starts hbytes] at hx
    cases hx
    exact ⟨rfl, PREAMBLE_prefix⟩

variable [Host] {disk : ℕ → OpenOutcome} {events : List Event}

theorem initialized_reached : ∀ w ∈ (reached disk events).writers, Initialized w.file := by
  refine writers_reached (P := fun w => Initialized w.file) (fun w hw => ?_) (fun w w' hg h => ?_)
  · obtain ⟨schedule, uuids, rfl⟩ := hw
    have hwrites := Writer.writeBlock_writes groups.METADATA [preamble] (newWriter schedule uuids)
    rw [List.flatten_singleton] at hwrites
    exact hwrites
  · exact h.imp fun _ h => h.trans hg.writes

-- As long as failed writes leave nothing behind, a file starts with the preamble if its first write
-- succeeds, or if no write to it does.
theorem startsWithPreamble_reached
    (hclean : ∀ w ∈ (reached disk events).writers, w.file.Clean)
    (hfirst : ∀ w ∈ (reached disk events).writers,
      (∀ v ∈ w.file.writes.head?, v.Complete) ∨ ∀ v ∈ w.file.writes, ¬v.Complete) :
    ∀ w ∈ (reached disk events).writers, StartsWithPreamble w.file := by
  intro w hw
  refine (initialized_reached w hw).startsWithPreamble ((hfirst w hw).imp_right fun hnone => ?_)
  exact List.flatMap_eq_nil_iff.mpr fun v hv => Write.accepted_eq_nil (hnone v hv) (hclean w hw v hv)

omit [Crc32] [Host] in
theorem startsWithPreamble_reached_one_file :
    let _ := Crc32.ieee
    let _ := Host.exact
    let disk (_ : ℕ) : OpenOutcome := .opened [] fun _ => []
    ∀ w ∈ (reached disk [.startRecording, .stopRecording]).writers, StartsWithPreamble w.file := by
  intro _ _ disk
  have hcomplete : ∀ w ∈ (reached disk [.startRecording, .stopRecording]).writers,
      ∀ v ∈ w.file.writes, v.Complete := by decide +kernel
  refine startsWithPreamble_reached (fun w hw v hv ht => ?_) (fun w hw => ?_)
  · exact ht.left (hcomplete w hw v hv)
  · exact .inl fun v hv => hcomplete w hw v (List.mem_of_mem_head? hv)

-- The preamble is lost, but the recorder goes on to write the index of the file.
omit [Crc32] [Host] in
theorem not_startsWithPreamble_first_write_fails :
    let _ := Crc32.ieee
    let _ := Host.exact
    let disk (_ : ℕ) : OpenOutcome := .opened [.fails 0] fun _ => []
    let r := reached disk [.startRecording, .stopRecording]
    (∀ w ∈ r.writers, w.file.Clean) ∧ ¬∀ w ∈ r.writers, StartsWithPreamble w.file := by
  intro _ _ disk r
  refine ⟨?_, fun h => ?_⟩
  · change ∀ w ∈ r.writers, ∀ v ∈ w.file.writes, ¬v.Torn
    decide +kernel
  · revert h
    change ¬∀ w ∈ r.writers, ∀ x ∈ _, _
    decide +kernel

end AdvancedRecorder.AdvancedRecorderImpl
