import OpenDaqModules.Recorder.Sie.BlockStream
import OpenDaqModules.Recorder.Sie.Declarations
import OpenDaqModules.Recorder.Sie.DecoderElement
import OpenDaqModules.Recorder.Sie.IndexBlock

-- The decoders that all files have in common.
namespace Sie

open Xml

namespace Xml

-- A text without its comments and processing instructions. Inside of one, what closes it is known,
-- and what has been seen of it.
def uncommented : Option (Bytes × Bytes) → Bytes → Bytes
  | _, []                         => []
  | none, ch :: s                 =>
    if (str "<!--").isPrefixOf (ch :: s) then uncommented (some (str "-->", [])) s
    else if (str "<?").isPrefixOf (ch :: s) then uncommented (some (str "?>", [])) s
    else ch :: uncommented none s
  | some (closing, seen), ch :: s =>
    if closing.isSuffixOf (seen ++ [ch]) then uncommented none s
    else uncommented (some (closing, seen ++ [ch])) s

def Mode.isContent : Mode → Bool
  | .content => true
  | _        => false

theorem Mode.eq_content {mode : Mode} (h : mode.isContent) : mode = .content := by
  cases mode
  case content => rfl
  all_goals cases h

end Xml

-- The decoders among some elements, each with its number.
def Decoder.all (es : List Element) : List (Option ℕ × Option Decoder) :=
  (es.filter (·.name = str "decoder")).map fun e => (e.number? (str "id"), Decoder.ofElement e)

theorem Decoder.all_append {es es' : List Element} : all (es ++ es') = all es ++ all es' := by
  rw [all, List.filter_append, List.map_append]
  rfl

def standardDecoders : List (Option ℕ × Option Decoder) :=
  [(some 0, some streamDecoder), (some 1, some indexDecoder)]

-- A reader of the preamble is in an element that contains these decoders.
structure Standard (r : Reader) (sie : Element) : Prop where
  opened   : r.opened = [sie]
  roots    : r.roots = []
  mode     : r.mode = .content
  text     : Blank r.text
  name     : sie.name = str "sie"
  decoders : Decoder.all sie.children = standardDecoders

theorem run_PREAMBLE :
    ∃ r sie, Reader.run {} (uncommented none PREAMBLE) = some r ∧ Standard r sie := by
  have helements : (Reader.run {} (uncommented none PREAMBLE)).map (fun r =>
      r.opened.map fun e => (e.name, Decoder.all e.children)) =
        some [(str "sie", standardDecoders)] := by decide +kernel
  have hreader : (Reader.run {} (uncommented none PREAMBLE)).map (fun r =>
      (r.roots.length, r.mode.isContent, decide (Blank r.text))) = some (0, true, true) := by
    decide +kernel
  obtain ⟨r, hr, hopened⟩ := Option.map_eq_some_iff.mp helements
  obtain ⟨sie, hsie, h⟩ := List.map_eq_singleton_iff.mp hopened
  obtain ⟨hname, hdecoders⟩ := Prod.mk.inj h
  rw [hr, Option.map_some] at hreader
  simp only [Option.some.injEq, Prod.mk.injEq, List.length_eq_zero_iff, decide_eq_true_eq] at hreader
  obtain ⟨hroots, hmode, htext⟩ := hreader
  exact ⟨r, sie, hr, hsie, hroots, Mode.eq_content hmode, htext, hname, hdecoders⟩

-- The metadata of a file is a document as soon as its root is closed, and its first two decoders are
-- those by which a reader finds the blocks of the file and the entries of its index.
theorem parse_metadata {xs : List (ℕ × Element)} (h : ∀ x ∈ xs, WellFormed x.2) :
    ∃ sie, parse (uncommented none PREAMBLE ++ xs.flatMap (fun x => x.2.serialize x.1) ++
        Element.closingTag { name := str "sie" }) = some [sie] ∧
      Decoder.all sie.children = standardDecoders ++ Decoder.all (xs.map Prod.snd) := by
  obtain ⟨r, sie, hrun, hstandard⟩ := run_PREAMBLE
  have hmode : (r.added (xs.map Prod.snd)).mode = .content := Reader.added_mode hstandard.mode
  have htext : Blank (r.added (xs.map Prod.snd)).text := Reader.added_blank hstandard.text
  obtain ⟨hopened, hroots⟩ := Reader.added_of_opened (xs.map Prod.snd) hstandard.opened
  have hchildren : sie.children ≠ [] := by
    intro hnil
    have hdecoders := hstandard.decoders
    rw [hnil] at hdecoders
    exact absurd hdecoders (by decide)
  let document : Element := { sie with children := sie.children ++ xs.map Prod.snd }
  have hclose : (r.added (xs.map Prod.snd)).closeElement (str "sie") =
      some { roots := [document] } := by
    have hdocument : document.children.isEmpty = false := by simp [document, hchildren]
    simp only [Reader.closeElement, hopened, hroots, hstandard.roots]
    rw [if_neg (not_not.mpr hstandard.name)]
    simp [document, hchildren, htext, Reader.add]
  refine ⟨document, ?_, ?_⟩
  case refine_1 =>
    have hname : ValidName (str "sie") := by decide
    have hrest : Reader.run r (xs.flatMap fun x => x.2.serialize x.1) = some (r.added (xs.map Prod.snd)) :=
      Reader.run_flatMap_serialize h hstandard.mode hstandard.text
    have hend : Reader.run { roots := [document] } (str "\n") =
        some { roots := [document], text := str "\n" } := rfl
    have hblank : Blank (str "\n") := by decide
    rw [parse, Reader.run_append, Reader.run_append, hrun, Option.bind_some, hrest, Option.bind_some,
      Reader.run_closingTag hname hmode, hclose, Option.bind_some, hend]
    simp [hblank]
  case refine_2 => rw [Decoder.all_append, hstandard.decoders]

end Sie
