import OpenDaqModules.Recorder.Sie.BlockLog
import OpenDaqModules.Recorder.Sie.Declarations
import OpenDaqModules.Recorder.Sie.DecoderElement

-- A reader of whole files. It takes from the metadata how the data of a channel are decoded.
namespace Sie

open Xml

-- A channel with its decoder. Each dimension of a sample is one of the decoder's variables.
structure ChannelReader where
  declaration : Declaration
  name        : Bytes
  vars        : List String
  decoder     : Decoder

-- What a block of data says about a channel: the values of the dimensions, sample by sample.
structure Reading where
  group   : ℕ
  name    : Bytes
  samples : List (List (Option Decoder.Value))
  deriving DecidableEq

def Reading.content (r : Reading) : Bytes × List (List (Option Decoder.Value)) :=
  (r.name, r.samples)

namespace ChannelReader

-- The variable that a dimension refers to by its number.
def varOf (dim : Element) : Option String := do
  let data ← (dim.childrenNamed (str "data")).head?
  return Decoder.text (str "v" ++ (← data.attribute? (str "v")))

def varsOf (channel : Element) : List String :=
  (channel.childrenNamed (str "dim")).filterMap varOf

def ofElements (decoder channel : Element) : Option ChannelReader := do
  return {
    declaration := ← Declaration.ofElements decoder channel
    name        := ← channel.attribute? (str "name")
    vars        := varsOf channel
    decoder     := ← Decoder.ofElement decoder }

-- The channels that are declared together with their decoders.
def all (es : List Element) : List ChannelReader :=
  (es.filter (·.name = str "test")).flatMap fun test =>
    (test.childrenNamed (str "ch")).flatMap fun channel =>
      (es.filter (·.name = str "decoder")).filterMap (ofElements · channel)

def read (c : ChannelReader) (payload : Bytes) : Reading where
  group   := c.declaration.group
  name    := c.name
  samples := (c.decoder.samples payload).map fun env => c.vars.map fun x => env.lookup x

end ChannelReader

-- The first metadata of a file follows the text that all files have in common.
def Block.channelReaders (b : Block) : List ChannelReader :=
  if b.group = groups.METADATA then
    let xml := if PREAMBLE.isPrefixOf b.payload then b.payload.drop PREAMBLE.length else b.payload
    (parse xml).elim [] ChannelReader.all
  else []

-- Every block is read by the channels of its group that were declared before it.
def readBlocks : List ChannelReader → List Block → List Reading
  | _, []          => []
  | known, b :: bs =>
    (known.filter (·.declaration.group = b.group.toNat)).map (·.read b.payload) ++
      readBlocks (known ++ b.channelReaders) bs

-- The checksum of the block is the one of its header and its payload.
def StoredBlock.Intact [Crc32] (b : StoredBlock) : Prop :=
  b.toBlock.stored = b

instance [Crc32] : DecidablePred StoredBlock.Intact :=
  fun b => inferInstanceAs (Decidable (b.toBlock.stored = b))

def readFile [Crc32] (bs : Bytes) : List Reading :=
  readBlocks [] (((decodeBlocks bs).filter (·.Intact)).map StoredBlock.toBlock)

namespace ChannelReader

variable {c : ChannelReader} {e child decoder channel : Element} {es : List Element} {b : Block}

theorem declaration_ofElements (h : ofElements decoder channel = some c) :
    Declaration.ofElements decoder channel = some c.declaration := by
  simp only [ofElements, Option.bind_eq_bind, Option.bind_eq_some_iff] at h
  obtain ⟨d, hd, _, _, _, _, h⟩ := h
  cases h
  exact hd

theorem declaration_mem_all (h : c ∈ all es) : c.declaration ∈ Declaration.all es := by
  simp only [all, List.mem_flatMap, List.mem_filterMap] at h
  obtain ⟨test, htest, channel, hchannel, decoder, hdecoder, hc⟩ := h
  simp only [Declaration.all, List.mem_flatMap, List.mem_filterMap]
  exact ⟨test, htest, channel, hchannel, decoder, hdecoder, declaration_ofElements hc⟩

-- What a child of a channel contributes to its variables.
def varsIn (child : Element) : List String :=
  if child.name = str "dim" then (varOf child).toList else []

theorem varsIn_of_data {decoderId variableId : UInt32} (hname : e.name = str "dim")
    (hdata : e.childrenNamed (str "data") = [data decoderId variableId]) :
    varsIn e = [Decoder.text (str "v" ++ Decimal.ofNat variableId.toNat)] := by
  have hv : (data decoderId variableId).attribute? (str "v") = some (Decimal.ofNat variableId.toNat) := by
    rfl
  simp [varsIn, hname, varOf, hdata, hv]

theorem varsOf_eq : varsOf e = e.children.flatMap varsIn := by
  rw [varsOf, Element.childrenNamed]
  induction e.children
  case nil          => rfl
  case cons c cs ih =>
    by_cases hc : c.name = str "dim"
    case neg => simp [varsIn, hc, ih]
    case pos => cases hv : varOf c <;> simp [varsIn, hc, hv, ih]

theorem varsOf_addChild : varsOf (e.addChild child) = varsOf e ++ varsIn child := by
  simp [varsOf_eq, Element.addChild]

theorem varsOf_foldl_addChild :
    varsOf (es.foldl Element.addChild e) = varsOf e ++ es.flatMap varsIn := by
  simp [varsOf_eq, Element.foldl_addChild]

end ChannelReader

open ChannelReader

namespace Block

variable {b : Block} {c : ChannelReader}

theorem declaration_mem_declarations (h : c ∈ b.channelReaders) : c.declaration ∈ b.declarations := by
  rw [channelReaders] at h
  split at h
  case isFalse        => cases h
  case isTrue hgroup =>
    rw [declarations, if_pos hgroup]
    dsimp only at h ⊢
    generalize parse _ = parsed at h ⊢
    cases parsed
    case none    => cases h
    case some es => exact declaration_mem_all h

end Block

section

variable {d : Declaration} {dec ch : Element} {testId : UInt32}

-- A decoder and a test with one channel declare this channel.
theorem Declaration.all_pair (hdec : dec.name = str "decoder") (hch : ch.name = str "ch") :
    Declaration.all [dec, (test testId).addChild ch] = (Declaration.ofElements dec ch).toList := by
  have hne : str "decoder" ≠ str "test" := by decide
  have htest : (test testId).name = str "test" := rfl
  have hchildren : ((test testId).addChild ch).childrenNamed (str "ch") = [ch] := by
    simp [Element.childrenNamed, Element.addChild, test, Element.addAttribute, hch]
  cases h : Declaration.ofElements dec ch <;>
    simp [Declaration.all, hdec, hne, htest, hne.symm, hchildren, h]

theorem Declaration.Built.ofElements_eq (h : Built d [dec, (test testId).addChild ch])
    (hdec : dec.name = str "decoder") (hch : ch.name = str "ch") :
    Declaration.ofElements dec ch = some d := by
  have hall := h.all_eq
  rw [Declaration.all_pair hdec hch] at hall
  exact Option.toList_eq_singleton_iff.mp hall

theorem Block.channelReaders_eq (h : Declaration.Built d [dec, (test testId).addChild ch])
    (hdec : dec.name = str "decoder") (hch : ch.name = str "ch") :
    channelReaders ⟨groups.METADATA, Element.serializeAll 1 [dec, (test testId).addChild ch]⟩ =
      (ChannelReader.ofElements dec ch).toList := by
  have hpreamble : PREAMBLE.isPrefixOf (Element.serializeAll 1 [dec, (test testId).addChild ch]) =
      false := by
    obtain ⟨name, attributes, children, content⟩ := dec
    rw [Element.serializeAll, Element.serialize]
    rfl
  have hne : str "decoder" ≠ str "test" := by decide
  have htest : (test testId).name = str "test" := rfl
  have hchildren : ((test testId).addChild ch).childrenNamed (str "ch") = [ch] := by
    simp [Element.childrenNamed, Element.addChild, test, Element.addAttribute, hch]
  rw [channelReaders, if_pos rfl]
  simp only [hpreamble, Bool.false_eq_true, if_false, parse_serializeAll h.wellFormed, Option.elim_some]
  cases hc : ChannelReader.ofElements dec ch <;>
    simp [ChannelReader.all, hdec, hne, htest, hne.symm, hchildren, hc]

-- What was built to declare a channel is read as this channel.
theorem Declaration.Built.channelReaders_eq {name : Bytes} {decoding : Decoder}
    (h : Built d [dec, (test testId).addChild ch]) (hdec : dec.name = str "decoder")
    (hch : ch.name = str "ch") (hname : ch.attribute? (str "name") = some name)
    (hdecoder : Decoder.ofElement dec = some decoding) :
    Block.channelReaders ⟨groups.METADATA, Element.serializeAll 1 [dec, (test testId).addChild ch]⟩ =
      [{ declaration := d, name, vars := varsOf ch, decoder := decoding }] := by
  rw [Block.channelReaders_eq h hdec hch, ChannelReader.ofElements, h.ofElements_eq hdec hch]
  simp [hname, hdecoder]

end

variable {known : List ChannelReader} {bs bs' : List Block}

theorem readBlocks_append : readBlocks known (bs ++ bs') =
    readBlocks known bs ++ readBlocks (known ++ bs.flatMap Block.channelReaders) bs' := by
  induction bs generalizing known
  case nil          => simp [readBlocks]
  case cons b bs ih => simp [readBlocks, ih]

namespace File

variable [Crc32] {f : File}

theorem intact_stored {b : Block} : b.stored.Intact :=
  rfl

theorem filter_intact {bs : List Block} :
    (bs.map Block.stored).filter (·.Intact) = bs.map Block.stored := by
  apply List.filter_eq_self.mpr
  intro b hb
  obtain ⟨b, _, rfl⟩ := List.mem_map.mp hb
  exact decide_eq_true intact_stored

theorem map_toBlock_stored {bs : List Block} : (bs.map Block.stored).map StoredBlock.toBlock = bs := by
  rw [List.map_map]
  exact List.map_id _

theorem readFile_bytes (he : f.Encoded) (hc : f.Clean) (hsize : ∀ x ∈ f.blocks, x.2.size < 2 ^ 32) :
    readFile f.bytes = readBlocks [] (f.blocks.map Prod.snd) := by
  have hblocks : f.blocks.map (fun x => x.2.stored) = (f.blocks.map Prod.snd).map Block.stored := by
    rw [List.map_map]
    rfl
  rw [readFile, decodeBlocks_bytes he hc hsize, hblocks, filter_intact, map_toBlock_stored]

end File
end Sie
