import OpenDaqModules.Recorder.Sie.BlockWriter
import OpenDaqModules.Recorder.Sie.XmlReader

-- What the metadata of a file says about its groups.
namespace Sie

namespace Xml.Element

def number? (e : Element) (id : Bytes) : Option ℕ :=
  (e.attributes.find? (·.id = id)).map fun a => Decimal.toNat a.value

def childrenNamed (e : Element) (name : Bytes) : List Element :=
  e.children.filter (·.name = name)

end Xml.Element

open Xml

-- A channel whose data is in the blocks of the group, together with the decoder for them.
structure Declaration where
  group   : ℕ
  decoder : ℕ
  channel : ℕ
  deriving DecidableEq, Repr

namespace Declaration

-- The decoders that the data of a dimension refer to.
def dimensionReferences (dim : Element) : List ℕ :=
  (dim.childrenNamed (str "data")).filterMap (·.number? (str "decoder"))

def references (channel : Element) : List ℕ :=
  (channel.childrenNamed (str "dim")).flatMap dimensionReferences

-- The declaration of a channel is complete if all its dimensions use the same decoder.
def ofElements (decoder channel : Element) : Option Declaration := do
  let declaration : Declaration := {
    group   := ← channel.number? (str "group")
    decoder := ← decoder.number? (str "id")
    channel := ← channel.number? (str "id") }
  if references channel ≠ [] ∧ ∀ id ∈ references channel, id = declaration.decoder then
    return declaration
  else none

-- All channels that are declared together with their decoders.
def all (es : List Element) : List Declaration :=
  (es.filter (·.name = str "test")).flatMap fun test =>
    (test.childrenNamed (str "ch")).flatMap fun channel =>
      (es.filter (·.name = str "decoder")).filterMap (ofElements · channel)

end Declaration

namespace Block

-- The first metadata of a file follows the text that all files have in common.
def declarations (b : Block) : List Declaration :=
  if b.group = groups.METADATA then
    let xml := if PREAMBLE.isPrefixOf b.payload then b.payload.drop PREAMBLE.length else b.payload
    (parse xml).elim [] Declaration.all
  else []

def Declares (group : UInt32) (b : Block) : Prop :=
  ∃ d ∈ b.declarations, d.group = group.toNat

instance {group : UInt32} : DecidablePred (Declares group) :=
  fun b => inferInstanceAs (Decidable (∃ d ∈ b.declarations, d.group = group.toNat))

theorem declarations_of_ne {b : Block} (h : b.group ≠ groups.METADATA) : b.declarations = [] :=
  if_neg h

end Block

namespace Xml

namespace Element

variable {e c : Element}

@[simp]
theorem addChild_name : (e.addChild c).name = e.name :=
  rfl

theorem foldl_addChild {es : List Element} :
    es.foldl addChild e = { e with children := e.children ++ es } := by
  induction es generalizing e
  case nil =>
    cases e
    rw [List.foldl_nil, List.append_nil]
  case cons c es ih => simp [ih, addChild]

end Element

theorem WellFormed.setContent (h : WellFormed e) (hchildren : e.children = []) (content : Bytes) :
    WellFormed (e.setContent content) := by
  cases h
  case mk hname hids _ hc => exact .mk hname hids (.inr hchildren) hc

-- A well-formed element that has no text, so it may get children.
structure Branch (e : Element) : Prop where
  wellFormed : WellFormed e
  content    : e.content = []

namespace Branch

variable {e c : Element} {es : List Element} {name id value : Bytes}

theorem mk_name (h : ValidName name) : Branch { name } :=
  ⟨.mk h (fun _ h => nomatch h) (.inl rfl) (fun _ h => nomatch h), rfl⟩

theorem addAttribute (h : Branch e) (hid : ValidName id) : Branch (e.addAttribute id value) := by
  obtain ⟨⟨hname, hids, _, hchildren⟩, hcontent⟩ := h
  refine ⟨.mk hname (fun a ha => ?_) (.inl hcontent) hchildren, hcontent⟩
  cases List.mem_append.mp ha
  case inl ha => exact hids a ha
  case inr ha =>
    cases List.mem_singleton.mp ha
    exact hid

theorem addChild (h : Branch e) (hc : WellFormed c) : Branch (e.addChild c) := by
  obtain ⟨⟨hname, hids, _, hchildren⟩, hcontent⟩ := h
  refine ⟨.mk hname hids (.inl hcontent) (fun c' hc' => ?_), hcontent⟩
  cases List.mem_append.mp hc'
  case inl hc' => exact hchildren c' hc'
  case inr hc' =>
    cases List.mem_singleton.mp hc'
    exact hc

theorem foldl_addChild (h : Branch e) (hes : ∀ c ∈ es, WellFormed c) :
    Branch (es.foldl Element.addChild e) := by
  induction es generalizing e
  case nil          => exact h
  case cons c es ih =>
    have hc := hes c List.mem_cons_self
    exact ih (h.addChild hc) fun c hc => hes c (List.mem_cons_of_mem _ hc)

end Branch
end Xml

-- The elements that the recorder builds are well-formed, whatever texts they are built with.
section Elements

variable {group decoderId variableId id : UInt32} {octets : UInt64} {name value var type offset origin : Bytes}
  {bits : UInt32}

theorem branch_channel : Branch (channel id group name) :=
  .addAttribute (.addAttribute (.addAttribute (.mk_name (by decide)) (by decide)) (by decide)) (by decide)

theorem branch_data : Branch (data decoderId variableId) :=
  .addAttribute (.addAttribute (.mk_name (by decide)) (by decide)) (by decide)

theorem branch_decoder : Branch (decoder id) :=
  .addAttribute (.mk_name (by decide)) (by decide)

theorem branch_dimension : Branch (dimension id) :=
  .addAttribute (.mk_name (by decide)) (by decide)

theorem branch_test : Branch (test id) :=
  .addAttribute (.mk_name (by decide)) (by decide)

theorem branch_sample : Branch sample :=
  .mk_name (by decide)

theorem branch_seek : Branch (seek origin offset) :=
  .addAttribute (.addAttribute (.mk_name (by decide)) (by decide)) (by decide)

theorem branch_readRaw : Branch (readRaw var octets) :=
  .addAttribute (.addAttribute (.addAttribute (.mk_name (by decide)) (by decide)) (by decide)) (by decide)

theorem wellFormed_tag : WellFormed (tag id' value) := by
  have h : Branch (Element.addAttribute { name := str "tag" } (str "id") id') := by
    exact .addAttribute (.mk_name (by decide)) (by decide)
  exact h.wellFormed.setContent rfl value

theorem wellFormed_units : WellFormed (units name) :=
  (Branch.mk_name (by decide)).wellFormed.setContent rfl name

variable [Host]

theorem branch_read : Branch (read var type bits) :=
  .addAttribute (.addAttribute (.addAttribute (.addAttribute (.mk_name (by decide))
    (by decide)) (by decide)) (by decide)) (by decide)

theorem branch_transform {scale offset : Host.Double} : Branch (transform scale offset) :=
  .addAttribute (.addAttribute (.mk_name (by decide)) (by decide)) (by decide)

end Elements
namespace Declaration

-- What a child of a channel contributes to its references.
def referencesIn (child : Element) : List ℕ :=
  if child.name = str "dim" then dimensionReferences child else []

variable {e c : Element} {es : List Element}

theorem references_eq : references e = e.children.flatMap referencesIn := by
  rw [references, Element.childrenNamed]
  induction e.children
  case nil          => rfl
  case cons c cs ih =>
    by_cases hc : c.name = str "dim" <;> simp [referencesIn, hc, ih]

theorem references_addChild : references (e.addChild c) = references e ++ referencesIn c := by
  simp [references_eq, Element.addChild]

theorem references_foldl_addChild :
    references (es.foldl Element.addChild e) = references e ++ es.flatMap referencesIn := by
  induction es generalizing e
  case nil          => simp
  case cons c es ih => simp [ih, references_addChild]

theorem number?_of_attribute {n : ℕ} {id : Bytes} {a : Attribute}
    (h : e.attributes.find? (·.id = id) = some a) (ha : a.value = Decimal.ofNat n) :
    e.number? id = some n := by
  rw [Element.number?, h, Option.map_some, ha, Decimal.toNat_ofNat]

variable {d : Declaration}

-- A dimension, with all decoders that its data refer to.
structure Dim (ids : List ℕ) (e : Element) : Prop where
  branch     : Branch e
  name       : e.name = str "dim"
  references : dimensionReferences e = ids

namespace Dim

variable {ids : List ℕ}

theorem dimension {id : UInt32} : Dim [] (Sie.dimension id) :=
  ⟨branch_dimension, rfl, rfl⟩

theorem addChild (h : Dim ids e) (hc : WellFormed c) (hname : c.name ≠ str "data") :
    Dim ids (e.addChild c) where
  branch     := h.branch.addChild hc
  name       := h.name
  references := by
    simpa [dimensionReferences, Element.childrenNamed, Element.addChild, hname] using h.references

theorem tag (h : Dim ids e) {id value : Bytes} : Dim ids (e.addChild (tag id value)) :=
  h.addChild wellFormed_tag (show str "tag" ≠ str "data" by decide)

theorem units (h : Dim ids e) {name : Bytes} : Dim ids (e.addChild (units name)) :=
  h.addChild wellFormed_units (show str "units" ≠ str "data" by decide)

theorem data (h : Dim ids e) (decoderId variableId : UInt32) :
    Dim (ids ++ [decoderId.toNat]) (e.addChild (data decoderId variableId)) where
  branch     := h.branch.addChild branch_data.wellFormed
  name       := h.name
  references := by
    have hid : (Sie.data decoderId variableId).number? (str "decoder") = some decoderId.toNat := by
      exact number?_of_attribute rfl rfl
    have hname : (Sie.data decoderId variableId).name = str "data" := rfl
    simp only [dimensionReferences, Element.childrenNamed, Element.addChild] at h ⊢
    simp [← h.references, dimensionReferences, Element.childrenNamed, hid, hname]

theorem referencesIn_eq (h : Dim ids e) : referencesIn e = ids := by
  rw [referencesIn, if_pos h.name, h.references]

end Dim

-- A channel of the group whose dimensions refer to the decoder.
structure Channel (d : Declaration) (e : Element) : Prop where
  branch     : Branch e
  name       : e.name = str "ch"
  group      : e.number? (str "group") = some d.group
  id         : e.number? (str "id") = some d.channel
  references : ∀ id ∈ references e, id = d.decoder

namespace Channel

theorem channel {id group decoderId : UInt32} {name : Bytes} :
    Channel ⟨group.toNat, decoderId.toNat, id.toNat⟩ (Sie.channel id group name) where
  branch     := branch_channel
  name       := rfl
  group      := number?_of_attribute rfl rfl
  id         := number?_of_attribute rfl rfl
  references := fun _ h => nomatch h

theorem addChild (h : Channel d e) (hc : WellFormed c) (hreferences : ∀ id ∈ referencesIn c, id = d.decoder) :
    Channel d (e.addChild c) where
  branch     := h.branch.addChild hc
  name       := h.name
  group      := h.group
  id         := h.id
  references := by
    rw [references_addChild]
    intro id hid
    exact (List.mem_append.mp hid).elim (h.references id) (hreferences id)

theorem tag (h : Channel d e) {id value : Bytes} : Channel d (e.addChild (tag id value)) :=
  h.addChild wellFormed_tag fun _ h => nomatch h

theorem dim (h : Channel d e) (hc : Dim [d.decoder] c) : Channel d (e.addChild c) := by
  apply h.addChild hc.branch.wellFormed
  intro id hid
  rw [hc.referencesIn_eq] at hid
  exact List.mem_singleton.mp hid

theorem dims (h : Channel d e) (hes : ∀ c ∈ es, Dim [d.decoder] c) :
    Channel d (es.foldl Element.addChild e) := by
  induction es generalizing e
  case nil          => exact h
  case cons c es ih =>
    have hc := hes c List.mem_cons_self
    exact ih (h.dim hc) fun c hc => hes c (List.mem_cons_of_mem _ hc)

end Channel

-- A decoder and a test with a channel that refers to it are what a handler builds.
inductive Built (d : Declaration) : List Element → Prop
  | mk {dec ch : Element} {testId : UInt32} (branch : Branch dec) (name : dec.name = str "decoder")
    (id : dec.number? (str "id") = some d.decoder) (channel : Channel d ch)
    (referring : references ch ≠ []) : Built d [dec, (test testId).addChild ch]

theorem Built.wellFormed (h : Built d es) : ∀ e ∈ es, WellFormed e := by
  cases h
  case mk dec ch testId hdec _ _ hch _ =>
    have htest : WellFormed ((test testId).addChild ch) := by
      exact (branch_test.addChild hch.branch.wellFormed).wellFormed
    simpa using ⟨hdec.wellFormed, htest⟩

theorem Built.all_eq (h : Built d es) : all es = [d] := by
  cases h
  case mk dec ch testId _ hname hid hch hne =>
    have hof : ofElements dec ch = some d := by
      simp only [ofElements, hch.group, hch.id, hid, Option.bind_eq_bind, Option.bind_some]
      exact if_pos ⟨hne, hch.references⟩
    have hne' : str "decoder" ≠ str "test" := by decide
    have htest : (test testId).name = str "test" := rfl
    have hchildren : ((test testId).addChild ch).childrenNamed (str "ch") = [ch] := by
      simp [Element.childrenNamed, Element.addChild, test, Element.addAttribute, hch.name]
    simp [all, hname, hne', htest, hne'.symm, hchildren, hof]

end Declaration

-- What was built to declare a channel is read as its declaration.
theorem Declaration.Built.declarations_eq {d : Declaration} {es : List Element} (h : Built d es) :
    Block.declarations ⟨groups.METADATA, Element.serializeAll 1 es⟩ = [d] := by
  have hspace : PREAMBLE.isPrefixOf (Element.serializeAll 1 es) = false := by
    cases es
    case nil       => rfl
    case cons e es =>
      obtain ⟨name, attributes, children, content⟩ := e
      rw [Element.serializeAll, Element.serialize]
      rfl
  rw [Block.declarations, if_pos rfl]
  simp only [hspace, Bool.false_eq_true, if_false, parse_serializeAll h.wellFormed,
    Option.elim_some, h.all_eq]

end Sie
