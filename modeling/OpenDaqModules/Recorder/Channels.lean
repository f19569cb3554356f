import OpenDaqModules.Recorder.Packets
import OpenDaqModules.Recorder.Sie.Declarations

namespace AdvancedRecorder

open Sie Xml Declaration

variable {group decoderId channelId testId dimIndex : UInt32} [Host]

theorem timeDimension_dim {domainDescriptor : DataDescriptor} :
    Dim [decoderId.toNat] (timeDimension decoderId domainDescriptor) := by
  have hdim : Dim [decoderId.toNat] (dimension 0
      |>.addChild (tickResolutionToTransform domainDescriptor)
      |>.addChild (data decoderId 0)) := by
    refine (Dim.dimension.addChild branch_transform.wellFormed ?_).data decoderId 0
    exact show str "xform" ≠ str "data" by decide
  rw [timeDimension]
  cases domainDescriptor.unit
  case none      => exact hdim
  case some unit => exact hdim.units

namespace ScalarLinearSignalHandler

variable {start delta : Int64} {type : Bytes} {bits : UInt32}

theorem decoderElement_branch : Branch (decoderElement decoderId start delta type bits) := by
  refine .addChild (.addChild branch_decoder branch_read.wellFormed) (Branch.wellFormed ?_)
  refine .addChild (.addChild ?_ branch_read.wellFormed) branch_sample.wellFormed
  exact .addAttribute (.addAttribute (.addAttribute (.mk_name (by decide)) (by decide)) (by decide))
    (by decide)

theorem valueDimension_dim {valueDescriptor : DataDescriptor} :
    Dim [decoderId.toNat] (valueDimension decoderId valueDescriptor) := by
  have hdim : Dim [decoderId.toNat] ((dimension 1).addChild (data decoderId 1)) := by
    exact Dim.dimension.data decoderId 1
  rw [valueDimension]
  cases valueDescriptor.unit <;> cases valueDescriptor.valueRange
  case none.none => exact hdim
  case none.some => exact hdim.tag.tag
  case some.none => exact hdim.units
  case some.some => exact hdim.units.tag.tag

theorem built_of_elements {signal : Signal} {valueDescriptor domainDescriptor : Option DataDescriptor}
    (h : elements group decoderId channelId testId uuid signal valueDescriptor domainDescriptor =
      .ok es) : Built ⟨group.toNat, decoderId.toNat, channelId.toNat⟩ es := by
  simp only [elements, Except.bind_eq_ok] at h
  obtain ⟨_, _, _, _, _, _, _, _, value, _, domain, _, _, _, _, _, _, _, h⟩ := h
  cases h
  have htime : Dim [decoderId.toNat] (timeDimension decoderId domain) := timeDimension_dim
  have hvalue : Dim [decoderId.toNat] (valueDimension decoderId value) := valueDimension_dim
  refine .mk decoderElement_branch rfl (number?_of_attribute rfl rfl) ?_ ?_
  case refine_1 =>
    exact .dim (.dim (.tag <| .tag <| .tag <| .tag <| .tag <| .tag <| .tag <| .tag .channel) htime) hvalue
  case refine_2 =>
    rw [references_addChild, references_addChild, htime.referencesIn_eq]
    simp

end ScalarLinearSignalHandler

namespace CanSignalHandler

variable {field : StructField} {fields : List StructField}

omit [Host] in
theorem fieldDimension_dim : Dim [decoderId.toNat] (fieldDimension decoderId dimIndex field) :=
  Dim.dimension.tag.data decoderId dimIndex

theorem readField_wellFormed (h : readField dimIndex field = .ok e) : WellFormed e := by
  rw [readField] at h
  split at h
  case h_1 =>
    cases h
    exact branch_readRaw.wellFormed
  case h_2 =>
    obtain ⟨_, _, h⟩ := Except.bind_eq_ok.mp h
    cases h
    exact branch_read.wellFormed

theorem fieldElements_built {es : List (Element × Element)}
    (h : fieldElements decoderId dimIndex fields = .ok es) :
    (∀ e ∈ es.map Prod.fst, Dim [decoderId.toNat] e) ∧ ∀ e ∈ es.map Prod.snd, WellFormed e := by
  induction fields generalizing dimIndex es
  case nil =>
    cases h
    exact ⟨(fun _ h => nomatch h), fun _ h => nomatch h⟩
  case cons field fields ih =>
    simp only [fieldElements, Except.bind_eq_ok] at h
    obtain ⟨read, hread, later, hlater, h⟩ := h
    cases h
    have ⟨hdims, hreads⟩ := ih hlater
    constructor
    · exact List.forall_mem_cons.mpr ⟨fieldDimension_dim, hdims⟩
    · exact List.forall_mem_cons.mpr ⟨readField_wellFormed hread, hreads⟩

theorem loopElement_wellFormed {fields : List Element} (h : ∀ e ∈ fields, WellFormed e) :
    WellFormed (loopElement type bits fields) := by
  apply Branch.wellFormed
  refine .addChild (.addChild (.foldl_addChild (.addChild (.addChild ?_ ?_) ?_) h) ?_) ?_
  · exact .addAttribute (.addAttribute (.addAttribute (.mk_name (by decide))
      (by decide)) (by decide)) (by decide)
  · exact branch_read.wellFormed
  · exact branch_seek.wellFormed
  · exact branch_sample.wellFormed
  · exact branch_seek.wellFormed

theorem built_of_elements {valueDescriptor domainDescriptor : Option DataDescriptor}
    (h : elements group decoderId channelId testId valueDescriptor domainDescriptor = .ok es) :
    Built ⟨group.toNat, decoderId.toNat, channelId.toNat⟩ es := by
  simp only [elements, Except.bind_eq_ok] at h
  obtain ⟨domain, _, value, _, _, _, fields, hfields, h⟩ := h
  cases h
  have htime : Dim [decoderId.toNat] (timeDimension decoderId domain) := timeDimension_dim
  have ⟨hdims, hreads⟩ := fieldElements_built hfields
  refine .mk ?_ rfl (number?_of_attribute rfl rfl) ?_ ?_
  case refine_1 =>
    exact .addChild (.addChild branch_decoder branch_read.wellFormed) (loopElement_wellFormed hreads)
  case refine_2 => exact .dims (.dim (.tag <| .tag <| .tag <| .tag .channel) htime) hdims
  case refine_3 =>
    rw [references_foldl_addChild, references_addChild, htime.referencesIn_eq]
    simp

end CanSignalHandler

-- What the elements of a handler declare is the channel with the identifiers it was given.
theorem HandlerKind.built_of_elements {kind : HandlerKind} {signal : Signal}
    {valueDescriptor domainDescriptor : Option DataDescriptor}
    (h : kind.elements group decoderId channelId testId uuid signal valueDescriptor domainDescriptor =
      .ok es) : Built ⟨group.toNat, decoderId.toNat, channelId.toNat⟩ es := by
  cases kind
  case scalarLinear => exact ScalarLinearSignalHandler.built_of_elements h
  case can          => exact CanSignalHandler.built_of_elements h

end AdvancedRecorder
