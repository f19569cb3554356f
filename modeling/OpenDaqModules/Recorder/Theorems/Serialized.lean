import OpenDaqModules.Recorder.Sie.XmlReader

namespace Sie.Xml

-- All names in a tree of elements are valid.
inductive Named : Element → Prop
  | mk (name : ValidName e.name) (ids : ∀ a ∈ e.attributes, ValidName a.id)
    (children : ∀ c ∈ e.children, Named c) : Named e

-- No element of a tree has both text and children.
inductive Unmixed : Element → Prop
  | mk (content : e.content = [] ∨ e.children = []) (children : ∀ c ∈ e.children, Unmixed c) :
    Unmixed e

namespace Element

mutual

-- A tree without the children of those elements that also have text.
def shown : Element → Element
  | ⟨name, attributes, children, content⟩ =>
    { name, attributes, content, children := if content.isEmpty then shownAll children else [] }

def shownAll : List Element → List Element
  | []      => []
  | e :: es => shown e :: shownAll es

end

variable {e e' : Element} {es : List Element} {indent : ℕ}

theorem shownAll_eq : shownAll es = es.map shown := by
  induction es
  case nil          => rfl
  case cons e es ih => rw [shownAll, ih, List.map_cons]

theorem serializeAll_eq : serializeAll indent es = es.flatMap (serialize indent) := by
  induction es
  case nil          => rfl
  case cons e es ih => rw [serializeAll, ih, List.flatMap_cons]

end Element

open Element

variable {e e' : Element} {es : List Element} {indent : ℕ}

-- Nothing else is written of a tree.
theorem Named.serialize_shown (h : Named e) (indent : ℕ) : e.shown.serialize indent = e.serialize indent := by
  induction h generalizing indent
  case mk e _ _ _ ih =>
    obtain ⟨name, attributes, children, content⟩ := e
    cases content
    case cons => simp [shown, serialize]
    case nil =>
      have hchildren : serializeAll (indent + 1) (shownAll children) =
          serializeAll (indent + 1) children := by
        rw [shownAll_eq, serializeAll_eq, serializeAll_eq, List.flatMap_map]
        exact List.flatMap_congr fun c hc => ih c hc (indent + 1)
      have hempty : (shownAll children).isEmpty = children.isEmpty := by
        rw [shownAll_eq, List.isEmpty_map]
      simp only [shown, serialize, List.isEmpty_nil, if_true, hchildren, hempty]

theorem Named.wellFormed_shown (h : Named e) : WellFormed e.shown := by
  induction h
  case mk e hname hids _ ih =>
    obtain ⟨name, attributes, children, content⟩ := e
    cases content
    case cons => exact .mk hname hids (.inr rfl) (fun _ hc => nomatch hc)
    case nil =>
      refine .mk hname hids (.inl rfl) fun c hc => ?_
      change c ∈ shownAll children at hc
      rw [shownAll_eq] at hc
      obtain ⟨child, hchild, rfl⟩ := List.mem_map.mp hc
      exact ih child hchild

theorem Named.shown_eq_iff (h : Named e) : e.shown = e ↔ Unmixed e := by
  induction h
  case mk e _ _ _ ih =>
    obtain ⟨name, attributes, children, content⟩ := e
    have hchildren : children.map shown = children ↔ ∀ c ∈ children, Unmixed c := by
      calc
        _ ↔ children.map shown = children.map id := by rw [List.map_id]
        _ ↔ ∀ c ∈ children, c.shown = c          := List.map_inj_left
        _ ↔ ∀ c ∈ children, Unmixed c            := forall₂_congr ih
    cases content
    case nil =>
      simp only [shown, List.isEmpty_nil, if_true, shownAll_eq, Element.mk.injEq, hchildren, true_and,
        and_true]
      exact ⟨fun hc => .mk (.inl rfl) hc, fun ⟨_, hc⟩ => hc⟩
    case cons ch content =>
      simp only [shown, List.isEmpty_cons, Bool.false_eq_true, if_false, Element.mk.injEq, true_and,
        and_true]
      constructor
      case mp =>
        rintro rfl
        exact .mk (.inr rfl) (fun _ hc => nomatch hc)
      case mpr =>
        rintro ⟨hcontent, _⟩
        exact (hcontent.resolve_left (List.cons_ne_nil _ _)).symm

-- What a reader finds is what was shown.
theorem Named.parse_serialize (h : Named e) (indent : ℕ) : parse (e.serialize indent) = some [e.shown] := by
  have hparse : parse (serializeAll indent [e.shown]) = some [e.shown] :=
    parse_serializeAll (List.forall_mem_singleton.mpr h.wellFormed_shown) indent
  rwa [serializeAll, serializeAll, List.append_nil, h.serialize_shown] at hparse

theorem Named.serialize_eq_iff (h : Named e) (h' : Named e') :
    e.serialize indent = e'.serialize indent ↔ e.shown = e'.shown := by
  constructor
  case mp =>
    intro heq
    have hparse := h.parse_serialize indent
    rw [heq, h'.parse_serialize] at hparse
    exact (List.singleton_inj.mp (Option.some.inj hparse)).symm
  case mpr =>
    intro heq
    rw [← h.serialize_shown, heq, h'.serialize_shown]

-- A tree is written as a whole if and only if no element has both text and children, and two trees
-- are told apart if and only if they differ in more than the children of elements with text.
theorem serialize_whole_iff (h : Named e) (h' : Named e') :
    ((∀ indent, parse (e.serialize indent) = some [e]) ↔ Unmixed e) ∧
      ((∀ indent, e.serialize indent ≠ e'.serialize indent) ↔ e.shown ≠ e'.shown) := by
  constructor
  case left =>
    have hparse : (∀ indent, parse (e.serialize indent) = some [e]) ↔ e.shown = e := by
      simp only [h.parse_serialize, Option.some.injEq, List.cons.injEq, and_true, forall_const]
    exact hparse.trans h.shown_eq_iff
  case right => simp only [ne_eq, h.serialize_eq_iff h', forall_const]

theorem serialize_whole_iff_two_tags :
    let tag : Element := { name := str "tag", content := str "text" }
    let test : Element := { name := str "test", children := [tag] }
    ((∀ indent, parse (test.serialize indent) = some [test]) ↔ Unmixed test) ∧
      ((∀ indent, test.serialize indent ≠ tag.serialize indent) ↔ test.shown ≠ tag.shown) := by
  intro tag test
  have htag : Named tag := .mk (by decide) (fun _ ha => nomatch ha) (fun _ hc => nomatch hc)
  have htest : Named test := by
    exact .mk (by decide) (fun _ ha => nomatch ha) (List.forall_mem_singleton.mpr htag)
  exact serialize_whole_iff htest htag

-- The child of an element that was also given a text is not written.
theorem serialize_drops_child :
    let child : Element := { name := str "units", content := str "V" }
    let tag : Element := { name := str "tag", content := str "text" }
    tag.addChild child ≠ tag ∧
      ∀ indent, (tag.addChild child).serialize indent = tag.serialize indent := by
  intro child tag
  refine ⟨fun heq => ?_, fun indent => rfl⟩
  exact absurd (congrArg children heq) (List.cons_ne_nil _ _)

end Sie.Xml
