import OpenDaqModules.Recorder.Sie.Xml

-- A reader for the XML of a file's metadata: elements with attributes that contain either other
-- elements or text, where blanks between elements mean nothing.
namespace Sie.Xml

def unescape : Bytes → Bytes
  | [] => []
  | 0x26 :: 0x71 :: 0x75 :: 0x6f :: 0x74 :: 0x3b :: s => 0x22 :: unescape s
  | 0x26 :: 0x61 :: 0x70 :: 0x6f :: 0x73 :: 0x3b :: s => 0x27 :: unescape s
  | 0x26 :: 0x6c :: 0x74 :: 0x3b :: s                 => 0x3c :: unescape s
  | 0x26 :: 0x67 :: 0x74 :: 0x3b :: s                 => 0x3e :: unescape s
  | 0x26 :: 0x61 :: 0x6d :: 0x70 :: 0x3b :: s         => 0x26 :: unescape s
  | ch :: s => ch :: unescape s

def Blank (s : Bytes) : Prop :=
  ∀ ch ∈ s, ch = 0x20 ∨ ch = 0x0a

instance : DecidablePred Blank :=
  fun s => List.decidableBAll _ s

-- Where in the markup a reader is. An element comes with the attributes read so far.
inductive Mode
  | content
  | name (name : Bytes)
  | closing (name : Bytes)
  | id (e : Element) (id : Bytes)
  | equals (e : Element) (id : Bytes)
  | value (e : Element) (id value : Bytes)
  | quoted (e : Element)
  | slash (e : Element)

structure Reader where
  opened : List Element := []
  roots  : List Element := []
  text   : Bytes        := []
  mode   : Mode         := .content

namespace Reader

-- The innermost open element gets a child.
def add (r : Reader) (e : Element) : Reader :=
  match r.opened with
  | []           => { roots := r.roots ++ [e] }
  | parent :: es => { opened := parent.addChild e :: es, roots := r.roots }

def openElement (r : Reader) (e : Element) : Option Reader :=
  if Blank r.text then some { opened := e :: r.opened, roots := r.roots } else none

def emptyElement (r : Reader) (e : Element) : Option Reader :=
  if Blank r.text then some (r.add e) else none

def closeElement (r : Reader) (name : Bytes) : Option Reader :=
  match r.opened with
  | []      => none
  | e :: es =>
    let r' : Reader := { r with opened := es }
    if e.name ≠ name then none
    else if e.children.isEmpty then some (r'.add (e.setContent (unescape r.text)))
    else if Blank r.text then some (r'.add e)
    else none

def step (r : Reader) (ch : UInt8) : Option Reader :=
  match r.mode with
  | .content =>
    if ch = 0x3c then some { r with mode := .name [] } else some { r with text := r.text ++ [ch] }
  | .name name =>
    if ch = 0x2f then
      some { r with mode := if name.isEmpty then .closing [] else .slash { name } }
    else if ch = 0x20 then some { r with mode := .id { name } [] }
    else if ch = 0x3e then r.openElement { name }
    else some { r with mode := .name (name ++ [ch]) }
  | .closing name =>
    if ch = 0x3e then r.closeElement name else some { r with mode := .closing (name ++ [ch]) }
  | .id e id =>
    if ch = 0x3d then some { r with mode := .equals e id }
    else some { r with mode := .id e (id ++ [ch]) }
  | .equals e id => if ch = 0x22 then some { r with mode := .value e id [] } else none
  | .value e id value =>
    if ch = 0x22 then some { r with mode := .quoted (e.addAttribute id (unescape value)) }
    else some { r with mode := .value e id (value ++ [ch]) }
  | .quoted e =>
    if ch = 0x20 then some { r with mode := .id e [] }
    else if ch = 0x2f then some { r with mode := .slash e }
    else if ch = 0x3e then r.openElement e
    else none
  | .slash e => if ch = 0x3e then r.emptyElement e else none

def run (r : Reader) (s : Bytes) : Option Reader :=
  s.foldlM step r

end Reader

-- The elements that a text consists of.
def parse (s : Bytes) : Option (List Element) := do
  let r ← Reader.run {} s
  match r.opened, r.mode with
  | [], .content => if Blank r.text then some r.roots else none
  | _, _         => none

-- Names do not contain any delimiter of the markup.
def ValidName (name : Bytes) : Prop :=
  name ≠ [] ∧ ∀ ch ∈ name, ch ∉ [0x20, 0x22, 0x26, 0x27, 0x2f, 0x3c, 0x3d, (0x3e : UInt8)]

instance : DecidablePred ValidName :=
  fun name => @instDecidableAnd _ _ inferInstance (List.decidableBAll _ name)

inductive WellFormed : Element → Prop
  | mk (name : ValidName e.name) (ids : ∀ a ∈ e.attributes, ValidName a.id)
    (content : e.content = [] ∨ e.children = []) (children : ∀ c ∈ e.children, WellFormed c) :
    WellFormed e

theorem unescape_cons {ch : UInt8} {s : Bytes} (h : ch ≠ 0x26) :
    unescape (ch :: s) = ch :: unescape s := by
  rw [unescape]
  all_goals
    intros
    contradiction

theorem unescape_escapedByte {ch : UInt8} {s : Bytes} :
    unescape (escapedByte ch ++ s) = ch :: unescape s := by
  unfold escapedByte
  split
  case h_6 h => exact unescape_cons h
  all_goals rfl

theorem unescape_escapedString (s : Bytes) : unescape (escapedString s) = s := by
  induction s
  case nil          => rfl
  case cons ch s ih => rw [escapedString, List.flatMap_cons, unescape_escapedByte, ← escapedString, ih]

-- No byte that ends a text or an attribute value.
def Undelimited (s : Bytes) : Prop :=
  ∀ b ∈ s, b ≠ 0x3c ∧ b ≠ 0x22

instance : DecidablePred Undelimited :=
  fun s => List.decidableBAll _ s

theorem escapedByte_delimiter {ch : UInt8} : Undelimited (escapedByte ch) := by
  unfold escapedByte
  split
  case h_6 h₁ _ h₃ _ _ => simpa [Undelimited] using ⟨h₃, h₁⟩
  all_goals decide

theorem escapedString_delimiter {s : Bytes} : Undelimited (escapedString s) := by
  intro b hb
  have ⟨_, _, hb⟩ := List.mem_flatMap.mp hb
  exact escapedByte_delimiter b hb

theorem ValidName.ne {name : Bytes} {ch : UInt8} (h : ValidName name) (hch : ch ∈ name) :
    ch ≠ 0x20 ∧ ch ≠ 0x2f ∧ ch ≠ 0x3d ∧ ch ≠ 0x3e := by
  have := h.right ch hch
  simp only [List.mem_cons, List.not_mem_nil, or_false, not_or] at this
  exact ⟨this.left, this.right.right.right.right.left, this.right.right.right.right.right.right⟩

namespace Reader

variable {r : Reader} {e : Element} {s s' name : Bytes}

@[simp]
theorem run_nil : r.run [] = some r :=
  rfl

@[simp]
theorem run_cons : r.run (ch :: s) = (r.step ch).bind (·.run s) :=
  List.foldlM_cons

theorem run_append : r.run (s ++ s') = (r.run s).bind (·.run s') :=
  List.foldlM_append

-- Where every byte is only collected, so is a string.
theorem run_collect {f : Bytes → Reader} {p : UInt8 → Prop}
    (hstep : ∀ s ch, p ch → (f s).step ch = some (f (s ++ [ch]))) (hs : ∀ ch ∈ s, p ch)
    (s₀ : Bytes) : (f s₀).run s = some (f (s₀ ++ s)) := by
  induction s generalizing s₀
  case nil => simp
  case cons ch s ih =>
    rw [run_cons, hstep s₀ ch (hs ch List.mem_cons_self), Option.bind_some,
      ih (fun b hb => hs b (List.mem_cons_of_mem ch hb)), List.append_assoc, List.singleton_append]

theorem run_text (hs : ∀ ch ∈ s, ch ≠ 0x3c) (hr : r.mode = .content) :
    r.run s = some { r with text := r.text ++ s } := by
  have := run_collect (f := fun s => { r with text := s }) (s := s) (p := (· ≠ 0x3c))
    (fun s ch h => by simp [step, hr, h]) hs r.text
  exact this

theorem run_name (h : ValidName name) (hr : r.mode = .content) :
    r.run (str "<" ++ name) = some { r with mode := .name name } := by
  have hopen : r.step 0x3c = some { r with mode := .name [] } := by simp [step, hr]
  have := run_collect (f := fun s => { r with mode := .name s })
    (p := fun ch => ch ≠ 0x20 ∧ ch ≠ 0x2f ∧ ch ≠ 0x3d ∧ ch ≠ 0x3e) (s := name)
    (fun s ch h => by simp [step, h]) (fun ch => h.ne) []
  rw [run_append]
  change ((r.step 0x3c).bind (·.run [])).bind _ = _
  rw [hopen]
  exact this

-- The mode after the name and the attributes of an opening tag.
def head (name : Bytes) (attributes : List Attribute) : Mode :=
  if attributes = [] then .name name else .quoted { name, attributes }

theorem step_head_space {attributes : List Attribute} :
    step { r with mode := head name attributes } 0x20 =
      some { r with mode := .id { name, attributes } [] } := by
  by_cases h : attributes = [] <;> simp [step, head, h]

theorem step_head_close {attributes : List Attribute} :
    step { r with mode := head name attributes } 0x3e = r.openElement { name, attributes } := by
  by_cases h : attributes = [] <;> simp [step, head, h, openElement]

theorem step_head_slash {attributes : List Attribute} (hname : name ≠ []) :
    step { r with mode := head name attributes } 0x2f =
      some { r with mode := .slash { name, attributes } } := by
  by_cases h : attributes = [] <;> simp [step, head, h, hname]

theorem run_attribute {attributes : List Attribute} {a : Attribute} (ha : ValidName a.id) :
    run { r with mode := head name attributes } a.serialize =
      some { r with mode := head name (attributes ++ [a]) } := by
  let e : Element := { name, attributes }
  have hid := run_collect (f := fun s => { r with mode := .id e s })
    (p := fun ch => ch ≠ 0x20 ∧ ch ≠ 0x2f ∧ ch ≠ 0x3d ∧ ch ≠ 0x3e) (s := a.id)
    (fun s ch h => by simp [step, h]) (fun ch => ha.ne) []
  have hvalue := run_collect (f := fun s => { r with mode := .value e a.id s })
    (p := (· ≠ 0x22)) (s := escapedString a.value) (fun s ch h => by simp [step, h])
    (fun ch h => (escapedString_delimiter ch h).right) []
  have hspace : run { r with mode := head name attributes } (str " ") =
      some { r with mode := .id e [] } := by
    change (step _ 0x20).bind _ = _
    rw [step_head_space]
    rfl
  have hequals : run { r with mode := .id e a.id } (str "=\"") =
      some { r with mode := .value e a.id [] } := rfl
  have hquote : run { r with mode := .value e a.id (escapedString a.value) } (str "\"") =
      some { r with mode := head name (attributes ++ [a]) } := by
    rw [show str "\"" = [0x22] from rfl, run_cons]
    simp [step, unescape_escapedString, head, Element.addAttribute, e]
  simp only [Attribute.serialize, run_append, hspace, Option.bind_some]
  rw [hid, Option.bind_some, List.nil_append, hequals, Option.bind_some, hvalue, Option.bind_some,
    List.nil_append, hquote]

theorem run_attributes (attributes : List Attribute) {as : List Attribute} (has : ∀ a ∈ as, ValidName a.id) :
    run { r with mode := head name attributes } (as.flatMap Attribute.serialize) =
      some { r with mode := head name (attributes ++ as) } := by
  induction as generalizing attributes
  case nil => simp
  case cons a as ih =>
    rw [List.flatMap_cons, run_append, run_attribute (has a List.mem_cons_self), Option.bind_some,
      ih _ fun b hb => has b (List.mem_cons_of_mem a hb), List.append_assoc, List.singleton_append]

theorem run_openingTag (hname : ValidName e.name) (has : ∀ a ∈ e.attributes, ValidName a.id)
    (hr : r.mode = .content) :
    r.run e.openingTag = some { r with mode := head e.name e.attributes } := by
  rw [Element.openingTag, run_append, run_name hname hr, Option.bind_some]
  exact run_attributes [] has

theorem run_closingTag (hname : ValidName name) (hr : r.mode = .content) :
    r.run (Element.closingTag { name }) =
      (r.closeElement name).bind (fun r => r.run (str "\n")) := by
  have hopen : r.run (str "</") = some { r with mode := .closing [] } := by
    rw [show str "</" = [0x3c, 0x2f] from rfl]
    simp [step, hr]
  have hcollect := run_collect (f := fun s => { r with mode := .closing s })
    (p := fun ch => ch ≠ 0x20 ∧ ch ≠ 0x2f ∧ ch ≠ 0x3d ∧ ch ≠ 0x3e) (s := name)
    (fun s ch h => by simp [step, h]) (fun ch => hname.ne) []
  rw [List.nil_append] at hcollect
  rw [Element.closingTag, run_append, run_append, hopen, Option.bind_some, hcollect,
    Option.bind_some, show str ">\n" = 0x3e :: str "\n" from rfl, run_cons]
  simp [step, closeElement, add]

-- The state after the lines of some elements were read.
def added (r : Reader) (es : List Element) : Reader :=
  es.foldl (fun r e => { r.add e with text := str "\n" }) r

@[simp]
theorem added_nil : r.added [] = r :=
  rfl

@[simp]
theorem added_cons {es : List Element} :
    r.added (e :: es) = ({ r.add e with text := str "\n" } : Reader).added es :=
  rfl

@[simp]
theorem add_mode : (r.add e).mode = .content := by
  rw [add]
  split <;> rfl

theorem added_mode {es : List Element} (hr : r.mode = .content) : (r.added es).mode = .content := by
  induction es generalizing r
  case nil          => exact hr
  case cons e es ih => exact ih add_mode

theorem added_blank {es : List Element} (hr : Blank r.text) : Blank (r.added es).text := by
  have hnewline : Blank (str "\n") := by decide
  induction es generalizing r
  case nil          => exact hr
  case cons e es ih => exact ih hnewline

theorem added_of_opened (es : List Element) {ps : List Element} (hr : r.opened = e :: ps) :
    (r.added es).opened = { e with children := e.children ++ es } :: ps ∧
      (r.added es).roots = r.roots := by
  induction es generalizing r e
  case nil =>
    cases e
    simpa using hr
  case cons c es ih =>
    have hadd : (r.add c).opened = e.addChild c :: ps ∧ (r.add c).roots = r.roots := by
      simp [add, hr]
    have ⟨hopened, hroots⟩ := ih (r := { r.add c with text := str "\n" }) hadd.left
    rw [added_cons, hopened, hroots, hadd.right]
    simp [Element.addChild]

theorem added_of_not_opened (es : List Element) (hr : r.opened = []) :
    (r.added es).opened = [] ∧ (r.added es).roots = r.roots ++ es := by
  induction es generalizing r
  case nil => simpa using hr
  case cons c es ih =>
    have hadd : (r.add c).opened = [] ∧ (r.add c).roots = r.roots ++ [c] := by simp [add, hr]
    have ⟨hopened, hroots⟩ := ih (r := { r.add c with text := str "\n" }) hadd.left
    rw [added_cons, hopened, hroots, hadd.right]
    simp

end Reader

theorem Blank.append {s s' : Bytes} (h : Blank s) (h' : Blank s') : Blank (s ++ s') := by
  intro ch hch
  exact (List.mem_append.mp hch).elim (h ch) (h' ch)

theorem blank_spaces {indent : ℕ} : Blank (spaces indent) :=
  fun _ h => .inl (List.eq_of_mem_replicate h)

namespace Reader

variable {r : Reader} {e : Element} {es : List Element} {indent : ℕ}

theorem run_spaces (hr : r.mode = .content) :
    r.run (spaces indent) = some { r with text := r.text ++ spaces indent } := by
  refine run_text (fun ch h => ?_) hr
  rw [List.eq_of_mem_replicate h]
  decide

theorem run_newline (hr : r.mode = .content) :
    r.run (str "\n") = some { r with text := r.text ++ str "\n" } := by
  refine run_text (fun ch h => ?_) hr
  cases List.mem_singleton.mp h
  decide

theorem add_text : (r.add e).text = [] := by
  rw [add]
  split <;> rfl

theorem run_add_newline : (r.add e).run (str "\n") = some { r.add e with text := str "\n" } := by
  rw [run_newline add_mode, add_text, List.nil_append]

variable {attributes : List Attribute} {children : List Element} {name content : Bytes}

theorem run_emptyTag (hname : ValidName name) (hr : Blank r.text) :
    run { r with mode := head name attributes } (str "/>\n") =
      some { r.add { name, attributes } with text := str "\n" } := by
  rw [show str "/>\n" = 0x2f :: 0x3e :: str "\n" from rfl, run_cons,
    step_head_slash hname.left, Option.bind_some, run_cons]
  simp only [step, emptyElement, hr, if_true, Option.bind_some]
  exact run_add_newline

theorem run_content (hname : ValidName name) (hr : Blank r.text) :
    run { r with mode := head name attributes }
        (str ">" ++ escapedString content ++ Element.closingTag { name }) =
      some { r.add { name, attributes, content } with text := str "\n" } := by
  let r' : Reader := { opened := { name, attributes } :: r.opened, roots := r.roots }
  have hopen : run { r with mode := head name attributes } (str ">") = some r' := by
    rw [show str ">" = [0x3e] from rfl, run_cons, step_head_close]
    simp [openElement, hr, r']
  have htext : r'.run (escapedString content) = some { r' with text := escapedString content } :=
    run_text (fun ch h => (escapedString_delimiter ch h).left) rfl
  rw [run_append, run_append, hopen, Option.bind_some, htext, Option.bind_some,
    run_closingTag hname rfl]
  simp only [closeElement, r', ne_eq, not_true_eq_false, if_false, List.isEmpty_nil, if_true,
    Option.bind_some, unescape_escapedString]
  exact run_add_newline

theorem run_serializeAll
    (hes : ∀ e ∈ es, ∀ r : Reader, r.mode = .content → Blank r.text →
      r.run (e.serialize indent) = some { r.add e with text := str "\n" })
    (hmode : r.mode = .content) (hr : Blank r.text) :
    r.run (Element.serializeAll indent es) = some (r.added es) := by
  have hnewline : Blank (str "\n") := by decide
  induction es generalizing r
  case nil => simp [Element.serializeAll]
  case cons e es ih =>
    rw [Element.serializeAll, run_append, hes e List.mem_cons_self r hmode hr, Option.bind_some]
    exact ih (fun e he => hes e (List.mem_cons_of_mem _ he)) add_mode hnewline

theorem run_children (hname : ValidName name) (hr : Blank r.text) (hne : children ≠ [])
    (hes : ∀ e ∈ children, ∀ r : Reader, r.mode = .content → Blank r.text →
      r.run (e.serialize (indent + 1)) = some { r.add e with text := str "\n" }) :
    run { r with mode := head name attributes }
        (str ">\n" ++ Element.serializeAll (indent + 1) children ++ spaces indent ++
          Element.closingTag { name }) =
      some { r.add { name, attributes, children } with text := str "\n" } := by
  let r₁ : Reader :=
    { opened := { name, attributes } :: r.opened, roots := r.roots, text := str "\n" }
  have hopen : run { r with mode := head name attributes } (str ">\n") = some r₁ := by
    rw [show str ">\n" = 0x3e :: str "\n" from rfl, run_cons, step_head_close]
    simp only [openElement, hr, if_true, Option.bind_some]
    exact run_newline rfl
  have hnewline : Blank (str "\n") := by decide
  have hblank : Blank r₁.text := hnewline
  have hmode : (r₁.added children).mode = .content := added_mode rfl
  have ⟨hopened, hroots⟩ := added_of_opened (r := r₁) children rfl
  let r₂ : Reader := { r₁.added children with text := (r₁.added children).text ++ spaces indent }
  have htext : Blank r₂.text := (added_blank hblank).append blank_spaces
  rw [run_append, run_append, run_append, hopen, Option.bind_some, run_serializeAll hes rfl hblank,
    Option.bind_some, run_spaces hmode, Option.bind_some,
    run_closingTag (r := r₂) hname hmode]
  simp only [closeElement, r₂, hopened, hroots, List.nil_append, ne_eq, not_true_eq_false, if_false,
    List.isEmpty_iff, hne, htext, if_true, Option.bind_some]
  exact run_add_newline

-- The induction follows the derivation that the element is well-formed.
theorem run_serialize (h : WellFormed e) (indent : ℕ) (hmode : r.mode = .content)
    (hr : Blank r.text) :
    r.run (e.serialize indent) = some { r.add e with text := str "\n" } := by
  induction h generalizing r indent
  case mk e hname hids hcontent _ ih =>
    obtain ⟨name, attributes, children, content⟩ := e
    let r' : Reader := { r with text := r.text ++ spaces indent }
    have hblank : Blank r'.text := hr.append blank_spaces
    have htag := run_openingTag (r := r') (e := { name, attributes }) hname hids hmode
    rw [Element.serialize, run_append, run_append, run_spaces hmode, Option.bind_some, htag,
      Option.bind_some]
    by_cases hc : content = []
    case neg =>
      obtain rfl : children = [] := hcontent.resolve_left hc
      rw [if_neg (by simp [hc]), if_pos (by simp [hc])]
      exact run_content (r := r') hname hblank
    case pos =>
      subst hc
      by_cases hchildren : children = []
      case pos =>
        subst hchildren
        exact run_emptyTag (r := r') hname hblank
      case neg =>
        rw [if_neg (by simpa using hchildren), if_neg (by simp)]
        exact run_children (r := r') hname hblank hchildren fun c hc r => ih c hc (indent + 1)

end Reader

theorem parse_of_run (hrun : Reader.run {} s = some (Reader.added {} es)) : parse s = some es := by
  have ⟨hopened, hroots⟩ := Reader.added_of_not_opened (r := {}) es rfl
  have hmode : (Reader.added {} es).mode = .content := Reader.added_mode rfl
  have htext : Blank (Reader.added {} es).text := Reader.added_blank (by decide)
  simp [parse, hrun, hopened, hmode, htext, hroots]

-- The metadata that was written is what a reader finds, whatever the texts in it are.
theorem parse_serializeAll (h : ∀ e ∈ es, WellFormed e) (indent : ℕ) :
    parse (Element.serializeAll indent es) = some es :=
  parse_of_run <|
    Reader.run_serializeAll (fun e he r => Reader.run_serialize (h e he) indent) rfl (by decide)

theorem Reader.run_flatMap_serialize {r : Reader} {xs : List (ℕ × Element)}
    (h : ∀ x ∈ xs, WellFormed x.2) (hmode : r.mode = .content) (hr : Blank r.text) :
    r.run (xs.flatMap fun x => x.2.serialize x.1) = some (r.added (xs.map Prod.snd)) := by
  have hnewline : Blank (str "\n") := by decide
  induction xs generalizing r
  case nil => rfl
  case cons x xs ih =>
    rw [List.flatMap_cons, run_append, run_serialize (h x List.mem_cons_self) x.1 hmode hr,
      Option.bind_some, List.map_cons, added_cons]
    exact ih (fun x hx => h x (List.mem_cons_of_mem _ hx)) add_mode hnewline

-- Elements that are appended over time, each with its own indentation, are all found.
theorem parse_flatMap_serialize {xs : List (ℕ × Element)} (h : ∀ x ∈ xs, WellFormed x.2) :
    parse (xs.flatMap fun x => x.2.serialize x.1) = some (xs.map Prod.snd) :=
  parse_of_run (Reader.run_flatMap_serialize h rfl (by decide))

-- The texts of these elements look like markup themselves.
theorem parse_flatMap_serialize_markup :
    let tag : Element := {
      name       := str "tag"
      attributes := [{ id := str "id", value := str "\"/><test id='1'>" }]
      content    := str "</tag>&amp;" }
    let units : Element := { name := str "units", content := str " " }
    let test : Element := { name := str "test", children := [tag, units] }
    parse (test.serialize 1 ++ units.serialize 0) = some [test, units] := by
  intro tag units test
  have hunits : WellFormed units := by
    exact .mk (by decide) (by decide) (.inr rfl) (fun _ h => nomatch h)
  have htag : WellFormed tag := .mk (by decide) (by decide) (.inr rfl) (fun _ h => nomatch h)
  have htest : WellFormed test := by
    exact .mk (by decide) (by decide) (.inl rfl) (by simp [test, htag, hunits])
  have hxs : ∀ x ∈ [(1, test), (0, units)], WellFormed x.2 := by simp [htest, hunits]
  simpa using parse_flatMap_serialize hxs

end Sie.Xml
