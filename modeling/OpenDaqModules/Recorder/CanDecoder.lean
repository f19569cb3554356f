import OpenDaqModules.Recorder.Channels
import OpenDaqModules.Recorder.Samples

-- The decoder of a CAN channel: it goes back and forth between the timestamps and the messages.
namespace AdvancedRecorder

open Sie Xml Decoder

-- The number of elements that a value with these dimensions has.
def elementCount (dimensions : Option (List Dimension)) : ℕ :=
  ((dimensions.getD []).map fun dimension => dimension.size.toNat).prod

-- The octets that a field takes in each sample.
def StructField.rawSize (field : StructField) : ℕ :=
  field.sampleType.size * elementCount field.dimensions

namespace CanSignalHandler

-- The octets that are read for a field.
def readSize (field : StructField) : ℕ :=
  match rawOctets? field with
  | some octets => octets.toNat
  | none        => field.sampleType.size

def fieldVar (dimIndex : UInt32) : String :=
  text (str "v" ++ Decimal.ofNat dimIndex.toNat)

-- Fields of these sizes follow each other from an offset on.
def fieldReads (offset : ℕ) : List ℕ → List Access
  | []            => []
  | size :: sizes => .read offset size :: fieldReads (offset + size) sizes

def messageOffset (bytes : ℕ) : Expr :=
  .add (.add (.num 4) (.mul (.num bytes) (.var "n"))) (.mul (.num 69) (.var "i"))

def timeOffset (bytes : ℕ) : Expr :=
  .add (.num (4 + bytes : ℕ)) (.mul (.num bytes) (.var "i"))

section

variable [Host]

def fieldValue (field : StructField) (octets : Bytes) : Value :=
  match rawOctets? field with
  | some _ => .raw octets
  | none   => field.sampleType.value octets

-- The variables of the fields that are in the input from an offset on.
def fieldVars (input : Bytes) (dimIndex : UInt32) (offset : ℕ) : List StructField → Env
  | []              => []
  | field :: fields =>
    let octets := (input.drop offset).take (readSize field)
    fieldVars input (dimIndex + 1) (offset + readSize field) fields ++
      [(fieldVar dimIndex, fieldValue field octets)]

def loopBody (readType : ReadType) (bits : ℕ) (fields : List Op) : List Op :=
  [.read "v0" readType bits Host.endian none, .seek (messageOffset (bits / 8))] ++ fields ++
    [.sample, .seek (timeOffset (bits / 8))]

-- The decoder of a channel.
def messageDecoder (readType : ReadType) (bits : ℕ) (fields : List Op) : Decoder where
  prologue := [.read "n" .uint 32 Host.endian none]
  loop     := {
    var  := some "i"
    stop := some (.var "n")
    body := loopBody readType bits fields }

inductive FieldOp (dimIndex : UInt32) (field : StructField) : Op → Prop
  | raw (h : rawOctets? field = some octets) :
    FieldOp dimIndex field (.readRaw (fieldVar dimIndex) (.num octets.toNat))
  | scalar (h : rawOctets? field = none) (read : ReadAs field.sampleType name bits readType) :
    FieldOp dimIndex field (.read (fieldVar dimIndex) readType bits.toNat Host.endian none)

inductive FieldOps : UInt32 → List StructField → List Op → Prop
  | nil : FieldOps dimIndex [] []
  | cons (head : FieldOp dimIndex field op) (tail : FieldOps (dimIndex + 1) fields ops) :
    FieldOps dimIndex (field :: fields) (op :: ops)

end

section

variable {dimIndex decoderId : UInt32} {field : StructField} {fields : List StructField}
  {op : Op} {ops : List Op} {input : Bytes} {p : ℕ} {s s' : State} [Host]

omit [Host] in
theorem rawOctets?_eq_some {octets : UInt64} (h : rawOctets? field = some octets) :
    (field.sampleType = .int8 ∨ field.sampleType = .uint8) ∧
      ∃ dimension, field.dimensions = some [dimension] ∧ dimension.size = octets := by
  rw [rawOctets?] at h
  split at h
  case h_2 => cases h
  case h_1 dimension hdimensions =>
    split at h
    case isFalse => cases h
    case isTrue htype =>
      cases h
      exact ⟨htype.left, dimension, hdimensions, rfl⟩

theorem fieldOp_of_readField (h : readField dimIndex field = .ok e) :
    ∃ op, Op.ofElement e = some op ∧ FieldOp dimIndex field op := by
  rw [readField] at h
  cases hraw : rawOctets? field
  case some octets =>
    simp only [hraw] at h
    cases h
    exact ⟨_, Op.ofElement_readRaw, .raw hraw⟩
  case none =>
    simp only [hraw] at h
    obtain ⟨⟨name, bits⟩, htype, h⟩ := Except.bind_eq_ok.mp h
    cases h
    obtain ⟨readType, hread⟩ := readAs htype
    exact ⟨_, Op.ofElement_read hread.ofText hread.ne_raw, .scalar hraw hread⟩

theorem fieldOps_of_fieldElements {es : List (Element × Element)}
    (h : fieldElements decoderId dimIndex fields = .ok es) :
    ∃ ops, (es.map Prod.snd).mapM Op.ofElement = some ops ∧ FieldOps dimIndex fields ops := by
  induction fields generalizing dimIndex es
  case nil =>
    cases h
    exact ⟨[], rfl, .nil⟩
  case cons field fields ih =>
    simp only [fieldElements, Except.bind_eq_ok] at h
    obtain ⟨read, hread, later, hlater, h⟩ := h
    cases h
    obtain ⟨op, hop, hfield⟩ := fieldOp_of_readField hread
    obtain ⟨ops, hops, hfields⟩ := ih hlater
    exact ⟨op :: ops, by simp [hop, hops], .cons hfield hfields⟩

namespace FieldOp

theorem access_eq (h : FieldOp dimIndex field op) (hs : s.rest = input.drop p) (hp : p ≤ input.length) :
    op.access input s = some (.read p (readSize field)) := by
  have hposition : input.length - s.rest.length = p := by
    rw [hs, List.length_drop]
    omega
  cases h
  case raw hraw         => simp [Op.access, Expr.eval, hposition, readSize, hraw]
  case scalar hraw hread => simp [Op.access, hposition, readSize, hraw, hread.size]

theorem exec_eq (h : FieldOp dimIndex field op) (hs : s.rest = input.drop p)
    (hp : p + readSize field ≤ input.length) :
    op.exec input s = some ({ s with rest := input.drop (p + readSize field) }.bind (fieldVar dimIndex)
      (fieldValue field ((input.drop p).take (readSize field)))) := by
  have hoctets : splitOctets (readSize field) s.rest =
      some ((input.drop p).take (readSize field), input.drop (p + readSize field)) := by
    rw [hs]
    exact splitOctets_drop hp
  cases h
  case raw octets hraw =>
    have hsize : readSize field = octets.toNat := by rw [readSize, hraw]
    rw [hsize] at hoctets ⊢
    simp [Op.exec, Expr.eval, hoctets, fieldValue, hraw]
  case scalar hraw hread =>
    have hsize : readSize field = field.sampleType.size := by rw [readSize, hraw]
    have hlength : ((input.drop p).take (readSize field)).length = field.sampleType.size := by
      rw [List.length_take, List.length_drop]
      omega
    have hvalue := hread.value _ hlength
    simp [Op.exec, hread.size, ← hsize, hoctets, fieldValue, hraw, hvalue]

theorem le_of_exec (h : FieldOp dimIndex field op) (hs : s.rest = input.drop p) (hp : p ≤ input.length)
    (hexec : op.exec input s = some s') : p + readSize field ≤ input.length := by
  by_contra hlt
  have hoctets : splitOctets (readSize field) s.rest = none := by
    rw [hs, splitOctets, if_neg]
    rw [List.length_drop]
    omega
  cases h
  case raw octets hraw =>
    rw [show readSize field = octets.toNat by rw [readSize, hraw]] at hoctets
    simp [Op.exec, Expr.eval, hoctets] at hexec
  case scalar hraw hread =>
    rw [show readSize field = field.sampleType.size by rw [readSize, hraw]] at hoctets
    simp [Op.exec, hread.size, hoctets] at hexec

end FieldOp

namespace FieldOps

theorem exec_eq (h : FieldOps dimIndex fields ops) (hs : s.rest = input.drop p)
    (hp : p + (fields.map readSize).sum ≤ input.length) :
    execAll input ops s = some { s with
      rest := input.drop (p + (fields.map readSize).sum)
      env  := fieldVars input dimIndex p fields ++ s.env } := by
  induction h generalizing s p
  case nil => simp [execAll, fieldVars, ← hs]
  case cons hop _ ih =>
    rw [List.map_cons, List.sum_cons] at hp ⊢
    rw [execAll, hop.exec_eq hs (by omega), Option.bind_eq_bind, Option.bind_some]
    rw [ih (p := p + _) rfl (by omega), Nat.add_assoc]
    simp [fieldVars, State.bind]

theorem accesses_eq (h : FieldOps dimIndex fields ops) (hs : s.rest = input.drop p)
    (hp : p + (fields.map readSize).sum ≤ input.length) :
    accesses input ops s = fieldReads p (fields.map readSize) := by
  induction h generalizing s p
  case nil => rfl
  case cons hop _ ih =>
    rw [List.map_cons, List.sum_cons] at hp
    rw [accesses, hop.access_eq hs (by omega), hop.exec_eq hs (by omega), Option.elim_some,
      ih (p := p + _) rfl (by omega)]
    rfl

theorem le_of_exec (h : FieldOps dimIndex fields ops) (hs : s.rest = input.drop p)
    (hp : p ≤ input.length) (hexec : execAll input ops s = some s') :
    p + (fields.map readSize).sum ≤ input.length := by
  induction h generalizing s p
  case nil => exact hp
  case cons field op _ _ _ hop _ ih =>
    rw [execAll, Option.bind_eq_bind, Option.bind_eq_some_iff] at hexec
    obtain ⟨_, hfirst, hexec⟩ := hexec
    have hle := hop.le_of_exec hs hp hfirst
    rw [hop.exec_eq hs hle] at hfirst
    cases hfirst
    have hlater := ih rfl hle hexec
    rwa [List.map_cons, List.sum_cons, ← Nat.add_assoc]

end FieldOps

omit [Host] in
theorem ne_fieldVar {x : String} (hx : x.toList.head? ≠ some 'v') : x ≠ fieldVar dimIndex := by
  rintro rfl
  apply hx
  rw [fieldVar, text, String.toList_ofList]
  rfl

theorem num?_fieldVars {x : String} {env : Env} (hx : x.toList.head? ≠ some 'v') :
    Env.num? (fieldVars input dimIndex p fields ++ env) x = env.num? x := by
  induction fields generalizing dimIndex p env
  case nil                => rfl
  case cons field later ih =>
    rw [fieldVars, List.append_assoc, ih, List.singleton_append, Env.num?_cons_of_ne (ne_fieldVar hx)]

end

-- Where an iteration starts.
structure Reading (input : Bytes) (size N k : ℕ) (s : State) : Prop where
  rest    : s.rest = input.drop (4 + size * k)
  count   : s.env.num? "n" = some (N : ℤ)
  samples : s.samples = []

-- What an iteration reads, and where it goes to.
def messageAccesses (size N k : ℕ) (sizes : List ℕ) : List Access :=
  [.read (4 + size * k) size, .seek (4 + size * N + 69 * k)] ++
    fieldReads (4 + size * N + 69 * k) sizes ++ [.seek (4 + size * (k + 1))]

section

variable {type : SampleType} {name input : Bytes} {bits : UInt32} {readType : ReadType}
  {fields : List StructField} {ops : List Op} {env : Env} {size N k : ℕ} {s s' : State}

theorem eval_messageOffset (hn : env.num? "n" = some (N : ℤ)) (hi : env.num? "i" = some (k : ℤ)) :
    (messageOffset size).eval env = some ((4 + size * N + 69 * k : ℕ) : ℤ) := by
  simp [messageOffset, Expr.eval, hn, hi]

theorem eval_timeOffset (hi : env.num? "i" = some (k : ℤ)) :
    (timeOffset size).eval env = some ((4 + size * (k + 1) : ℕ) : ℤ) := by
  simp [timeOffset, Expr.eval, hi]
  ring

variable [Host]

-- The timestamp of an iteration.
def time (type : SampleType) (input : Bytes) (k : ℕ) : Value :=
  type.value ((input.drop (4 + type.size * k)).take type.size)

-- The state in which an iteration has found its message.
def found (type : SampleType) (input : Bytes) (N k : ℕ) (s : State) : State where
  rest    := input.drop (4 + type.size * N + 69 * k)
  env     := ("v0", time type input k) :: ("i", .num k) :: s.env
  samples := s.samples

-- The first two operations of an iteration.
theorem loopBody_run (ops : List Op) (hread : ReadAs type name bits readType)
    (hs : Reading input type.size N k s) (hk : 4 + type.size * (k + 1) ≤ input.length) :
    let rest := ops ++ [.sample, .seek (timeOffset type.size)]
    execAll input (loopBody readType bits.toNat ops) (s.bind "i" (.num k)) =
      execAll input rest (found type input N k s) ∧
    accesses input (loopBody readType bits.toNat ops) (s.bind "i" (.num k)) =
      [.read (4 + type.size * k) type.size, .seek (4 + type.size * N + 69 * k)] ++
        accesses input rest (found type input N k s) := by
  have hle : 4 + type.size * k + type.size ≤ input.length := by rwa [Nat.add_assoc, ← Nat.mul_succ]
  have hlength : ((input.drop (4 + type.size * k)).take type.size).length = type.size := by
    rw [List.length_take, List.length_drop]
    omega
  let s₁ : State := {
    rest    := input.drop (4 + type.size * k + type.size)
    env     := ("v0", time type input k) :: ("i", .num k) :: s.env
    samples := s.samples }
  have hrest : (s.bind "i" (.num k)).rest = input.drop (4 + type.size * k) := hs.rest
  have hfirst : Op.exec input (.read "v0" readType bits.toNat Host.endian none) (s.bind "i" (.num k)) =
      some s₁ := by
    have hoctets : splitOctets (bits.toNat / 8) (s.bind "i" (.num k)).rest =
        some ((input.drop (4 + type.size * k)).take type.size, s₁.rest) := by
      rw [hrest, hread.size, splitOctets_drop hle]
    rw [exec_read hoctets, hread.value _ hlength]
    rfl
  have hoffset : (messageOffset type.size).eval s₁.env = some ((4 + type.size * N + 69 * k : ℕ) : ℤ) := by
    refine eval_messageOffset ?_ ?_
    · rw [Env.num?_cons_of_ne (by decide), Env.num?_cons_of_ne (by decide), hs.count]
    · rw [Env.num?_cons_of_ne (by decide), Env.num?_cons_num, if_pos rfl]
  have hposition : input.length - (s.bind "i" (.num k)).rest.length = 4 + type.size * k := by
    rw [hrest, List.length_drop]
    omega
  dsimp only
  rw [loopBody, hread.size, List.append_assoc, List.cons_append]
  rw [execAll_cons hfirst, accesses_cons hfirst, List.cons_append, execAll_cons (exec_seek hoffset),
    accesses_cons (exec_seek hoffset), access_seek hoffset, Op.access, hposition, hread.size]
  exact ⟨rfl, rfl⟩

-- The variables that the sample of an iteration has.
def sampleEnv (type : SampleType) (fields : List StructField) (input : Bytes) (N k : ℕ) (s : State) :
    Env :=
  fieldVars input 1 (4 + type.size * N + 69 * k) fields ++ (found type input N k s).env

-- An iteration for which there are a timestamp and a message.
theorem loopBody_exec (hread : ReadAs type name bits readType) (hops : FieldOps 1 fields ops)
    (hs : Reading input type.size N k s) (hk : 4 + type.size * (k + 1) ≤ input.length)
    (hmessage : 4 + type.size * N + 69 * k + (fields.map readSize).sum ≤ input.length) :
    ∃ s', execAll input (loopBody readType bits.toNat ops) (s.bind "i" (.num k)) = some s' ∧
      accesses input (loopBody readType bits.toNat ops) (s.bind "i" (.num k)) =
        messageAccesses type.size N k (fields.map readSize) ∧
      s'.samples = [sampleEnv type fields input N k s] ∧
      Reading input type.size N (k + 1) { s' with samples := [] } := by
  have ⟨hexec, haccesses⟩ := loopBody_run ops hread hs hk
  have hfields := hops.exec_eq (s := found type input N k s) rfl hmessage
  have hreads := hops.accesses_eq (s := found type input N k s) rfl hmessage
  let s₁ : State := {
    rest    := input.drop (4 + type.size * N + 69 * k + (fields.map readSize).sum)
    env     := sampleEnv type fields input N k s
    samples := [sampleEnv type fields input N k s] }
  have hsample : Op.exec input .sample { s₁ with samples := [] } = some s₁ := rfl
  have hnum : ∀ {x : String}, x.toList.head? ≠ some 'v' →
      s₁.env.num? x = Env.num? (("i", .num k) :: s.env) x := by
    intro x hx
    refine (num?_fieldVars hx).trans (Env.num?_cons_of_ne ?_)
    rintro rfl
    exact hx rfl
  have hoffset : (timeOffset type.size).eval s₁.env = some ((4 + type.size * (k + 1) : ℕ) : ℤ) := by
    apply eval_timeOffset
    rw [hnum (by decide), Env.num?_cons_num, if_pos rfl]
  have hfound : execAll input ops (found type input N k s) = some { s₁ with samples := [] } := by
    rw [hfields, found, hs.samples]
    rfl
  refine ⟨{ s₁ with rest := input.drop (4 + type.size * (k + 1)) }, ?_, ?_, rfl, ?_⟩
  case refine_1 =>
    rw [hexec, execAll_append, hfound, Option.bind_some, execAll_cons hsample,
      execAll_cons (exec_seek hoffset)]
    rfl
  case refine_2 =>
    rw [haccesses, accesses_append hfound, hreads, accesses_cons hsample,
      accesses_cons (exec_seek hoffset), access_seek hoffset]
    simp [messageAccesses, Op.access, accesses]
  case refine_3 =>
    refine ⟨rfl, ?_, rfl⟩
    rw [hnum (by decide), Env.num?_cons_of_ne (by decide), hs.count]

-- No iteration succeeds without the octets of its message.
theorem le_of_loopBody (hread : ReadAs type name bits readType) (hops : FieldOps 1 fields ops)
    (hs : Reading input type.size N k s) (hk : 4 + type.size * (k + 1) ≤ input.length)
    (hmessage : 4 + type.size * N + 69 * k ≤ input.length)
    (hexec : execAll input (loopBody readType bits.toNat ops) (s.bind "i" (.num k)) = some s') :
    4 + type.size * N + 69 * k + (fields.map readSize).sum ≤ input.length := by
  rw [(loopBody_run ops hread hs hk).left, execAll_append, Option.bind_eq_some_iff] at hexec
  obtain ⟨_, hfields, _⟩ := hexec
  exact hops.le_of_exec rfl hmessage hfields

variable {n : UInt32} {body : Bytes}

-- The state in which the loop starts.
def start (input : Bytes) (N : ℕ) : State where
  rest := input.drop 4
  env  := [("n", .num N)]

omit [Host] in
theorem reading_start : Reading input size N 0 (start input N) where
  rest    := rfl
  count   := rfl
  samples := rfl

theorem exec_prologue (hinput : input = Host.endian.ofUInt32 n ++ body) :
    execAll input (messageDecoder readType bits.toNat ops).prologue { rest := input } =
      some (start input n.toNat) := by
  have hoctets : splitOctets (32 / 8) input = some (Host.endian.ofUInt32 n, input.drop 4) := by
    rw [hinput, List.drop_left' Endian.ofUInt32_length]
    exact splitOctets_append Endian.ofUInt32_length
  apply (execAll_cons (exec_read hoctets)).trans
  simp only [execAll, State.bind, ReadType.value, Endian.toNat_ofUInt32, start]

theorem trace_messageDecoder (hinput : input = Host.endian.ofUInt32 n ++ body) :
    (messageDecoder readType bits.toNat ops).trace input =
      (messageDecoder readType bits.toNat ops).loop.trace input 1 input.length 0
        (start input n.toNat) := by
  rw [trace, exec_prologue hinput]
  rfl

theorem stops_iff (hs : Reading input size N k s) :
    (messageDecoder readType bits.toNat ops).loop.stops (0 + k * 1) s.env = true ↔ N ≤ k := by
  have hstop : (messageDecoder readType bits.toNat ops).loop.stop.bind (·.eval s.env) = some (N : ℤ) := by
    exact hs.count
  simp [Loop.stops, hstop]

-- All iterations succeed if there are a timestamp and a message for each of them.
theorem trace_map_eq {f : Env → α} {g : ℕ → α} (hinput : input = Host.endian.ofUInt32 n ++ body)
    (hread : ReadAs type name bits readType) (hops : FieldOps 1 fields ops)
    (hle : ∀ k < n.toNat, 4 + type.size * (k + 1) ≤ input.length ∧
      4 + type.size * n.toNat + 69 * k + (fields.map readSize).sum ≤ input.length)
    (hg : ∀ k < n.toNat, ∀ s, f (sampleEnv type fields input n.toNat k s) = g k) :
    ((messageDecoder readType bits.toNat ops).trace input).map (fun x =>
        (accesses input (loopBody readType bits.toNat ops) x.1, x.2.samples.map f)) =
      (List.range n.toNat).map fun k =>
        (messageAccesses type.size n.toNat k (fields.map readSize), [g k]) := by
  have hfuel : n.toNat ≤ input.length := by
    by_cases hzero : n.toNat = 0
    case pos => omega
    case neg =>
      obtain ⟨htimes, _⟩ := hle (n.toNat - 1) (by omega)
      rw [Nat.sub_add_cancel (by omega)] at htimes
      have hmul : n.toNat ≤ type.size * n.toNat := Nat.le_mul_of_pos_left n.toNat hread.pos
      omega
  rw [trace_messageDecoder hinput]
  refine Loop.trace_map_eq (P := Reading input type.size n.toNat) (fun k hk s hs => ⟨?_, ?_⟩)
    (fun s hs => .inl ?_) hfuel reading_start
  case refine_1 =>
    rw [← Bool.not_eq_true, stops_iff hs]
    omega
  case refine_2 =>
    obtain ⟨s', hexec, haccesses, hsamples, hs'⟩ :=
      loopBody_exec hread hops hs (hle k hk).left (hle k hk).right
    rw [Int.mul_one, Int.zero_add]
    refine ⟨s', hexec, Prod.ext haccesses ?_, hs'⟩
    rw [hsamples, List.map_singleton, hg k hk s]
  case refine_3 => exact (stops_iff hs).mpr le_rfl

theorem iterationAccesses_eq (hinput : input = Host.endian.ofUInt32 n ++ body)
    (hread : ReadAs type name bits readType) (hops : FieldOps 1 fields ops)
    (hle : ∀ k < n.toNat, 4 + type.size * (k + 1) ≤ input.length ∧
      4 + type.size * n.toNat + 69 * k + (fields.map readSize).sum ≤ input.length) :
    (messageDecoder readType bits.toNat ops).iterationAccesses input =
      (List.range n.toNat).map fun k => messageAccesses type.size n.toNat k (fields.map readSize) := by
  have htrace := congrArg (List.map Prod.fst) <|
    trace_map_eq (f := fun _ => ()) (g := fun _ => ()) hinput hread hops hle fun _ _ _ => rfl
  rw [List.map_map, List.map_map] at htrace
  exact htrace

-- What an iteration that succeeds has read.
theorem iterationAccesses_getElem? (hinput : input = Host.endian.ofUInt32 n ++ body)
    (hread : ReadAs type name bits readType) (hops : FieldOps 1 fields ops)
    (hle : 4 + type.size * n.toNat + 69 * n.toNat ≤ input.length)
    (h : ((messageDecoder readType bits.toNat ops).iterationAccesses input)[k]? = some as) :
    as = messageAccesses type.size n.toNat k (fields.map readSize) := by
  rw [iterationAccesses, trace_messageDecoder hinput] at h
  refine Loop.trace_getElem? (P := Reading input type.size n.toNat)
    (g := fun k => messageAccesses type.size n.toNat k (fields.map readSize))
    (fun k s s' hs hstops hexec => ?_) reading_start h
  have hk : k < n.toNat := by
    rw [← Bool.not_eq_true, stops_iff hs] at hstops
    omega
  have htime : type.size * (k + 1) ≤ type.size * n.toNat := Nat.mul_le_mul_left _ hk
  rw [Int.mul_one, Int.zero_add] at hexec ⊢
  have hmessage := le_of_loopBody hread hops hs (by omega) (by omega) hexec
  obtain ⟨_, hexec', haccesses, _, hs'⟩ := loopBody_exec hread hops hs (by omega) hmessage
  cases hexec.symm.trans hexec'
  exact ⟨haccesses, hs'⟩

end

section

variable {type : SampleType} {name : Bytes} {bits : UInt32} {readType : ReadType}
  {es : List Element} {ops : List Op}

-- The expressions that the constructor puts together.
theorem ofText_offsets (h : bits ∈ ([8, 16, 32, 64] : List UInt32)) :
    Expr.ofText (str "\x7b" ++ Decimal.ofNat 4 ++ str " + (" ++ Decimal.ofNat (bits.toNat / 8) ++
      str " * $n) + (69 * $i)\x7d") = some (messageOffset (bits.toNat / 8)) ∧
    Expr.ofText (str "\x7b" ++ Decimal.ofNat (4 + bits.toNat / 8) ++ str " + (" ++
      Decimal.ofNat (bits.toNat / 8) ++ str " * $i)\x7d") = some (timeOffset (bits.toNat / 8)) := by
  simp only [List.mem_cons, List.not_mem_nil, or_false] at h
  obtain rfl | rfl | rfl | rfl := h
  all_goals decide +kernel

variable [Host]

theorem loopElement_eq : loopElement name bits es = {
    name       := str "loop"
    attributes := [⟨str "var", str "i"⟩, ⟨str "start", str "0"⟩, ⟨str "end", str "\x7b$n\x7d"⟩]
    children   := [
      read (str "v0") name bits,
      seek (str "start") (str "\x7b" ++ Decimal.ofNat 4 ++ str " + (" ++
        Decimal.ofNat (bits.toNat / 8) ++ str " * $n) + (69 * $i)\x7d")] ++ es ++ [
      sample,
      seek (str "start") (str "\x7b" ++ Decimal.ofNat (4 + bits.toNat / 8) ++ str " + (" ++
        Decimal.ofNat (bits.toNat / 8) ++ str " * $i)\x7d")] } := by
  simp [loopElement, Element.foldl_addChild, Element.addChild, Element.addAttribute]

theorem ofElement_loopElement (hread : ReadAs type name bits readType)
    (hbits : bits ∈ ([8, 16, 32, 64] : List UInt32)) (hes : es.mapM Op.ofElement = some ops) :
    Loop.ofElement (loopElement name bits es) = some (messageDecoder readType bits.toNat ops).loop := by
  obtain ⟨hmessage, htime⟩ := ofText_offsets hbits
  have hi : text (str "i") = "i" := by decide +kernel
  have hv0 : text (str "v0") = "v0" := by decide +kernel
  have hstart : Expr.ofText (str "0") = some (.num 0) := by decide +kernel
  have hstop : Expr.ofText (str "\x7b$n\x7d") = some (.var "n") := by decide +kernel
  have hv0 : Op.ofElement (read (str "v0") name bits) =
      some (.read "v0" readType bits.toNat Host.endian none) := by
    rw [Op.ofElement_read hread.ofText hread.ne_raw, hv0]
  have hbody : (loopElement name bits es).children.mapM Op.ofElement =
      some (loopBody readType bits.toNat ops) := by
    rw [loopElement_eq]
    simp only [List.mapM_append, List.mapM_cons, List.mapM_nil, hv0, hes, Op.ofElement_seek hmessage,
      Op.ofElement_seek htime, Op.ofElement_sample]
    rfl
  rw [loopElement_eq] at hbody ⊢
  rw [Loop.ofElement_eq rfl rfl (exprOfAttribute?_eq rfl hstart) rfl (exprOfAttribute?_eq rfl hstop)
    hbody, hi]
  rfl

-- The decoder that the metadata of a channel declares.
theorem ofMetadata_declaration {value domain : DataDescriptor} {testId : UInt32} {signal : Signal}
    {w : Writer}
    (h : SignalHandler.declaration .can testId signal (some value) (some domain) w = .ok es) :
    ∃ name bits readType ops, ReadAs domain.sampleType name bits readType ∧
      FieldOps 1 value.structFields ops ∧
      Decoder.ofMetadata (Element.serializeAll 1 es) =
        some (messageDecoder readType bits.toNat ops) := by
  have hwellFormed := (built_of_elements h).wellFormed
  simp only [SignalHandler.declaration, HandlerKind.elements, elements, Except.bind_eq_ok] at h
  obtain ⟨_, hdomain, _, hvalue, ⟨name, bits⟩, htype, fields, hfields, h⟩ := h
  cases hdomain
  cases hvalue
  cases h
  have hbits : bits ∈ ([8, 16, 32, 64] : List UInt32) := by
    revert htype
    cases domain.sampleType
    all_goals
      intro htype
      cases htype
    all_goals decide
  obtain ⟨readType, hread⟩ := readAs htype
  obtain ⟨ops, hops, hfieldOps⟩ := fieldOps_of_fieldElements hfields
  have hn : text (str "n") = "n" := by decide +kernel
  have hprologue : [read (str "n") (str "uint") 32].mapM Op.ofElement =
      some (messageDecoder readType bits.toNat ops).prologue := by
    have huint : Op.ofElement (read (str "n") (str "uint") 32) =
        some (.read (text (str "n")) .uint 32 Host.endian none) := by
      exact Op.ofElement_read (by decide) (by decide)
    simp [huint, hn, messageDecoder]
  refine ⟨name, bits, readType, ops, hread, hfieldOps, ?_⟩
  rw [Decoder.ofMetadata, parse_serializeAll hwellFormed, Option.bind_eq_bind, Option.bind_some,
    List.head?_cons, Option.bind_eq_bind, Option.bind_some]
  exact ofElement_eq rfl rfl hprologue (ofElement_loopElement hread hbits hops)

variable {packet : DataPacket} {domainPacket : DomainPacket}

-- A packet is written if it is as long as its count demands.
theorem segments_eq {n : UInt32} (hdomain : packet.domainPacket = some domainPacket)
    (hcount : packet.sampleCount.toUInt32 = n) :
    HandlerKind.can.segments packet =
      if 69 * n.toNat ≤ packet.rawData.length ∧ 8 * n.toNat ≤ domainPacket.rawData.length then
        some [Host.endian.ofUInt32 n, domainPacket.rawData, packet.rawData]
      else none := by
  have hsize : n.toNat * OPENDAQ_CAN_MESSAGE = 69 * n.toNat := Nat.mul_comm _ _
  simp only [HandlerKind.segments, hdomain, hcount, Option.bind_eq_bind, Option.bind_some, hsize]
  by_cases hvalues : packet.rawData.length < 69 * n.toNat
  case pos => rw [if_pos hvalues, if_neg (by omega)]
  case neg =>
    by_cases htimes : domainPacket.rawData.length < n.toNat * 8
    case pos => rw [if_neg hvalues, if_pos htimes, if_neg (by omega)]
    case neg =>
      rw [if_neg hvalues, if_neg htimes, if_pos (by omega)]
      rfl

variable [Crc32] {handler : CanSignalHandler} {args : List Bytes}

-- What the handler does with a packet.
theorem onDataPacketReceived_eq_writeBlock (h : HandlerKind.can.segments packet = some args) :
    onDataPacketReceived handler packet = Writer.writeBlock handler.group args := by
  funext w
  change (SignalHandler.onDataPacketReceived (.can handler) packet).run w = _
  rw [SignalHandler.onDataPacketReceived_run, SignalHandler.kind, h]
  rfl

theorem onDataPacketReceived_eq_pure (h : HandlerKind.can.segments packet = none) :
    onDataPacketReceived handler packet = pure () := by
  funext w
  change (SignalHandler.onDataPacketReceived (.can handler) packet).run w = _
  rw [SignalHandler.onDataPacketReceived_run, SignalHandler.kind, h]
  rfl

end
end CanSignalHandler
end AdvancedRecorder
