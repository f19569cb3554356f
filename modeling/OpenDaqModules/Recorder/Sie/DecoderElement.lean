import OpenDaqModules.Recorder.Sie.Expression
import OpenDaqModules.Recorder.Sie.XmlReader

-- The decoders that the metadata of a file declares.
namespace Sie

open Xml

namespace Xml.Element

def attribute? (e : Element) (id : Bytes) : Option Bytes :=
  (e.attributes.find? (·.id = id)).map Attribute.value

end Xml.Element

namespace Decoder

def ReadType.ofText (type : Bytes) : Option ReadType :=
  if type = str "uint" then some .uint
  else if type = str "int" then some .int
  else if type = str "float" then some .float
  else none

def endianOfText (endian : Bytes) : Option Endian :=
  if endian = str "big" then some .big
  else if endian = str "little" then some .little
  else none

def natOfText (s : Bytes) : Option ℕ := do
  match ← tokens s with
  | [.number n] => some n
  | _           => none

-- An attribute that may be missing.
def exprOfAttribute? (e : Element) (id : Bytes) : Option (Option Expr) :=
  match e.attribute? id with
  | none       => some none
  | some value => (Expr.ofText value).map some

namespace Op

def ofRead (e : Element) : Option Op := do
  let var ← e.attribute? (str "var")
  let type ← e.attribute? (str "type")
  if type = str "raw" then
    return .readRaw (text var) (← Expr.ofText (← e.attribute? (str "octets")))
  else
    let bits ← natOfText (← e.attribute? (str "bits"))
    let endian ← endianOfText (← e.attribute? (str "endian"))
    return .read (text var) (← ReadType.ofText type) bits endian (← exprOfAttribute? e (str "value"))

def ofSeek (e : Element) : Option Op := do
  if e.attribute? (str "from") = some (str "start") then
    return .seek (← Expr.ofText (← e.attribute? (str "offset")))
  else none

def ofElement (e : Element) : Option Op :=
  if e.name = str "read" then ofRead e
  else if e.name = str "seek" then ofSeek e
  else if e.name = str "sample" then some .sample
  else none

end Op

def Loop.ofElement (e : Element) : Option Loop := do
  if e.name ≠ str "loop" then none
  else
    let start ← exprOfAttribute? e (str "start")
    let increment ← exprOfAttribute? e (str "increment")
    return {
      var       := (e.attribute? (str "var")).map text
      start     := start.getD (.num 0)
      increment := increment.getD (.num 1)
      stop      := ← exprOfAttribute? e (str "end")
      body      := ← e.children.mapM Op.ofElement }

-- The loop of a decoder comes last.
def ofElement (e : Element) : Option Decoder := do
  if e.name ≠ str "decoder" then none
  else
    let loop ← Loop.ofElement (← e.children.getLast?)
    return { prologue := ← e.children.dropLast.mapM Op.ofElement, loop }

-- The decoder that a text of metadata starts with.
def ofMetadata (xml : Bytes) : Option Decoder := do
  let es ← parse xml
  ofElement (← es.head?)

variable {var name offset : Bytes} {bits : UInt32} {octets : UInt64} {readType : ReadType} {n : ℕ}

theorem natOfText_ofNat : natOfText (Decimal.ofNat n) = some n := by
  rw [natOfText, tokens_ofNat]
  rfl

namespace Op

theorem ofElement_sample : ofElement Sie.sample = some .sample :=
  rfl

theorem ofElement_seek {e : Expr} (h : Expr.ofText offset = some e) :
    ofElement (Sie.seek (str "start") offset) = some (.seek e) := by
  have hoffset : (Sie.seek (str "start") offset).attribute? (str "offset") = some offset := rfl
  have hfrom : (Sie.seek (str "start") offset).attribute? (str "from") = some (str "start") := rfl
  have hname : (Sie.seek (str "start") offset).name = str "seek" := rfl
  have hne : str "seek" ≠ str "read" := by decide
  rw [ofElement, hname, if_neg hne, if_pos rfl, ofSeek, if_pos hfrom, hoffset, Option.bind_eq_bind,
    Option.bind_some, h]
  rfl

theorem ofElement_readRaw :
    ofElement (Sie.readRaw var octets) = some (.readRaw (text var) (.num octets.toNat)) := by
  have hvar : (Sie.readRaw var octets).attribute? (str "var") = some var := rfl
  have htype : (Sie.readRaw var octets).attribute? (str "type") = some (str "raw") := rfl
  have hoctets : (Sie.readRaw var octets).attribute? (str "octets") =
      some (Decimal.ofNat octets.toNat) := rfl
  change ofRead _ = _
  simp only [ofRead, hvar, htype, hoctets, Option.bind_eq_bind, Option.bind_some, if_true,
    Expr.ofText_ofNat]
  rfl

theorem ofElement_read [Host] (hname : ReadType.ofText name = some readType) (hraw : name ≠ str "raw") :
    ofElement (Sie.read var name bits) =
      some (.read (text var) readType bits.toNat Host.endian none) := by
  have hvar : (Sie.read var name bits).attribute? (str "var") = some var := rfl
  have htype : (Sie.read var name bits).attribute? (str "type") = some name := rfl
  have hbits : (Sie.read var name bits).attribute? (str "bits") =
      some (Decimal.ofNat bits.toNat) := rfl
  have hendian : (Sie.read var name bits).attribute? (str "endian") = some Host.nativeEndian := rfl
  have hvalue : exprOfAttribute? (Sie.read var name bits) (str "value") = some none := rfl
  have hnative : endianOfText Host.nativeEndian = some Host.endian := by
    rw [Host.nativeEndian]
    cases Host.endian <;> rfl
  change ofRead _ = _
  simp only [ofRead, hvar, htype, hbits, hendian, hvalue, hnative, hname, hraw, natOfText_ofNat,
    Option.bind_eq_bind, Option.bind_some, if_false]
  rfl

end Op

variable {e loop : Element} {id value : Bytes} {x : Expr}

theorem exprOfAttribute?_eq (hattribute : e.attribute? id = some value)
    (hvalue : Expr.ofText value = some x) : exprOfAttribute? e id = some (some x) := by
  rw [exprOfAttribute?, hattribute]
  simp only [hvalue, Option.map_some]

theorem Loop.ofElement_eq {start increment stop : Option Expr} {body : List Op}
    (hname : e.name = str "loop") (hvar : e.attribute? (str "var") = some var)
    (hstart : exprOfAttribute? e (str "start") = some start)
    (hincrement : exprOfAttribute? e (str "increment") = some increment)
    (hstop : exprOfAttribute? e (str "end") = some stop)
    (hbody : e.children.mapM Op.ofElement = some body) :
    Loop.ofElement e = some {
      var       := some (text var)
      start     := start.getD (.num 0)
      increment := increment.getD (.num 1)
      stop
      body } := by
  rw [Loop.ofElement, if_neg (not_not.mpr hname)]
  simp [hstart, hincrement, hstop, hvar, hbody]

theorem ofElement_eq {ops : List Element} {prologue : List Op} {l : Loop}
    (hname : e.name = str "decoder") (hchildren : e.children = ops ++ [loop])
    (hprologue : ops.mapM Op.ofElement = some prologue) (hloop : Loop.ofElement loop = some l) :
    ofElement e = some { prologue, loop := l } := by
  rw [ofElement, if_neg (not_not.mpr hname)]
  simp [hchildren, hprologue, hloop]

end Decoder
end Sie
