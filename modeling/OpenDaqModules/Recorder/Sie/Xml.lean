import OpenDaqModules.Library.Decimal
import OpenDaqModules.Recorder.Host
import OpenDaqModules.Recorder.Sie.Format

namespace Sie

namespace Xml

structure Attribute where
  id    : Bytes
  value : Bytes
  deriving DecidableEq, Repr

structure Element where
  name       : Bytes
  attributes : List Attribute := []
  children   : List Element   := []
  content    : Bytes          := []

def escapedByte : UInt8 → Bytes
  | 0x22 => str "&quot;"
  | 0x27 => str "&apos;"
  | 0x3c => str "&lt;"
  | 0x3e => str "&gt;"
  | 0x26 => str "&amp;"
  | ch   => [ch]

def escapedString (s : Bytes) : Bytes :=
  s.flatMap escapedByte

def spaces (indent : ℕ) : Bytes :=
  List.replicate indent 0x20

def Attribute.serialize (a : Attribute) : Bytes :=
  str " " ++ a.id ++ str "=\"" ++ escapedString a.value ++ str "\""

namespace Element

def addAttribute (e : Element) (id value : Bytes) : Element :=
  { e with attributes := e.attributes ++ [{ id, value }] }

def addChild (e child : Element) : Element :=
  { e with children := e.children ++ [child] }

def setContent (e : Element) (content : Bytes) : Element :=
  { e with content }

def openingTag (e : Element) : Bytes :=
  str "<" ++ e.name ++ e.attributes.flatMap Attribute.serialize

def closingTag (e : Element) : Bytes :=
  str "</" ++ e.name ++ str ">\n"

mutual

def serialize (indent : ℕ) : Element → Bytes
  | ⟨name, attributes, children, content⟩ =>
    spaces indent ++ openingTag { name, attributes } ++
      if content.isEmpty && children.isEmpty then str "/>\n"
      else if !content.isEmpty then
        str ">" ++ escapedString content ++ closingTag { name }
      else
        str ">\n" ++ serializeAll (indent + 1) children ++ spaces indent ++ closingTag { name }

def serializeAll (indent : ℕ) : List Element → Bytes
  | []      => []
  | e :: es => serialize indent e ++ serializeAll indent es

end

end Element
end Xml

open Xml

def channel (id group : UInt32) (name : Bytes) : Element :=
  ({ name := str "ch" } : Element)
    |>.addAttribute (str "id") (Decimal.ofNat id.toNat)
    |>.addAttribute (str "group") (Decimal.ofNat group.toNat)
    |>.addAttribute (str "name") name

def data (decoderId variableId : UInt32) : Element :=
  ({ name := str "data" } : Element)
    |>.addAttribute (str "decoder") (Decimal.ofNat decoderId.toNat)
    |>.addAttribute (str "v") (Decimal.ofNat variableId.toNat)

def decoder (id : UInt32) : Element :=
  ({ name := str "decoder" } : Element)
    |>.addAttribute (str "id") (Decimal.ofNat id.toNat)

def dimension (id : UInt32) : Element :=
  ({ name := str "dim" } : Element)
    |>.addAttribute (str "index") (Decimal.ofNat id.toNat)

def read [Host] (var type : Bytes) (bits : UInt32) : Element :=
  ({ name := str "read" } : Element)
    |>.addAttribute (str "var") var
    |>.addAttribute (str "type") type
    |>.addAttribute (str "bits") (Decimal.ofNat bits.toNat)
    |>.addAttribute (str "endian") Host.nativeEndian

def readRaw (var : Bytes) (octets : UInt64) : Element :=
  ({ name := str "read" } : Element)
    |>.addAttribute (str "var") var
    |>.addAttribute (str "type") (str "raw")
    |>.addAttribute (str "octets") (Decimal.ofNat octets.toNat)

def sample : Element :=
  { name := str "sample" }

-- The attribute `from` is a keyword of this language, hence `origin`.
def seek (origin offset : Bytes) : Element :=
  ({ name := str "seek" } : Element)
    |>.addAttribute (str "from") origin
    |>.addAttribute (str "offset") offset

def tag (id value : Bytes) : Element :=
  ({ name := str "tag" } : Element)
    |>.addAttribute (str "id") id
    |>.setContent value

def test (id : UInt32) : Element :=
  ({ name := str "test" } : Element)
    |>.addAttribute (str "id") (Decimal.ofNat id.toNat)

def transform [Host] (scale offset : Host.Double) : Element :=
  ({ name := str "xform" } : Element)
    |>.addAttribute (str "scale") (Host.scientific scale)
    |>.addAttribute (str "offset") (Host.scientific offset)

def units (name : Bytes) : Element :=
  ({ name := str "units" } : Element)
    |>.setContent name

end Sie
