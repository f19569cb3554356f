import OpenDaqModules.Library.Endian

namespace Sie

def SYNC_WORD : UInt32 :=
  0x51EDA7A0

namespace groups

def METADATA : UInt32 :=
  0

def INDEX : UInt32 :=
  1

end groups

structure BlockHeader where
  size  : UInt32
  group : UInt32
  sync  : UInt32

-- All members of the packed structures of the format are big-endian.
def BlockHeader.toBytes (h : BlockHeader) : Bytes :=
  Endian.big.ofUInt32 h.size ++ Endian.big.ofUInt32 h.group ++ Endian.big.ofUInt32 h.sync

structure BlockFooter where
  checksum : UInt32
  size     : UInt32

def BlockFooter.toBytes (f : BlockFooter) : Bytes :=
  Endian.big.ofUInt32 f.checksum ++ Endian.big.ofUInt32 f.size

structure IndexEntry where
  offset : UInt64
  group  : UInt32
  deriving DecidableEq, Repr

def IndexEntry.toBytes (e : IndexEntry) : Bytes :=
  Endian.big.ofUInt64 e.offset ++ Endian.big.ofUInt32 e.group

@[simp]
theorem BlockHeader.toBytes_length {h : BlockHeader} : h.toBytes.length = 12 := by
  simp [toBytes]

@[simp]
theorem BlockFooter.toBytes_length {f : BlockFooter} : f.toBytes.length = 8 := by
  simp [toBytes]

@[simp]
theorem IndexEntry.toBytes_length {e : IndexEntry} : e.toBytes.length = 12 := by
  simp [toBytes]

-- The bytes of a C++ string literal.
def str (s : String) : Bytes :=
  s.toUTF8.data.toList

def PREAMBLE : Bytes := List.flatten [
  str "<?xml version=\"1.0\" encoding=\"UTF-8\"?>\n",
  str "<sie version=\"0.1\" xmlns=\"http://www.somat.com/SIE\">\n",
  str "\n",
  str "<!-- SIE Format standard definitions -->\n",
  str "\n",
  str "<!-- SIE Stream decoder -->\n",
  str "\n",
  str " <decoder id=\"0\">\n",
  str "  <loop>\n",
  str "   <read var=\"size\" bits=\"32\" type=\"uint\" endian=\"big\"/>\n",
  str "   <read var=\"group\" bits=\"32\" type=\"uint\" endian=\"big\"/>\n",
  str "   <read var=\"magic\" bits=\"32\" type=\"uint\" endian=\"big\" value=\"0x51EDA7A0\"/>\n",
  str "   <read var=\"payload\" octets=\"\x7b$size - 20\x7d\" type=\"raw\" group=\"\x7b$group\x7d\"/>\n",
  str "   <read var=\"checksum\" bits=\"32\" type=\"uint\" endian=\"big\"/>\n",
  str "   <read var=\"size2\" bits=\"32\" type=\"uint\" endian=\"big\" value=\"\x7b$size\x7d\"/>\n",
  str "  </loop>\n",
  str " </decoder>\n",
  str "\n",
  str " <tag id=\"sie:xml_metadata\" group=\"0\" format=\"text/xml\"/>\n",
  str "\n",
  str "<!-- Index Block decoder: v0=offset, v1=group -->\n",
  str "\n",
  str " <tag id=\"SIE:BlockIndex\" group=\"1\" decoder=\"1\"/>\n",
  str "\n",
  str " <decoder id=\"1\">\n",
  str "  <loop>\n",
  str "   <read var=\"v0\" bits=\"64\" type=\"uint\" endian=\"big\"/>\n",
  str "   <read var=\"v1\" bits=\"32\" type=\"uint\" endian=\"big\"/>\n",
  str "   <sample/>\n",
  str "  </loop>\n",
  str " </decoder>\n",
  str "\n",
  str "<!-- Stream-specific definitions begin here -->\n",
  str "\n"
]

end Sie
