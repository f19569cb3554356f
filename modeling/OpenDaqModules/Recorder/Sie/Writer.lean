import OpenDaqModules.Recorder.Sie.IndexedWriter

namespace Sie

-- The identifiers are taken from counters which wrap around at 32 bits: an identifier is what
-- remains of its counter. Every channel of a file gets another one of the random `uuids`.
structure Writer where
  nextChannelId : ℕ := 0
  nextDecoderId : ℕ := 2
  nextGroup     : ℕ := 2
  nextTestId    : ℕ := 2
  writer        : IndexedWriter
  uuids         : ℕ → Bytes

namespace Writer

def file (w : Writer) : File :=
  w.writer.file

def allocateChannel : EStateM Error Writer UInt32 :=
  modifyGet fun w => (UInt32.ofNat w.nextChannelId, { w with nextChannelId := w.nextChannelId + 1 })

def allocateDecoder : EStateM Error Writer UInt32 :=
  modifyGet fun w => (UInt32.ofNat w.nextDecoderId, { w with nextDecoderId := w.nextDecoderId + 1 })

def allocateGroup : EStateM Error Writer UInt32 :=
  modifyGet fun w => (UInt32.ofNat w.nextGroup, { w with nextGroup := w.nextGroup + 1 })

def allocateTest : EStateM Error Writer UInt32 :=
  modifyGet fun w => (UInt32.ofNat w.nextTestId, { w with nextTestId := w.nextTestId + 1 })

variable [Crc32]

def writeBlock (group : UInt32) (args : List Bytes) : EStateM Error Writer Unit :=
  EStateM.zoom Writer.writer (fun v w => { w with writer := v })
    (IndexedWriter.writeBlock group args)

def writeMetadata (xml : Bytes) : EStateM Error Writer Unit :=
  writeBlock groups.METADATA [xml]

end Writer
end Sie
