import OpenDaqModules.Playback.Platform

namespace PlaybackDevice

-- The size of a file fits the offsets of streams.
structure LogFile where
  contents : Bytes
  small    : contents.length < 2 ^ 63

structure LogStream where
  contents : Bytes
  position : ℕ := 0
  failed   : Bool := false

namespace LogStream

-- A stream does not go to where there is nothing.
def seekg (stream : LogStream) (offset : ℤ) : LogStream :=
  if offset < 0 then { stream with failed := true } else { stream with position := offset.toNat }

-- The buffer after the call: what is not read leaves it as it was.
def read (stream : LogStream) (buffer : Bytes) : Bytes :=
  let bytes := if stream.failed then [] else (stream.contents.drop stream.position).take buffer.length
  bytes ++ buffer.drop bytes.length

end LogStream

-- What a device knows of its log.
structure Logging where
  loggingEnabled : Bool
  loggingPath    : Bytes

namespace Logging

inductive Error
  -- There is no vector of a negative size.
  | lengthError
  | undefinedBehaviour
  deriving DecidableEq

-- The file is what can be opened at the path of the log.
def onGetLog (d : Logging) (file : Option LogFile) (id : Bytes) (size offset : Int64) :
    Except Error Bytes :=
  if ¬d.loggingEnabled then .ok []
  else if id ≠ d.loggingPath then .ok []
  else
    match file with
    | none      => .ok []
    | some file =>
      let fileSize : ℤ := file.contents.length
      if offset.toInt ≥ fileSize then .ok []
      else
        let stream : LogStream := { contents := file.contents }
        let stream := stream.seekg offset.toInt
        -- Signed arithmetic may overflow.
        if fileSize - offset.toInt ≥ 2 ^ 63 then .error .undefinedBehaviour
        else
          let size := if size = -1 then fileSize - offset.toInt else min size.toInt (fileSize - offset.toInt)
          if size < 0 then .error .lengthError
          else .ok (stream.read (List.replicate size.toNat 0))

end Logging
end PlaybackDevice
