import OpenDaqModules.Devices.Camera
import OpenDaqModules.Devices.Mtig710
import OpenDaqModules.Devices.Packets
import OpenDaqModules.Devices.Theorems.Frames
import OpenDaqModules.Devices.Theorems.Lifecycle
import OpenDaqModules.Devices.Theorems.Whole
import OpenDaqModules.Library.BatchLog
import OpenDaqModules.Library.Binary64
import OpenDaqModules.Library.Decimal
import OpenDaqModules.Library.Endian
import OpenDaqModules.Library.Enumerated
import OpenDaqModules.Library.Exec
import OpenDaqModules.Library.Framing
import OpenDaqModules.Library.Looped
import OpenDaqModules.Library.Pace
import OpenDaqModules.Library.Rounding
import OpenDaqModules.Library.Schedule
import OpenDaqModules.Library.Scientific
import OpenDaqModules.Library.Stamps
import OpenDaqModules.Library.Updates
import OpenDaqModules.Library.WeakRefs
import OpenDaqModules.Playback.AcqLoop
import OpenDaqModules.Playback.Cells
import OpenDaqModules.Playback.Channel
import OpenDaqModules.Playback.Clock
import OpenDaqModules.Playback.Collect
import OpenDaqModules.Playback.Counting
import OpenDaqModules.Playback.CsvFile
import OpenDaqModules.Playback.DataSource
import OpenDaqModules.Playback.Device
import OpenDaqModules.Playback.DeviceLog
import OpenDaqModules.Playback.DeviceModule
import OpenDaqModules.Playback.Entries
import OpenDaqModules.Playback.FileData
import OpenDaqModules.Playback.Integers
import OpenDaqModules.Playback.Platform
import OpenDaqModules.Playback.Steps
import OpenDaqModules.Playback.Theorems.Advertised
import OpenDaqModules.Playback.Theorems.Alignment
import OpenDaqModules.Playback.Theorems.Columns
import OpenDaqModules.Playback.Theorems.ConnectionString
import OpenDaqModules.Playback.Theorems.Delta
import OpenDaqModules.Playback.Theorems.FailedLoad
import OpenDaqModules.Playback.Theorems.Gapless
import OpenDaqModules.Playback.Theorems.LogReads
import OpenDaqModules.Playback.Theorems.NewSamples
import OpenDaqModules.Playback.Theorems.Pace
import OpenDaqModules.Playback.Theorems.Period
import OpenDaqModules.Playback.Theorems.Registry
import OpenDaqModules.Playback.Theorems.Reload
import OpenDaqModules.Playback.Theorems.Representation
import OpenDaqModules.Playback.Theorems.TimeLine
import OpenDaqModules.Playback.Theorems.Zeroing
import OpenDaqModules.Recorder.Ahead
import OpenDaqModules.Recorder.CanDecoder
import OpenDaqModules.Recorder.Channels
import OpenDaqModules.Recorder.Descriptor
import OpenDaqModules.Recorder.Files
import OpenDaqModules.Recorder.Growth
import OpenDaqModules.Recorder.Handlers.Can
import OpenDaqModules.Recorder.Handlers.ScalarLinear
import OpenDaqModules.Recorder.Host
import OpenDaqModules.Recorder.Identifiers
import OpenDaqModules.Recorder.Impl
import OpenDaqModules.Recorder.Linked
import OpenDaqModules.Recorder.Metadata
import OpenDaqModules.Recorder.PacketSamples
import OpenDaqModules.Recorder.Packets
import OpenDaqModules.Recorder.Ports
import OpenDaqModules.Recorder.Roles
import OpenDaqModules.Recorder.Runs
import OpenDaqModules.Recorder.Samples
import OpenDaqModules.Recorder.Serving
import OpenDaqModules.Recorder.Sie.BlockLog
import OpenDaqModules.Recorder.Sie.BlockStream
import OpenDaqModules.Recorder.Sie.BlockWriter
import OpenDaqModules.Recorder.Sie.Declarations
import OpenDaqModules.Recorder.Sie.Decoder
import OpenDaqModules.Recorder.Sie.DecoderElement
import OpenDaqModules.Recorder.Sie.Expression
import OpenDaqModules.Recorder.Sie.FallbackVectorIoFile
import OpenDaqModules.Recorder.Sie.File
import OpenDaqModules.Recorder.Sie.Format
import OpenDaqModules.Recorder.Sie.Halted
import OpenDaqModules.Recorder.Sie.Index
import OpenDaqModules.Recorder.Sie.IndexBlock
import OpenDaqModules.Recorder.Sie.IndexReader
import OpenDaqModules.Recorder.Sie.IndexedWriter
import OpenDaqModules.Recorder.Sie.PosixVectorIoFile
import OpenDaqModules.Recorder.Sie.Reader
import OpenDaqModules.Recorder.Sie.Standard
import OpenDaqModules.Recorder.Sie.Theorems.FailedFlush
import OpenDaqModules.Recorder.Sie.Theorems.FailedWrite
import OpenDaqModules.Recorder.Sie.Theorems.Index
import OpenDaqModules.Recorder.Sie.Theorems.Offset
import OpenDaqModules.Recorder.Sie.Theorems.Seek
import OpenDaqModules.Recorder.Sie.Trace
import OpenDaqModules.Recorder.Sie.VectorIoFile
import OpenDaqModules.Recorder.Sie.Writer
import OpenDaqModules.Recorder.Sie.WriterLog
import OpenDaqModules.Recorder.Sie.Xml
import OpenDaqModules.Recorder.Sie.XmlReader
import OpenDaqModules.Recorder.Signal
import OpenDaqModules.Recorder.Steps
import OpenDaqModules.Recorder.Stored
import OpenDaqModules.Recorder.Theorems.CanAcceptance
import OpenDaqModules.Recorder.Theorems.CanSamples
import OpenDaqModules.Recorder.Theorems.Declared
import OpenDaqModules.Recorder.Theorems.Flag
import OpenDaqModules.Recorder.Theorems.Follows
import OpenDaqModules.Recorder.Theorems.Indexed
import OpenDaqModules.Recorder.Theorems.Interference
import OpenDaqModules.Recorder.Theorems.Joined
import OpenDaqModules.Recorder.Theorems.Lengths
import OpenDaqModules.Recorder.Theorems.Linearized
import OpenDaqModules.Recorder.Theorems.Loss
import OpenDaqModules.Recorder.Theorems.PortList
import OpenDaqModules.Recorder.Theorems.PostScaling
import OpenDaqModules.Recorder.Theorems.Preamble
import OpenDaqModules.Recorder.Theorems.RoundTrip
import OpenDaqModules.Recorder.Theorems.ScalarSamples
import OpenDaqModules.Recorder.Theorems.Separation
import OpenDaqModules.Recorder.Theorems.Serialized
import OpenDaqModules.Recorder.Theorems.Stored
import OpenDaqModules.Recorder.Theorems.Torn
import OpenDaqModules.Recorder.Theorems.Transform
import OpenDaqModules.Recorder.Threads
