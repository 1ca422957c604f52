import CameraCore.DeviceProgram
import CameraCore.InterfaceSum
import CameraCore.LabelledSystem
import CameraCore.CriticalSections
import CameraCore.ResourcePool
import CameraCore.UniqueOwner
import CameraCore.FloatingPoint
import CameraCore.TextConversion
import CameraCore.DelimitedText
import CameraCore.Types
import CameraCore.V4L2Interface
import CameraCore.CaptureQueue
import CameraCore.V4L2State
import CameraCore.QueueProtocol
import CameraCore.BufferConservation
import CameraCore.ConformingDriver
import CameraCore.PlaneConstruction
import CameraCore.CaptureSystem
import CameraCore.PollTimeout
import CameraCore.FrameOwnership
import CameraCore.LeaseSafety
import CameraCore.MutexSections
import CameraCore.LeaseHistory
import CameraCore.StreamBalance
import CameraCore.BrokenQueue
import CameraCore.DeviceEnumeration
import CameraCore.EnumerationTables
import CameraCore.FormatNegotiation
import CameraCore.CameraConstruction
import CameraCore.ConstructedShape
import CameraCore.SyntheticCamera
import CameraCore.CameraFactory
import CameraCore.FrameRateNegotiation
import CameraCore.TimestampConversion
import CameraCore.SyntheticCalls
import CameraCore.SyntheticRuns
import CameraCore.SyntheticPacing
import CameraCore.SequentialHash
import CameraCore.FrameChecksum
import CameraCore.LinearCongruential
import CameraCore.SyntheticPayload
import CameraCore.InspectOptions
import CameraCore.ParseUint
import CameraCore.Assignments
import CameraCore.OptionValues
import CameraCore.OptionGrammar
import CameraCore.CommandLine
import CameraCore.BackendProtocol
import CameraCore.SingleThread
import CameraCore.WindingDown
import CameraCore.SyntheticGeometry
import CameraCore.SyntheticLayout
import CameraCore.FrameMemory
import CameraCore.ScopedConstruction
import CameraCore.ResourceLifetime
import CameraCore.OwningHandles
import CameraCore.V4L2Calls
import CameraCore.InspectOutput
import CameraCore.InspectTool
import CameraCore.InspectListing
import CameraCore.InspectRuns
import CameraCore.InspectMemory
import CameraCore.InspectSynthetic
import CameraCore.SyntheticCapture
