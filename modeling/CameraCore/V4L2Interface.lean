import CameraCore.DeviceProgram
import CameraCore.Types

/-!
# What the V4L2 backend asks of the system

The structures of `linux/videodev2.h` with the fields the backend sets or reads,
and one request for each call it makes on the open device: the ioctls, `open`,
`mmap`, `poll`, and an allocation that may throw. `retryIoctl` is the loop around
an ioctl that was interrupted by a signal; `poll` has a loop of its own.
-/

namespace CameraCore

open DeviceProgram

/-- `v4l2_buf_type`, the two capture values of it. -/
inductive CaptureType
  | videoCapture
  | videoCaptureMplane
deriving DecidableEq, Repr

def videoMaxPlanes : ℕ := 8

structure V4L2Capability where
  driver : List Char
  card : List Char
  busInfo : List Char
  capabilities : UInt32
  deviceCaps : UInt32

structure V4L2Fmtdesc where
  description : List Char
  pixelformat : UInt32

/-- `v4l2_frmsizeenum`: a discrete size or the bounds of a stepwise range. -/
inductive V4L2Frmsize
  | discrete (width height : UInt32)
  | stepwise (minWidth maxWidth stepWidth minHeight maxHeight stepHeight : UInt32)
deriving DecidableEq

structure V4L2Fract where
  numerator : UInt32
  denominator : UInt32
deriving DecidableEq

/-- `v4l2_frmivalenum`; the step of a stepwise range is not read. -/
inductive V4L2Frmival
  | discrete (interval : V4L2Fract)
  | stepwise (min max : V4L2Fract)
deriving DecidableEq

/-- The part of `v4l2_format` set by the driver: the fields of `fmt.pix`, or of
`fmt.pix_mp` with one `bytesperline` for each entry of `plane_fmt`. -/
structure V4L2Format where
  width : UInt32
  height : UInt32
  pixelformat : UInt32
  bytesperline : UInt32
  numPlanes : UInt32
  planeBytesperline : Fin videoMaxPlanes → UInt32

structure V4L2Plane where
  bytesused : UInt32 := 0
  length : UInt32 := 0
  memOffset : UInt32 := 0
  dataOffset : UInt32 := 0
deriving DecidableEq, Repr

structure V4L2Timeval where
  tvSec : Int64 := 0
  tvUsec : Int64 := 0
deriving DecidableEq, Repr

/-- `v4l2_buffer` as an ioctl leaves it, with the array behind `m.planes`. -/
structure V4L2Buffer where
  index : ℕ
  bytesused : UInt32 := 0
  flags : UInt32 := 0
  timestamp : V4L2Timeval := {}
  sequence : UInt32 := 0
  length : UInt32 := 0
  offset : UInt32 := 0
  planes : Fin videoMaxPlanes → V4L2Plane := fun _ => {}

inductive Ioctl
  | querycap
  | enumFmt (index : UInt32) (type : CaptureType)
  | enumFramesizes (index pixelFormat : UInt32)
  | enumFrameintervals (index pixelFormat width height : UInt32)
  | sFmt (type : CaptureType) (width height pixelformat : UInt32)
  | sParm (type : CaptureType) (timeperframe : V4L2Fract)
  | reqbufs (count : UInt32) (type : CaptureType)
  | querybuf (index : ℕ) (type : CaptureType)
  | qbuf (index : ℕ) (type : CaptureType) (planes : ℕ)
  | dqbuf (type : CaptureType)
  | streamon (type : CaptureType)
  | streamoff (type : CaptureType)
deriving DecidableEq

abbrev Ioctl.Payload : Ioctl → Type
  | .querycap => V4L2Capability
  | .enumFmt _ _ => V4L2Fmtdesc
  | .enumFramesizes _ _ => V4L2Frmsize
  | .enumFrameintervals _ _ _ _ => V4L2Frmival
  | .sFmt _ _ _ _ => V4L2Format
  | .sParm _ _ => V4L2Fract
  | .reqbufs _ _ => UInt32
  | .querybuf _ _ => V4L2Buffer
  | .qbuf _ _ _ => Unit
  | .dqbuf _ => V4L2Buffer
  | .streamon _ => Unit
  | .streamoff _ => Unit

/-- One `poll` call: the milliseconds it slept, and its result. -/
structure PollAnswer where
  waited : ℚ
  result : Except Errno ℕ

inductive Request
  | ioctl (request : Ioctl)
  | openFile (path : String)
  | mmap (length : UInt64) (offset : UInt32)
  | poll (timeout : ℕ)
  | allocate
deriving DecidableEq

abbrev Request.Answer : Request → Type
  | .ioctl request => Except Errno request.Payload
  | .openFile _ => Except Errno Unit
  | .mmap _ _ => Except Errno ℕ
  | .poll _ => PollAnswer
  | .allocate => Bool

abbrev linux : Interface := ⟨Request, Request.Answer⟩

abbrev Syscalls (α : Type) := Program linux α

abbrev Log := List (Event linux)

def ioctl (request : Ioctl) : Syscalls (Except Errno request.Payload) :=
  Program.request (I := linux) (.ioctl request)

def poll (timeout : ℕ) : Syscalls PollAnswer := Program.request (I := linux) (.poll timeout)

def mmap (length : UInt64) (offset : UInt32) : Syscalls (Except Errno ℕ) :=
  Program.request (I := linux) (.mmap length offset)

/-- An allocation; `false` when it throws `std::bad_alloc`. -/
def allocate : Syscalls Bool := Program.request (I := linux) .allocate

/-- The condition of the loop in `retry_ioctl`. -/
def interrupted : (r : Request) → r.Answer → Prop
  | .ioctl _, .error error => error = Errno.eintr
  | _, _ => False

/-- The device as the backend sees it: every ioctl goes through `retry_ioctl`. -/
def retryIoctl {σ : Type} (D : Device linux σ) : Device linux σ :=
  Retried (I := linux) D interrupted

end CameraCore
