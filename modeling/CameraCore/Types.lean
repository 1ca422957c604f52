import Mathlib.Algebra.Order.Ring.Int
import CameraCore.FloatingPoint

/-!
# The public data types of the camera library

Enumerations, errors, configuration and capability records of `camera.hpp`, and
the frame record behind a `Frame`. A fixed-width field keeps its width. The
pointer of a plane and the lease of a frame are parameters, since the two
backends keep the bytes in different places.
-/

namespace CameraCore

open FloatingPoint

inductive BackendKind
  | v4l2
  | synthetic
deriving DecidableEq, Repr

inductive CaptureMode
  | auto
  | singlePlane
  | multiPlane
deriving DecidableEq, Repr

inductive PixelFormat
  | unknown
  | mjpeg
  | h264
  | yuyv
  | uyvy
  | rgb24
  | bgr24
  | nv12
  | grey
deriving DecidableEq, Repr

inductive TimestampClock
  | unknown
  | realtime
  | monotonic
deriving DecidableEq, Repr

inductive ErrorCode
  | invalidArgument
  | openFailed
  | systemError
  | unsupported
  | invalidState
  | timeout
deriving DecidableEq, Repr

def CaptureMode.toString : CaptureMode → String
  | .auto => "auto"
  | .singlePlane => "single-plane"
  | .multiPlane => "multi-plane"

def PixelFormat.toString : PixelFormat → String
  | .unknown => "unknown"
  | .mjpeg => "mjpeg"
  | .h264 => "h264"
  | .yuyv => "yuyv"
  | .uyvy => "uyvy"
  | .rgb24 => "rgb24"
  | .bgr24 => "bgr24"
  | .nv12 => "nv12"
  | .grey => "grey"

abbrev Errno := ℕ

namespace Errno

def eintr : Errno := 4
def eagain : Errno := 11
def einval : Errno := 22
def enotty : Errno := 25

end Errno

/-- The text of an error. `system_error_message` appends the `strerror` text and
the number of `error` to the operation's name. -/
inductive ErrorText
  | literal (text : String)
  | systemErrorMessage (operation : String) (error : Errno)
deriving DecidableEq, Repr

structure CameraError where
  code : ErrorCode
  message : ErrorText
  systemErrno : Errno := 0
deriving DecidableEq, Repr

/-- What a call of the library throws: its own error, or one of a standard container
that grows. -/
inductive Exception
  | cameraError (error : CameraError)
  | badAlloc
  | lengthError
deriving DecidableEq, Repr

namespace Exception

def camera (code : ErrorCode) (text : String) : Exception :=
  .cameraError { code := code, message := .literal text }

def throwSystemError (operation : String) (error : Errno)
    (code : ErrorCode := .systemError) : Exception :=
  .cameraError
    { code := code, message := .systemErrorMessage operation error, systemErrno := error }

/-- `e` is a `CameraError` with this code. -/
def hasCode (e : Exception) (code : ErrorCode) : Bool :=
  match e with
  | .cameraError error => error.code = code
  | _ => false

@[simp] theorem hasCode_camera (code code' : ErrorCode) (text : String) :
    (camera code text).hasCode code' = decide (code = code') := rfl

@[simp] theorem hasCode_throwSystemError (operation : String) (error : Errno)
    (code code' : ErrorCode) :
    (throwSystemError operation error code).hasCode code' = decide (code = code') := rfl

@[simp] theorem hasCode_badAlloc (code : ErrorCode) : badAlloc.hasCode code = false := rfl

end Exception

structure Timestamp where
  seconds : Int64 := 0
  nanoseconds : UInt32 := 0
  clock : TimestampClock := .unknown
deriving DecidableEq, Repr

/-- The value of a signed 64-bit operation; it has none when the exact result
does not fit, since the behaviour is then undefined. -/
def int64? (x : ℤ) : Option ℤ :=
  if -2 ^ 63 ≤ x ∧ x < 2 ^ 63 then some x else none

def Timestamp.toNanoseconds (t : Timestamp) : Option ℤ :=
  let nanosecondsPerSecond : ℤ := 1000000000
  if t.seconds.toInt > (2 ^ 63 - 1 : ℤ).tdiv nanosecondsPerSecond then
    some (2 ^ 63 - 1)
  else if t.seconds.toInt < (-2 ^ 63 : ℤ).tdiv nanosecondsPerSecond then
    some (-2 ^ 63)
  else do
    let whole ← int64? (t.seconds.toInt * nanosecondsPerSecond)
    int64? (whole + t.nanoseconds.toNat)

structure Plane (ptr : Type) where
  data : ptr
  bytesUsed : UInt64
  length : UInt64
  stride : UInt32
deriving DecidableEq, Repr

/-- The record shared by the copies of a frame. -/
structure FrameImpl (ptr lease : Type) where
  planes : List (Plane ptr)
  width : UInt32
  height : UInt32
  pixelFormat : PixelFormat
  captureMode : CaptureMode
  sequence : UInt64
  timestamp : Timestamp
  lease : lease
deriving DecidableEq

/-- The record `FrameBuilder::build` fills; its allocation is up to the caller. -/
def FrameBuilder.build {ptr lease : Type} (planes : List (Plane ptr)) (width height : UInt32)
    (pixelFormat : PixelFormat) (captureMode : CaptureMode) (sequence : UInt64)
    (timestamp : Timestamp) (held : lease) : FrameImpl ptr lease where
  planes := planes
  width := width
  height := height
  pixelFormat := pixelFormat
  captureMode := captureMode
  sequence := sequence
  timestamp := timestamp
  lease := held

def FrameImpl.timestampNs {ptr lease : Type} (f : FrameImpl ptr lease) : Option ℤ :=
  f.timestamp.toNanoseconds

structure FrameInterval where
  numerator : UInt32 := 0
  denominator : UInt32 := 0
deriving DecidableEq, Repr

structure FrameSize where
  minWidth : UInt32 := 0
  maxWidth : UInt32 := 0
  widthStep : UInt32 := 0
  minHeight : UInt32 := 0
  maxHeight : UInt32 := 0
  heightStep : UInt32 := 0
  discrete : Bool := true
  frameIntervals : List FrameInterval := []
deriving DecidableEq, Repr

structure FormatCapability where
  pixelFormat : PixelFormat := .unknown
  fourcc : UInt32 := 0
  captureMode : CaptureMode := .auto
  description : String := ""
  frameSizes : List FrameSize := []
deriving DecidableEq, Repr

structure Capabilities where
  driver : String := ""
  card : String := ""
  busInfo : String := ""
  streaming : Bool := false
  singlePlane : Bool := false
  multiPlane : Bool := false
  formats : List FormatCapability := []
deriving DecidableEq, Repr

structure CaptureConfig where
  backend : BackendKind := .v4l2
  device : String := "/dev/video0"
  width : UInt32 := 640
  height : UInt32 := 480
  frameRate : Double := .finite 30
  pixelFormat : PixelFormat := .mjpeg
  captureMode : CaptureMode := .auto
  bufferCount : UInt32 := 4
  syntheticSeed : UInt32 := 1
deriving DecidableEq

end CameraCore
