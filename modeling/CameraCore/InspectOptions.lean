import CameraCore.TextConversion
import CameraCore.Types

/-!
# The options of the inspection tool

The command line of `xgc2-camera-inspect`: a loop over the arguments that takes `--synthetic`
alone and every other option with the argument behind it as its value. The characters of an
argument stand for its bytes.
-/

namespace CameraCore

open FloatingPoint TextConversion

/-- What the tool catches: an error of the camera library, or one of the standard library. -/
inductive ToolException
  | library (e : Exception)
  | standard (e : StdError)
deriving DecidableEq

def invalidArgument (what : String) : ToolException := .standard (.invalidArgument what)

/-- A text in lower case, byte by byte. -/
def normalize (value : String) : List Char := value.toList.map Char.toLower

def pixelFormatFromString (value : String) : PixelFormat :=
  let normalized := normalize value
  if normalized = "mjpeg".toList ∨ normalized = "mjpg".toList then .mjpeg
  else if normalized = "h264".toList then .h264
  else if normalized = "yuyv".toList ∨ normalized = "yuy2".toList then .yuyv
  else if normalized = "uyvy".toList then .uyvy
  else if normalized = "rgb24".toList ∨ normalized = "rgb".toList then .rgb24
  else if normalized = "bgr24".toList ∨ normalized = "bgr".toList then .bgr24
  else if normalized = "nv12".toList then .nv12
  else if normalized = "grey".toList ∨ normalized = "gray".toList ∨
      normalized = "mono8".toList then .grey
  else .unknown

def captureModeFromString (value : String) : Except Exception CaptureMode :=
  let normalized := normalize value
  if normalized = "auto".toList then .ok .auto
  else if normalized = "single".toList ∨ normalized = "single-plane".toList ∨
      normalized = "single_plane".toList then .ok .singlePlane
  else if normalized = "multi".toList ∨ normalized = "multi-plane".toList ∨
      normalized = "multi_plane".toList then .ok .multiPlane
  else .error (.camera .invalidArgument ("unknown camera capture mode: " ++ value))

structure Options where
  config : CaptureConfig := {}
  captureCount : UInt32 := 0
  timeoutMs : UInt32 := 2000
deriving DecidableEq

def parseUint (value : String) (option : String) : Except ToolException UInt32 := do
  let (result, parsed) ← (stoull value.toList).mapError .standard
  if parsed ≠ value.length ∨ 4294967295 < result then
    throw (invalidArgument ("invalid value for " ++ option))
  return result.toUInt32

/-- The branches of the loop for an option with a value. -/
def setOption (fl : Rounding) (inRange : ℚ → Bool) (options : Options)
    (argument value : String) : Except ToolException Options := do
  if argument = "--device" then
    return { options with config.device := value }
  else if argument = "--format" then
    let pixelFormat := pixelFormatFromString value
    if pixelFormat = .unknown then
      throw (invalidArgument ("unknown pixel format: " ++ value))
    return { options with config.pixelFormat := pixelFormat }
  else if argument = "--mode" then
    let captureMode ← (captureModeFromString value).mapError .library
    return { options with config.captureMode := captureMode }
  else if argument = "--width" then
    let width ← parseUint value "--width"
    return { options with config.width := width }
  else if argument = "--height" then
    let height ← parseUint value "--height"
    return { options with config.height := height }
  else if argument = "--fps" then
    let (frameRate, _) ← (stod fl inRange value.toList).mapError .standard
    return { options with config.frameRate := frameRate }
  else if argument = "--buffers" then
    let bufferCount ← parseUint value "--buffers"
    return { options with config.bufferCount := bufferCount }
  else if argument = "--capture" then
    let captureCount ← parseUint value "--capture"
    return { options with captureCount := captureCount }
  else if argument = "--timeout-ms" then
    let timeoutMs ← parseUint value "--timeout-ms"
    return { options with timeoutMs := timeoutMs }
  else
    throw (invalidArgument ("unknown option: " ++ argument))

/-- How the loop ends without options: `--help` prints the usage and exits. -/
inductive Stop
  | exit (status : ℕ)
  | threw (e : ToolException)
deriving DecidableEq

def parseArguments (fl : Rounding) (inRange : ℚ → Bool) (options : Options) :
    List String → Except Stop Options
  | [] => .ok options
  | argument :: rest =>
      if argument = "--help" ∨ argument = "-h" then .error (.exit 0)
      else if argument = "--synthetic" then
        parseArguments fl inRange { options with config.backend := .synthetic } rest
      else
        match rest with
        | [] => .error (.threw (invalidArgument ("missing value for " ++ argument)))
        | value :: rest =>
            match setOption fl inRange options argument value with
            | .error e => .error (.threw e)
            | .ok options => parseArguments fl inRange options rest

/-- The first argument is the name of the program. -/
def parseOptions (fl : Rounding) (inRange : ℚ → Bool) (argv : List String) : Except Stop Options :=
  parseArguments fl inRange {} argv.tail

end CameraCore
