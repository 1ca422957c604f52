import Mathlib.Tactic.NormNum
import CameraCore.DeviceProgram
import CameraCore.Types

/-!
# The synthetic camera

The deterministic backend: its geometry, its generator, and the camera whose `read`
waits for the clock to reach the next frame. It asks the system for the time, for a
sleep, and for memory; everything in a frame is computed from the configuration and
the frame number.

The plane of a synthetic frame stands for the bytes its pointer leads to, and the lease
is the storage that keeps them.
-/

namespace CameraCore

open DeviceProgram FloatingPoint

structure SyntheticStorage where
  planes : List (List UInt8)
deriving DecidableEq

abbrev SyntheticFrame := FrameImpl (List UInt8) SyntheticStorage

def strideFor (format : PixelFormat) (width : UInt32) : UInt32 :=
  match format with
  | .yuyv | .uyvy => width * 2
  | .rgb24 | .bgr24 => width * 3
  | .nv12 | .grey => width
  | .mjpeg | .h264 | .unknown => 0

/-- The byte counts `read` gives the planes of a frame. -/
def planeSizes (config : CaptureConfig) : Except Exception (List UInt64) :=
  let pixels := config.width.toUInt64 * config.height.toUInt64
  if config.captureMode = .multiPlane then .ok [pixels, (pixels + 1) / 2]
  else
    match config.pixelFormat with
    | .mjpeg | .h264 => .ok [max 64 (pixels / 8)]
    | .yuyv | .uyvy => .ok [pixels * 2]
    | .rgb24 | .bgr24 => .ok [pixels * 3]
    | .nv12 => .ok [pixels + (pixels + 1) / 2]
    | .grey => .ok [pixels]
    | .unknown => .error (.camera .unsupported "unknown synthetic pixel format")

def nextState (state : UInt32) : UInt32 := state * 1664525 + 1013904223

/-- The bytes of one plane, and the state the generator is left in. -/
def fillPlane : ℕ → UInt32 → List UInt8 × UInt32
  | 0, state => ([], state)
  | length + 1, state =>
      let state := nextState state
      let (bytes, last) := fillPlane length state
      ((state >>> 24).toUInt8 :: bytes, last)

def fillPlanes : List UInt64 → UInt32 → List (List UInt8)
  | [], _ => []
  | size :: sizes, state =>
      let (bytes, state) := fillPlane size.toNat state
      bytes :: fillPlanes sizes state

def firstState (config : CaptureConfig) (sequence : UInt64) : UInt32 :=
  config.syntheticSeed ^^^ sequence.toUInt32

def generate (config : CaptureConfig) (sizes : List UInt64) (sequence : UInt64) :
    SyntheticStorage where
  planes := fillPlanes sizes (firstState config sequence)

def syntheticPlane (config : CaptureConfig) (bytes : List UInt8) : Plane (List UInt8) where
  data := bytes
  bytesUsed := .ofNat bytes.length
  length := .ofNat bytes.length
  stride := strideFor config.pixelFormat config.width

def periodNs (fl : Rounding) (config : CaptureConfig) : UInt64 :=
  UInt64.ofInt (llround (fl.div 1000000000 config.frameRate.value))

def syntheticTimestamp (timestampNs : UInt64) : Timestamp where
  seconds := (timestampNs / 1000000000).toInt64
  nanoseconds := (timestampNs % 1000000000).toUInt32
  clock := .monotonic

/-- The frame `read` builds from its storage. -/
def syntheticFrame (fl : Rounding) (config : CaptureConfig) (storage : SyntheticStorage)
    (sequence : UInt64) : SyntheticFrame :=
  FrameBuilder.build (storage.planes.map (syntheticPlane config)) config.width config.height
    config.pixelFormat config.captureMode sequence
    (syntheticTimestamp (sequence * periodNs fl config)) storage

def syntheticFormats : List PixelFormat :=
  [.mjpeg, .h264, .yuyv, .uyvy, .rgb24, .bgr24, .nv12, .grey]

def syntheticSize : FrameSize where
  minWidth := 1
  maxWidth := 8192
  widthStep := 1
  minHeight := 1
  maxHeight := 8192
  heightStep := 1
  discrete := false

def syntheticCapability (format : PixelFormat) : List FormatCapability :=
  let single : FormatCapability :=
    { pixelFormat := format
      captureMode := .singlePlane
      description := "Synthetic " ++ format.toString
      frameSizes := [syntheticSize] }
  if format = .nv12 then
    [single,
      { single with captureMode := .multiPlane, description := "Synthetic multi-plane nv12" }]
  else [single]

def makeCapabilities : Capabilities where
  driver := "xgc2-synthetic"
  card := "Deterministic CI camera"
  busInfo := "synthetic:0"
  streaming := true
  singlePlane := true
  multiPlane := true
  formats := syntheticFormats.flatMap syntheticCapability

/-- Time points are nanoseconds of the steady clock. A sum of time points is exact: the
source adds them as signed integers, where an overflow is undefined. -/
inductive TimedRequest
  | now
  | sleepUntil (target : ℤ)
  | allocateStorage
  | allocateRecord

abbrev TimedRequest.Answer : TimedRequest → Type
  | .now => Int64
  | .sleepUntil _ => Unit
  | .allocateStorage => Bool
  | .allocateRecord => Bool

abbrev timed : Interface := ⟨TimedRequest, TimedRequest.Answer⟩

abbrev Timed (α : Type) := Program timed α

abbrev TimedFallible (α : Type) := ExceptT Exception Timed α

abbrev TimedLog := List (Event timed)

def steadyNow : Timed Int64 := Program.request (I := timed) .now

def sleepUntil (target : ℤ) : Timed Unit := Program.request (I := timed) (.sleepUntil target)

/-- An allocation for the bytes and the planes of a frame. -/
def allocateStorage : Timed Bool := Program.request (I := timed) .allocateStorage

/-- The allocation of the record a frame shares with its copies. -/
def allocateRecord : Timed Bool := Program.request (I := timed) .allocateRecord

/-- A clock that does not go back and a sleep that does not end early. An allocation may
fail, that of a record only if `recordsFail`. -/
def steadyClock (recordsFail : Prop) : Device timed Int64
  | t, .now, x, t' => t ≤ x ∧ t' = x
  | t, .sleepUntil target, _, t' => t ≤ t' ∧ target ≤ t'.toInt
  | t, .allocateStorage, _, t' => t ≤ t'
  | t, .allocateRecord, ok, t' => t ≤ t' ∧ (ok = false → recordsFail)

structure SyntheticCamera where
  config : CaptureConfig
  capabilities : Capabilities
  running : Bool := false
  sequence : UInt64 := 0
  nextFrame : ℤ := 0
  modeResolved : config.captureMode ≠ .auto
  multiPlaneNv12 : config.captureMode = .multiPlane → config.pixelFormat = .nv12

/-- The mode a synthetic camera takes for the requested one. -/
def CaptureMode.orSingle : CaptureMode → CaptureMode
  | .auto => .singlePlane
  | mode => mode

theorem CaptureMode.orSingle_ne_auto (mode : CaptureMode) : mode.orSingle ≠ .auto := by
  cases mode <;> simp [orSingle]

theorem CaptureMode.orSingle_eq_multiPlane {mode : CaptureMode} :
    mode.orSingle = .multiPlane ↔ mode = .multiPlane := by
  cases mode <;> simp [orSingle]

namespace SyntheticCamera

def make (config : CaptureConfig) : Except Exception SyntheticCamera :=
  if h : config.captureMode.orSingle = .multiPlane ∧ config.pixelFormat ≠ .nv12 then
    .error (.camera .unsupported "synthetic multi-plane capture is supported for NV12 only")
  else
    .ok
      { config := { config with captureMode := config.captureMode.orSingle }
        capabilities := makeCapabilities
        modeResolved := config.captureMode.orSingle_ne_auto
        multiPlaneNv12 := fun hm => not_not.mp fun hf => h ⟨hm, hf⟩ }

def start (s : SyntheticCamera) : Timed (Except Exception Unit × SyntheticCamera) :=
  if s.running then
    pure (.error (.camera .invalidState "synthetic camera is already running"), s)
  else do
    let now ← steadyNow
    pure (.ok (), { s with sequence := 0, nextFrame := now.toInt, running := true })

/-- The pacing of `read`: it returns once the next frame is due. -/
def awaitNextFrame (s : SyntheticCamera) (timeoutMs : UInt32) : Timed (Except Exception Unit) := do
  let now ← steadyNow
  if now.toInt < s.nextFrame then
    let deadline := now.toInt + timeoutMs.toNat * 1000000
    if deadline < s.nextFrame then do
      let _ ← sleepUntil deadline
      pure (.error (.camera .timeout "timed out waiting for a synthetic capture frame"))
    else do
      let _ ← sleepUntil s.nextFrame
      pure (.ok ())
  else pure (.ok ())

def allocations : ℕ → TimedFallible Unit
  | 0 => pure ()
  | count + 1 => do
      if ← (ExceptT.lift allocateStorage : TimedFallible Bool) then allocations count
      else throw .badAlloc

/-- What `std::vector<std::uint8_t>::max_size` returns. -/
def vectorMaxSize : UInt64 := 0x7fffffffffffffff

def resizeEach : List UInt64 → TimedFallible Unit
  | [] => pure ()
  | size :: sizes =>
      if vectorMaxSize < size then throw .lengthError
      else do
        allocations 1
        resizeEach sizes

def buildStorage (config : CaptureConfig) (sequence : UInt64) : TimedFallible SyntheticStorage := do
  allocations 2
  let sizes ← ExceptT.mk (pure (planeSizes config))
  resizeEach sizes
  allocations sizes.length
  pure (generate config sizes sequence)

def advance (fl : Rounding) (s : SyntheticCamera) (now : Int64) : SyntheticCamera :=
  { s with
    sequence := s.sequence + 1
    nextFrame := now.toInt + (periodNs fl s.config).toInt64.toInt }

/-- The part of `read` after the wait. The record is allocated last, when the camera has
moved on to the next frame. -/
def capture (fl : Rounding) (s : SyntheticCamera) :
    Timed (Except Exception SyntheticFrame × SyntheticCamera) := do
  match ← (buildStorage s.config s.sequence).run with
  | .error e => pure (.error e, s)
  | .ok storage =>
      let now ← steadyNow
      if ← allocateRecord then
        pure (.ok (syntheticFrame fl s.config storage s.sequence), s.advance fl now)
      else pure (.error .badAlloc, s.advance fl now)

def read (fl : Rounding) (s : SyntheticCamera) (timeoutMs : UInt32) :
    Timed (Except Exception SyntheticFrame × SyntheticCamera) :=
  if !s.running then
    pure (.error (.camera .invalidState "synthetic camera must be started before read"), s)
  else do
    match ← s.awaitNextFrame timeoutMs with
    | .error e => pure (.error e, s)
    | .ok _ => s.capture fl

def stop (s : SyntheticCamera) : SyntheticCamera := { s with running := false }

theorem make_ok {config : CaptureConfig} {camera : SyntheticCamera}
    (h : make config = .ok camera) :
    camera.config = { config with captureMode := config.captureMode.orSingle } ∧
      camera.running = false ∧ camera.sequence = 0 ∧ camera.nextFrame = 0 := by
  unfold make at h
  split_ifs at h
  cases h
  exact ⟨rfl, rfl, rfl, rfl⟩

theorem make_iff {config : CaptureConfig} :
    (∃ camera, make config = .ok camera) ↔
      ¬ (config.captureMode.orSingle = .multiPlane ∧ config.pixelFormat ≠ .nv12) := by
  unfold make
  constructor
  · rintro ⟨camera, h⟩ hrefused
    rw [dif_pos hrefused] at h
    cases h
  · intro haccepted
    exact ⟨_, dif_neg haccepted⟩

end SyntheticCamera

end CameraCore
