import CameraCore.V4L2Interface

/-!
# Enumeration of a device

`enumerate_fd` asks the driver for its capabilities and walks the tables of formats,
sizes and intervals until the driver answers `EINVAL`. Each walk takes the number of
queries it may make; a walk cut off has no result, and a driver with finite tables
is walked to the end with enough of them.
-/

namespace CameraCore

open DeviceProgram

abbrev Fallible (α : Type) := ExceptT Exception Syscalls α

/-- An ioctl whose failure the caller looks at. -/
def tryIoctl (request : Ioctl) : Fallible (Except Errno request.Payload) :=
  ExceptT.lift (ioctl request)

def cutOff {α : Type} : Fallible α := ExceptT.mk .outOfFuel

def openDevice (path : String) : Fallible Unit :=
  if path.isEmpty then
    throw (.camera .invalidArgument "V4L2 device path must not be empty")
  else do
    match ← (ExceptT.lift (Program.request (I := linux) (.openFile path)) : Fallible _) with
    | .error error => throw (.throwSystemError ("open " ++ path) error .openFailed)
    | .ok _ => pure ()

def fourcc (a b c d : Char) : UInt32 :=
  a.val ||| (b.val <<< 8) ||| (c.val <<< 16) ||| (d.val <<< 24)

def pixFmtMjpeg : UInt32 := fourcc 'M' 'J' 'P' 'G'
def pixFmtJpeg : UInt32 := fourcc 'J' 'P' 'E' 'G'
def pixFmtH264 : UInt32 := fourcc 'H' '2' '6' '4'
def pixFmtYuyv : UInt32 := fourcc 'Y' 'U' 'Y' 'V'
def pixFmtUyvy : UInt32 := fourcc 'U' 'Y' 'V' 'Y'
def pixFmtRgb24 : UInt32 := fourcc 'R' 'G' 'B' '3'
def pixFmtBgr24 : UInt32 := fourcc 'B' 'G' 'R' '3'
def pixFmtNv12 : UInt32 := fourcc 'N' 'V' '1' '2'
def pixFmtNv12m : UInt32 := fourcc 'N' 'M' '1' '2'
def pixFmtGrey : UInt32 := fourcc 'G' 'R' 'E' 'Y'

def pixelFormatFromV4l2 (code : UInt32) : PixelFormat :=
  if code = pixFmtMjpeg ∨ code = pixFmtJpeg then .mjpeg
  else if code = pixFmtH264 then .h264
  else if code = pixFmtYuyv then .yuyv
  else if code = pixFmtUyvy then .uyvy
  else if code = pixFmtRgb24 then .rgb24
  else if code = pixFmtBgr24 then .bgr24
  else if code = pixFmtNv12 ∨ code = pixFmtNv12m then .nv12
  else if code = pixFmtGrey then .grey
  else .unknown

def pixelFormatToV4l2 (format : PixelFormat) (mode : CaptureMode) : UInt32 :=
  match format with
  | .mjpeg => pixFmtMjpeg
  | .h264 => pixFmtH264
  | .yuyv => pixFmtYuyv
  | .uyvy => pixFmtUyvy
  | .rgb24 => pixFmtRgb24
  | .bgr24 => pixFmtBgr24
  | .nv12 => if mode = .multiPlane then pixFmtNv12m else pixFmtNv12
  | .grey => pixFmtGrey
  | .unknown => 0

/-- The codes of a format are the two it is mapped to, and that of JPEG besides. -/
theorem pixelFormatFromV4l2_eq_iff {code : UInt32} {format : PixelFormat}
    (hf : format ≠ .unknown) :
    pixelFormatFromV4l2 code = format ↔
      code = pixelFormatToV4l2 format .singlePlane ∨ code = pixelFormatToV4l2 format .multiPlane ∨
        (format = .mjpeg ∧ code = pixFmtJpeg) := by
  constructor
  · rintro rfl
    revert hf
    unfold pixelFormatFromV4l2
    split_ifs with h₁ h₂ h₃ h₄ h₅ h₆ h₇ h₈ <;> intro hf
    · exact h₁.imp_right fun hjpeg => Or.inr ⟨rfl, hjpeg⟩
    · exact Or.inl h₂
    · exact Or.inl h₃
    · exact Or.inl h₄
    · exact Or.inl h₅
    · exact Or.inl h₆
    · exact h₇.imp_right Or.inl
    · exact Or.inl h₈
    · exact absurd rfl hf
  · rintro (rfl | rfl | ⟨rfl, rfl⟩)
    · cases format <;> first | exact absurd rfl hf | decide
    · cases format <;> first | exact absurd rfl hf | decide
    · decide

def capVideoCapture : UInt32 := 0x00000001
def capVideoCaptureMplane : UInt32 := 0x00001000
def capStreaming : UInt32 := 0x04000000
def capDeviceCaps : UInt32 := 0x80000000

/-- The characters of a fixed-size field up to its first NUL. -/
def fixedString (value : List Char) : String :=
  String.ofList (value.takeWhile fun character => character ≠ '\x00')

def effectiveDeviceCaps (capability : V4L2Capability) : UInt32 :=
  if capability.capabilities &&& capDeviceCaps ≠ 0 then capability.deviceCaps
  else capability.capabilities

def enumerateIntervals (code width height : UInt32) :
    ℕ → UInt32 → List FrameInterval → Fallible (List FrameInterval)
  | 0, _, _ => cutOff
  | fuel + 1, index, output => do
      match ← tryIoctl (.enumFrameintervals index code width height) with
      | .error error =>
          if error = Errno.einval then pure output
          else throw (.throwSystemError "VIDIOC_ENUM_FRAMEINTERVALS" error)
      | .ok (.discrete interval) =>
          enumerateIntervals code width height fuel (index + 1)
            (output ++ [⟨interval.numerator, interval.denominator⟩])
      | .ok (.stepwise min max) =>
          let output := output ++ [⟨min.numerator, min.denominator⟩]
          if max.numerator ≠ min.numerator ∨ max.denominator ≠ min.denominator then
            pure (output ++ [⟨max.numerator, max.denominator⟩])
          else pure output

def enumerateSizes (code : UInt32) (fuel : ℕ) :
    ℕ → UInt32 → List FrameSize → Fallible (List FrameSize)
  | 0, _, _ => cutOff
  | rest + 1, index, output => do
      match ← tryIoctl (.enumFramesizes index code) with
      | .error error =>
          if error = Errno.einval then pure output
          else throw (.throwSystemError "VIDIOC_ENUM_FRAMESIZES" error)
      | .ok (.discrete width height) =>
          let intervals ← enumerateIntervals code width height fuel 0 []
          let result : FrameSize :=
            { minWidth := width
              maxWidth := width
              widthStep := 0
              minHeight := height
              maxHeight := height
              heightStep := 0
              discrete := true
              frameIntervals := intervals }
          enumerateSizes code fuel rest (index + 1) (output ++ [result])
      | .ok (.stepwise minWidth maxWidth stepWidth minHeight maxHeight stepHeight) =>
          let intervals ← enumerateIntervals code minWidth minHeight fuel 0 []
          let result : FrameSize :=
            { minWidth := minWidth
              maxWidth := maxWidth
              widthStep := stepWidth
              minHeight := minHeight
              maxHeight := maxHeight
              heightStep := stepHeight
              discrete := false
              frameIntervals := intervals }
          pure (output ++ [result])

def CaptureType.mode : CaptureType → CaptureMode
  | .videoCapture => .singlePlane
  | .videoCaptureMplane => .multiPlane

def enumerateFormats (type : CaptureType) (fuel : ℕ) :
    ℕ → UInt32 → List FormatCapability → Fallible (List FormatCapability)
  | 0, _, _ => cutOff
  | rest + 1, index, output => do
      match ← tryIoctl (.enumFmt index type) with
      | .error error =>
          if error = Errno.einval then pure output
          else throw (.throwSystemError "VIDIOC_ENUM_FMT" error)
      | .ok format =>
          let sizes ← enumerateSizes format.pixelformat fuel fuel 0 []
          let entry : FormatCapability :=
            { pixelFormat := pixelFormatFromV4l2 format.pixelformat
              fourcc := format.pixelformat
              captureMode := type.mode
              description := fixedString format.description
              frameSizes := sizes }
          enumerateFormats type fuel rest (index + 1) (output ++ [entry])

/-- One round of the loop over the two buffer types. -/
def enumerateType (supported : Bool) (type : CaptureType) (fuel : ℕ)
    (output : List FormatCapability) : Fallible (List FormatCapability) :=
  if supported then enumerateFormats type fuel fuel 0 output else pure output

def enumerateFd (fuel : ℕ) : Fallible Capabilities := do
  match ← tryIoctl .querycap with
  | .error error => throw (.throwSystemError "VIDIOC_QUERYCAP" error)
  | .ok capability =>
      let deviceCaps := effectiveDeviceCaps capability
      let singlePlane := deviceCaps &&& capVideoCapture ≠ 0
      let multiPlane := deviceCaps &&& capVideoCaptureMplane ≠ 0
      let formats ← enumerateType singlePlane .videoCapture fuel []
      let formats ← enumerateType multiPlane .videoCaptureMplane fuel formats
      pure
        { driver := fixedString capability.driver
          card := fixedString capability.card
          busInfo := fixedString capability.busInfo
          streaming := deviceCaps &&& capStreaming ≠ 0
          singlePlane := singlePlane
          multiPlane := multiPlane
          formats := formats }

section
variable {σ : Type} {D : Device linux σ} {d d' : σ} {log : Log}

theorem exec_tryIoctl_bind {α : Type} {request : Ioctl}
    {f : Except Errno request.Payload → Fallible α} {x : Except Exception α} :
    Exec D (tryIoctl request >>= f).run d log x d' ↔
      ∃ a d₁ log', D d (.ioctl request) a d₁ ∧ Exec D (f a).run d₁ log' x d' ∧
        log = ⟨.ioctl request, a⟩ :: log' := by
  unfold tryIoctl
  rw [exec_lift_bind]
  constructor
  · rintro ⟨a, d₁, log₁, log₂, h₁, h₂, rfl⟩
    obtain ⟨hD, rfl⟩ := exec_request.mp h₁
    exact ⟨a, d₁, log₂, hD, h₂, rfl⟩
  · rintro ⟨a, d₁, log', hD, h₂, rfl⟩
    exact ⟨a, d₁, [_], log', exec_request.mpr ⟨hD, rfl⟩, h₂, rfl⟩

theorem issues_tryIoctl {P : Request → Prop} {request : Ioctl} (h : P (.ioctl request)) :
    Issues P (tryIoctl request).run :=
  issues_lift (issues_request (I := linux) (r := .ioctl request) h)

/-- An entry found in the formats of a buffer type names its format by its code. -/
structure FormatCapability.Advertised (type : CaptureType) (entry : FormatCapability) : Prop where
  pixelFormat : entry.pixelFormat = pixelFormatFromV4l2 entry.fourcc
  mode : entry.captureMode = type.mode

theorem enumerateFormats_entries {type : CaptureType} {fuel rest : ℕ} {index : UInt32}
    {output formats : List FormatCapability}
    (h : Exec D (enumerateFormats type fuel rest index output).run d log (.ok formats) d') :
    ∀ entry ∈ formats, entry ∈ output ∨ entry.Advertised type := by
  induction rest generalizing index output d log with
  | zero => exact h.elim
  | succ rest ih =>
      obtain ⟨x, d₁, log₁, _, hrest, rfl⟩ := exec_tryIoctl_bind.mp h
      cases x with
      | error error =>
          dsimp only at hrest
          split_ifs at hrest
          · obtain ⟨_, he, _⟩ := exec_return.mp hrest
            cases he
            intro entry hm
            exact Or.inl hm
          · obtain ⟨_, he, _⟩ := exec_throw.mp hrest
            cases he
      | ok format =>
          obtain ⟨sizes, d₂, log₂, log₃, _, hnext, rfl⟩ := exec_bind_ok.mp hrest
          intro entry hm
          rcases ih hnext entry hm with hm | hm
          · rcases List.mem_append.mp hm with hm | hm
            · exact Or.inl hm
            · rw [List.mem_singleton] at hm
              subst hm
              exact Or.inr ⟨rfl, rfl⟩
          · exact Or.inr hm

theorem enumerateType_entries {supported : Bool} {type : CaptureType} {fuel : ℕ}
    {output formats : List FormatCapability}
    (h : Exec D (enumerateType supported type fuel output).run d log (.ok formats) d') :
    ∀ entry ∈ formats, entry ∈ output ∨ (supported = true ∧ entry.Advertised type) := by
  unfold enumerateType at h
  cases supported with
  | false =>
      obtain ⟨_, he, _⟩ := exec_return.mp h
      cases he
      intro entry hm
      exact Or.inl hm
  | true =>
      intro entry hm
      rcases enumerateFormats_entries h entry hm with hm | hm
      · exact Or.inl hm
      · exact Or.inr ⟨rfl, hm⟩

/-- The requests of an enumeration. -/
def Request.Enumerates : Request → Prop
  | .ioctl .querycap => True
  | .ioctl (.enumFmt _ _) => True
  | .ioctl (.enumFramesizes _ _) => True
  | .ioctl (.enumFrameintervals _ _ _ _) => True
  | _ => False

theorem issues_enumerateIntervals (code width height : UInt32) (fuel : ℕ) (index : UInt32)
    (output : List FrameInterval) :
    Issues Request.Enumerates (enumerateIntervals code width height fuel index output).run := by
  induction fuel generalizing index output with
  | zero => trivial
  | succ fuel ih =>
      refine (issues_tryIoctl trivial).except_bind ?_
      intro x
      cases x with
      | error error => dsimp only; split_ifs <;> trivial
      | ok interval =>
          cases interval with
          | discrete interval => exact ih _ _
          | stepwise min max => dsimp only; split_ifs <;> trivial

theorem issues_enumerateSizes (code : UInt32) (fuel rest : ℕ) (index : UInt32)
    (output : List FrameSize) :
    Issues Request.Enumerates (enumerateSizes code fuel rest index output).run := by
  induction rest generalizing index output with
  | zero => trivial
  | succ rest ih =>
      refine (issues_tryIoctl trivial).except_bind ?_
      intro x
      cases x with
      | error error => dsimp only; split_ifs <;> trivial
      | ok size =>
          cases size with
          | discrete width height =>
              refine (issues_enumerateIntervals _ _ _ _ _ _).except_bind ?_
              intro intervals
              exact ih _ _
          | stepwise =>
              refine (issues_enumerateIntervals _ _ _ _ _ _).except_bind ?_
              intro intervals
              trivial

theorem issues_enumerateFormats (type : CaptureType) (fuel rest : ℕ) (index : UInt32)
    (output : List FormatCapability) :
    Issues Request.Enumerates (enumerateFormats type fuel rest index output).run := by
  induction rest generalizing index output with
  | zero => trivial
  | succ rest ih =>
      refine (issues_tryIoctl trivial).except_bind ?_
      intro x
      cases x with
      | error error => dsimp only; split_ifs <;> trivial
      | ok format =>
          refine (issues_enumerateSizes _ _ _ _ _).except_bind ?_
          intro sizes
          exact ih _ _

theorem issues_enumerateFd (fuel : ℕ) : Issues Request.Enumerates (enumerateFd fuel).run := by
  have htype : ∀ supported type output,
      Issues Request.Enumerates (enumerateType supported type fuel output).run := by
    intro supported type output
    cases supported with
    | false => trivial
    | true => exact issues_enumerateFormats type fuel fuel 0 output
  refine (issues_tryIoctl trivial).except_bind ?_
  intro x
  cases x with
  | error error => trivial
  | ok capability =>
      refine (htype _ _ _).except_bind ?_
      intro single
      refine (htype _ _ _).except_bind ?_
      intro formats
      trivial

def CaptureType.supported (caps : Capabilities) : CaptureType → Bool
  | .videoCapture => caps.singlePlane
  | .videoCaptureMplane => caps.multiPlane

/-- Every entry belongs to a buffer type the device supports. -/
def Capabilities.Sound (caps : Capabilities) : Prop :=
  ∀ entry ∈ caps.formats, ∃ type : CaptureType,
    type.supported caps = true ∧ entry.Advertised type

theorem enumerateFd_sound {fuel : ℕ} {caps : Capabilities}
    (h : Exec D (enumerateFd fuel).run d log (.ok caps) d') : caps.Sound := by
  obtain ⟨x, d₁, log₁, _, hrest, rfl⟩ := exec_tryIoctl_bind.mp h
  cases x with
  | error error =>
      obtain ⟨_, he, _⟩ := exec_throw.mp hrest
      cases he
  | ok capability =>
      obtain ⟨single, d₂, log₂, log₃, hsingle, hnext, rfl⟩ := exec_bind_ok.mp hrest
      obtain ⟨formats, d₃, log₄, log₅, hmulti, hlast, rfl⟩ := exec_bind_ok.mp hnext
      obtain ⟨_, he, _⟩ := exec_return.mp hlast
      cases he
      intro entry hm
      rcases enumerateType_entries hmulti entry hm with hm | ⟨hsup, had⟩
      · rcases enumerateType_entries hsingle entry hm with hm | ⟨hsup, had⟩
        · simp at hm
        · exact ⟨.videoCapture, hsup, had⟩
      · exact ⟨.videoCaptureMplane, hsup, had⟩

end

end CameraCore
