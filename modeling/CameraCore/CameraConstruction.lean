import CameraCore.FormatNegotiation
import CameraCore.PlaneConstruction

/-!
# Construction of a V4L2 camera

The constructor opens and enumerates the device, settles on a mode and a format,
configures the format and the frame rate, and maps the buffers. The checks it makes on
the driver's answers are carried by the types of what it builds: a buffer or a list of
strides of a plane count it refuses does not exist.
-/

namespace CameraCore

open DeviceProgram FloatingPoint

def CaptureMode.type : CaptureMode → CaptureType
  | .singlePlane => .videoCapture
  | _ => .videoCaptureMplane

theorem planeCount_single {α : Type} (a : α) : PlaneCount .videoCapture [a].length := rfl

theorem planeCount_ofFn {α : Type} {n : ℕ} (h : ¬ (n = 0 ∨ videoMaxPlanes < n)) (f : Fin n → α) :
    PlaneCount .videoCaptureMplane (List.ofFn f).length := by
  rw [List.length_ofFn]
  exact ⟨by omega, by omega⟩

/-- The strides of a format, one for each plane. -/
abbrev Strides (t : CaptureType) := { strides : List UInt32 // PlaneCount t strides.length }

/-- What `configure_format` reads from the format the driver set. -/
def acceptFormat (config : CaptureConfig) (format : V4L2Format) :
    (t : CaptureType) → Except Exception (CaptureConfig × Strides t)
  | .videoCapture =>
      .ok ({ config with width := format.width, height := format.height },
        ⟨[format.bytesperline], planeCount_single _⟩)
  | .videoCaptureMplane =>
      if h : format.numPlanes.toNat = 0 ∨ videoMaxPlanes < format.numPlanes.toNat then
        .error (.camera .systemError "V4L2 driver returned an invalid format plane count")
      else
        .ok ({ config with width := format.width, height := format.height },
          ⟨List.ofFn fun index : Fin format.numPlanes.toNat =>
            format.planeBytesperline ⟨index, planeIndex_lt h index⟩, planeCount_ofFn h _⟩)

def configureFormat (t : CaptureType) (config : CaptureConfig) (code : UInt32) :
    Fallible (CaptureConfig × Strides t) :=
  if code = 0 then throw (.camera .unsupported "pixel format has no V4L2 representation")
  else do
    match ← tryIoctl (.sFmt t config.width config.height code) with
    | .error error => throw (.throwSystemError "VIDIOC_S_FMT" error)
    | .ok format =>
        if pixelFormatFromV4l2 format.pixelformat ≠ config.pixelFormat then
          throw (.camera .unsupported "V4L2 driver substituted a different pixel format")
        else ExceptT.mk (pure (acceptFormat config format t))

def greatestCommonDivisor (left right : UInt32) : UInt32 :=
  if _h : right = 0 then left else greatestCommonDivisor right (left % right)
termination_by right.toNat
decreasing_by
  rw [UInt32.toNat_mod]
  apply Nat.mod_lt
  rw [Nat.pos_iff_ne_zero]
  intro hz
  exact _h (UInt32.toNat_inj.mp hz)

def rateScale : UInt32 := 1000

def timePerFrame (fl : Rounding) (rate : ℚ) : V4L2Fract :=
  let denominator := UInt32.ofInt (llround (fl.mul rate 1000))
  let divisor := greatestCommonDivisor rateScale denominator
  ⟨rateScale / divisor, denominator / divisor⟩

def configureFrameRate (fl : Rounding) (t : CaptureType) (config : CaptureConfig) :
    Fallible CaptureConfig := do
  match ← tryIoctl (.sParm t (timePerFrame fl config.frameRate.value)) with
  | .error error =>
      if error ≠ Errno.einval ∧ error ≠ Errno.enotty then
        throw (.throwSystemError "VIDIOC_S_PARM" error)
      else pure config
  | .ok actual =>
      if actual.numerator ≠ 0 ∧ actual.denominator ≠ 0 then
        pure { config with
          frameRate := .finite (fl.div actual.denominator.toNat actual.numerator.toNat) }
      else pure config

def mapRegion (length : UInt64) (offset : UInt32) : Fallible Mapping := do
  match ← (ExceptT.lift (mmap length offset) : Fallible _) with
  | .error error => throw (.throwSystemError "mmap V4L2 buffer" error)
  | .ok address => pure ⟨address, length⟩

def mapRegions : (planes : List V4L2Plane) →
    Fallible { mappings : List Mapping // mappings.length = planes.length }
  | [] => pure ⟨[], rfl⟩
  | plane :: rest => do
      let mapping ← mapRegion plane.length.toUInt64 plane.memOffset
      let mappings ← mapRegions rest
      pure ⟨mapping :: mappings.val, congrArg Nat.succ mappings.property⟩

theorem planeCount_take {planes : Fin videoMaxPlanes → V4L2Plane} {n : ℕ}
    (h : ¬ (n = 0 ∨ videoMaxPlanes < n)) :
    PlaneCount .videoCaptureMplane ((List.ofFn planes).take n).length := by
  have hcount : ((List.ofFn planes).take n).length = n := by
    rw [List.length_take, List.length_ofFn]
    omega
  rw [hcount]
  exact ⟨by omega, by omega⟩

def mapSinglePlane (buffer : V4L2Buffer) : Fallible (BufferMemory .videoCapture) := do
  let mapping ← mapRegion buffer.length.toUInt64 buffer.offset
  pure ⟨[mapping], planeCount_single mapping⟩

def mapMultiPlane (buffer : V4L2Buffer) : Fallible (BufferMemory .videoCaptureMplane) :=
  if h : buffer.length.toNat = 0 ∨ videoMaxPlanes < buffer.length.toNat then
    throw (.camera .systemError "V4L2 query returned an invalid plane count")
  else do
    let mappings ← mapRegions ((List.ofFn buffer.planes).take buffer.length.toNat)
    pure ⟨mappings.val, by
      rw [mappings.property]
      exact planeCount_take h⟩

/-- The memory of a buffer described by `QUERYBUF`. -/
def mapBuffer : (t : CaptureType) → V4L2Buffer → Fallible (BufferMemory t)
  | .videoCapture, buffer => mapSinglePlane buffer
  | .videoCaptureMplane, buffer => mapMultiPlane buffer

def allocateEach (t : CaptureType) : List ℕ → Fallible (List (BufferMemory t))
  | [] => pure []
  | index :: rest => do
      match ← tryIoctl (.querybuf index t) with
      | .error error => throw (.throwSystemError "VIDIOC_QUERYBUF" error)
      | .ok buffer =>
          let memory ← mapBuffer t buffer
          let buffers ← allocateEach t rest
          pure (memory :: buffers)

def allocateBuffers (t : CaptureType) (config : CaptureConfig) :
    Fallible (CaptureConfig × List (BufferMemory t)) := do
  match ← tryIoctl (.reqbufs config.bufferCount t) with
  | .error error => throw (.throwSystemError "VIDIOC_REQBUFS" error)
  | .ok count =>
      if count < 2 then
        throw (.camera .unsupported "V4L2 driver allocated fewer than two buffers")
      else do
        let buffers ← allocateEach t (List.range count.toNat)
        pure ({ config with bufferCount := count }, buffers)

/-- A camera and the state it shares with the leases of its frames. -/
structure Constructed where
  type : CaptureType
  camera : V4L2Camera type
  state : V4L2State type

def V4L2Camera.construct (fl : Rounding) (fuel : ℕ) (requested : CaptureConfig) :
    Fallible Constructed := do
  openDevice requested.device
  let capabilities ← enumerateFd fuel
  let (mode, selectedFourcc) ← ExceptT.mk (pure (resolve requested capabilities))
  let config := { requested with captureMode := mode }
  let (config, strides) ← configureFormat mode.type config selectedFourcc
  let config ← configureFrameRate fl mode.type config
  let (config, buffers) ← allocateBuffers mode.type config
  pure
    { type := mode.type
      camera :=
        { config := config
          capabilities := capabilities
          strides := strides.val
          selectedFourcc := selectedFourcc
          strideCount := strides.property }
      state := { buffers := buffers } }

/-- The code of the format an `S_FMT` left behind. -/
def setFourcc : Event linux → Option UInt32
  | ⟨.ioctl (.sFmt _ _ _ _), .ok format⟩ => some format.pixelformat
  | _ => none

/-- The codes set by the driver, one for each `S_FMT` that succeeded. -/
def setFourccs (log : Log) : List UInt32 := log.filterMap setFourcc

def Request.KeepsFormat : Request → Prop
  | .ioctl (.sFmt _ _ _ _) => False
  | _ => True

theorem setFourccs_of_keeps {log : Log} (h : ∀ e ∈ log, e.1.KeepsFormat) : setFourccs log = [] := by
  refine filterMap_eq_nil_of_issued ?_ h
  intro r x hr
  cases r with
  | ioctl request => cases request <;> first | rfl | exact hr.elim
  | _ => rfl

theorem setFourccs_append (log log' : Log) :
    setFourccs (log ++ log') = setFourccs log ++ setFourccs log' := List.filterMap_append

section
variable {σ : Type} {D : Device linux σ} {d d' : σ} {log : Log}

/-- Only the size is taken over from the driver's format. -/
theorem acceptFormat_ok {t : CaptureType} {config config' : CaptureConfig} {format : V4L2Format}
    {strides : Strides t} (h : .ok (config', strides) = acceptFormat config format t) :
    config' = { config with width := format.width, height := format.height } := by
  cases t with
  | videoCapture =>
      cases h
      rfl
  | videoCaptureMplane =>
      unfold acceptFormat at h
      by_cases hc : format.numPlanes.toNat = 0 ∨ videoMaxPlanes < format.numPlanes.toNat
      · rw [dif_pos hc] at h
        cases h
      · rw [dif_neg hc] at h
        cases h
        rfl

theorem configureFormat_ok {t : CaptureType} {config config' : CaptureConfig} {code : UInt32}
    {strides : Strides t}
    (h : Exec D (configureFormat t config code).run d log (.ok (config', strides)) d') :
    (∃ actual, setFourccs log = [actual] ∧ pixelFormatFromV4l2 actual = config.pixelFormat) ∧
      config'.pixelFormat = config.pixelFormat ∧ config'.captureMode = config.captureMode := by
  unfold configureFormat at h
  by_cases hz : code = 0
  · rw [if_pos hz] at h
    obtain ⟨_, he, _⟩ := exec_throw.mp h
    cases he
  · rw [if_neg hz] at h
    obtain ⟨x, d₁, log₁, _, hrest, rfl⟩ := exec_tryIoctl_bind.mp h
    cases x with
    | error error =>
        obtain ⟨_, he, _⟩ := exec_throw.mp hrest
        cases he
    | ok format =>
        dsimp only at hrest
        split_ifs at hrest with hfmt
        · obtain ⟨_, he, _⟩ := exec_throw.mp hrest
          cases he
        · obtain ⟨rfl, hacc, _⟩ := exec_pure.mp hrest
          rw [acceptFormat_ok hacc]
          exact ⟨⟨format.pixelformat, rfl, not_not.mp hfmt⟩, rfl, rfl⟩

theorem configureFrameRate_ok {fl : FloatingPoint.Rounding} {t : CaptureType}
    {config config' : CaptureConfig}
    (h : Exec D (configureFrameRate fl t config).run d log (.ok config') d') :
    config'.pixelFormat = config.pixelFormat ∧ config'.captureMode = config.captureMode := by
  obtain ⟨x, d₁, log₁, _, hrest, rfl⟩ := exec_tryIoctl_bind.mp h
  cases x with
  | error error =>
      dsimp only at hrest
      split_ifs at hrest
      · obtain ⟨_, he, _⟩ := exec_throw.mp hrest
        cases he
      · obtain ⟨_, he, _⟩ := exec_return.mp hrest
        cases he
        exact ⟨rfl, rfl⟩
  | ok actual =>
      dsimp only at hrest
      split_ifs at hrest
      all_goals
        obtain ⟨_, he, _⟩ := exec_return.mp hrest
        cases he
        exact ⟨rfl, rfl⟩

theorem allocateBuffers_ok {t : CaptureType} {config config' : CaptureConfig}
    {buffers : List (BufferMemory t)}
    (h : Exec D (allocateBuffers t config).run d log (.ok (config', buffers)) d') :
    config'.pixelFormat = config.pixelFormat ∧ config'.captureMode = config.captureMode := by
  obtain ⟨x, d₁, log₁, _, hrest, rfl⟩ := exec_tryIoctl_bind.mp h
  cases x with
  | error error =>
      obtain ⟨_, he, _⟩ := exec_throw.mp hrest
      cases he
  | ok count =>
      dsimp only at hrest
      split_ifs at hrest
      · obtain ⟨_, he, _⟩ := exec_throw.mp hrest
        cases he
      · obtain ⟨bufs, d₂, log₂, log₃, _, hlast, rfl⟩ := exec_bind_ok.mp hrest
        obtain ⟨_, he, _⟩ := exec_return.mp hlast
        cases he
        exact ⟨rfl, rfl⟩

theorem Request.Enumerates.keeps {r : Request} (h : r.Enumerates) : r.KeepsFormat := by
  cases r with
  | ioctl request => cases request <;> trivial
  | _ => trivial

theorem issues_openDevice {P : Request → Prop} (hP : ∀ path, P (.openFile path)) (path : String) :
    Issues P (openDevice path).run := by
  unfold openDevice
  split_ifs
  · trivial
  · apply (issues_lift (issues_request (I := linux) (r := .openFile path) (hP path))).except_bind
    intro x
    cases x <;> trivial

theorem issues_configureFormat {P : Request → Prop}
    (hP : ∀ t width height code, P (.ioctl (.sFmt t width height code))) (t : CaptureType)
    (config : CaptureConfig) (code : UInt32) : Issues P (configureFormat t config code).run := by
  unfold configureFormat
  split_ifs
  · trivial
  · refine (issues_tryIoctl (hP _ _ _ _)).except_bind ?_
    intro x
    cases x with
    | error error => trivial
    | ok format =>
        dsimp only
        split_ifs <;> trivial

theorem issues_configureFrameRate {P : Request → Prop}
    (hP : ∀ t timeperframe, P (.ioctl (.sParm t timeperframe))) (fl : FloatingPoint.Rounding)
    (t : CaptureType) (config : CaptureConfig) : Issues P (configureFrameRate fl t config).run := by
  refine (issues_tryIoctl (hP _ _)).except_bind ?_
  intro x
  cases x <;> dsimp only <;> split_ifs <;> trivial

section Maps
variable {P : Request → Prop} (hP : ∀ length offset, P (.mmap length offset))
include hP

theorem issues_mapRegion (length : UInt64) (offset : UInt32) :
    Issues P (mapRegion length offset).run := by
  refine (issues_lift (issues_request (I := linux) (r := .mmap length offset)
    (hP length offset))).except_bind ?_
  intro x
  cases x <;> trivial

theorem issues_mapRegions (planes : List V4L2Plane) : Issues P (mapRegions planes).run := by
  induction planes with
  | nil => trivial
  | cons plane rest ih =>
      refine (issues_mapRegion hP _ _).except_bind ?_
      intro mapping
      exact ih.except_bind fun _ => trivial

theorem issues_mapMultiPlane (buffer : V4L2Buffer) : Issues P (mapMultiPlane buffer).run := by
  unfold mapMultiPlane
  split_ifs
  · trivial
  · exact (issues_mapRegions hP _).except_bind fun _ => trivial

theorem issues_mapBuffer (t : CaptureType) (buffer : V4L2Buffer) :
    Issues P (mapBuffer t buffer).run := by
  cases t with
  | videoCapture => exact (issues_mapRegion hP _ _).except_bind fun _ => trivial
  | videoCaptureMplane => exact issues_mapMultiPlane hP buffer

end Maps

theorem issues_allocateEach (t : CaptureType) (is : List ℕ) :
    Issues Request.KeepsFormat (allocateEach t is).run := by
  induction is with
  | nil => trivial
  | cons index rest ih =>
      refine (issues_tryIoctl trivial).except_bind ?_
      intro x
      cases x with
      | error error => trivial
      | ok buffer =>
          refine (issues_mapBuffer (fun _ _ => trivial) t buffer).except_bind ?_
          intro memory
          exact ih.except_bind fun _ => trivial

theorem issues_allocateBuffers (t : CaptureType) (config : CaptureConfig) :
    Issues Request.KeepsFormat (allocateBuffers t config).run := by
  refine (issues_tryIoctl trivial).except_bind ?_
  intro x
  cases x with
  | error error => trivial
  | ok count =>
      dsimp only
      split_ifs
      · trivial
      · exact (issues_allocateEach _ _).except_bind fun _ => trivial

inductive Constructs (fl : FloatingPoint.Rounding) (fuel : ℕ) (requested : CaptureConfig)
    (D : Device linux σ) (d d' : σ) : Log → Constructed → Prop
  | stages {mode : CaptureMode} {caps : Capabilities} {code : UInt32}
      {config config' config'' : CaptureConfig} {strides : Strides mode.type}
      {buffers : List (BufferMemory mode.type)} {d₁ d₂ d₃ d₄ : σ} {log₁ log₂ log₃ log₄ log₅ : Log}
      (hopen : Exec D (openDevice requested.device).run d log₁ (.ok ()) d₁)
      (henum : Exec D (enumerateFd fuel).run d₁ log₂ (.ok caps) d₂)
      (hres : resolve requested caps = .ok (mode, code))
      (hformat : Exec D (configureFormat mode.type { requested with captureMode := mode } code).run
        d₂ log₃ (.ok (config, strides)) d₃)
      (hrate : Exec D (configureFrameRate fl mode.type config).run d₃ log₄ (.ok config') d₄)
      (halloc : Exec D (allocateBuffers mode.type config').run d₄ log₅ (.ok (config'', buffers))
        d') :
      Constructs fl fuel requested D d d' (log₁ ++ (log₂ ++ (log₃ ++ (log₄ ++ log₅))))
        { type := mode.type
          camera :=
            { config := config''
              capabilities := caps
              strides := strides.val
              selectedFourcc := code
              strideCount := strides.property }
          state := { buffers := buffers } }

theorem construct_stages {fl : FloatingPoint.Rounding} {fuel : ℕ} {requested : CaptureConfig}
    {c : Constructed} (h : Exec D (V4L2Camera.construct fl fuel requested).run d log (.ok c) d') :
    Constructs fl fuel requested D d d' log c := by
  obtain ⟨_, d₁, log₁, _, hopen, h₁, rfl⟩ := exec_bind_ok.mp h
  obtain ⟨caps, d₂, log₂, _, henum, h₂, rfl⟩ := exec_bind_ok.mp h₁
  obtain ⟨⟨mode, code⟩, _, _, _, hpure, h₃, rfl⟩ := exec_bind_ok.mp h₂
  obtain ⟨rfl, hres, rfl⟩ := exec_pure.mp hpure
  obtain ⟨⟨config, strides⟩, d₃, log₃, _, hformat, h₄, rfl⟩ := exec_bind_ok.mp h₃
  obtain ⟨config', d₄, log₄, _, hrate, h₅, rfl⟩ := exec_bind_ok.mp h₄
  obtain ⟨⟨config'', buffers⟩, d₅, log₅, _, halloc, h₆, rfl⟩ := exec_bind_ok.mp h₅
  obtain ⟨rfl, hc, rfl⟩ := exec_return.mp h₆
  cases hc
  rw [List.append_nil, List.nil_append]
  exact .stages hopen henum hres.symm hformat hrate halloc

/-- What the constructor leaves behind when it returns: the result of the resolution over
sound capabilities, and one format set by the driver, which is the requested one. -/
structure Constructed.Negotiated (requested : CaptureConfig) (log : Log) (c : Constructed) :
    Prop where
  sound : c.camera.capabilities.Sound
  resolved : resolve requested c.camera.capabilities =
    .ok (c.camera.config.captureMode, c.camera.selectedFourcc)
  type : c.type = c.camera.config.captureMode.type
  format : ∃ actual, setFourccs log = [actual] ∧
    pixelFormatFromV4l2 actual = requested.pixelFormat
  label : c.camera.config.pixelFormat = requested.pixelFormat

theorem construct_negotiated {fl : FloatingPoint.Rounding} {fuel : ℕ} {requested : CaptureConfig}
    {c : Constructed}
    (h : Exec D (V4L2Camera.construct fl fuel requested).run d log (.ok c) d') :
    c.Negotiated requested log := by
  cases construct_stages h with
  | @stages mode caps code config config' config'' _ _ _ _ _ _ _ _ _ _ _ hopen henum hres hformat
      hrate halloc =>
      obtain ⟨⟨actual, hactual, hmaps⟩, hp₁, hm₁⟩ := configureFormat_ok hformat
      obtain ⟨hp₂, hm₂⟩ := configureFrameRate_ok hrate
      obtain ⟨hp₃, hm₃⟩ := allocateBuffers_ok halloc
      have hmode : config''.captureMode = mode := hm₃.trans (hm₂.trans hm₁)
      refine ⟨enumerateFd_sound henum, ?_, ?_, ⟨actual, ?_, hmaps⟩, hp₃.trans (hp₂.trans hp₁)⟩
      · change resolve requested caps = .ok (config''.captureMode, code)
        rw [hmode]
        exact hres
      · change mode.type = config''.captureMode.type
        rw [hmode]
      · have hnone₁ := setFourccs_of_keeps (hopen.issues (issues_openDevice (fun _ => trivial) _))
        have hnone₂ := setFourccs_of_keeps
          (fun e he => (henum.issues (issues_enumerateFd _) e he).keeps)
        have hnone₄ := setFourccs_of_keeps
          (hrate.issues (issues_configureFrameRate (fun _ _ => trivial) _ _ _))
        have hnone₅ := setFourccs_of_keeps (halloc.issues (issues_allocateBuffers _ _))
        simp only [setFourccs_append, hnone₁, hnone₂, hactual, hnone₄, hnone₅, List.nil_append,
          List.append_nil]

end

/-- The resolution throws `Unsupported` exactly when the device does not stream or
advertises nothing that is permitted, and otherwise yields the mode preferred and the
code of the first entry that fits. -/
structure ResolutionExact (config : CaptureConfig) (caps : Capabilities) : Prop where
  unsupported_iff : (∃ text, resolve config caps = .error (.camera .unsupported text)) ↔
    caps.streaming = false ∨ ¬ caps.Permits config
  error : ∀ e, resolve config caps = .error e → ∃ text, e = .camera .unsupported text
  mode : ∀ mode code, resolve config caps = .ok (mode, code) → mode ≠ .auto ∧
    caps.supports mode = true ∧ (config.captureMode ≠ .auto → mode = config.captureMode) ∧
    (config.captureMode = .auto →
      (mode = .singlePlane ↔ caps.Advertises .singlePlane config.pixelFormat))
  code : ∀ mode code, resolve config caps = .ok (mode, code) → code ≠ 0 ∧
    ∃ entry, caps.formats.find? (FormatCapability.fits mode config.pixelFormat) = some entry ∧
      entry.fourcc = code

theorem resolutionExact {config : CaptureConfig} {caps : Capabilities} (hs : caps.Sound)
    (hf : config.pixelFormat ≠ .unknown) : ResolutionExact config caps := by
  by_cases hok : caps.streaming = true ∧ caps.Permits config
  · obtain ⟨hst, hp⟩ := hok
    have hres := resolve_ok hst hs hf hp
    have hadv := (permits_iff hs hf).mp hp
    obtain ⟨entry, hfind, hsel, hne⟩ := select_of_advertises hs hf hadv
    refine ⟨?_, ?_, ?_, ?_⟩
    · simp [hres, hst, hp]
    · simp [hres]
    · intro mode code h
      rw [hres] at h
      cases h
      have hsup := hs.supports_of_advertises hadv
      refine ⟨?_, hsup, ?_, ?_⟩
      · intro ha
        rw [ha] at hsup
        cases hsup
      · intro hne
        exact if_neg hne
      · intro ha
        unfold requestedMode
        rw [if_pos ha]
        have hiff : selectAdvertisedFourcc caps .singlePlane config.pixelFormat = 0 ↔
            ¬ caps.Advertises .singlePlane config.pixelFormat := select_eq_zero_iff hs hf
        by_cases hz : selectAdvertisedFourcc caps .singlePlane config.pixelFormat = 0
        · rw [if_neg (not_not.mpr hz)]
          simp [hiff.mp hz]
        · rw [if_pos hz]
          simp [not_not.mp (mt hiff.mpr hz)]
    · intro mode code h
      rw [hres] at h
      cases h
      rw [hsel]
      exact ⟨hne, entry, hfind, rfl⟩
  · have herr : ∃ text, resolve config caps = .error (.camera .unsupported text) := by
      by_cases hst : caps.streaming = true
      · exact resolve_error hst hs hf fun hp => hok ⟨hst, hp⟩
      · rw [Bool.not_eq_true] at hst
        exact ⟨_, if_pos hst⟩
    obtain ⟨text, hres⟩ := herr
    refine ⟨?_, ?_, ?_, ?_⟩
    · have hfail : caps.streaming = false ∨ ¬ caps.Permits config := by
        rw [← Bool.not_eq_true, ← not_and_or]
        exact hok
      exact ⟨fun _ => hfail, fun _ => ⟨text, hres⟩⟩
    · intro e he
      rw [hres] at he
      cases he
      exact ⟨text, rfl⟩
    · simp [hres]
    · simp [hres]

/-- For every device, the resolution over the capabilities enumerated from it is exact;
and a camera that was constructed was resolved so, its driver set a format that is the
requested one, and every frame is labelled with it. -/
theorem negotiation_exact (fl : Rounding) (fuel : ℕ) (requested : CaptureConfig)
    (hf : requested.pixelFormat ≠ .unknown) {σ : Type} (D : Device linux σ) (d : σ) :
    (∀ log caps d', Exec D (enumerateFd fuel).run d log (.ok caps) d' →
      ResolutionExact requested caps) ∧
    ∀ log c d', Exec D (V4L2Camera.construct fl fuel requested).run d log (.ok c) d' →
      c.Negotiated requested log ∧ ResolutionExact requested c.camera.capabilities ∧
      ∀ (lease : Type) (D' : Device linux σ) (e e' : σ) (log' : Log)
        (memory : BufferMemory c.type) (buffer : V4L2Buffer) (held : lease)
        (frame : FrameImpl ℕ lease),
        Exec D' (c.camera.buildFrame memory buffer held) e log' (.ok frame) e' →
          frame.pixelFormat = requested.pixelFormat := by
  constructor
  · intro log caps d' h
    exact resolutionExact (enumerateFd_sound h) hf
  · intro log c d' h
    have hn := construct_negotiated h
    refine ⟨hn, resolutionExact hn.sound hf, ?_⟩
    intro lease D' e e' log' memory buffer held frame hx
    obtain ⟨_, _, hlabel⟩ := V4L2Camera.buildFrame_ok hx
    rw [hlabel]
    exact hn.label

/-- A device with one single-plane format of one size. -/
def sampleAnswer : (r : Request) → r.Answer
  | .ioctl .querycap =>
      .ok
        { driver := ['s', 'a', 'm', 'p', 'l', 'e', '\x00']
          card := []
          busInfo := []
          capabilities := 0x84200001
          deviceCaps := 0x04200001 }
  | .ioctl (.enumFmt index _) =>
      if index = 0 then .ok ⟨['G', 'r', 'e', 'y'], pixFmtGrey⟩ else .error Errno.einval
  | .ioctl (.enumFramesizes index _) =>
      if index = 0 then .ok (.discrete 640 480) else .error Errno.einval
  | .ioctl (.enumFrameintervals _ _ _ _) => .error Errno.einval
  | .ioctl _ => .error Errno.einval
  | .openFile _ => .ok ()
  | .mmap _ _ => .ok 4096
  | .poll _ => ⟨0, .ok 1⟩
  | .allocate => true

/-- The sample device, with two buffers of one page. -/
def bufferedAnswer : (r : Request) → r.Answer
  | .ioctl (.sFmt _ width height code) =>
      .ok
        { width := width
          height := height
          pixelformat := code
          bytesperline := width
          numPlanes := 0
          planeBytesperline := fun _ => 0 }
  | .ioctl (.reqbufs _ _) => .ok 2
  | .ioctl (.querybuf index _) => .ok { index := index, length := 4096 }
  | r => sampleAnswer r

/-- The device with a queue that never fails and that fills the first buffer. -/
def servingAnswer (device : (r : Request) → r.Answer) : (r : Request) → r.Answer
  | .ioctl (.qbuf _ _ _) => .ok ()
  | .ioctl (.dqbuf _) => .ok { index := 0, bytesused := 1 }
  | .ioctl (.streamon _) => .ok ()
  | .ioctl (.streamoff _) => .ok ()
  | r => device r

/-- A multi-plane device, with two planes in each of two buffers. -/
def planarAnswer : (r : Request) → r.Answer
  | .ioctl .querycap =>
      .ok
        { driver := ['s', 'a', 'm', 'p', 'l', 'e', '\x00']
          card := []
          busInfo := []
          capabilities := 0x84201000
          deviceCaps := 0x04201000 }
  | .ioctl (.enumFmt index _) =>
      if index = 0 then .ok ⟨['N', 'V', '1', '2'], pixFmtNv12m⟩ else .error Errno.einval
  | .ioctl (.sFmt _ width height code) =>
      .ok
        { width := width
          height := height
          pixelformat := code
          bytesperline := 0
          numPlanes := 2
          planeBytesperline := fun _ => width }
  | .ioctl (.reqbufs _ _) => .ok 2
  | .ioctl (.querybuf index _) =>
      .ok
        { index := index
          length := 2
          planes := fun plane =>
            if plane.val = 0 then { length := 307200, memOffset := .ofNat (index * 1048576) }
            else { length := 153600, memOffset := .ofNat (index * 1048576 + 524288) } }
  | .mmap _ offset => .ok (4096 + offset.toNat)
  | r => sampleAnswer r

theorem negotiation_exact_sample : ∃ log c,
    Exec (fixed bufferedAnswer) (V4L2Camera.construct .exact 2 { pixelFormat := .grey }).run () log
      (.ok c) () ∧
    resolve { pixelFormat := .grey } c.camera.capabilities = .ok (.singlePlane, pixFmtGrey) ∧
    c.Negotiated { pixelFormat := .grey } log ∧
    ResolutionExact { pixelFormat := .grey } c.camera.capabilities ∧
    resolve { pixelFormat := .h264 } c.camera.capabilities =
      .error (.camera .unsupported "device does not advertise pixel format h264") := by
  have hrun : Exec (fixed bufferedAnswer)
      (V4L2Camera.construct .exact 2 { pixelFormat := .grey }).run () _ (.ok _) () :=
    exec_fixed rfl
  obtain ⟨_, hall⟩ := negotiation_exact Rounding.exact 2 { pixelFormat := .grey } (by decide)
    (fixed bufferedAnswer) ()
  obtain ⟨hnegotiated, hexact, _⟩ := hall _ _ _ hrun
  exact ⟨_, _, hrun, rfl, hnegotiated, hexact, rfl⟩

end CameraCore
