import CameraCore.DeviceEnumeration
import CameraCore.V4L2State

/-!
# Negotiation of the capture mode and the pixel format

The constructor looks the requested format up in the capabilities and asks the driver
for the code found there. Zero stands for "not found": it is the code of no known
format, and the capabilities pair codes and formats consistently, so the search fails
exactly when nothing fitting is advertised.
-/

namespace CameraCore

open DeviceProgram

def FormatCapability.fits (mode : CaptureMode) (format : PixelFormat)
    (candidate : FormatCapability) : Bool :=
  candidate.captureMode = mode && candidate.pixelFormat = format

def selectAdvertisedFourcc (capabilities : Capabilities) (mode : CaptureMode)
    (format : PixelFormat) : UInt32 :=
  match capabilities.formats.find? (FormatCapability.fits mode format) with
  | some candidate => candidate.fourcc
  | none => 0

/-- The first search, made for the mode `Auto` only; a code of zero means that the
search is still to be made. -/
def resolveAuto (config : CaptureConfig) (capabilities : Capabilities) :
    Except Exception (CaptureMode × UInt32) :=
  if config.captureMode = .auto then
    let single := selectAdvertisedFourcc capabilities .singlePlane config.pixelFormat
    if single ≠ 0 then .ok (.singlePlane, single)
    else
      let multi := selectAdvertisedFourcc capabilities .multiPlane config.pixelFormat
      if multi ≠ 0 then .ok (.multiPlane, multi)
      else
        .error (.camera .unsupported
          ("device does not advertise pixel format " ++ config.pixelFormat.toString))
  else .ok (config.captureMode, 0)

/-- The checks and the search after it, for any mode. -/
def resolveMode (config : CaptureConfig) (capabilities : Capabilities) (mode : CaptureMode)
    (selected : UInt32) : Except Exception (CaptureMode × UInt32) :=
  if (mode = .singlePlane ∧ capabilities.singlePlane = false) ∨
      (mode = .multiPlane ∧ capabilities.multiPlane = false) then
    .error (.camera .unsupported ("device does not support " ++ mode.toString ++ " capture"))
  else
    let selected :=
      if selected = 0 then selectAdvertisedFourcc capabilities mode config.pixelFormat
      else selected
    if selected = 0 then
      .error (.camera .unsupported
        ("device does not advertise " ++ config.pixelFormat.toString ++ " for " ++ mode.toString))
    else .ok (mode, selected)

/-- The mode and the code the constructor settles on. -/
def resolve (config : CaptureConfig) (capabilities : Capabilities) :
    Except Exception (CaptureMode × UInt32) :=
  if capabilities.streaming = false then
    .error (.camera .unsupported (config.device ++ " does not support V4L2 streaming I/O"))
  else do
    let (mode, selected) ← resolveAuto config capabilities
    resolveMode config capabilities mode selected

section
variable {caps : Capabilities} {mode : CaptureMode} {format : PixelFormat}

def Capabilities.Advertises (caps : Capabilities) (mode : CaptureMode) (format : PixelFormat) :
    Prop :=
  ∃ entry ∈ caps.formats, entry.captureMode = mode ∧ entry.pixelFormat = format

theorem fits_iff {entry : FormatCapability} :
    entry.fits mode format = true ↔ entry.captureMode = mode ∧ entry.pixelFormat = format := by
  simp [FormatCapability.fits]

theorem pixelFormatFromV4l2_zero : pixelFormatFromV4l2 0 = .unknown := by decide

theorem Capabilities.Sound.fourcc_ne_zero (hs : caps.Sound) {entry : FormatCapability}
    (hm : entry ∈ caps.formats) (hf : entry.pixelFormat ≠ .unknown) : entry.fourcc ≠ 0 := by
  obtain ⟨type, _, had⟩ := hs entry hm
  intro hz
  rw [had.pixelFormat, hz, pixelFormatFromV4l2_zero] at hf
  exact hf rfl

theorem select_of_advertises (hs : caps.Sound) (hf : format ≠ .unknown)
    (h : caps.Advertises mode format) :
    ∃ entry, caps.formats.find? (FormatCapability.fits mode format) = some entry ∧
      selectAdvertisedFourcc caps mode format = entry.fourcc ∧ entry.fourcc ≠ 0 := by
  obtain ⟨entry, hm, hfit⟩ := h
  have hsome : (caps.formats.find? (FormatCapability.fits mode format)).isSome := by
    rw [List.find?_isSome]
    exact ⟨entry, hm, fits_iff.mpr hfit⟩
  obtain ⟨first, hfirst⟩ := Option.isSome_iff_exists.mp hsome
  have hmem := List.mem_of_find?_eq_some hfirst
  have hfits := fits_iff.mp (List.find?_some hfirst)
  refine ⟨first, hfirst, ?_, ?_⟩
  · unfold selectAdvertisedFourcc
    rw [hfirst]
  · apply hs.fourcc_ne_zero hmem
    rw [hfits.2]
    exact hf

theorem select_of_not_advertises (h : ¬ caps.Advertises mode format) :
    selectAdvertisedFourcc caps mode format = 0 := by
  have hnone : caps.formats.find? (FormatCapability.fits mode format) = none := by
    rw [List.find?_eq_none]
    intro entry hm hfit
    exact h ⟨entry, hm, fits_iff.mp hfit⟩
  unfold selectAdvertisedFourcc
  rw [hnone]

theorem select_eq_zero_iff (hs : caps.Sound) (hf : format ≠ .unknown) :
    selectAdvertisedFourcc caps mode format = 0 ↔ ¬ caps.Advertises mode format := by
  constructor
  · intro hz h
    obtain ⟨entry, _, hsel, hne⟩ := select_of_advertises hs hf h
    rw [hz] at hsel
    exact hne hsel.symm
  · exact select_of_not_advertises

def Capabilities.supports (caps : Capabilities) : CaptureMode → Bool
  | .auto => false
  | .singlePlane => caps.singlePlane
  | .multiPlane => caps.multiPlane

/-- Entries are only advertised for modes whose flag is set. -/
theorem Capabilities.Sound.supports_of_advertises (hs : caps.Sound)
    (h : caps.Advertises mode format) : caps.supports mode = true := by
  obtain ⟨entry, hm, rfl, _⟩ := h
  obtain ⟨type, hsup, had⟩ := hs entry hm
  rw [had.mode]
  cases type <;> exact hsup

end

section
variable {config : CaptureConfig} {caps : Capabilities} {mode : CaptureMode} {code : UInt32}

theorem resolveMode_checks (hsup : caps.supports mode = true) :
    ¬ ((mode = .singlePlane ∧ caps.singlePlane = false) ∨
      (mode = .multiPlane ∧ caps.multiPlane = false)) := by
  cases mode <;> simp_all [Capabilities.supports]

/-- For a mode that is advertised the search of the constructor succeeds, whether or not
it was made before. -/
theorem resolveMode_ok (hs : caps.Sound) (hf : config.pixelFormat ≠ .unknown)
    (h : caps.Advertises mode config.pixelFormat)
    (hcode : code = 0 ∨ code = selectAdvertisedFourcc caps mode config.pixelFormat) :
    resolveMode config caps mode code =
      .ok (mode, selectAdvertisedFourcc caps mode config.pixelFormat) := by
  obtain ⟨entry, _, hsel, hne⟩ := select_of_advertises hs hf h
  have hne' : selectAdvertisedFourcc caps mode config.pixelFormat ≠ 0 := by
    rw [hsel]
    exact hne
  unfold resolveMode
  rw [if_neg (resolveMode_checks (hs.supports_of_advertises h))]
  rcases hcode with rfl | rfl
  · simp only [if_pos, hne', if_false]
  · simp only [hne', if_false]

theorem resolveMode_error (h : ¬ caps.Advertises mode config.pixelFormat) :
    ∃ text, resolveMode config caps mode 0 = .error (.camera .unsupported text) := by
  unfold resolveMode
  by_cases hc : (mode = .singlePlane ∧ caps.singlePlane = false) ∨
      (mode = .multiPlane ∧ caps.multiPlane = false)
  · exact ⟨_, if_pos hc⟩
  · rw [if_neg hc]
    simp only [if_true, select_of_not_advertises h]
    exact ⟨_, rfl⟩

/-- The mode to be used for a request: for `Auto`, single-plane if possible. -/
def requestedMode (config : CaptureConfig) (caps : Capabilities) : CaptureMode :=
  if config.captureMode = .auto then
    if selectAdvertisedFourcc caps .singlePlane config.pixelFormat ≠ 0 then .singlePlane
    else .multiPlane
  else config.captureMode

/-- An entry with the requested format, in the requested mode or in any for `Auto`. -/
def Capabilities.Permits (caps : Capabilities) (config : CaptureConfig) : Prop :=
  ∃ entry ∈ caps.formats, entry.pixelFormat = config.pixelFormat ∧
    (config.captureMode = .auto ∨ entry.captureMode = config.captureMode)

theorem permits_iff (hs : caps.Sound) (hf : config.pixelFormat ≠ .unknown) :
    caps.Permits config ↔ caps.Advertises (requestedMode config caps) config.pixelFormat := by
  unfold requestedMode
  by_cases ha : config.captureMode = .auto
  · rw [if_pos ha]
    constructor
    · intro h
      obtain ⟨entry, hm, hfmt, _⟩ := h
      obtain ⟨type, _, had⟩ := hs entry hm
      by_cases hz : selectAdvertisedFourcc caps .singlePlane config.pixelFormat = 0
      · rw [if_neg (not_not.mpr hz)]
        have hnone := (select_eq_zero_iff hs hf).mp hz
        refine ⟨entry, hm, ?_, hfmt⟩
        cases type with
        | videoCapture => exact absurd ⟨entry, hm, had.mode, hfmt⟩ hnone
        | videoCaptureMplane => exact had.mode
      · rw [if_pos hz]
        exact not_not.mp fun hnone => hz ((select_eq_zero_iff hs hf).mpr hnone)
    · intro h
      obtain ⟨entry, hm, _, hfmt⟩ := h
      exact ⟨entry, hm, hfmt, Or.inl ha⟩
  · rw [if_neg ha]
    constructor
    · intro h
      obtain ⟨entry, hm, hfmt, hmode⟩ := h
      exact ⟨entry, hm, hmode.resolve_left ha, hfmt⟩
    · intro h
      obtain ⟨entry, hm, hmode, hfmt⟩ := h
      exact ⟨entry, hm, hfmt, Or.inr hmode⟩

theorem resolve_error (hst : caps.streaming = true) (hs : caps.Sound)
    (hf : config.pixelFormat ≠ .unknown) (h : ¬ caps.Permits config) :
    ∃ text, resolve config caps = .error (.camera .unsupported text) := by
  have hnone := mt (permits_iff hs hf).mpr h
  unfold resolve resolveAuto
  unfold requestedMode at hnone
  rw [if_neg (by simp [hst])]
  by_cases ha : config.captureMode = .auto
  · rw [if_pos ha]
    rw [if_pos ha] at hnone
    by_cases hz : selectAdvertisedFourcc caps .singlePlane config.pixelFormat = 0
    · rw [if_neg (not_not.mpr hz)] at hnone
      simp only [hz, select_of_not_advertises hnone, ne_eq, not_true_eq_false, if_false]
      exact ⟨_, rfl⟩
    · rw [if_pos hz] at hnone
      exact absurd (select_of_not_advertises hnone) hz
  · rw [if_neg ha]
    rw [if_neg ha] at hnone
    exact resolveMode_error hnone

theorem resolve_ok (hst : caps.streaming = true) (hs : caps.Sound)
    (hf : config.pixelFormat ≠ .unknown) (h : caps.Permits config) :
    resolve config caps = .ok (requestedMode config caps,
      selectAdvertisedFourcc caps (requestedMode config caps) config.pixelFormat) := by
  have hadv := (permits_iff hs hf).mp h
  unfold resolve resolveAuto
  unfold requestedMode at hadv ⊢
  rw [if_neg (by simp [hst])]
  by_cases ha : config.captureMode = .auto
  · simp only [if_pos ha] at hadv ⊢
    by_cases hz : selectAdvertisedFourcc caps .singlePlane config.pixelFormat = 0
    · simp only [if_neg (not_not.mpr hz)] at hadv ⊢
      have hne := mt (select_eq_zero_iff hs hf).mp (not_not.mpr hadv)
      simp only [if_pos hne]
      exact resolveMode_ok hs hf hadv (Or.inr rfl)
    · simp only [if_pos hz] at hadv ⊢
      exact resolveMode_ok hs hf hadv (Or.inr rfl)
  · simp only [if_neg ha] at hadv ⊢
    exact resolveMode_ok hs hf hadv (Or.inl rfl)

end

end CameraCore
