import Mathlib.Data.List.Forall2
import CameraCore.SyntheticGeometry
import CameraCore.SyntheticPayload

/-!
# The planes of synthetic frames

In NV12 a frame has one plane or two, and the two are the one cut after the luma samples.
Every plane announces a stride, and so rows; the plane sizes are rounded from the number of
pixels and not row by row, which leaves the chroma rows short when the height is odd.
-/

namespace CameraCore

open DeviceProgram FloatingPoint

theorem nv12_multi_sizes {config : CaptureConfig} (hm : config.captureMode = .multiPlane) :
    ∃ luma chroma, planeSizes config = .ok [luma, chroma] ∧ luma.toNat = config.pixelCount ∧
      chroma.toNat = (config.pixelCount + 1) / 2 := by
  unfold planeSizes
  dsimp only
  rw [if_pos hm]
  exact ⟨_, _, rfl, config.pixels_toNat, config.halfPixels_toNat⟩

theorem nv12_single_sizes {config : CaptureConfig} (hm : config.captureMode = .singlePlane)
    (hf : config.pixelFormat = .nv12)
    (hwrap : config.pixelCount + (config.pixelCount + 1) / 2 < 2 ^ 64) :
    ∃ size, planeSizes config = .ok [size] ∧
      size.toNat = config.pixelCount + (config.pixelCount + 1) / 2 := by
  unfold planeSizes
  dsimp only
  rw [if_neg (by rw [hm]; decide), hf]
  refine ⟨_, rfl, ?_⟩
  rw [UInt64.toNat_add, config.pixels_toNat, config.halfPixels_toNat]
  exact Nat.mod_eq_of_lt hwrap

section Layouts

variable {fl : Rounding} {recordsFail : Prop} {s s' u u' : SyntheticCamera}
  {timeoutMs timeoutMs' : UInt32} {t t' v v' : Int64} {log log' : TimedLog} {f g : SyntheticFrame}

/-- The frames of one number in the two NV12 layouts carry the same bytes, the luma plane
before the chroma plane, and have the same checksum. -/
theorem nv12_layouts_agree (hm : s.config.captureMode = .multiPlane)
    (hu : u.config = { s.config with captureMode := .singlePlane })
    (hwrap : s.config.pixelCount + (s.config.pixelCount + 1) / 2 < 2 ^ 64)
    (hf : Exec (steadyClock recordsFail) (s.read fl timeoutMs) t log (.ok f, s') t')
    (hg : Exec (steadyClock recordsFail) (u.read fl timeoutMs') v log' (.ok g, u') v')
    (hseq : f.sequence = g.sequence) :
    (∃ luma chroma, f.payloads syntheticFetch = [luma, chroma] ∧
      g.payloads syntheticFetch = [luma ++ chroma]) ∧
    frameChecksum syntheticFetch f = frameChecksum syntheticFetch g := by
  obtain ⟨sizes, hs, hfs, hfp⟩ := SyntheticCamera.exec_read_payload hf
  obtain ⟨sizes', hs', hgs, hgp⟩ := SyntheticCamera.exec_read_payload hg
  obtain ⟨luma, chroma, hsizes, hluma, hchroma⟩ := nv12_multi_sizes hm
  obtain rfl : sizes = [luma, chroma] := Except.ok.inj (hs.symm.trans hsizes)
  have hu' : u.config.captureMode = .singlePlane ∧ u.config.pixelFormat = .nv12 ∧
      u.config.pixelCount = s.config.pixelCount := by
    rw [hu]
    exact ⟨rfl, s.multiPlaneNv12 hm, rfl⟩
  obtain ⟨hum, hunv, hpixels⟩ := hu'
  obtain ⟨size, hsizes', hsize⟩ := nv12_single_sizes hum hunv (by rw [hpixels]; exact hwrap)
  obtain rfl : sizes' = [size] := Except.ok.inj (hs'.symm.trans hsizes')
  have hstate : firstState u.config g.sequence = firstState s.config f.sequence := by
    rw [hu, hseq]
    rfl
  have htotal : size.toNat = luma.toNat + chroma.toNat := by rw [hsize, hpixels, hluma, hchroma]
  have hsplit := fillPlane_add luma.toNat chroma.toNat (firstState s.config f.sequence)
  have hpayloads : ∃ first second, f.payloads syntheticFetch = [first, second] ∧
      g.payloads syntheticFetch = [first ++ second] := by
    refine ⟨_, _, hfs, ?_⟩
    rw [hgs, hstate, ← hsplit, ← htotal]
    rfl
  refine ⟨hpayloads, frameChecksum_congr _ ?_⟩
  obtain ⟨first, second, hf', hg'⟩ := hpayloads
  rw [FrameImpl.payload, FrameImpl.payload, hf', hg']
  simp

theorem nv12_layouts_agree_sample : ∃ f g : SyntheticFrame, f.planes.length = 2 ∧
    g.planes.length = 1 ∧ frameChecksum syntheticFetch f = frameChecksum syntheticFetch g := by
  have hs : planeSizes (nv12Config 3 1 .multiPlane) = .ok [3, 2] := rfl
  have hs' : planeSizes (nv12Config 3 1 .singlePlane) = .ok [5] := rfl
  obtain ⟨log, hf⟩ := nv12_read (by decide) hs (by simp [SyntheticCamera.vectorMaxSize]) 7
  obtain ⟨log', hg⟩ := nv12_read (by decide) hs' (by simp [SyntheticCamera.vectorMaxSize]) 7
  obtain ⟨_, hsum⟩ := nv12_layouts_agree rfl rfl (by decide) hf hg rfl
  exact ⟨_, _, rfl, rfl, hsum⟩

end Layouts

/-- The formats whose planes consist of rows. -/
def PixelFormat.Raw (format : PixelFormat) : Prop :=
  format ≠ .mjpeg ∧ format ≠ .h264 ∧ format ≠ .unknown

/-- The rows of each plane of a frame: the chroma plane of NV12 has one for two rows of the
picture, and a single plane holds both. -/
def announcedRows (format : PixelFormat) (mode : CaptureMode) (height : ℕ) : List ℕ :=
  match format, mode with
  | .nv12, .multiPlane => [height, (height + 1) / 2]
  | .nv12, _ => [height + (height + 1) / 2]
  | _, _ => [height]

/-- Every plane holds the rows its stride announces. -/
def HoldsRows (f : SyntheticFrame) : Prop :=
  List.Forall₂ (fun plane rows => plane.stride.toNat * rows ≤ plane.bytesUsed.toNat) f.planes
    (announcedRows f.pixelFormat f.captureMode f.height.toNat)

/-- The chroma samples are whole rows, or rows of one byte. -/
def ChromaFits (config : CaptureConfig) : Prop :=
  config.pixelFormat = .nv12 → config.height.toNat % 2 = 0 ∨ config.width.toNat = 1

/-- Half of the pixels, rounded once, against half of the rows, rounded first. -/
theorem half_rows_le_iff {w h : ℕ} (hw : 0 < w) :
    w * ((h + 1) / 2) ≤ (w * h + 1) / 2 ↔ h % 2 = 0 ∨ w = 1 := by
  rcases Nat.even_or_odd' h with ⟨k, rfl | rfl⟩
  · have hrows : (2 * k + 1) / 2 = k := by omega
    have hpixels : w * (2 * k) = 2 * (w * k) := by ring
    rw [hrows, hpixels]
    exact ⟨fun _ => Or.inl (by omega), fun _ => by omega⟩
  · have hrows : (2 * k + 1 + 1) / 2 = k + 1 := by omega
    have hpixels : w * (2 * k + 1) = 2 * (w * k) + w := by ring
    rw [hrows, hpixels, Nat.mul_succ]
    omega

theorem exactSizes_hold_iff {config : CaptureConfig} (hraw : config.pixelFormat.Raw)
    (hm : config.captureMode = .multiPlane → config.pixelFormat = .nv12)
    (hw : 0 < config.width.toNat) :
    List.Forall₂ (fun size rows => exactStride config.pixelFormat config.width.toNat * rows ≤ size)
      (exactSizes config)
      (announcedRows config.pixelFormat config.captureMode config.height.toNat) ↔
    ChromaFits config := by
  have hhalf : config.width.toNat * ((config.height.toNat + 1) / 2) ≤ (config.pixelCount + 1) / 2 ↔
      config.height.toNat % 2 = 0 ∨ config.width.toNat = 1 := half_rows_le_iff hw
  have hpixels : config.width.toNat * config.height.toNat = config.pixelCount := rfl
  obtain ⟨hmjpeg, hh264, hunknown⟩ := hraw
  unfold exactSizes announcedRows exactStride ChromaFits
  by_cases hmode : config.captureMode = .multiPlane
  · have hnv := hm hmode
    rw [if_pos hmode, hnv, hmode, ← hhalf]
    simp [hpixels]
  · rw [if_neg hmode]
    cases hf : config.pixelFormat
    case mjpeg => exact absurd hf hmjpeg
    case h264 => exact absurd hf hh264
    case unknown => exact absurd hf hunknown
    case nv12 =>
      have hsum : config.width.toNat * (config.height.toNat + (config.height.toNat + 1) / 2) ≤
          config.pixelCount + (config.pixelCount + 1) / 2 ↔
          config.width.toNat * ((config.height.toNat + 1) / 2) ≤ (config.pixelCount + 1) / 2 := by
        rw [Nat.mul_add, hpixels]
        omega
      rw [← hhalf, ← hsum]
      cases hc : config.captureMode
      case multiPlane => exact absurd hc hmode
      all_goals simp
    all_goals simp [Nat.mul_right_comm, hpixels]

theorem syntheticFrame_bytesUsed (fl : Rounding) (config : CaptureConfig) (sizes : List UInt64)
    (sequence : UInt64) :
    (syntheticFrame fl config (generate config sizes sequence) sequence).planes.map
        (fun plane => plane.bytesUsed.toNat) = sizes.map UInt64.toNat := by
  change ((fillPlanes sizes (firstState config sequence)).map (syntheticPlane config)).map _ = _
  rw [List.map_map, ← fillPlanes_lengths sizes (firstState config sequence)]
  apply List.map_congr_left
  intro bytes hb
  exact UInt64.toNat_ofNat_of_lt' (fillPlanes_length_lt hb)

theorem holdsRows_iff {fl : Rounding} {config : CaptureConfig} {sizes : List UInt64}
    {sequence : UInt64} (hexact : GeometryExact config) (hs : planeSizes config = .ok sizes) :
    HoldsRows (syntheticFrame fl config (generate config sizes sequence) sequence) ↔
      List.Forall₂ (fun size rows =>
        exactStride config.pixelFormat config.width.toNat * rows ≤ size) (exactSizes config)
        (announcedRows config.pixelFormat config.captureMode config.height.toNat) := by
  obtain ⟨sizes', hs', hsizes⟩ := hexact.sizes
  obtain rfl : sizes = sizes' := Except.ok.inj (hs.symm.trans hs')
  rw [← hsizes, ← syntheticFrame_bytesUsed fl config sizes sequence, List.forall₂_map_left_iff,
    ← hexact.stride]
  unfold HoldsRows
  change List.Forall₂ _ ((fillPlanes sizes (firstState config sequence)).map
      (syntheticPlane config)) _ ↔
    List.Forall₂ _ ((fillPlanes sizes (firstState config sequence)).map (syntheticPlane config)) _
  rw [List.forall₂_map_left_iff, List.forall₂_map_left_iff]
  rfl

/-- A frame of a raw format whose products do not wrap holds the rows its strides announce just
where its chroma rows fit. -/
theorem rows_held_iff {fl : Rounding} {recordsFail : Prop} {s s' : SyntheticCamera}
    {timeoutMs : UInt32} {t t' : Int64} {log : TimedLog} {f : SyntheticFrame}
    (hraw : s.config.pixelFormat.Raw) (hw : s.config.width ≠ 0)
    (hexact : GeometryExact s.config)
    (h : Exec (steadyClock recordsFail) (s.read fl timeoutMs) t log (.ok f, s') t') :
    HoldsRows f ↔ ChromaFits s.config := by
  obtain ⟨sizes, hs, rfl⟩ := SyntheticCamera.exec_read_ok h
  have hpos : 0 < s.config.width.toNat :=
    Nat.pos_of_ne_zero fun hz => hw (UInt32.toNat_inj.mp hz)
  rw [holdsRows_iff hexact hs]
  exact exactSizes_hold_iff hraw s.multiPlaneNv12 hpos

theorem rows_held_iff_sample : ∃ f : SyntheticFrame, f.planes.length = 2 ∧ HoldsRows f := by
  have hs : planeSizes (nv12Config 3 2 .multiPlane) = .ok [6, 3] := rfl
  have hexact : GeometryExact (nv12Config 3 2 .multiPlane) :=
    (geometryExact_iff (fun _ => rfl) (by decide)).mpr (Or.inl rfl)
  obtain ⟨log, hf⟩ := nv12_read (by decide) hs (by simp [SyntheticCamera.vectorMaxSize]) 0
  exact ⟨_, rfl, (rows_held_iff ⟨by decide, by decide, by decide⟩ (by decide) hexact hf).mpr
    fun _ => Or.inl rfl⟩

/-- Two columns and one row: a chroma row of two bytes is announced, and one byte is there. -/
theorem chroma_row_short : ∃ log f s',
    Exec (steadyClock True) ((nv12Camera 2 1 .multiPlane (by decide) 0).read .exact 0) 0 log
      (.ok f, s') 0 ∧ GeometryExact (nv12Config 2 1 .multiPlane) ∧
    f.planes.map (fun plane => (plane.stride, plane.bytesUsed)) = [(2, 2), (2, 1)] ∧
    ¬ HoldsRows f := by
  have hs : planeSizes (nv12Config 2 1 .multiPlane) = .ok [2, 1] := rfl
  have hexact : GeometryExact (nv12Config 2 1 .multiPlane) :=
    (geometryExact_iff (fun _ => rfl) (by decide)).mpr (Or.inl rfl)
  obtain ⟨log, hf⟩ := nv12_read (by decide) hs (by simp [SyntheticCamera.vectorMaxSize]) 0
  refine ⟨log, _, _, hf, hexact, rfl, ?_⟩
  rw [holdsRows_iff hexact hs,
    exactSizes_hold_iff ⟨by decide, by decide, by decide⟩ (fun _ => rfl) (by decide)]
  intro h
  exact absurd (h rfl) (by decide)

end CameraCore
