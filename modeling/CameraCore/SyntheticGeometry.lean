import CameraCore.CameraFactory

/-!
# The geometry of synthetic frames

The stride of a synthetic frame is computed in 32 bits and its plane sizes in 64. Next to
them stand the same formulas over the integers. The dimensions of an accepted
configuration are any that are not zero, so the products may wrap; where they do not is
said by a bound on the width, or on the number of pixels.
-/

namespace CameraCore

open DeviceProgram FloatingPoint

namespace CaptureConfig

variable (config : CaptureConfig)

def pixelCount : ℕ := config.width.toNat * config.height.toNat

theorem pixelCount_le : config.pixelCount ≤ (2 ^ 32 - 1) * (2 ^ 32 - 1) := by
  have hw := UInt32.toNat_lt config.width
  have hh := UInt32.toNat_lt config.height
  exact Nat.mul_le_mul (by omega) (by omega)

theorem pixels_toNat :
    (config.width.toUInt64 * config.height.toUInt64).toNat = config.pixelCount := by
  have hle := config.pixelCount_le
  rw [UInt64.toNat_mul, UInt32.toNat_toUInt64, UInt32.toNat_toUInt64]
  exact Nat.mod_eq_of_lt (by unfold pixelCount at hle; omega)

theorem halfPixels_toNat :
    ((config.width.toUInt64 * config.height.toUInt64 + 1) / 2).toNat =
      (config.pixelCount + 1) / 2 := by
  have hle := config.pixelCount_le
  rw [UInt64.toNat_div, UInt64.toNat_add, config.pixels_toNat]
  change (config.pixelCount + 1) % 2 ^ 64 / 2 = _
  omega

end CaptureConfig

def exactStride (format : PixelFormat) (width : ℕ) : ℕ :=
  match format with
  | .yuyv | .uyvy => width * 2
  | .rgb24 | .bgr24 => width * 3
  | .nv12 | .grey => width
  | .mjpeg | .h264 | .unknown => 0

def exactSizes (config : CaptureConfig) : List ℕ :=
  let pixels := config.pixelCount
  if config.captureMode = .multiPlane then [pixels, (pixels + 1) / 2]
  else
    match config.pixelFormat with
    | .mjpeg | .h264 => [max 64 (pixels / 8)]
    | .yuyv | .uyvy => [pixels * 2]
    | .rgb24 | .bgr24 => [pixels * 3]
    | .nv12 => [pixels + (pixels + 1) / 2]
    | .grey => [pixels]
    | .unknown => []

/-- Neither the stride nor a plane size was reduced. -/
structure GeometryExact (config : CaptureConfig) : Prop where
  stride : (strideFor config.pixelFormat config.width).toNat =
    exactStride config.pixelFormat config.width.toNat
  sizes : ∃ sizes, planeSizes config = .ok sizes ∧ sizes.map UInt64.toNat = exactSizes config

/-- The dimensions for which nothing wraps. -/
def GeometryFits (config : CaptureConfig) : Prop :=
  match config.pixelFormat with
  | .yuyv | .uyvy => config.width.toNat ≤ 2147483647
  | .rgb24 | .bgr24 => config.width.toNat ≤ 1431655765
  | .nv12 => config.captureMode = .multiPlane ∨ config.pixelCount ≤ 12297829382473034410
  | _ => True

section Formats

variable {config : CaptureConfig}

theorem planeSizes_multi (hm : config.captureMode = .multiPlane) :
    ∃ sizes, planeSizes config = .ok sizes ∧ sizes.map UInt64.toNat = exactSizes config := by
  unfold planeSizes exactSizes
  dsimp only
  rw [if_pos hm, if_pos hm]
  refine ⟨_, rfl, ?_⟩
  rw [List.map_cons, List.map_singleton, config.pixels_toNat, config.halfPixels_toNat]

theorem geometryExact_single {size : UInt64} {n : ℕ} (hs : planeSizes config = .ok [size])
    (he : exactSizes config = [n]) :
    GeometryExact config ↔
      (strideFor config.pixelFormat config.width).toNat =
        exactStride config.pixelFormat config.width.toNat ∧ size.toNat = n := by
  constructor
  · rintro ⟨hstride, sizes, hsizes, hmap⟩
    obtain rfl : [size] = sizes := Except.ok.inj (hs.symm.trans hsizes)
    rw [he, List.map_singleton] at hmap
    exact ⟨hstride, List.singleton_inj.mp hmap⟩
  · rintro ⟨hstride, hsize⟩
    refine ⟨hstride, [size], hs, ?_⟩
    rw [he, List.map_singleton, hsize]

theorem toNat_max (a b : UInt64) : (max a b).toNat = max a.toNat b.toNat := by
  change (if a ≤ b then b else a).toNat = _
  by_cases h : a ≤ b
  · have hn := UInt64.le_iff_toNat_le.mp h
    rw [if_pos h, Nat.max_eq_right hn]
  · have hn : ¬ a.toNat ≤ b.toNat := fun hn => h (UInt64.le_iff_toNat_le.mpr hn)
    rw [if_neg h, Nat.max_eq_left (by omega)]

/-- A multiple of the width and the same multiple of the pixels: where the first fits in 32
bits, the second fits in 64. -/
theorem CaptureConfig.scaled_exact_iff (config : CaptureConfig) {stride : UInt32} {size : UInt64}
    {k limit : ℕ} (hk : 0 < k) (hlimit : limit = (2 ^ 32 - 1) / k)
    (hstride : stride.toNat = config.width.toNat * k % 2 ^ 32)
    (hsize : size.toNat = config.pixelCount * k % 2 ^ 64) :
    (stride.toNat = config.width.toNat * k ∧ size.toNat = config.pixelCount * k) ↔
      config.width.toNat ≤ limit := by
  have hh := UInt32.toNat_lt config.height
  have hdiv : config.width.toNat ≤ limit ↔ config.width.toNat * k ≤ 2 ^ 32 - 1 := by
    rw [hlimit, Nat.le_div_iff_mul_le hk]
  rw [hdiv, hstride, hsize]
  constructor
  · rintro ⟨h, _⟩
    have hlt := Nat.mod_lt (config.width.toNat * k) (show 0 < 2 ^ 32 by norm_num)
    omega
  · intro h
    have hmul : config.width.toNat * k * config.height.toNat ≤ (2 ^ 32 - 1) * (2 ^ 32 - 1) :=
      Nat.mul_le_mul h (by omega)
    have hcomm : config.pixelCount * k = config.width.toNat * k * config.height.toNat := by
      unfold CaptureConfig.pixelCount
      ring
    rw [Nat.mod_eq_of_lt (by omega), Nat.mod_eq_of_lt (by omega)]
    exact ⟨rfl, rfl⟩

theorem CaptureConfig.nv12Bytes_exact_iff (config : CaptureConfig) :
    (config.width.toUInt64 * config.height.toUInt64 +
        (config.width.toUInt64 * config.height.toUInt64 + 1) / 2).toNat =
        config.pixelCount + (config.pixelCount + 1) / 2 ↔
      config.pixelCount ≤ 12297829382473034410 := by
  have hsize : (config.width.toUInt64 * config.height.toUInt64 +
      (config.width.toUInt64 * config.height.toUInt64 + 1) / 2).toNat =
      (config.pixelCount + (config.pixelCount + 1) / 2) % 2 ^ 64 := by
    rw [UInt64.toNat_add, config.pixels_toNat, config.halfPixels_toNat]
  rw [hsize]
  constructor
  · intro h
    have hlt := Nat.mod_lt (config.pixelCount + (config.pixelCount + 1) / 2)
      (show 0 < 2 ^ 64 by norm_num)
    omega
  · intro h
    exact Nat.mod_eq_of_lt (by omega)

theorem geometryExact_multi (hmode : config.captureMode = .multiPlane)
    (hnv : config.pixelFormat = .nv12) : GeometryExact config := by
  refine ⟨?_, planeSizes_multi hmode⟩
  rw [hnv]
  rfl

theorem geometryExact_iff (hm : config.captureMode = .multiPlane → config.pixelFormat = .nv12)
    (hf : config.pixelFormat ≠ .unknown) : GeometryExact config ↔ GeometryFits config := by
  by_cases hmode : config.captureMode = .multiPlane
  · have hnv := hm hmode
    refine iff_of_true (geometryExact_multi hmode hnv) ?_
    unfold GeometryFits
    rw [hnv]
    exact Or.inl hmode
  · have hpixels := config.pixels_toNat
    have hs := planeSizes.eq_def config
    have he := exactSizes.eq_def config
    dsimp only at hs he
    rw [if_neg hmode] at hs he
    cases hfmt : config.pixelFormat <;> rw [hfmt] at hs he
    case unknown => exact absurd hfmt hf
    all_goals
      rw [geometryExact_single hs he, GeometryFits.eq_def, hfmt]
    case mjpeg | h264 =>
      refine iff_of_true ⟨rfl, ?_⟩ trivial
      rw [toNat_max, UInt64.toNat_div, hpixels]
      rfl
    case yuyv | uyvy =>
      apply config.scaled_exact_iff (k := 2) (by omega) (by norm_num) (UInt32.toNat_mul _ _)
      rw [UInt64.toNat_mul, hpixels]
      rfl
    case rgb24 | bgr24 =>
      apply config.scaled_exact_iff (k := 3) (by omega) (by norm_num) (UInt32.toNat_mul _ _)
      rw [UInt64.toNat_mul, hpixels]
      rfl
    case nv12 =>
      have hstride : (strideFor .nv12 config.width).toNat =
          exactStride .nv12 config.width.toNat := rfl
      rw [config.nv12Bytes_exact_iff, and_iff_right hstride]
      exact (or_iff_right hmode).symm
    case grey => exact iff_of_true ⟨rfl, hpixels⟩ trivial

end Formats

/-- For a configuration accepted for the synthetic camera, the stride and the plane sizes are
the exact ones just where the dimensions fit. -/
theorem geometry_exact_iff {fl : Rounding} {fuel : ℕ} {config : CaptureConfig} {σ : Type}
    {D : Device linux σ} {d d' : σ} {log : Log} {camera : SyntheticCamera}
    (h : Exec D (makeCamera fl fuel config).run d log (.ok (.synthetic camera)) d') :
    GeometryExact camera.config ↔ GeometryFits config := by
  obtain ⟨ha, _, hm, _⟩ := makeCamera_synthetic.mp h
  obtain ⟨hconfig, _⟩ := SyntheticCamera.make_ok hm
  rw [geometryExact_iff camera.multiPlaneNv12 (SyntheticCamera.accepted ha hm).formatKnown, hconfig]
  unfold GeometryFits CaptureConfig.pixelCount
  cases config.captureMode <;> simp [CaptureMode.orSingle]

def wideConfig : CaptureConfig :=
  { backend := .synthetic, width := 2147483648, height := 1, pixelFormat := .yuyv }

theorem wideConfig_made (width : UInt32) (hw : width ≠ 0) : ∃ camera,
    Exec (fixed sampleAnswer) (makeCamera .exact 0 { wideConfig with width := width }).run () []
      (.ok (.synthetic camera)) () ∧
    camera.config.pixelFormat = .yuyv ∧ camera.config.width = width := by
  have ha : Accepted .exact { wideConfig with width := width } :=
    accepted_of_rate rfl hw (show wideConfig.height ≠ 0 by decide)
      (show wideConfig.pixelFormat ≠ .unknown by decide) (show 2 ≤ wideConfig.bufferCount by decide)
  exact ⟨_, makeCamera_synthetic.mpr ⟨ha, rfl, rfl, rfl, rfl⟩, rfl, rfl⟩

theorem geometry_exact_iff_sample : ∃ camera,
    Exec (fixed sampleAnswer) (makeCamera .exact 0 { wideConfig with width := 2147483647 }).run ()
      [] (.ok (.synthetic camera)) () ∧
    GeometryExact camera.config := by
  obtain ⟨camera, h, _⟩ := wideConfig_made 2147483647 (by decide)
  have hfits : (2147483647 : UInt32).toNat ≤ 2147483647 := by decide
  exact ⟨camera, h, (geometry_exact_iff h).mpr hfits⟩

/-- The stride of one column more is zero. -/
theorem wide_stride_wraps : ∃ camera,
    Exec (fixed sampleAnswer) (makeCamera .exact 0 wideConfig).run () []
      (.ok (.synthetic camera)) () ∧
    strideFor camera.config.pixelFormat camera.config.width = 0 ∧
    ¬ GeometryExact camera.config := by
  obtain ⟨camera, h, hformat, hwidth⟩ := wideConfig_made 2147483648 (by decide)
  have hzero : strideFor camera.config.pixelFormat camera.config.width = 0 := by
    rw [hformat, hwidth]
    decide
  refine ⟨camera, h, hzero, ?_⟩
  intro hexact
  have hstride := hexact.stride
  rw [hzero, hformat, hwidth] at hstride
  exact absurd hstride (by decide)

end CameraCore
