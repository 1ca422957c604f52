import CameraCore.CameraConstruction
import CameraCore.SyntheticCamera

/-!
# The camera factory

`make_camera` checks the configuration before it hands it to a backend. A configuration
that passes has a frame period that fits every type the synthetic camera puts it in.
-/

namespace CameraCore

open DeviceProgram FloatingPoint

/-- The checks of `make_camera`, made for either backend. -/
def checkConfig (fl : Rounding) (config : CaptureConfig) : Except Exception Unit :=
  let rate := config.frameRate.value
  if config.width = 0 ∨ config.height = 0 then
    .error (.camera .invalidArgument "camera width and height must be non-zero")
  else if config.frameRate.isfinite = false ∨ rate ≤ 0 then
    .error (.camera .invalidArgument "camera frame_rate must be finite and positive")
  else if fl.mul rate 1000 < 1 ∨ 4294967295 < fl.mul rate 1000 then
    .error (.camera .invalidArgument "camera frame_rate cannot be represented by V4L2")
  else if config.pixelFormat = .unknown then
    .error (.camera .invalidArgument "camera pixel format must not be unknown")
  else if config.bufferCount < 2 then
    .error (.camera .invalidArgument "camera buffer_count must be at least two")
  else .ok ()

inductive Camera
  | v4l2 (camera : Constructed)
  | synthetic (camera : SyntheticCamera)

def makeCamera (fl : Rounding) (fuel : ℕ) (config : CaptureConfig) : Fallible Camera := do
  ExceptT.mk (pure (checkConfig fl config))
  match config.backend with
  | .v4l2 => do
      let camera ← V4L2Camera.construct fl fuel config
      pure (.v4l2 camera)
  | .synthetic => do
      let camera ← ExceptT.mk (pure (SyntheticCamera.make config))
      pure (.synthetic camera)

/-- What the checks leave. -/
structure Accepted (fl : Rounding) (config : CaptureConfig) : Prop where
  width : config.width ≠ 0
  height : config.height ≠ 0
  isfinite : config.frameRate.isfinite = true
  ratePositive : 0 < config.frameRate.value
  rateLower : 1 ≤ fl.mul config.frameRate.value 1000
  rateUpper : fl.mul config.frameRate.value 1000 ≤ 4294967295
  formatKnown : config.pixelFormat ≠ .unknown
  buffers : 2 ≤ config.bufferCount

theorem checkConfig_ok {fl : Rounding} {config : CaptureConfig} :
    checkConfig fl config = .ok () ↔ Accepted fl config := by
  unfold checkConfig
  constructor
  · intro h
    dsimp only at h
    split_ifs at h with hsize hrate hscale hformat hbuffers
    simp only [not_or, Bool.not_eq_false, not_le, not_lt] at hsize hrate hscale
    exact ⟨hsize.1, hsize.2, hrate.1, hrate.2, hscale.1, hscale.2, hformat,
      UInt32.not_lt.mp hbuffers⟩
  · intro h
    have hsize : ¬ (config.width = 0 ∨ config.height = 0) := not_or.mpr ⟨h.width, h.height⟩
    have hrate : ¬ (config.frameRate.isfinite = false ∨ config.frameRate.value ≤ 0) := by
      rw [not_or, not_le, Bool.not_eq_false]
      exact ⟨h.isfinite, h.ratePositive⟩
    have hscale : ¬ (fl.mul config.frameRate.value 1000 < 1 ∨
        4294967295 < fl.mul config.frameRate.value 1000) := by
      rw [not_or, not_lt, not_lt]
      exact ⟨h.rateLower, h.rateUpper⟩
    have hbuffers : ¬ config.bufferCount < 2 := UInt32.not_lt.mpr h.buffers
    dsimp only
    rw [if_neg hsize, if_neg hrate, if_neg hscale, if_neg h.formatKnown, if_neg hbuffers]

theorem accepted_of_rate {config : CaptureConfig} (hr : config.frameRate = .finite 30)
    (hw : config.width ≠ 0) (hh : config.height ≠ 0) (hf : config.pixelFormat ≠ .unknown)
    (hb : 2 ≤ config.bufferCount) : Accepted .exact config := by
  refine ⟨hw, hh, ?_, ?_, ?_, ?_, hf, hb⟩ <;> rw [hr]
  · rfl
  all_goals norm_num [Double.value, Rounding.mul, Rounding.exact]

/-- A synthetic camera comes from a checked configuration, and asks nothing of the
system. -/
theorem makeCamera_synthetic {fl : Rounding} {fuel : ℕ} {config : CaptureConfig} {σ : Type}
    {D : Device linux σ} {d d' : σ} {log : Log} {camera : SyntheticCamera} :
    Exec D (makeCamera fl fuel config).run d log (.ok (.synthetic camera)) d' ↔
      Accepted fl config ∧ config.backend = .synthetic ∧
        SyntheticCamera.make config = .ok camera ∧ log = [] ∧ d' = d := by
  unfold makeCamera
  rw [exec_bind_ok]
  constructor
  · rintro ⟨_, d₁, log₁, log₂, hcheck, hrest, rfl⟩
    obtain ⟨rfl, hok, rfl⟩ := exec_pure.mp hcheck
    refine ⟨checkConfig_ok.mp hok.symm, ?_⟩
    cases hb : config.backend with
    | v4l2 =>
        rw [hb] at hrest
        obtain ⟨_, d₂, log₃, log₄, _, hlast, rfl⟩ := exec_bind_ok.mp hrest
        obtain ⟨_, he, _⟩ := exec_return.mp hlast
        cases he
    | synthetic =>
        rw [hb] at hrest
        obtain ⟨_, d₂, log₃, log₄, hmake, hlast, rfl⟩ := exec_bind_ok.mp hrest
        obtain ⟨rfl, he, rfl⟩ := exec_return.mp hlast
        cases he
        obtain ⟨rfl, hm, rfl⟩ := exec_pure.mp hmake
        exact ⟨rfl, hm.symm, rfl, rfl⟩
  · rintro ⟨ha, hb, hm, rfl, rfl⟩
    refine ⟨(), d', [], [], exec_pure.mpr ⟨rfl, (checkConfig_ok.mpr ha).symm, rfl⟩, ?_, rfl⟩
    rw [hb]
    exact exec_bind_ok.mpr ⟨camera, d', [], [], exec_pure.mpr ⟨rfl, hm.symm, rfl⟩,
      exec_return.mpr ⟨rfl, rfl, rfl⟩, rfl⟩

theorem Accepted.withMode {fl : Rounding} {config : CaptureConfig} (h : Accepted fl config)
    (mode : CaptureMode) : Accepted fl { config with captureMode := mode } :=
  ⟨h.width, h.height, h.isfinite, h.ratePositive, h.rateLower, h.rateUpper, h.formatKnown,
    h.buffers⟩

theorem SyntheticCamera.accepted {fl : Rounding} {config : CaptureConfig}
    {camera : SyntheticCamera} (ha : Accepted fl config)
    (hm : SyntheticCamera.make config = .ok camera) : Accepted fl camera.config := by
  obtain ⟨hc, _⟩ := SyntheticCamera.make_ok hm
  rw [hc]
  exact ha.withMode _

theorem toInt64_toInt {x : UInt64} (h : x.toNat < 2 ^ 63) : x.toInt64.toInt = x.toNat := by
  have hx : 2 * x.toBitVec.toNat < 2 ^ 64 := by
    rw [UInt64.toNat_toBitVec]
    omega
  rw [← Int64.toInt_toBitVec, UInt64.toBitVec_toInt64, BitVec.toInt_eq_toNat_of_lt hx,
    UInt64.toNat_toBitVec]

namespace Accepted

variable {fl : Rounding} {config : CaptureConfig}

theorem half_lt (h : Accepted fl config) : 1 / 2 < config.frameRate.value * 1000 :=
  fl.half_lt_of_one_le_round h.rateLower

theorem rate_lt (h : Accepted fl config) : config.frameRate.value * 1000 < 4294967296 := by
  have hlt : fl.round (config.frameRate.value * 1000) < (4294967296 : ℕ) :=
    lt_of_le_of_lt h.rateUpper (by norm_num)
  exact_mod_cast fl.lt_natCast_of_round_lt (by norm_num) hlt

theorem period_bounds (h : Accepted fl config) :
    232 ≤ llround (fl.div 1000000000 config.frameRate.value) ∧
      llround (fl.div 1000000000 config.frameRate.value) ≤ 2000000000000 := by
  have hpos := h.ratePositive
  have hlow := h.half_lt
  have hhigh := h.rate_lt
  have hge : ((232 : ℕ) : ℚ) ≤ 1000000000 / config.frameRate.value := by
    rw [le_div_iff₀ hpos]
    push_cast
    linarith
  have hle : 1000000000 / config.frameRate.value ≤ ((2000000000000 : ℕ) : ℚ) := by
    rw [div_le_iff₀ hpos]
    push_cast
    linarith
  constructor
  · exact_mod_cast le_llround (fl.natCast_le_round (by norm_num) hge)
  · exact_mod_cast llround_le (fl.round_le_natCast (by norm_num) hle)

theorem periodNs_toNat (h : Accepted fl config) :
    232 ≤ (periodNs fl config).toNat ∧ (periodNs fl config).toNat ≤ 2000000000000 := by
  obtain ⟨hge, hle⟩ := h.period_bounds
  have hval := uint64_ofInt_toNat (llround (fl.div 1000000000 config.frameRate.value))
  rw [Int.emod_eq_of_lt (by omega) (by omega)] at hval
  change ((periodNs fl config).toNat : ℤ) = _ at hval
  omega

/-- The period survives the conversions to a duration. -/
theorem periodNs_toInt (h : Accepted fl config) :
    (periodNs fl config).toInt64.toInt = (periodNs fl config).toNat := by
  obtain ⟨_, hle⟩ := h.periodNs_toNat
  exact toInt64_toInt (by omega)

end Accepted

end CameraCore
