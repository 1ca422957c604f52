import Mathlib.Data.Nat.GCD.Basic
import CameraCore.CameraFactory

/-!
# Negotiation of the frame rate

V4L2 takes a frame period as a fraction. The rate is scaled to thousandths of a frame,
rounded to the nearest integer and put in lowest terms with Euclid's algorithm. The
fraction differs from the rate by half a thousandth at most, and a rate taken over from
it is scaled to the same integer again.
-/

namespace CameraCore

open DeviceProgram FloatingPoint

theorem greatestCommonDivisor_toNat (left right : UInt32) :
    (greatestCommonDivisor left right).toNat = Nat.gcd left.toNat right.toNat := by
  induction left, right using greatestCommonDivisor.induct with
  | case1 left =>
      unfold greatestCommonDivisor
      simp
  | case2 left right hright ih =>
      unfold greatestCommonDivisor
      rw [dif_neg hright, ih, UInt32.toNat_mod, Nat.gcd_comm, ← Nat.gcd_rec, Nat.gcd_comm]

theorem greatestCommonDivisor_ne_zero {left right : UInt32} (h : left ≠ 0) :
    greatestCommonDivisor left right ≠ 0 := by
  intro hz
  have hgcd := greatestCommonDivisor_toNat left right
  rw [hz] at hgcd
  have hleft := Nat.eq_zero_of_gcd_eq_zero_left hgcd.symm
  exact h (UInt32.toNat_inj.mp hleft)

/-- The rate in thousandths of a frame, in the type of the fraction. -/
def scaledRate (fl : Rounding) (rate : ℚ) : UInt32 := UInt32.ofInt (llround (fl.mul rate 1000))

/-- The divisions by the common divisor leave no remainder. -/
theorem timePerFrame_mul (fl : Rounding) (rate : ℚ) :
    (timePerFrame fl rate).numerator.toNat * Nat.gcd 1000 (scaledRate fl rate).toNat = 1000 ∧
      (timePerFrame fl rate).denominator.toNat * Nat.gcd 1000 (scaledRate fl rate).toNat =
        (scaledRate fl rate).toNat := by
  have hgcd := greatestCommonDivisor_toNat rateScale (scaledRate fl rate)
  have hscale : rateScale.toNat = 1000 := rfl
  rw [hscale] at hgcd
  unfold timePerFrame
  dsimp only
  change (rateScale / greatestCommonDivisor rateScale (scaledRate fl rate)).toNat * _ = _ ∧
    (scaledRate fl rate / greatestCommonDivisor rateScale (scaledRate fl rate)).toNat * _ = _
  rw [UInt32.toNat_div, UInt32.toNat_div, hgcd, hscale]
  exact ⟨Nat.div_mul_cancel (Nat.gcd_dvd_left _ _), Nat.div_mul_cancel (Nat.gcd_dvd_right _ _)⟩

/-- A fraction of thousandths in lowest terms, whose inverse is a rate up to rounding. -/
structure V4L2Fract.Represents (fraction : V4L2Fract) (rate : ℚ) : Prop where
  numerator_dvd : fraction.numerator.toNat ∣ 1000
  denominator_pos : 1 ≤ fraction.denominator.toNat
  coprime : Nat.Coprime fraction.numerator.toNat fraction.denominator.toNat
  close : |(fraction.denominator.toNat : ℚ) / fraction.numerator.toNat - rate| ≤ 1 / 2000

theorem V4L2Fract.Represents.ne_zero {fraction : V4L2Fract} {rate : ℚ}
    (h : fraction.Represents rate) : fraction.numerator ≠ 0 ∧ fraction.denominator ≠ 0 := by
  constructor
  · intro hz
    have hdvd := h.numerator_dvd
    rw [hz] at hdvd
    exact absurd (Nat.eq_zero_of_zero_dvd hdvd) (by decide)
  · intro hz
    have hpos := h.denominator_pos
    rw [hz] at hpos
    exact absurd hpos (by decide)

/-- The conversion of the rounded rate to 32 bits keeps it. -/
theorem Accepted.scaledRate_toNat {config : CaptureConfig} (h : Accepted .exact config) :
    ((scaledRate .exact config.frameRate.value).toNat : ℤ) =
        llround (config.frameRate.value * 1000) ∧
      1 ≤ (scaledRate .exact config.frameRate.value).toNat := by
  have hlower : ((1 : ℕ) : ℚ) ≤ config.frameRate.value * 1000 := by exact_mod_cast h.rateLower
  have hupper : config.frameRate.value * 1000 ≤ ((4294967295 : ℕ) : ℚ) := by
    exact_mod_cast h.rateUpper
  have hge := le_llround hlower
  have hle := llround_le hupper
  have hval : ((scaledRate .exact config.frameRate.value).toNat : ℤ) =
      llround (config.frameRate.value * 1000) :=
    (uint32_ofInt_toNat (llround (config.frameRate.value * 1000))).trans
      (Int.emod_eq_of_lt (by omega) (by omega))
  exact ⟨hval, by omega⟩

theorem timePerFrame_ratio (fl : Rounding) (rate : ℚ) :
    ((timePerFrame fl rate).denominator.toNat : ℚ) / (timePerFrame fl rate).numerator.toNat =
      (scaledRate fl rate).toNat / 1000 := by
  obtain ⟨hnum, hden⟩ := timePerFrame_mul fl rate
  have hpos : Nat.gcd 1000 (scaledRate fl rate).toNat ≠ 0 := by
    intro hz
    rw [hz] at hnum
    omega
  have hnum' : ((timePerFrame fl rate).numerator.toNat : ℚ) *
      Nat.gcd 1000 (scaledRate fl rate).toNat = 1000 := by exact_mod_cast hnum
  have hden' : ((timePerFrame fl rate).denominator.toNat : ℚ) *
      Nat.gcd 1000 (scaledRate fl rate).toNat = (scaledRate fl rate).toNat := by
    exact_mod_cast hden
  rw [← hden', ← hnum']
  exact (mul_div_mul_right _ _ (Nat.cast_ne_zero.mpr hpos)).symm

theorem timePerFrame_represents {config : CaptureConfig} (h : Accepted .exact config) :
    (timePerFrame .exact config.frameRate.value).Represents config.frameRate.value := by
  obtain ⟨hval, hpos⟩ := h.scaledRate_toNat
  obtain ⟨hnum, hden⟩ := timePerFrame_mul .exact config.frameRate.value
  refine ⟨Dvd.intro _ hnum, ?_, ?_, ?_⟩
  · apply Nat.pos_of_ne_zero
    intro hz
    rw [hz, Nat.zero_mul] at hden
    omega
  · have hgcd : 0 < Nat.gcd 1000 (scaledRate .exact config.frameRate.value).toNat :=
      Nat.gcd_pos_of_pos_left _ (by omega)
    apply Nat.eq_of_mul_eq_mul_right hgcd
    rw [Nat.one_mul, ← Nat.gcd_mul_right, hnum, hden]
  · have hround := abs_llround_sub_le (config.frameRate.value * 1000)
    have hvalue : ((scaledRate .exact config.frameRate.value).toNat : ℚ) =
        llround (config.frameRate.value * 1000) := by exact_mod_cast hval
    rw [timePerFrame_ratio, hvalue]
    rw [abs_le] at hround ⊢
    constructor <;> linarith

theorem timePerFrame_congr {fl fl' : Rounding} {rate rate' : ℚ}
    (h : scaledRate fl rate = scaledRate fl' rate') :
    timePerFrame fl rate = timePerFrame fl' rate' := by
  unfold timePerFrame
  change (⟨rateScale / greatestCommonDivisor rateScale (scaledRate fl rate),
    scaledRate fl rate / greatestCommonDivisor rateScale (scaledRate fl rate)⟩ : V4L2Fract) = _
  rw [h]
  rfl

theorem scaledRate_thousandths (n : UInt32) : scaledRate .exact ((n.toNat : ℚ) / 1000) = n := by
  have hmul : Rounding.exact.mul ((n.toNat : ℚ) / 1000) 1000 = n.toNat :=
    div_mul_cancel₀ _ (by norm_num)
  have hlt := n.toNat_lt
  have hval := uint32_ofInt_toNat n.toNat
  apply UInt32.toNat_inj.mp
  rw [scaledRate, hmul, llround_natCast]
  omega

section
variable {σ : Type} {D : Device linux σ} {d d' : σ} {log : Log}

theorem exec_configureFrameRate {fl : Rounding} {t : CaptureType} {config : CaptureConfig}
    {x : Except Exception CaptureConfig}
    (h : Exec D (configureFrameRate fl t config).run d log x d') :
    ∃ answer : Except Errno V4L2Fract,
      log = [⟨.ioctl (.sParm t (timePerFrame fl config.frameRate.value)), answer⟩] ∧
      ∀ actual, answer = .ok actual → actual.numerator ≠ 0 → actual.denominator ≠ 0 →
        x = .ok { config with
          frameRate := .finite (fl.div actual.denominator.toNat actual.numerator.toNat) } := by
  obtain ⟨answer, d₁, log₁, _, hrest, rfl⟩ := exec_tryIoctl_bind.mp h
  refine ⟨answer, ?_, ?_⟩
  · cases answer with
    | error error =>
        dsimp only at hrest
        split_ifs at hrest
        · obtain ⟨rfl, _, _⟩ := exec_throw.mp hrest
          rfl
        · obtain ⟨rfl, _, _⟩ := exec_return.mp hrest
          rfl
    | ok actual =>
        dsimp only at hrest
        split_ifs at hrest
        all_goals
          obtain ⟨rfl, _, _⟩ := exec_return.mp hrest
          rfl
  · rintro actual rfl hnum hden
    dsimp only at hrest
    rw [if_pos ⟨hnum, hden⟩] at hrest
    exact (exec_return.mp hrest).2.1

theorem configureFrameRate_returns {fl : Rounding} {t : CaptureType} {config : CaptureConfig}
    {actual : V4L2Fract}
    (hD : D d (.ioctl (.sParm t (timePerFrame fl config.frameRate.value))) (.ok actual) d')
    (hnum : actual.numerator ≠ 0) (hden : actual.denominator ≠ 0) :
    Exec D (configureFrameRate fl t config).run d
      [⟨.ioctl (.sParm t (timePerFrame fl config.frameRate.value)), .ok actual⟩]
      (.ok { config with
        frameRate := .finite (fl.div actual.denominator.toNat actual.numerator.toNat) }) d' := by
  refine exec_tryIoctl_bind.mpr ⟨_, d', [], hD, ?_, rfl⟩
  dsimp only
  rw [if_pos ⟨hnum, hden⟩]
  exact exec_return.mpr ⟨rfl, rfl, rfl⟩

/-- For every accepted rate the conversion to 32 bits is exact and the divisor is not zero; the
pair sent to the driver is a fraction of thousandths in lowest terms that stands for the rate,
and an echo of it sets a rate that is converted to the same pair. -/
theorem frameRate_reduced {requested config : CaptureConfig} (h : Accepted .exact requested)
    (hr : config.frameRate = requested.frameRate) (t : CaptureType) :
    ((scaledRate .exact config.frameRate.value).toNat : ℤ) =
      llround (requested.frameRate.value * 1000) ∧
    greatestCommonDivisor rateScale (scaledRate .exact config.frameRate.value) ≠ 0 ∧
    ∃ pair : V4L2Fract, pair.Represents requested.frameRate.value ∧
      ∀ d log x d', Exec D (configureFrameRate .exact t config).run d log x d' →
        ∃ answer : Except Errno V4L2Fract, log = [⟨.ioctl (.sParm t pair), answer⟩] ∧
          (answer = .ok pair → ∃ rate, x = .ok { config with frameRate := .finite rate } ∧
            timePerFrame .exact rate = pair) := by
  rw [hr]
  have hrep := timePerFrame_represents h
  refine ⟨h.scaledRate_toNat.1, greatestCommonDivisor_ne_zero (by decide), _, hrep, ?_⟩
  intro d log x d' hx
  obtain ⟨answer, hlog, hactual⟩ := exec_configureFrameRate hx
  rw [hr] at hlog
  refine ⟨answer, hlog, ?_⟩
  intro hecho
  obtain ⟨hnum, hden⟩ := hrep.ne_zero
  refine ⟨_, hactual _ hecho hnum hden, timePerFrame_congr ?_⟩
  change scaledRate .exact (_ / _) = _
  rw [timePerFrame_ratio]
  exact scaledRate_thousandths _

end

/-- A driver that sets the frame period it is asked for. -/
def echoAnswer : (r : Request) → r.Answer
  | .ioctl (.sParm _ timeperframe) => .ok timeperframe
  | r => sampleAnswer r

/-- 30000/1001 frames a second. -/
def ntscConfig : CaptureConfig := { frameRate := .finite (30000 / 1001) }

theorem ntscConfig_accepted : Accepted .exact ntscConfig := by
  refine ⟨by decide, by decide, rfl, ?_, ?_, ?_, by decide, by decide⟩
  all_goals norm_num [ntscConfig, Double.value, Rounding.mul, Rounding.exact]

theorem frameRate_reduced_sample : ∃ pair : V4L2Fract, pair.Represents (30000 / 1001) ∧
    ∃ rate, timePerFrame .exact rate = pair ∧
      Exec (fixed echoAnswer) (configureFrameRate .exact .videoCapture ntscConfig).run ()
        [⟨.ioctl (.sParm .videoCapture pair), .ok pair⟩]
        (.ok { ntscConfig with frameRate := .finite rate }) () := by
  obtain ⟨_, _, pair, hrep, hruns⟩ := frameRate_reduced (D := fixed echoAnswer)
    ntscConfig_accepted rfl .videoCapture
  obtain ⟨hnum, hden⟩ := (timePerFrame_represents ntscConfig_accepted).ne_zero
  have hset : (fixed echoAnswer : Device linux Unit) ()
      (Request.ioctl (.sParm .videoCapture (timePerFrame .exact ntscConfig.frameRate.value)))
      (.ok (timePerFrame .exact ntscConfig.frameRate.value)) () := ⟨rfl, rfl⟩
  have hrun := configureFrameRate_returns hset hnum hden
  obtain ⟨answer, hlog, hecho⟩ := hruns _ _ _ _ hrun
  cases hlog
  obtain ⟨rate, hx, hrate⟩ := hecho rfl
  rw [hx] at hrun
  exact ⟨_, hrep, rate, hrate, hrun⟩

end CameraCore
