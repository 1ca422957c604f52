import CameraCore.FrameChecksum
import CameraCore.LinearCongruential
import CameraCore.SyntheticRuns

/-!
# The payload of synthetic frames

The planes of a synthetic frame are cut from one run of the generator, so the payload of a
frame depends on the planes through the total of their sizes only. Each byte is the top of
a 32-bit state; six bytes tell any two first states apart, by a certificate for the
multiplier of the generator.
-/

namespace CameraCore

open DeviceProgram FloatingPoint LinearCongruential

theorem fillPlane_succ (n : ℕ) (state : UInt32) :
    fillPlane (n + 1) state =
      ((nextState state >>> 24).toUInt8 :: (fillPlane n (nextState state)).1,
        (fillPlane n (nextState state)).2) := rfl

theorem fillPlane_length (n : ℕ) (state : UInt32) : (fillPlane n state).1.length = n := by
  induction n generalizing state with
  | zero => rfl
  | succ n ih => rw [fillPlane_succ, List.length_cons, ih]

theorem fillPlane_add (m n : ℕ) (state : UInt32) :
    (fillPlane (m + n) state).1 =
      (fillPlane m state).1 ++ (fillPlane n (fillPlane m state).2).1 := by
  induction m generalizing state with
  | zero =>
      rw [Nat.zero_add]
      rfl
  | succ m ih => rw [Nat.succ_add, fillPlane_succ, ih, fillPlane_succ, List.cons_append]

theorem fillPlanes_flatten (sizes : List UInt64) (state : UInt32) :
    (fillPlanes sizes state).flatten = (fillPlane (sizes.map UInt64.toNat).sum state).1 := by
  induction sizes generalizing state with
  | nil => rfl
  | cons size sizes ih =>
      rw [List.map_cons, List.sum_cons, fillPlane_add, ← ih]
      rfl

theorem fillPlanes_lengths (sizes : List UInt64) (state : UInt32) :
    (fillPlanes sizes state).map List.length = sizes.map UInt64.toNat := by
  induction sizes generalizing state with
  | nil => rfl
  | cons size sizes ih =>
      rw [fillPlanes, List.map_cons, List.map_cons, fillPlane_length, ih]

theorem fillPlanes_length_lt {sizes : List UInt64} {state : UInt32} {bytes : List UInt8}
    (h : bytes ∈ fillPlanes sizes state) : bytes.length < 2 ^ 64 := by
  have hlen : bytes.length ∈ sizes.map UInt64.toNat := by
    rw [← fillPlanes_lengths sizes state]
    exact List.mem_map_of_mem h
  obtain ⟨size, _, hsize⟩ := List.mem_map.mp hlen
  rw [← hsize]
  exact UInt64.toNat_lt size

theorem fillPlane_getElem? {n k : ℕ} (h : k < n) (state : UInt32) :
    (fillPlane n state).1[k]? = some ((nextState^[k + 1] state) >>> 24).toUInt8 := by
  induction n generalizing k state with
  | zero => omega
  | succ n ih =>
      rw [fillPlane_succ]
      cases k with
      | zero => rfl
      | succ k =>
          rw [List.getElem?_cons_succ, ih (by omega),
            Function.iterate_succ_apply nextState (k + 1) state]

def lcg : Generator := ⟨2 ^ 32, 1664525, 1013904223⟩

theorem nextState_toNat (state : UInt32) : (nextState state).toNat = lcg.next state.toNat := by
  unfold nextState
  rw [UInt32.toNat_add, UInt32.toNat_mul]
  change (state.toNat * 1664525 % 2 ^ 32 + 1013904223) % 2 ^ 32 =
    (state.toNat * 1664525 + 1013904223) % 2 ^ 32
  omega

theorem iterate_nextState_toNat (k : ℕ) (state : UInt32) :
    (nextState^[k] state).toNat = lcg.next^[k] state.toNat := by
  induction k generalizing state with
  | zero => rfl
  | succ k ih =>
      rw [Function.iterate_succ_apply, Function.iterate_succ_apply, ih, nextState_toNat]

theorem topByte_toNat (state : UInt32) : (state >>> 24).toUInt8.toNat = state.toNat / 2 ^ 24 := by
  have hlt := UInt32.toNat_lt state
  rw [UInt32.toNat_toUInt8, UInt32.toNat_shiftRight, Nat.shiftRight_eq_div_pow]
  change state.toNat / 2 ^ 24 % 2 ^ 8 = state.toNat / 2 ^ 24
  omega

/-- Six relations of the powers of the multiplier whose coefficients add up to at most the
`2 ^ 8` values of a byte. -/
def lcgCertificate : Certificate lcg.modulus lcg.multiplier (2 ^ 24 : ℕ) 5 where
  rows := ![![-2, -4, 3, 28, -12, -9], ![28, -19, 15, -1, -9, 10], ![-13, 20, -15, -9, -13, 18],
    ![-1, 2, -26, 22, 17, 10], ![-30, -14, 9, -12, 20, 7], ![4, 56, 42, 18, 41, 35]]
  weights := ![-68122409, 40729930, -46365330, 21860250, -80636873, 4572302]
  scale := 2 ^ 32
  related := by decide +kernel
  short := by decide +kernel
  scale_ne := by decide
  isolates := by decide +kernel

theorem fillPlane_injective {n : ℕ} (hn : 6 ≤ n) {s t : UInt32}
    (h : (fillPlane n s).1 = (fillPlane n t).1) : s = t := by
  apply UInt32.toNat_inj.mp
  have hcop : Nat.Coprime lcg.multiplier lcg.modulus := by decide +kernel
  apply Generator.separates lcgCertificate (by norm_num) hcop (UInt32.toNat_lt s)
    (UInt32.toNat_lt t)
  intro k hk
  have hs := fillPlane_getElem? (n := n) (k := k) (by omega) s
  have ht := fillPlane_getElem? (n := n) (k := k) (by omega) t
  rw [h, ht] at hs
  have hbyte := congrArg UInt8.toNat (Option.some.inj hs)
  rw [topByte_toNat, topByte_toNat, iterate_nextState_toNat, iterate_nextState_toNat] at hbyte
  exact hbyte.symm

theorem firstState_eq_iff {config : CaptureConfig} {i j : UInt64} :
    firstState config i = firstState config j ↔ i.toNat % 2 ^ 32 = j.toNat % 2 ^ 32 := by
  unfold firstState
  rw [UInt32.xor_right_inj, ← UInt32.toNat_inj, UInt64.toNat_toUInt32, UInt64.toNat_toUInt32]

/-- The pointer of a synthetic plane stands for its bytes. -/
def syntheticFetch (bytes : List UInt8) (index : ℕ) : UInt8 := bytes.getD index 0

theorem syntheticPlane_payload {config : CaptureConfig} {bytes : List UInt8}
    (h : bytes.length < 2 ^ 64) : (syntheticPlane config bytes).payload syntheticFetch = bytes := by
  have hlen : (syntheticPlane config bytes).bytesUsed.toNat = bytes.length :=
    UInt64.toNat_ofNat_of_lt' h
  unfold Plane.payload
  rw [hlen]
  apply List.ext_getElem
  · simp
  · intro i hi hi'
    simp [syntheticPlane, syntheticFetch, hi']

theorem syntheticFrame_payloads (fl : Rounding) (config : CaptureConfig) (sizes : List UInt64)
    (sequence : UInt64) :
    (syntheticFrame fl config (generate config sizes sequence) sequence).payloads syntheticFetch =
      fillPlanes sizes (firstState config sequence) := by
  change ((fillPlanes sizes (firstState config sequence)).map (syntheticPlane config)).map _ = _
  rw [List.map_map]
  have hbytes : ∀ bytes ∈ fillPlanes sizes (firstState config sequence),
      (Plane.payload syntheticFetch ∘ syntheticPlane config) bytes = id bytes := by
    intro bytes hb
    exact syntheticPlane_payload (fillPlanes_length_lt hb)
  rw [List.map_congr_left hbytes, List.map_id]

section Frames

variable {fl : Rounding} {recordsFail : Prop} {s s' u u' : SyntheticCamera}
  {timeoutMs timeoutMs' : UInt32} {t t' v v' : Int64} {log log' : TimedLog} {f g : SyntheticFrame}

theorem SyntheticCamera.exec_read_ok
    (h : Exec (steadyClock recordsFail) (s.read fl timeoutMs) t log (.ok f, s') t') :
    ∃ sizes, planeSizes s.config = .ok sizes ∧
      f = syntheticFrame fl s.config (generate s.config sizes s.sequence) s.sequence := by
  cases SyntheticCamera.exec_read h with
  | captured hr hs due after => exact ⟨_, hs, rfl⟩

/-- The payload of a frame is one run of the generator from its first state. -/
theorem SyntheticCamera.exec_read_payload
    (h : Exec (steadyClock recordsFail) (s.read fl timeoutMs) t log (.ok f, s') t') :
    ∃ sizes, planeSizes s.config = .ok sizes ∧
      f.payloads syntheticFetch = fillPlanes sizes (firstState s.config f.sequence) ∧
      f.payload syntheticFetch =
        (fillPlane (sizes.map UInt64.toNat).sum (firstState s.config f.sequence)).1 := by
  obtain ⟨sizes, hs, rfl⟩ := exec_read_ok h
  have hpayloads := syntheticFrame_payloads fl s.config sizes s.sequence
  refine ⟨sizes, hs, hpayloads, ?_⟩
  rw [FrameImpl.payload, hpayloads, fillPlanes_flatten]
  rfl

/-- Frames of one configuration with at least eight bytes carry the same payload exactly when
their numbers are congruent modulo `2 ^ 32`. -/
theorem payloads_distinguish (hu : u.config = s.config)
    (hf : Exec (steadyClock recordsFail) (s.read fl timeoutMs) t log (.ok f, s') t')
    (hg : Exec (steadyClock recordsFail) (u.read fl timeoutMs') v log' (.ok g, u') v')
    (hsize : 8 ≤ (f.payload syntheticFetch).length) :
    (f.payloads syntheticFetch = g.payloads syntheticFetch ↔
      f.sequence.toNat % 2 ^ 32 = g.sequence.toNat % 2 ^ 32) ∧
    (f.payload syntheticFetch = g.payload syntheticFetch ↔
      f.sequence.toNat % 2 ^ 32 = g.sequence.toNat % 2 ^ 32) ∧
    (f.sequence ≠ g.sequence → f.sequence.toNat < g.sequence.toNat + 2 ^ 32 →
      g.sequence.toNat < f.sequence.toNat + 2 ^ 32 →
      f.payload syntheticFetch ≠ g.payload syntheticFetch) := by
  obtain ⟨sizes, hs, hfs, hfp⟩ := SyntheticCamera.exec_read_payload hf
  obtain ⟨sizes', hs', hgs, hgp⟩ := SyntheticCamera.exec_read_payload hg
  rw [hu] at hs' hgs hgp
  obtain rfl : sizes = sizes' := Except.ok.inj (hs.symm.trans hs')
  have htotal : 8 ≤ (sizes.map UInt64.toNat).sum := by
    rwa [hfp, fillPlane_length] at hsize
  have hstate : f.payload syntheticFetch = g.payload syntheticFetch →
      firstState s.config f.sequence = firstState s.config g.sequence := by
    intro h
    rw [hfp, hgp] at h
    exact fillPlane_injective (by omega) h
  have hiff : f.payload syntheticFetch = g.payload syntheticFetch ↔
      f.sequence.toNat % 2 ^ 32 = g.sequence.toNat % 2 ^ 32 := by
    rw [← firstState_eq_iff]
    refine ⟨hstate, fun h => ?_⟩
    rw [hfp, hgp, h]
  refine ⟨?_, hiff, ?_⟩
  · constructor
    · intro h
      exact hiff.mp (congrArg List.flatten h)
    · intro h
      rw [hfs, hgs, firstState_eq_iff.mpr h]
  · intro hne hfg hgf h
    have hmod := hiff.mp h
    apply hne
    apply UInt64.toNat_inj.mp
    omega

end Frames

def nv12Config (width height : UInt32) (mode : CaptureMode) : CaptureConfig :=
  { backend := .synthetic
    width := width
    height := height
    pixelFormat := .nv12
    captureMode := mode }

def nv12Camera (width height : UInt32) (mode : CaptureMode) (hm : mode ≠ .auto)
    (sequence : UInt64) : SyntheticCamera where
  config := nv12Config width height mode
  capabilities := makeCapabilities
  running := true
  sequence := sequence
  modeResolved := hm
  multiPlaneNv12 _ := rfl

theorem nv12_read {width height : UInt32} {mode : CaptureMode} (hm : mode ≠ .auto)
    {sizes : List UInt64} (hs : planeSizes (nv12Config width height mode) = .ok sizes)
    (h : ∀ size ∈ sizes, size ≤ SyntheticCamera.vectorMaxSize) (sequence : UInt64) :
    ∃ log, Exec (steadyClock True) ((nv12Camera width height mode hm sequence).read .exact 0) 0 log
      (.ok (syntheticFrame .exact (nv12Config width height mode)
        (generate (nv12Config width height mode) sizes sequence) sequence),
        (nv12Camera width height mode hm sequence).advance .exact 0) 0 :=
  SyntheticCamera.read_returns .exact True rfl le_rfl hs h 0

theorem payloads_distinguish_sample : ∃ f g : SyntheticFrame,
    f.sequence = 0 ∧ g.sequence = 1 ∧ f.payload syntheticFetch ≠ g.payload syntheticFetch := by
  have hmode : CaptureMode.singlePlane ≠ .auto := by decide
  have hs : planeSizes (nv12Config 4 2 .singlePlane) = .ok [12] := rfl
  obtain ⟨log, hf⟩ := nv12_read hmode hs (by simp [SyntheticCamera.vectorMaxSize]) 0
  obtain ⟨log', hg⟩ := nv12_read hmode hs (by simp [SyntheticCamera.vectorMaxSize]) 1
  have hconfig : (nv12Camera 4 2 .singlePlane hmode 1).config =
      (nv12Camera 4 2 .singlePlane hmode 0).config := rfl
  obtain ⟨_, _, hne⟩ := payloads_distinguish hconfig hf hg (by decide)
  exact ⟨_, _, rfl, rfl, hne (by decide) (by decide) (by decide)⟩

end CameraCore
