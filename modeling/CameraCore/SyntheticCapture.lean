import CameraCore.InspectSynthetic
import CameraCore.TimestampConversion

/-!
# Captures that cannot fail

The synthetic camera is also there for smoke tests, which fail when the tool does. A read of it can
end early for want of memory, for a size no vector has, or because its timeout ends before the next
frame is due. On a host with memory for everything only the options are left to blame.

The schedule of a frame is set by a reading of the clock that the next read comes after, whatever
the tool does in between. A timeout of a period is therefore enough for every clock, and a shorter
one is not: on a clock that stands still the second read ends with it.
-/

namespace CameraCore

open DeviceProgram FloatingPoint ScopedResources

def TimedRequest.Granted : (r : TimedRequest) → r.Answer → Prop
  | .allocateStorage, ok => ok = true
  | _, _ => True

def ampleClock : Device timed Int64 :=
  fun t r x t' => steadyClock False t r x t' ∧ r.Granted x

/-- A system whose answers are its own affair. -/
def ampleSystem : Device (owning linux Resource) Int64
  | t, .call _, _, t' => t ≤ t'
  | t, .allocate, ok, t' => ok = true ∧ t ≤ t'
  | t, .release _, _, t' => t ≤ t'

def ampleHost : Device host Int64 :=
  (ampleSystem.sum ampleClock).sum fun t _ _ t' => t ≤ t'

section Time

variable {α : Type} {t t' : Int64} {a : α}

theorem ampleHost_mono {r : host.Request} {x : host.Answer r} (h : ampleHost t r x t') :
    t ≤ t' := by
  rcases r with (r | r) | r
  · cases r with
    | call _ => exact h
    | allocate => exact h.2
    | release _ => exact h
  · exact SyntheticCamera.steadyClock_mono h.1
  · exact h

theorem time_passes {p : Program host α} {log : List (Event host)}
    (h : Exec ampleHost p t log a t') : t ≤ t' :=
  h.preserves (R := (· ≤ ·)) Int64.le_refl (fun _ _ _ => Int64.le_trans)
    fun _ _ _ _ hD _ => ampleHost_mono hD

theorem exec_clock {p : Timed α} {log : List (Event host)}
    (h : Exec ampleHost p.right.left t log a t') : ∃ log', Exec ampleClock p t log' a t' := by
  obtain ⟨_, h₁, _⟩ := exec_left.mp h
  obtain ⟨log', h₂, _⟩ := exec_right.mp h₁
  exact ⟨log', h₂⟩

end Time

def CaptureConfig.Storable (config : CaptureConfig) : Prop :=
  ∃ sizes, planeSizes config = .ok sizes ∧ ∀ size ∈ sizes, size ≤ SyntheticCamera.vectorMaxSize

namespace SyntheticCamera

variable {fl : Rounding} {s s' : SyntheticCamera} {t t' : Int64} {log : TimedLog}

theorem allocations_granted {count : ℕ} {r : Except Exception Unit}
    (h : Exec ampleClock (allocations count).run t log r t') : r = .ok () := by
  induction count generalizing t log with
  | zero =>
      obtain ⟨_, rfl, _⟩ := exec_return.mp h
      rfl
  | succ count ih =>
      obtain ⟨ok, t₁, log₁, log₂, halloc, hrest, rfl⟩ := exec_lift_bind.mp h
      obtain ⟨⟨_, hok⟩, _⟩ := exec_request.mp halloc
      cases hok
      exact ih hrest

theorem resizeEach_granted {sizes : List UInt64} {r : Except Exception Unit}
    (hfits : ∀ size ∈ sizes, size ≤ vectorMaxSize)
    (h : Exec ampleClock (resizeEach sizes).run t log r t') : r = .ok () := by
  induction sizes generalizing t log with
  | nil =>
      obtain ⟨_, rfl, _⟩ := exec_return.mp h
      rfl
  | cons size sizes ih =>
      have hsize : ¬ vectorMaxSize < size := UInt64.not_lt.mpr (hfits size List.mem_cons_self)
      unfold resizeEach at h
      rw [if_neg hsize] at h
      rcases exec_except_bind.mp h with ⟨e, _, hfirst⟩ | ⟨_, t₁, log₁, log₂, _, hrest, rfl⟩
      · cases allocations_granted hfirst
      · exact ih (fun size hs => hfits size (List.mem_cons_of_mem _ hs)) hrest

theorem buildStorage_granted {config : CaptureConfig} {sequence : UInt64}
    {r : Except Exception SyntheticStorage} (hstorable : config.Storable)
    (h : Exec ampleClock (buildStorage config sequence).run t log r t') :
    ∃ storage, r = .ok storage := by
  obtain ⟨sizes, hsizes, hfits⟩ := hstorable
  cases r with
  | ok storage => exact ⟨storage, rfl⟩
  | error e =>
      rcases exec_bind_error.mp h with h₀ | ⟨_, t₁, _, log₁, _, h₁, _⟩
      · cases allocations_granted h₀
      · rcases exec_bind_error.mp h₁ with h₂ | ⟨sizes', t₂, _, log₂, h₂, h₃, _⟩
        · obtain ⟨_, he, _⟩ := exec_pure.mp h₂
          rw [hsizes] at he
          cases he
        · obtain ⟨_, he, _⟩ := exec_pure.mp h₂
          rw [hsizes] at he
          cases he
          rcases exec_bind_error.mp h₃ with h₄ | ⟨_, t₃, _, log₃, _, h₄, _⟩
          · cases resizeEach_granted hfits h₄
          · rcases exec_bind_error.mp h₄ with h₅ | ⟨_, t₄, _, log₄, _, h₅, _⟩
            · cases allocations_granted h₅
            · obtain ⟨_, he, _⟩ := exec_return.mp h₅
              cases he

theorem awaitNextFrame_intime {timeoutMs : UInt32} {r : Except Exception Unit}
    (hintime : s.nextFrame ≤ t.toInt + timeoutMs.toNat * 1000000)
    (h : Exec ampleClock (s.awaitNextFrame timeoutMs) t log r t') : r = .ok () := by
  obtain ⟨now, t₁, log₁, ⟨⟨hle, rfl⟩, _⟩, hrest, rfl⟩ := exec_request_bind.mp h
  have hnow := Int64.le_iff_toInt_le.mp hle
  dsimp only at hrest
  split_ifs at hrest with hearly hshort
  · omega
  · obtain ⟨_, t₂, log₂, _, hend, rfl⟩ := exec_request_bind.mp hrest
    exact (exec_pure.mp hend).2.1
  · exact (exec_pure.mp hrest).2.1

/-- A read whose timeout reaches to the next frame captures it, and schedules the one after by a
reading that is past when it returns. -/
theorem read_intime {timeoutMs : UInt32} {r : Except Exception SyntheticFrame}
    (hr : s.running = true) (hstorable : s.config.Storable)
    (hintime : s.nextFrame ≤ t.toInt + timeoutMs.toNat * 1000000)
    (h : Exec ampleClock (s.read fl timeoutMs) t log (r, s') t') :
    ∃ frame now, r = .ok frame ∧ s' = s.advance fl now ∧ now ≤ t' := by
  unfold read at h
  rw [if_neg (by simp [hr])] at h
  obtain ⟨x, t₁, log₁, log₂, hawait, hcapture, rfl⟩ := exec_bind.mp h
  obtain rfl := awaitNextFrame_intime hintime hawait
  obtain ⟨y, t₂, log₃, log₄, hstorage, hrest, rfl⟩ := exec_bind.mp hcapture
  obtain ⟨storage, rfl⟩ := buildStorage_granted hstorable hstorage
  obtain ⟨now, t₃, log₅, ⟨⟨_, rfl⟩, _⟩, hrecord, rfl⟩ := exec_request_bind.mp hrest
  obtain ⟨ok, t₄, log₆, ⟨⟨hafter, hlost⟩, _⟩, hend, rfl⟩ := exec_request_bind.mp hrecord
  cases ok with
  | false => exact (hlost rfl).elim
  | true =>
      obtain ⟨_, he, rfl⟩ := exec_pure.mp hend
      cases he
      exact ⟨_, t₃, rfl, rfl, hafter⟩

end SyntheticCamera

/-- What a capture with these options needs: a configuration the library takes, planes that can
be stored, and a timeout of a period once a frame follows another. -/
structure Options.Dependable (fl : Rounding) (options : Options) : Prop where
  accepted : Accepted fl options.config
  planes : options.config.captureMode = .multiPlane → options.config.pixelFormat = .nv12
  storable : options.captureCount ≠ 0 → options.syntheticConfig.Storable
  patient : 1 < options.captureCount →
    (periodNs fl options.config).toNat ≤ options.timeoutMs.toNat * 1000000

section Succeeds

variable {fl : Rounding} {camera camera' : SyntheticCamera} {t t' : Int64}
  {log : List (Event host)}

/-- The induction is on the passes: the schedule a pass leaves is within the timeout of the next
read, which begins after it was set. -/
theorem captureFrames_intime {timeoutMs : UInt32} {count : ℕ} {r : Except Exception Unit}
    (h : Exec ampleHost ((syntheticClass fl).captureFrames timeoutMs count camera) t log
      (r, camera') t')
    (ha : Accepted fl camera.config) (hr : camera.running = true)
    (hstorable : 0 < count → camera.config.Storable)
    (hpatient : 1 < count → (periodNs fl camera.config).toNat ≤ timeoutMs.toNat * 1000000)
    (hintime : 0 < count → camera.nextFrame ≤ t.toInt + timeoutMs.toNat * 1000000) :
    r = .ok () := by
  induction count generalizing camera t log with
  | zero =>
      obtain ⟨_, he, _⟩ := exec_pure.mp h
      cases he
      rfl
  | succ count ih =>
      obtain ⟨⟨x, camera₁⟩, t₁, log₁, log₂, hread, hpass, rfl⟩ := exec_bind.mp h
      obtain ⟨log₃, hread⟩ := exec_clock hread
      obtain ⟨frame, now, rfl, rfl, hnow⟩ := SyntheticCamera.read_intime hr
        (hstorable (Nat.succ_pos count)) (hintime (Nat.succ_pos count)) hread
      obtain ⟨_, t₂, log₄, log₅, hprint, hrelease, rfl⟩ := exec_bind.mp hpass
      obtain ⟨camera₂, t₃, log₆, log₇, hreleased, hmore, rfl⟩ := exec_bind.mp hrelease
      obtain ⟨_, hsame, _⟩ := exec_left.mp hreleased
      obtain ⟨_, rfl, rfl⟩ := exec_pure.mp hsame
      refine ih hmore ha hr (fun _ => hstorable (Nat.succ_pos count)) ?_ ?_
      · intro hmany
        exact hpatient (by omega)
      · intro hlast
        have hperiod := hpatient (by omega)
        have hpassed := Int64.le_iff_toInt_le.mp (Int64.le_trans hnow (time_passes hprint))
        change now.toInt + (periodNs fl camera.config).toInt64.toInt ≤ _
        rw [ha.periodNs_toInt]
        omega

theorem inspect_intime {options : Options} {capabilities : Capabilities}
    {r : Except Exception Unit} (ha : Accepted fl camera.config) (hr : camera.running = false)
    (hstorable : options.captureCount ≠ 0 → camera.config.Storable)
    (hpatient : 1 < options.captureCount →
      (periodNs fl camera.config).toNat ≤ options.timeoutMs.toNat * 1000000)
    (h : Exec ampleHost ((syntheticClass fl).inspect fl options capabilities camera) t log r t') :
    r = .ok () := by
  obtain ⟨_, t₁, log₁, log₂, _, hbody, rfl⟩ := exec_bind.mp h
  split_ifs at hbody with hzero
  · obtain ⟨_, t₂, log₃, log₄, _, hend, rfl⟩ := exec_bind.mp hbody
    exact (exec_pure.mp hend).2.1
  · obtain ⟨⟨x, camera₁⟩, t₂, log₃, log₄, hstart, hstarted, rfl⟩ := exec_bind.mp hbody
    obtain ⟨log₅, hstart⟩ := exec_clock hstart
    have hsteady := hstart.mono fun _ _ _ _ hD => hD.1
    rcases SyntheticCamera.exec_start hsteady with ⟨hrunning, _⟩ | ⟨_, rfl, rfl, _⟩
    · rw [hr] at hrunning
      cases hrunning
    · obtain ⟨⟨y, camera₂⟩, t₃, log₆, log₇, hframes, hcaptured, rfl⟩ := exec_bind.mp hstarted
      have hfirst : t₂.toInt ≤ t₂.toInt + options.timeoutMs.toNat * 1000000 := by omega
      obtain rfl := captureFrames_intime hframes ha rfl (fun _ => hstorable hzero)
        (fun hmany => hpatient (UInt32.lt_iff_toNat_lt.mpr hmany)) (fun _ => hfirst)
      obtain ⟨_, t₄, log₈, log₉, _, hstopped, rfl⟩ := exec_bind.mp hcaptured
      obtain ⟨_, t₅, log₁₀, log₁₁, _, hend, rfl⟩ := exec_bind.mp hstopped
      exact (exec_pure.mp hend).2.1

theorem allocation_granted {log : List (Event (owning linux Resource))} {e : Exception}
    {r : Except Exception Unit}
    (h : Exec ampleSystem (allocation (I := linux) (ρ := Resource) e).run t log r t') :
    r = .ok () := by
  obtain ⟨ok, t₁, log₁, log₂, halloc, hrest, rfl⟩ := exec_lift_bind.mp h
  obtain ⟨⟨rfl, _⟩, _⟩ := exec_request.mp halloc
  exact (exec_return.mp hrest).2.1

theorem Options.Dependable.make {options : Options} (h : options.Dependable fl) :
    ∃ camera, SyntheticCamera.make options.config = .ok camera := by
  rw [SyntheticCamera.make_iff]
  rintro ⟨hmode, hformat⟩
  rw [CaptureMode.orSingle_eq_multiPlane] at hmode
  exact hformat (h.planes hmode)

theorem makeCamera_dependable {fuel : ℕ} {options : Options} {r : Except Exception Camera}
    (hbackend : options.config.backend = .synthetic) (hd : options.Dependable fl)
    (h : Exec ampleHost (onSystem (scopedMakeCamera fl fuel options.config)) t log r t') :
    ∃ camera, r = .ok (.synthetic camera) ∧ SyntheticCamera.make options.config = .ok camera := by
  obtain ⟨log₁, h₁, _⟩ := exec_left.mp h
  obtain ⟨log₂, h₂, _⟩ := exec_left.mp h₁
  obtain ⟨camera, hmake⟩ := hd.make
  refine ⟨camera, ?_, hmake⟩
  unfold scopedMakeCamera at h₂
  rw [hbackend, checkConfig_ok.mpr hd.accepted, hmake] at h₂
  rcases exec_except_bind.mp h₂ with ⟨e, _, hcheck⟩ | ⟨_, t₁, log₃, log₄, _, hrest, _⟩
  · obtain ⟨_, he, _⟩ := exec_pure.mp hcheck
    cases he
  · rcases exec_except_bind.mp hrest with ⟨e, _, halloc⟩ | ⟨_, t₂, log₅, log₆, _, hmade, _⟩
    · cases allocation_granted halloc
    · rcases exec_except_bind.mp hmade with ⟨e, _, hcamera⟩ | ⟨_, t₃, log₇, log₈, hcamera, hend, _⟩
      · obtain ⟨_, he, _⟩ := exec_pure.mp hcamera
        cases he
      · obtain ⟨_, he, _⟩ := exec_pure.mp hcamera
        cases he
        exact (exec_return.mp hend).2.1

theorem runOptions_dependable {fuel : ℕ} {options : Options} {r : Except Exception Unit}
    (hbackend : options.config.backend = .synthetic) (hd : options.Dependable fl)
    (h : Exec ampleHost (runOptions fl fuel options) t log r t') : r = .ok () := by
  unfold runOptions at h
  rw [if_neg (by simp [hbackend])] at h
  obtain ⟨x, t₁, log₁, log₂, hmade, hrest, rfl⟩ := exec_bind.mp h
  obtain ⟨camera, rfl, hmake⟩ := makeCamera_dependable hbackend hd hmade
  obtain ⟨hconfig, hrunning, _⟩ := SyntheticCamera.make_ok hmake
  have hstorable : options.captureCount ≠ 0 → camera.config.Storable := by
    rw [hconfig]
    exact hd.storable
  have hpatient : 1 < options.captureCount →
      (periodNs fl camera.config).toNat ≤ options.timeoutMs.toNat * 1000000 := by
    rw [hconfig]
    exact hd.patient
  exact inspect_intime (SyntheticCamera.accepted hd.accepted hmake) hrunning hstorable hpatient
    hrest

end Succeeds

theorem ampleClock_grants (t : Int64) : Grants ampleClock t t where
  clock := ⟨(steadyClock_grants False t).clock, trivial⟩
  storage := ⟨(steadyClock_grants False t).storage, rfl⟩
  record := ⟨(steadyClock_grants False t).record, trivial⟩

section Fails

variable {α : Type} {fl : Rounding} {camera : SyntheticCamera} {t t' : Int64} {a : α}

theorem exists_exec_clock {p : Timed α} (h : ∃ log, Exec ampleClock p t log a t') :
    ∃ log, Exec ampleHost p.right.left t log a t' := by
  obtain ⟨log, h⟩ := h
  exact ⟨_, exec_left.mpr ⟨_, exec_right.mpr ⟨log, h, rfl⟩, rfl⟩⟩

theorem exists_exec_process {p : Program process α}
    (h : ∃ log, Exec (fun t _ _ t' => t ≤ t' : Device process Int64) p t log a t') :
    ∃ log, Exec ampleHost p.right t log a t' := by
  obtain ⟨log, h⟩ := h
  exact ⟨_, exec_right.mpr ⟨log, h, rfl⟩⟩

theorem exists_exec_print (stream : Stream) (text : String) (t : Int64) :
    ∃ log, Exec ampleHost (print stream text).right t log () t :=
  exists_exec_process ⟨_, exec_request.mpr ⟨Int64.le_refl t, rfl⟩⟩

theorem read_unstorable (hr : camera.running = true) (due : camera.nextFrame ≤ t.toInt)
    (hstorable : ¬ camera.config.Storable) (timeoutMs : UInt32) :
    ∃ e log, Exec ampleClock (camera.read fl timeoutMs) t log (.error e, camera) t := by
  have hgrants := ampleClock_grants t
  have hstorage : ∃ e log, Exec ampleClock
      (SyntheticCamera.buildStorage camera.config camera.sequence).run t log (.error e) t := by
    obtain ⟨log₁, h₁⟩ := hgrants.allocations 2
    cases hsizes : planeSizes camera.config with
    | error e =>
        exact ⟨e, _, exec_bind_error.mpr (Or.inr ⟨(), t, log₁, _, h₁,
          exec_bind_error.mpr (Or.inl (exec_pure.mpr ⟨rfl, hsizes.symm, rfl⟩)), rfl⟩)⟩
    | ok sizes =>
        have hlong : ∃ size ∈ sizes, SyntheticCamera.vectorMaxSize < size := by
          by_contra hfits
          simp only [not_exists, not_and, UInt64.not_lt] at hfits
          exact hstorable ⟨sizes, hsizes, hfits⟩
        obtain ⟨long, hmem, hlong⟩ := hlong
        obtain ⟨log₂, h₂⟩ := hgrants.resizeEach_long hmem hlong
        exact ⟨_, _, exec_bind_error.mpr (Or.inr ⟨(), t, log₁, _, h₁,
          exec_bind_error.mpr (Or.inr ⟨sizes, t, [], _, exec_pure.mpr ⟨rfl, hsizes.symm, rfl⟩,
            exec_bind_error.mpr (Or.inl h₂), rfl⟩), rfl⟩)⟩
  obtain ⟨e, hstorage⟩ := hstorage
  unfold SyntheticCamera.read
  rw [if_neg (by simp [hr])]
  refine ⟨e, exists_exec_bind ⟨_, hgrants.awaitNextFrame due timeoutMs⟩ ?_⟩
  exact exists_exec_bind hstorage ⟨[], rfl, rfl, rfl⟩

/-- A read on a clock that stands still until its timeout ends. -/
theorem read_late {timeoutMs : UInt32} (hr : camera.running = true)
    (hlate : t.toInt + timeoutMs.toNat * 1000000 < camera.nextFrame)
    (hclock : t.toInt + timeoutMs.toNat * 1000000 ≤ t'.toInt) :
    ∃ e log, Exec ampleClock (camera.read fl timeoutMs) t log (.error e, camera) t' := by
  have hle : t ≤ t' := by
    rw [Int64.le_iff_toInt_le]
    omega
  have hearly : t.toInt < camera.nextFrame := by omega
  have hawait : ∃ log, Exec ampleClock (camera.awaitNextFrame timeoutMs) t log
      (.error (.camera .timeout "timed out waiting for a synthetic capture frame")) t' := by
    have hnow : ∃ log, Exec ampleClock steadyNow t log t t :=
      ⟨_, exec_request.mpr ⟨(ampleClock_grants t).clock, rfl⟩⟩
    refine exists_exec_bind hnow ?_
    rw [if_pos hearly]
    dsimp only
    rw [if_pos hlate]
    exact ⟨_, exec_request_bind.mpr ⟨(), t', [], ⟨⟨hle, hclock⟩, trivial⟩, ⟨rfl, rfl, rfl⟩, rfl⟩⟩
  unfold SyntheticCamera.read
  rw [if_neg (by simp [hr])]
  exact ⟨_, exists_exec_bind hawait ⟨[], rfl, rfl, rfl⟩⟩

theorem read_scheduled {timeoutMs : UInt32} (fl : Rounding) (hr : camera.running = true)
    (hstorable : camera.config.Storable) (hnext : camera.nextFrame = t'.toInt) (hle : t ≤ t')
    (hintime : t'.toInt ≤ t.toInt + timeoutMs.toNat * 1000000) :
    ∃ storage log, Exec ampleClock (camera.read fl timeoutMs) t log
      (.ok (syntheticFrame fl camera.config storage camera.sequence), camera.advance fl t') t' := by
  obtain ⟨sizes, hsizes, hfits⟩ := hstorable
  have hawait : ∃ log, Exec ampleClock (camera.awaitNextFrame timeoutMs) t log (.ok ()) t' := by
    have hnow : ∃ log, Exec ampleClock steadyNow t log t t :=
      ⟨_, exec_request.mpr ⟨(ampleClock_grants t).clock, rfl⟩⟩
    refine exists_exec_bind hnow ?_
    rw [hnext]
    by_cases hearly : t.toInt < t'.toInt
    · rw [if_pos hearly]
      dsimp only
      rw [if_neg (not_lt.mpr hintime)]
      exact ⟨_, exec_request_bind.mpr ⟨(), t', [], ⟨⟨hle, le_rfl⟩, trivial⟩, ⟨rfl, rfl, rfl⟩, rfl⟩⟩
    · have hsame : t' = t := by
        have hle' := Int64.le_iff_toInt_le.mp hle
        exact Int64.toInt_inj.mp (by omega)
      rw [if_neg hearly, hsame]
      exact ⟨[], rfl, rfl, rfl⟩
  unfold SyntheticCamera.read
  rw [if_neg (by simp [hr])]
  exact ⟨_, exists_exec_bind hawait ((ampleClock_grants t').capture fl hsizes hfits)⟩

theorem exists_exec_printFrame {frame : SyntheticFrame} {timestampNs : ℤ} (fl : Rounding)
    (hstamp : frame.timestamp.toNanoseconds = some timestampNs) (t : Int64) :
    ∃ log, Exec ampleHost ((syntheticClass fl).printFrame frame).right t log () t := by
  apply exists_exec_process
  have hsum : ∃ checksum log, Exec (fun t _ _ t' => t ≤ t' : Device process Int64)
      ((syntheticClass fl).checksum frame) t log checksum t := by
    apply exists_exec_foldlM
    intro checksum plane
    apply exists_exec_foldlM
    intro checksum index
    exact ⟨_, [], rfl, rfl, rfl⟩
  obtain ⟨checksum, hsum⟩ := hsum
  refine exists_exec_bind hsum ?_
  rw [hstamp]
  exact ⟨_, exec_request.mpr ⟨Int64.le_refl t, rfl⟩⟩

/-- A pass of the loop, up to the next one. -/
theorem captureFrames_pass {timeoutMs : UInt32} {count number : ℕ}
    {r : Except Exception Unit × SyntheticCamera} {t₁ t₂ : Int64} (hr : camera.running = true)
    (hstorable : camera.config.Storable) (hsequence : camera.sequence = .ofNat number)
    (hnumber : number < 2 ^ 64) (hroom : number * (periodNs fl camera.config).toNat < 2 ^ 63)
    (hnext : camera.nextFrame = t₁.toInt) (hle : t ≤ t₁)
    (hintime : t₁.toInt ≤ t.toInt + timeoutMs.toNat * 1000000)
    (hrest : ∃ log, Exec ampleHost ((syntheticClass fl).captureFrames timeoutMs count
      (camera.advance fl t₁)) t₁ log r t₂) :
    ∃ log, Exec ampleHost ((syntheticClass fl).captureFrames timeoutMs (count + 1) camera) t log r
      t₂ := by
  obtain ⟨storage, hread⟩ := read_scheduled fl hr hstorable hnext hle hintime
  have hvalue : (camera.sequence * periodNs fl camera.config).toNat =
      number * (periodNs fl camera.config).toNat := by
    rw [hsequence, UInt64.toNat_mul, UInt64.toNat_ofNat_of_lt' hnumber, Nat.mod_eq_of_lt (by omega)]
  have hframe : (syntheticFrame fl camera.config storage camera.sequence).timestamp =
      syntheticTimestamp (camera.sequence * periodNs fl camera.config) := rfl
  have hstamp := syntheticTimestamp_toNanoseconds (hvalue.trans_lt hroom)
  rw [← hframe] at hstamp
  have hprint : ∃ log, Exec ampleHost ((syntheticClass fl).printFrame
      (syntheticFrame fl camera.config storage camera.sequence)).right t₁ log () t₁ :=
    exists_exec_printFrame fl hstamp t₁
  refine exists_exec_bind (exists_exec_clock hread) ?_
  refine exists_exec_bind hprint ?_
  exact exists_exec_bind ⟨[], rfl, rfl, rfl⟩ hrest

theorem captureFrames_throws {timeoutMs : UInt32} {e : Exception} (count : ℕ)
    (h : ∃ log, Exec ampleClock (camera.read fl timeoutMs) t log (.error e, camera) t') :
    ∃ log, Exec ampleHost ((syntheticClass fl).captureFrames timeoutMs (count + 1) camera) t log
      (.error e, camera) t' :=
  exists_exec_bind (exists_exec_clock h) ⟨[], rfl, rfl, rfl⟩

theorem captureFrames_late {timeoutMs : UInt32} (count : ℕ) (ha : Accepted fl camera.config)
    (hr : camera.running = true) (hfirst : camera.sequence = 0) (hnext : camera.nextFrame = t.toInt)
    (hstorable : camera.config.Storable)
    (hlate : timeoutMs.toNat * 1000000 < (periodNs fl camera.config).toNat)
    (hclock : t.toInt + timeoutMs.toNat * 1000000 ≤ t'.toInt) :
    ∃ e camera' log, Exec ampleHost
      ((syntheticClass fl).captureFrames timeoutMs (count + 2) camera) t log
      (.error e, camera') t' := by
  have hsecond : t.toInt + timeoutMs.toNat * 1000000 < (camera.advance fl t).nextFrame := by
    change _ < t.toInt + (periodNs fl camera.config).toInt64.toInt
    rw [ha.periodNs_toInt]
    omega
  have hthrows : ∃ e log, Exec ampleClock ((camera.advance fl t).read fl timeoutMs) t log
      (.error e, camera.advance fl t) t' := read_late hr hsecond hclock
  obtain ⟨e, hthrows⟩ := hthrows
  have hzero : camera.sequence = .ofNat 0 := hfirst
  exact ⟨e, camera.advance fl t, captureFrames_pass hr hstorable hzero (by omega) (by omega) hnext
    (Int64.le_refl t) (by omega) (captureFrames_throws count hthrows)⟩

/-- A camera that was started at time zero and has kept to its schedule. -/
structure Scheduled (fl : Rounding) (number : ℕ) (camera : SyntheticCamera) : Prop where
  accepted : Accepted fl camera.config
  running : camera.running = true
  sequence : camera.sequence = .ofNat number
  nextFrame : camera.nextFrame = (number * (periodNs fl camera.config).toNat : ℕ)

theorem Scheduled.advance {number : ℕ} (h : Scheduled fl number camera)
    (hnow : t.toInt = camera.nextFrame) : Scheduled fl (number + 1) (camera.advance fl t) where
  accepted := h.accepted
  running := h.running
  sequence := by
    change camera.sequence + 1 = _
    rw [h.sequence, UInt64.ofNat_add]
    rfl
  nextFrame := by
    change t.toInt + (periodNs fl camera.config).toInt64.toInt =
      ((number + 1) * (periodNs fl camera.config).toNat : ℕ)
    rw [hnow, h.nextFrame, h.accepted.periodNs_toInt, Nat.add_mul, Nat.one_mul]
    push_cast
    rfl

theorem Scheduled.captureFrames {timeoutMs : UInt32} {count number : ℕ}
    (h : Scheduled fl number camera) (hstorable : 0 < count → camera.config.Storable)
    (hpatient : 1 < count → (periodNs fl camera.config).toNat ≤ timeoutMs.toNat * 1000000)
    (hle : t.toInt ≤ camera.nextFrame)
    (hintime : 0 < count → camera.nextFrame ≤ t.toInt + timeoutMs.toNat * 1000000)
    (hroom : (number + count) * (periodNs fl camera.config).toNat < 2 ^ 63) :
    ∃ camera' t' log, Exec ampleHost ((syntheticClass fl).captureFrames timeoutMs count camera) t
      log (.ok (), camera') t' := by
  induction count generalizing camera number t with
  | zero => exact ⟨camera, t, [], rfl, rfl, rfl⟩
  | succ count ih =>
      obtain ⟨hpos, _⟩ := h.accepted.periodNs_toNat
      have hnumber : number * 1 ≤ number * (periodNs fl camera.config).toNat :=
        Nat.mul_le_mul_left number (by omega)
      have hwhole : number * (periodNs fl camera.config).toNat ≤
          (number + (count + 1)) * (periodNs fl camera.config).toNat :=
        Nat.mul_le_mul_right _ (by omega)
      have hnext := h.nextFrame
      have hclock : (Int64.ofInt camera.nextFrame).toInt = camera.nextFrame :=
        Int64.toInt_ofInt_of_le (by omega) (by omega)
      have hadvance := h.advance hclock
      have hafter : (camera.advance fl (Int64.ofInt camera.nextFrame)).nextFrame =
          camera.nextFrame + (periodNs fl camera.config).toNat := by
        change (Int64.ofInt camera.nextFrame).toInt + (periodNs fl camera.config).toInt64.toInt = _
        rw [hclock, h.accepted.periodNs_toInt]
      have hroom' : (number + 1 + count) * (periodNs fl camera.config).toNat < 2 ^ 63 := by
        rwa [show number + 1 + count = number + (count + 1) by omega]
      have hstorable' := hstorable (Nat.succ_pos count)
      have hintime' := hintime (Nat.succ_pos count)
      have hmore : 0 < count → (camera.advance fl (Int64.ofInt camera.nextFrame)).nextFrame ≤
          (Int64.ofInt camera.nextFrame).toInt + timeoutMs.toNat * 1000000 := by
        intro hcount
        have hperiod := hpatient (by omega)
        omega
      obtain ⟨camera', t', hrest⟩ := ih hadvance (fun _ => hstorable')
        (fun hmany => hpatient (by omega)) (by omega) hmore hroom'
      exact ⟨camera', t', captureFrames_pass h.running hstorable' h.sequence (by omega) (by omega)
        hclock.symm (Int64.le_iff_toInt_le.mpr (by omega)) (by omega) hrest⟩

def SyntheticCamera.started (s : SyntheticCamera) (now : Int64) : SyntheticCamera :=
  { s with sequence := 0, nextFrame := now.toInt, running := true }

/-- The ways a capture can go wrong on a camera that could be made. -/
def Options.Fails (fl : Rounding) (options : Options) (config : CaptureConfig) : Prop :=
  (options.captureCount ≠ 0 ∧ ¬ config.Storable) ∨
    (1 < options.captureCount ∧ config.Storable ∧
      options.timeoutMs.toNat * 1000000 < (periodNs fl config).toNat)

theorem Options.fails_of_not_dependable (options : Options) (ha : Accepted fl options.config)
    (hplanes : options.config.captureMode = .multiPlane → options.config.pixelFormat = .nv12)
    (hd : ¬ options.Dependable fl) : options.Fails fl options.syntheticConfig := by
  by_cases hstorable : options.syntheticConfig.Storable
  · refine Or.inr ?_
    by_contra hlate
    refine hd ⟨ha, hplanes, fun _ => hstorable, fun hmany => ?_⟩
    by_contra hperiod
    exact hlate ⟨hmany, hstorable, not_le.mp hperiod⟩
  · refine Or.inl ⟨?_, hstorable⟩
    intro hzero
    refine hd ⟨ha, hplanes, fun hne => (hne hzero).elim, fun hmany => ?_⟩
    rw [hzero] at hmany
    cases hmany

/-- On a clock that stands still the capture goes wrong. -/
theorem Options.Fails.captureFrames {options : Options} (h : options.Fails fl camera.config)
    (ha : Accepted fl camera.config) :
    options.captureCount ≠ 0 ∧ ∃ e camera' t' log, Exec ampleHost
      ((syntheticClass fl).captureFrames options.timeoutMs options.captureCount.toNat
        (camera.started 0)) 0 log (.error e, camera') t' := by
  rcases h with ⟨hcount, hstorable⟩ | ⟨hcount, hstorable, hlate⟩
  · have hne : options.captureCount.toNat ≠ 0 := fun hzero => hcount (UInt32.toNat_inj.mp hzero)
    obtain ⟨count, hcount'⟩ := Nat.exists_eq_succ_of_ne_zero hne
    have hbytes : ¬ (camera.started 0).config.Storable := hstorable
    have hread : ∃ e log, Exec ampleClock ((camera.started 0).read fl options.timeoutMs) 0 log
        (.error e, camera.started 0) 0 := read_unstorable rfl le_rfl hbytes options.timeoutMs
    obtain ⟨e, hread⟩ := hread
    rw [hcount']
    exact ⟨hcount, e, camera.started 0, 0, captureFrames_throws count hread⟩
  · have hmany := UInt32.lt_iff_toNat_lt.mp hcount
    obtain ⟨count, hcount'⟩ := Nat.exists_eq_add_of_le' hmany
    have hne : options.captureCount ≠ 0 := by
      rintro hzero
      rw [hzero] at hmany
      cases hmany
    have hclock : (0 : Int64).toInt + options.timeoutMs.toNat * 1000000 ≤ Int64.maxValue.toInt := by
      have hmax := options.timeoutMs.toNat_lt
      have hvalue : Int64.maxValue.toInt = 2 ^ 63 - 1 := by decide
      have hzero : (0 : Int64).toInt = 0 := by decide
      omega
    have hthrows : ∃ e camera' log, Exec ampleHost
        ((syntheticClass fl).captureFrames options.timeoutMs (count + 2) (camera.started 0)) 0 log
        (.error e, camera') Int64.maxValue :=
      captureFrames_late count ha rfl rfl rfl hstorable hlate hclock
    obtain ⟨e, camera', hthrows⟩ := hthrows
    rw [hcount']
    exact ⟨hne, e, camera', Int64.maxValue, hthrows⟩

theorem inspect_ends {options : Options} {capabilities : Capabilities} {r : Except Exception Unit}
    {camera' : SyntheticCamera} (hr : camera.running = false) (hcount : options.captureCount ≠ 0)
    (h : ∃ log, Exec ampleHost ((syntheticClass fl).captureFrames options.timeoutMs
      options.captureCount.toNat (camera.started t)) t log (r, camera') t') :
    ∃ log, Exec ampleHost ((syntheticClass fl).inspect fl options capabilities camera) t log r
      t' := by
  have hstart : ∃ log, Exec ampleClock camera.start t log (.ok (), camera.started t) t := by
    unfold SyntheticCamera.start
    rw [if_neg (by simp [hr])]
    exact ⟨_, exec_request_bind.mpr ⟨t, t, [], (ampleClock_grants t).clock, ⟨rfl, rfl, rfl⟩, rfl⟩⟩
  refine exists_exec_bind (exists_exec_print .out _ t) ?_
  rw [if_neg hcount]
  refine exists_exec_bind (exists_exec_clock hstart) ?_
  refine exists_exec_bind h ?_
  cases r with
  | error e => exact exists_exec_bind ⟨[], rfl, rfl, rfl⟩ ⟨[], rfl, rfl, rfl⟩
  | ok u =>
      refine exists_exec_bind ⟨[], rfl, rfl, rfl⟩ ?_
      exact exists_exec_bind ⟨[], rfl, rfl, rfl⟩ ⟨[], rfl, rfl, rfl⟩

theorem exists_exec_system {p : ScopedFallible α} {r : Except Exception α}
    (h : ∃ log, Exec ampleSystem p.run t log r t') :
    ∃ log, Exec ampleHost (onSystem p) t log r t' := by
  obtain ⟨log, h⟩ := h
  exact ⟨_, exec_left.mpr ⟨_, exec_left.mpr ⟨log, h, rfl⟩, rfl⟩⟩

theorem exists_exec_allocation (e : Exception) (t : Int64) :
    ∃ log, Exec ampleSystem (allocation (I := linux) (ρ := Resource) e).run t log (.ok ()) t :=
  ⟨_, exec_lift_bind.mpr ⟨true, t, [_], [], exec_request.mpr ⟨⟨rfl, Int64.le_refl t⟩, rfl⟩,
    exec_return.mpr ⟨rfl, rfl, rfl⟩, rfl⟩⟩

theorem exists_exec_makeCamera {fuel : ℕ} {config : CaptureConfig} {r : Except Exception Camera}
    (hbackend : config.backend = .synthetic) (ha : Accepted fl config)
    (hmake : r = (SyntheticCamera.make config).map Camera.synthetic) :
    ∃ log, Exec ampleHost (onSystem (scopedMakeCamera fl fuel config)) t log r t := by
  apply exists_exec_system
  unfold scopedMakeCamera
  rw [hbackend, checkConfig_ok.mpr ha]
  obtain ⟨log, halloc⟩ := exists_exec_allocation .badAlloc t
  refine ⟨_, exec_except_bind.mpr (Or.inr ⟨(), t, [], log, exec_pure.mpr ⟨rfl, rfl, rfl⟩, ?_, rfl⟩)⟩
  refine exec_except_bind.mpr (Or.inr ⟨(), t, log, [], halloc, ?_, (List.append_nil log).symm⟩)
  rw [hmake]
  cases SyntheticCamera.make config with
  | error e => exact exec_bind_error.mpr (Or.inl (exec_pure.mpr ⟨rfl, rfl, rfl⟩))
  | ok camera =>
      exact exec_bind_ok.mpr ⟨camera, t, [], [], exec_pure.mpr ⟨rfl, rfl, rfl⟩,
        exec_return.mpr ⟨rfl, rfl, rfl⟩, rfl⟩

theorem exists_exec_refused {fuel : ℕ} {config : CaptureConfig} {e : Exception}
    (hcheck : checkConfig fl config = .error e) :
    ∃ log, Exec ampleHost (onSystem (scopedMakeCamera fl fuel config)) t log (.error e) t := by
  apply exists_exec_system
  unfold scopedMakeCamera
  rw [hcheck]
  exact ⟨[], exec_bind_error.mpr (Or.inl (exec_pure.mpr ⟨rfl, rfl, rfl⟩))⟩

theorem runOptions_ends {fuel : ℕ} {options : Options} {r : Except Exception Unit}
    (hbackend : options.config.backend = .synthetic) (ha : Accepted fl options.config)
    (hmake : SyntheticCamera.make options.config = .ok camera)
    (h : ∃ log, Exec ampleHost
      ((syntheticClass fl).inspect fl options camera.capabilities camera) t log r t') :
    ∃ log, Exec ampleHost (runOptions fl fuel options) t log r t' := by
  have hmade : Except.ok (.synthetic camera) =
      (SyntheticCamera.make options.config).map Camera.synthetic := by
    rw [hmake]
    rfl
  unfold runOptions
  rw [if_neg (by simp [hbackend])]
  exact exists_exec_bind (exists_exec_makeCamera hbackend ha hmade) h

theorem runOptions_throws {fuel : ℕ} {options : Options}
    (hbackend : options.config.backend = .synthetic) (hd : ¬ options.Dependable fl) :
    ∃ e t' log, Exec ampleHost (runOptions fl fuel options) 0 log (.error e) t' := by
  cases hcheck : checkConfig fl options.config with
  | error e =>
      unfold runOptions
      rw [if_neg (by simp [hbackend])]
      exact ⟨e, 0, exists_exec_bind (exists_exec_refused hcheck) ⟨[], rfl, rfl, rfl⟩⟩
  | ok u =>
      have ha := checkConfig_ok.mp hcheck
      cases hmake : SyntheticCamera.make options.config with
      | error e =>
          have hmade : Except.error e =
              (SyntheticCamera.make options.config).map Camera.synthetic := by
            rw [hmake]
            rfl
          unfold runOptions
          rw [if_neg (by simp [hbackend])]
          exact ⟨e, 0, exists_exec_bind (exists_exec_makeCamera hbackend ha hmade)
            ⟨[], rfl, rfl, rfl⟩⟩
      | ok camera =>
          obtain ⟨hconfig, hrunning, _⟩ := SyntheticCamera.make_ok hmake
          have hfails : options.Fails fl camera.config := by
            rw [hconfig]
            apply options.fails_of_not_dependable ha _ hd
            intro hmode
            by_contra hformat
            rw [← CaptureMode.orSingle_eq_multiPlane] at hmode
            exact SyntheticCamera.make_iff.mp ⟨camera, hmake⟩ ⟨hmode, hformat⟩
          obtain ⟨hcount, e, camera', t', hframes⟩ :=
            hfails.captureFrames (SyntheticCamera.accepted ha hmake)
          exact ⟨e, t', runOptions_ends hbackend ha hmake (inspect_ends hrunning hcount hframes)⟩

theorem Options.Dependable.runOptions {fuel : ℕ} {options : Options}
    (hbackend : options.config.backend = .synthetic) (h : options.Dependable fl)
    (hroom : options.captureCount.toNat * (periodNs fl options.config).toNat < 2 ^ 63) :
    ∃ t' log, Exec ampleHost (runOptions fl fuel options) 0 log (.ok ()) t' := by
  obtain ⟨camera, hmake⟩ := h.make
  obtain ⟨hconfig, hrunning, _⟩ := SyntheticCamera.make_ok hmake
  by_cases hzero : options.captureCount = 0
  · refine ⟨0, runOptions_ends hbackend h.accepted hmake ?_⟩
    refine exists_exec_bind (exists_exec_print .out _ 0) ?_
    rw [if_pos hzero]
    exact exists_exec_bind ⟨[], rfl, rfl, rfl⟩ ⟨[], rfl, rfl, rfl⟩
  · have haccepted := SyntheticCamera.accepted h.accepted hmake
    have hscheduled : Scheduled fl 0 (camera.started 0) := by
      refine ⟨haccepted, rfl, rfl, ?_⟩
      rw [Nat.zero_mul]
      rfl
    have hstorable : (camera.started 0).config.Storable := by
      change camera.config.Storable
      rw [hconfig]
      exact h.storable hzero
    have hpatient : 1 < options.captureCount.toNat →
        (periodNs fl (camera.started 0).config).toNat ≤ options.timeoutMs.toNat * 1000000 := by
      intro hmany
      change (periodNs fl camera.config).toNat ≤ _
      rw [hconfig]
      exact h.patient (UInt32.lt_iff_toNat_lt.mpr hmany)
    have hroom' : (0 + options.captureCount.toNat) * (periodNs fl (camera.started 0).config).toNat <
        2 ^ 63 := by
      change (0 + options.captureCount.toNat) * (periodNs fl camera.config).toNat < _
      rw [hconfig, Nat.zero_add]
      exact hroom
    have hintime : (camera.started 0).nextFrame ≤
        (0 : Int64).toInt + options.timeoutMs.toNat * 1000000 := by
      change (0 : Int64).toInt ≤ _
      omega
    obtain ⟨camera', t', hframes⟩ := hscheduled.captureFrames (fun _ => hstorable) hpatient le_rfl
      (fun _ => hintime) hroom'
    exact ⟨t', runOptions_ends hbackend h.accepted hmake (inspect_ends hrunning hzero hframes)⟩

theorem inspectMain_throws {inRange : ℚ → Bool} {strerror : Errno → String} {fuel : ℕ}
    {argv : List String} {options : Options} (hparse : parseOptions fl inRange argv = .ok options)
    (hbackend : options.config.backend = .synthetic) (hd : ¬ options.Dependable fl) :
    ∃ t' log, Exec ampleHost (inspectMain fl inRange strerror fuel argv) 0 log 2 t' := by
  have hthrows : ∃ e t' log, Exec ampleHost (runOptions fl fuel options) 0 log (.error e) t' :=
    runOptions_throws hbackend hd
  obtain ⟨e, t', hthrows⟩ := hthrows
  have hreport : ∃ log, Exec ampleHost (fail strerror (.library e)) t' log 2 t' :=
    exists_exec_bind (exists_exec_print .err _ t') ⟨[], rfl, rfl, rfl⟩
  unfold inspectMain
  rw [hparse]
  exact ⟨t', exists_exec_bind hthrows hreport⟩

end Fails

/-- With the synthetic camera and memory for every allocation, the options decide whether a run can
fail: every run that ends, on any steady clock and however long the tool is held up between two
calls, ends with status 0 just when the library takes the configuration, the planes can be stored,
and a period is no longer than the timeout if more than one frame is captured. While the time
stamps are in range there is such a run. -/
theorem inspectMain_dependable_iff {fl : Rounding} {inRange : ℚ → Bool}
    {strerror : Errno → String} {fuel : ℕ} {argv : List String} {options : Options}
    (hparse : parseOptions fl inRange argv = .ok options)
    (hbackend : options.config.backend = .synthetic) :
    ((∀ t log status t',
        Exec ampleHost (inspectMain fl inRange strerror fuel argv) t log status t' → status = 0) ↔
      options.Dependable fl) ∧
    (options.Dependable fl →
      options.captureCount.toNat * (periodNs fl options.config).toNat < 2 ^ 63 →
      ∃ t' log, Exec ampleHost (inspectMain fl inRange strerror fuel argv) 0 log 0 t') := by
  refine ⟨⟨?_, ?_⟩, ?_⟩
  · intro hall
    by_contra hd
    have hfails : ∃ t' log, Exec ampleHost (inspectMain fl inRange strerror fuel argv) 0 log 2 t' :=
      inspectMain_throws hparse hbackend hd
    obtain ⟨t', log, hrun⟩ := hfails
    cases hall 0 log 2 t' hrun
  · intro hd t log status t' h
    unfold inspectMain at h
    rw [hparse] at h
    obtain ⟨x, t₁, log₁, log₂, hrun, hrest, rfl⟩ := exec_bind.mp h
    obtain rfl := runOptions_dependable hbackend hd hrun
    exact (exec_pure.mp hrest).2.1
  · intro hd hroom
    have hruns : ∃ t' log, Exec ampleHost (runOptions fl fuel options) 0 log (.ok ()) t' :=
      hd.runOptions hbackend hroom
    obtain ⟨t', hruns⟩ := hruns
    unfold inspectMain
    rw [hparse]
    exact ⟨t', exists_exec_bind hruns ⟨[], rfl, rfl, rfl⟩⟩

/-- A command line whose timeout is shorter than a period. -/
def impatientArguments : List String :=
  ["xgc2-camera-inspect", "--synthetic", "--format", "grey", "--capture", "2", "--timeout-ms", "1"]

def syntheticOptions : Options where
  config := { backend := .synthetic, pixelFormat := .grey, width := 2, height := 1 }
  captureCount := 1

def impatientOptions : Options where
  config := { backend := .synthetic, pixelFormat := .grey }
  captureCount := 2
  timeoutMs := 1

/-- One frame needs no timeout; two need more than a millisecond. -/
theorem inspectMain_dependable_iff_sample :
    (∀ t log status t', Exec ampleHost syntheticMain t log status t' → status = 0) ∧
    ¬ ∀ t log status t', Exec ampleHost
      (inspectMain .exact (fun _ => true) (fun _ => "") 2 impatientArguments) t log status t' →
      status = 0 := by
  have hparse : parseOptions .exact (fun _ => true) syntheticArguments = .ok syntheticOptions := rfl
  have hparse' : parseOptions .exact (fun _ => true) impatientArguments = .ok impatientOptions :=
    rfl
  have haccepted : Accepted .exact syntheticOptions.config :=
    accepted_of_rate rfl (by decide) (by decide) (by decide) (by decide)
  have hmany : 1 < impatientOptions.captureCount := by decide
  have hlate : ¬ (periodNs .exact impatientOptions.config).toNat ≤
      impatientOptions.timeoutMs.toNat * 1000000 := by decide +kernel
  constructor
  · refine (inspectMain_dependable_iff hparse rfl).1.mpr ⟨haccepted, nofun, ?_, nofun⟩
    intro _
    exact ⟨[2], rfl, by simp [SyntheticCamera.vectorMaxSize]⟩
  · intro hall
    exact hlate (((inspectMain_dependable_iff hparse' rfl).1.mp hall).patient hmany)

end CameraCore
