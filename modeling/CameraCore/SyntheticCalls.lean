import Mathlib.Tactic.Linarith
import CameraCore.SyntheticCamera

/-!
# How the calls of the synthetic camera end

Each call has one lemma that says how it can end while the clock moves on, with the readings
of the clock it took on the way.
-/

namespace CameraCore

open DeviceProgram FloatingPoint

def clockReading : Event timed → Option Int64
  | ⟨.now, reading⟩ => some reading
  | _ => none

def clockReadings (log : TimedLog) : List Int64 := log.filterMap clockReading

def TimedRequest.ReadsNoClock : TimedRequest → Prop
  | .now => False
  | _ => True

theorem clockReadings_of_readsNone {log : TimedLog} (h : ∀ e ∈ log, e.1.ReadsNoClock) :
    clockReadings log = [] := by
  refine filterMap_eq_nil_of_issued ?_ h
  intro r x hr
  cases r with
  | now => exact hr.elim
  | _ => rfl

theorem clockReadings_append (log log' : TimedLog) :
    clockReadings (log ++ log') = clockReadings log ++ clockReadings log' := List.filterMap_append

/-- The record of a frame could not be allocated. -/
def refusedRecord : Event timed → Bool
  | ⟨.allocateRecord, ok⟩ => !ok
  | _ => false

def TimedRequest.AsksNoRecord : TimedRequest → Prop
  | .allocateRecord => False
  | _ => True

theorem no_refusedRecord {log : TimedLog} (h : ∀ e ∈ log, e.1.AsksNoRecord) :
    log.any refusedRecord = false := by
  rw [List.any_eq_false]
  rintro ⟨r, x⟩ he
  have hr := h _ he
  cases r with
  | allocateRecord => exact hr.elim
  | _ => exact Bool.false_ne_true

namespace SyntheticCamera

variable {fl : Rounding} {recordsFail : Prop} {s s' : SyntheticCamera} {t t' : Int64}
  {log : TimedLog}

theorem steadyClock_mono {r : TimedRequest} {x : r.Answer} (h : steadyClock recordsFail t r x t') :
    t ≤ t' := by
  cases r with
  | now => exact h.2 ▸ h.1
  | sleepUntil target => exact h.1
  | allocateStorage => exact h
  | allocateRecord => exact h.1

theorem clock_mono {α : Type} {p : Timed α} {a : α}
    (h : Exec (steadyClock recordsFail) p t log a t') : t ≤ t' :=
  h.preserves (R := (· ≤ ·)) Int64.le_refl (fun _ _ _ => Int64.le_trans)
    fun _ _ _ _ hD _ => steadyClock_mono hD

theorem exec_start {r : Except Exception Unit}
    (h : Exec (steadyClock recordsFail) s.start t log (r, s') t') :
    (s.running = true ∧ s' = s ∧
      r = .error (.camera .invalidState "synthetic camera is already running")) ∨
    (s.running = false ∧ r = .ok () ∧
      s' = { s with sequence := 0, nextFrame := t'.toInt, running := true } ∧
      clockReadings log = [t']) := by
  unfold start at h
  cases hr : s.running with
  | true =>
      rw [if_pos hr] at h
      obtain ⟨_, he, _⟩ := exec_pure.mp h
      cases he
      exact Or.inl ⟨rfl, rfl, rfl⟩
  | false =>
      rw [if_neg (by simp [hr])] at h
      obtain ⟨now, t₁, log₁, hnow, hend, rfl⟩ := exec_request_bind.mp h
      obtain ⟨rfl, he, rfl⟩ := exec_pure.mp hend
      cases he
      obtain ⟨_, rfl⟩ := hnow
      exact Or.inr ⟨rfl, rfl, rfl, rfl⟩

/-- The wait ends when the next frame is due, or with a timeout, by the reading it was entered
with. -/
theorem exec_awaitNextFrame {timeoutMs : UInt32} {r : Except Exception Unit}
    (h : Exec (steadyClock recordsFail) (s.awaitNextFrame timeoutMs) t log r t') :
    ∃ entry : Int64, clockReadings log = [entry] ∧
      ((r = .error (.camera .timeout "timed out waiting for a synthetic capture frame") ∧
          entry.toInt + timeoutMs.toNat * 1000000 < s.nextFrame) ∨
        (r = .ok () ∧ s.nextFrame ≤ entry.toInt + timeoutMs.toNat * 1000000 ∧
          s.nextFrame ≤ t'.toInt)) := by
  obtain ⟨now, t₁, log₁, hnow, hrest, rfl⟩ := exec_request_bind.mp h
  obtain ⟨_, rfl⟩ := hnow
  refine ⟨t₁, ?_⟩
  dsimp only at hrest
  split_ifs at hrest with hearly hshort
  · obtain ⟨_, t₂, log₂, _, hend, rfl⟩ := exec_request_bind.mp hrest
    obtain ⟨rfl, rfl, _⟩ := exec_pure.mp hend
    exact ⟨rfl, Or.inl ⟨rfl, hshort⟩⟩
  · obtain ⟨_, t₂, log₂, hsleep, hend, rfl⟩ := exec_request_bind.mp hrest
    obtain ⟨rfl, rfl, rfl⟩ := exec_pure.mp hend
    exact ⟨rfl, Or.inr ⟨rfl, not_lt.mp hshort, hsleep.2⟩⟩
  · obtain ⟨rfl, rfl, rfl⟩ := exec_pure.mp hrest
    exact ⟨rfl, Or.inr ⟨rfl, by omega, not_lt.mp hearly⟩⟩

theorem exec_allocations {count : ℕ} {e : Exception}
    (h : Exec (steadyClock recordsFail) (allocations count).run t log (.error e) t') :
    e = .badAlloc := by
  induction count generalizing t log with
  | zero =>
      obtain ⟨_, he, _⟩ := exec_return.mp h
      cases he
  | succ count ih =>
      obtain ⟨ok, t₁, log₁, log₂, _, hrest, rfl⟩ := exec_lift_bind.mp h
      cases ok with
      | true => exact ih hrest
      | false =>
          obtain ⟨_, he, _⟩ := exec_throw.mp hrest
          cases he
          rfl

theorem exec_resizeEach {sizes : List UInt64} {e : Exception}
    (h : Exec (steadyClock recordsFail) (resizeEach sizes).run t log (.error e) t') :
    e = .badAlloc ∨ e = .lengthError := by
  induction sizes generalizing t log with
  | nil =>
      obtain ⟨_, he, _⟩ := exec_return.mp h
      cases he
  | cons size sizes ih =>
      unfold resizeEach at h
      split_ifs at h
      · obtain ⟨_, he, _⟩ := exec_throw.mp h
        cases he
        exact Or.inr rfl
      · rcases exec_bind_error.mp h with h | ⟨_, t₁, log₁, log₂, _, hrest, rfl⟩
        · exact Or.inl (exec_allocations h)
        · exact ih hrest

theorem planeSizes_error {config : CaptureConfig} {e : Exception}
    (h : planeSizes config = .error e) :
    e = .camera .unsupported "unknown synthetic pixel format" := by
  unfold planeSizes at h
  dsimp only at h
  split_ifs at h
  cases hf : config.pixelFormat <;> rw [hf] at h <;> cases h
  rfl

def StorageFailure (e : Exception) : Prop :=
  e = .badAlloc ∨ e = .lengthError ∨
    e = .camera .unsupported "unknown synthetic pixel format"

theorem StorageFailure.hasCode {e : Exception} (h : StorageFailure e) {code : ErrorCode}
    (hcode : code ≠ .unsupported) : e.hasCode code = false := by
  rcases h with rfl | rfl | rfl
  · rfl
  · rfl
  · rw [Exception.hasCode_camera, decide_eq_false_iff_not]
    exact hcode.symm

section Asks

variable {P : TimedRequest → Prop} (hstorage : P .allocateStorage)
include hstorage

theorem issues_allocations (count : ℕ) : Issues P (allocations count).run := by
  induction count with
  | zero => trivial
  | succ count ih =>
      refine (issues_lift (issues_request (I := timed) (r := .allocateStorage)
        hstorage)).except_bind ?_
      intro ok
      cases ok with
      | true => exact ih
      | false => trivial

theorem issues_resizeEach (sizes : List UInt64) : Issues P (resizeEach sizes).run := by
  induction sizes with
  | nil => trivial
  | cons size sizes ih =>
      unfold resizeEach
      split_ifs
      · trivial
      · exact (issues_allocations hstorage 1).except_bind fun _ => ih

theorem issues_buildStorage (config : CaptureConfig) (sequence : UInt64) :
    Issues P (buildStorage config sequence).run := by
  apply (issues_allocations hstorage 2).except_bind
  intro _
  have hsizes : Issues P
      (ExceptT.mk (pure (planeSizes config)) : TimedFallible (List UInt64)).run := trivial
  apply hsizes.except_bind
  intro sizes
  apply (issues_resizeEach hstorage sizes).except_bind
  intro _
  exact (issues_allocations hstorage _).except_bind fun _ => trivial

end Asks

theorem issues_awaitNextFrame {P : TimedRequest → Prop} (hnow : P .now)
    (hsleep : ∀ target, P (.sleepUntil target)) (timeoutMs : UInt32) :
    Issues P (s.awaitNextFrame timeoutMs) := by
  apply (issues_request (I := timed) (r := .now) hnow).bind
  intro now
  dsimp only
  split_ifs
  · exact ⟨hsleep _, fun _ => trivial⟩
  · exact ⟨hsleep _, fun _ => trivial⟩
  · trivial

theorem exec_buildStorage {config : CaptureConfig} {sequence : UInt64}
    {r : Except Exception SyntheticStorage}
    (h : Exec (steadyClock recordsFail) (buildStorage config sequence).run t log r t') :
    (∃ sizes, planeSizes config = .ok sizes ∧ r = .ok (generate config sizes sequence)) ∨
      ∃ e, r = .error e ∧ StorageFailure e := by
  cases r with
  | ok storage =>
      obtain ⟨_, t₁, _, log₁, _, h₁, _⟩ := exec_bind_ok.mp h
      obtain ⟨sizes, t₂, _, log₂, hs, h₂, _⟩ := exec_bind_ok.mp h₁
      obtain ⟨_, hok, _⟩ := exec_pure.mp hs
      obtain ⟨_, t₃, _, log₃, _, h₃, _⟩ := exec_bind_ok.mp h₂
      obtain ⟨_, t₄, _, log₄, _, h₄, _⟩ := exec_bind_ok.mp h₃
      obtain ⟨_, he, _⟩ := exec_return.mp h₄
      exact Or.inl ⟨sizes, hok.symm, he⟩
  | error e =>
      refine Or.inr ⟨e, rfl, ?_⟩
      rcases exec_bind_error.mp h with h₀ | ⟨_, t₁, _, log₁, _, h₁, _⟩
      · exact Or.inl (exec_allocations h₀)
      · rcases exec_bind_error.mp h₁ with hs | ⟨sizes, t₂, _, log₂, _, h₂, _⟩
        · obtain ⟨_, he, _⟩ := exec_pure.mp hs
          exact Or.inr (Or.inr (planeSizes_error he.symm))
        · rcases exec_bind_error.mp h₂ with hr | ⟨_, t₃, _, log₃, _, h₃, _⟩
          · exact (exec_resizeEach hr).imp_right Or.inl
          · rcases exec_bind_error.mp h₃ with ha | ⟨_, t₄, _, log₄, _, h₄, _⟩
            · exact Or.inl (exec_allocations ha)
            · obtain ⟨_, he, _⟩ := exec_return.mp h₄
              cases he

/-- How a `read` can end: with the camera as it was, or with the camera moved on to its
next frame at some reading of the clock. -/
inductive ReadEnds (fl : Rounding) (recordsFail : Prop) (s : SyntheticCamera) :
    Except Exception SyntheticFrame → SyntheticCamera → Int64 → Prop
  | notRunning {clock} (hr : s.running = false) :
      ReadEnds fl recordsFail s
        (.error (.camera .invalidState "synthetic camera must be started before read")) s clock
  | failed {e clock} (hr : s.running = true) (he : e.hasCode .invalidState = false) :
      ReadEnds fl recordsFail s (.error e) s clock
  | recordLost {now clock} (hr : s.running = true) (hf : recordsFail)
      (due : s.nextFrame ≤ now.toInt) (after : now ≤ clock) :
      ReadEnds fl recordsFail s (.error .badAlloc) (s.advance fl now) clock
  | captured {sizes now clock} (hr : s.running = true) (hs : planeSizes s.config = .ok sizes)
      (due : s.nextFrame ≤ now.toInt) (after : now ≤ clock) :
      ReadEnds fl recordsFail s
        (.ok (syntheticFrame fl s.config (generate s.config sizes s.sequence) s.sequence))
        (s.advance fl now) clock

inductive ReadPaced (fl : Rounding) (recordsFail : Prop) (s : SyntheticCamera)
    (timeoutMs : UInt32) :
    List Int64 → Except Exception SyntheticFrame → SyntheticCamera → Int64 → Prop
  | notRunning {clock} (hr : s.running = false) :
      ReadPaced fl recordsFail s timeoutMs []
        (.error (.camera .invalidState "synthetic camera must be started before read")) s clock
  | timedOut {entry clock} (hr : s.running = true)
      (late : entry.toInt + timeoutMs.toNat * 1000000 < s.nextFrame) :
      ReadPaced fl recordsFail s timeoutMs [entry]
        (.error (.camera .timeout "timed out waiting for a synthetic capture frame")) s clock
  | failed {entry e clock} (hr : s.running = true)
      (intime : s.nextFrame ≤ entry.toInt + timeoutMs.toNat * 1000000) (he : StorageFailure e) :
      ReadPaced fl recordsFail s timeoutMs [entry] (.error e) s clock
  | recordLost {entry now clock} (hr : s.running = true)
      (intime : s.nextFrame ≤ entry.toInt + timeoutMs.toNat * 1000000) (hf : recordsFail)
      (due : s.nextFrame ≤ now.toInt) (after : now ≤ clock) :
      ReadPaced fl recordsFail s timeoutMs [entry, now] (.error .badAlloc) (s.advance fl now)
        clock
  | captured {entry now sizes clock} (hr : s.running = true)
      (intime : s.nextFrame ≤ entry.toInt + timeoutMs.toNat * 1000000)
      (hs : planeSizes s.config = .ok sizes) (due : s.nextFrame ≤ now.toInt)
      (after : now ≤ clock) :
      ReadPaced fl recordsFail s timeoutMs [entry, now]
        (.ok (syntheticFrame fl s.config (generate s.config sizes s.sequence) s.sequence))
        (s.advance fl now) clock

theorem exec_capture {timeoutMs : UInt32} {entry : Int64} {r : Except Exception SyntheticFrame}
    (hr : s.running = true) (intime : s.nextFrame ≤ entry.toInt + timeoutMs.toNat * 1000000)
    (due : s.nextFrame ≤ t.toInt)
    (h : Exec (steadyClock recordsFail) (s.capture fl) t log (r, s') t') :
    ReadPaced fl recordsFail s timeoutMs (entry :: clockReadings log) r s' t' := by
  obtain ⟨x, t₁, log₁, log₂, hx, hrest, rfl⟩ := exec_bind.mp h
  have hle := clock_mono hx
  have hnone : clockReadings log₁ = [] :=
    clockReadings_of_readsNone (hx.issues (issues_buildStorage trivial _ _))
  rw [clockReadings_append, hnone]
  rcases exec_buildStorage hx with ⟨sizes, hs, rfl⟩ | ⟨e, rfl, he⟩
  · obtain ⟨now, t₂, _, hnow, hrecord, rfl⟩ := exec_request_bind.mp hrest
    obtain ⟨hge, rfl⟩ := hnow
    have hdue : s.nextFrame ≤ t₂.toInt :=
      due.trans (Int64.le_iff_toInt_le.mp (Int64.le_trans hle hge))
    obtain ⟨ok, t₃, _, halloc, hend, rfl⟩ := exec_request_bind.mp hrecord
    obtain ⟨hafter, hf⟩ := halloc
    cases ok with
    | true =>
        obtain ⟨rfl, he, rfl⟩ := exec_pure.mp hend
        cases he
        exact .captured hr intime hs hdue hafter
    | false =>
        obtain ⟨rfl, he, rfl⟩ := exec_pure.mp hend
        cases he
        exact .recordLost hr intime (hf rfl) hdue hafter
  · obtain ⟨rfl, hend, rfl⟩ := exec_pure.mp hrest
    cases hend
    exact .failed hr intime he

theorem exec_read_paced {timeoutMs : UInt32} {r : Except Exception SyntheticFrame}
    (h : Exec (steadyClock recordsFail) (s.read fl timeoutMs) t log (r, s') t') :
    ReadPaced fl recordsFail s timeoutMs (clockReadings log) r s' t' := by
  unfold read at h
  cases hr : s.running with
  | false =>
      rw [if_pos (by simp [hr])] at h
      obtain ⟨rfl, he, rfl⟩ := exec_pure.mp h
      cases he
      exact .notRunning hr
  | true =>
      rw [if_neg (by simp [hr])] at h
      obtain ⟨x, t₁, log₁, log₂, hx, hrest, rfl⟩ := exec_bind.mp h
      obtain ⟨entry, hentry, hends⟩ := exec_awaitNextFrame hx
      rw [clockReadings_append, hentry]
      rcases hends with ⟨rfl, late⟩ | ⟨rfl, intime, due⟩
      · obtain ⟨rfl, he, rfl⟩ := exec_pure.mp hrest
        cases he
        exact .timedOut hr late
      · exact exec_capture hr intime due hrest

theorem ReadPaced.ends {timeoutMs : UInt32} {readings : List Int64}
    {r : Except Exception SyntheticFrame}
    (h : ReadPaced fl recordsFail s timeoutMs readings r s' t') :
    ReadEnds fl recordsFail s r s' t' := by
  cases h with
  | notRunning hr => exact .notRunning hr
  | timedOut hr => exact .failed hr (by simp)
  | failed hr _ he => exact .failed hr (he.hasCode (by decide))
  | recordLost hr _ hf due after => exact .recordLost hr hf due after
  | captured hr _ hs due after => exact .captured hr hs due after

/-- Of a running camera, a read times out just when its timeout ends before the frame is due. -/
theorem ReadPaced.timeout_iff {timeoutMs : UInt32} {readings : List Int64}
    {r : Except Exception SyntheticFrame} (hr : s.running = true)
    (h : ReadPaced fl recordsFail s timeoutMs readings r s' t') :
    ∃ entry, readings.head? = some entry ∧
      ((∃ e, r = .error e ∧ e.hasCode .timeout) ↔
        entry.toInt + timeoutMs.toNat * 1000000 < s.nextFrame) := by
  cases h with
  | notRunning hr' => simp [hr] at hr'
  | @timedOut entry _ _ late => exact ⟨entry, rfl, iff_of_true ⟨_, rfl, by simp⟩ late⟩
  | @failed entry e _ _ intime he =>
      refine ⟨entry, rfl, iff_of_false ?_ (not_lt.mpr intime)⟩
      rintro ⟨_, heq, hcode⟩
      cases heq
      rw [he.hasCode (by decide)] at hcode
      cases hcode
  | @recordLost entry _ _ _ intime =>
      refine ⟨entry, rfl, iff_of_false ?_ (not_lt.mpr intime)⟩
      rintro ⟨_, heq, hcode⟩
      cases heq
      cases hcode
  | @captured entry _ _ _ _ intime => exact ⟨entry, rfl, iff_of_false nofun (not_lt.mpr intime)⟩

theorem exec_read {timeoutMs : UInt32} {r : Except Exception SyntheticFrame}
    (h : Exec (steadyClock recordsFail) (s.read fl timeoutMs) t log (r, s') t') :
    ReadEnds fl recordsFail s r s' t' :=
  (exec_read_paced h).ends

theorem exec_capture_error {e : Exception}
    (h : Exec (steadyClock recordsFail) (s.capture fl) t log (.error e, s') t') :
    (log.any refusedRecord = false ∧ s' = s) ∨
      (log.any refusedRecord = true ∧ recordsFail ∧ e = .badAlloc ∧
        ∃ now : Int64, t ≤ now ∧ s' = s.advance fl now) := by
  obtain ⟨x, t₁, log₁, log₂, hx, hrest, rfl⟩ := exec_bind.mp h
  have hnone : log₁.any refusedRecord = false :=
    no_refusedRecord (hx.issues (issues_buildStorage (P := TimedRequest.AsksNoRecord) trivial _ _))
  rw [List.any_append, hnone, Bool.false_or]
  cases x with
  | error e' =>
      obtain ⟨rfl, hend, _⟩ := exec_pure.mp hrest
      cases hend
      exact Or.inl ⟨rfl, rfl⟩
  | ok storage =>
      obtain ⟨now, t₂, _, hnow, hrecord, rfl⟩ := exec_request_bind.mp hrest
      obtain ⟨ok, t₃, _, halloc, hend, rfl⟩ := exec_request_bind.mp hrecord
      obtain ⟨hge, rfl⟩ := hnow
      cases ok with
      | true =>
          obtain ⟨_, he, _⟩ := exec_pure.mp hend
          cases he
      | false =>
          obtain ⟨rfl, he, _⟩ := exec_pure.mp hend
          cases he
          exact Or.inr ⟨rfl, halloc.2 rfl, rfl, t₂, Int64.le_trans (clock_mono hx) hge, rfl⟩

/-- A read that throws leaves the camera as it was, unless the record of its frame could not be
allocated. Then the camera has moved on to the next frame. -/
theorem exec_read_error {timeoutMs : UInt32} {e : Exception}
    (h : Exec (steadyClock recordsFail) (s.read fl timeoutMs) t log (.error e, s') t') :
    (log.any refusedRecord = false ∧ s' = s) ∨
      (log.any refusedRecord = true ∧ recordsFail ∧ e = .badAlloc ∧
        ∃ now : Int64, s.nextFrame ≤ now.toInt ∧ s' = s.advance fl now) := by
  unfold read at h
  split_ifs at h
  · obtain ⟨rfl, he, _⟩ := exec_pure.mp h
    cases he
    exact Or.inl ⟨rfl, rfl⟩
  · obtain ⟨x, t₁, log₁, log₂, hx, hrest, rfl⟩ := exec_bind.mp h
    have hnone : log₁.any refusedRecord = false :=
      no_refusedRecord (hx.issues (issues_awaitNextFrame (P := TimedRequest.AsksNoRecord) trivial
        (fun _ => trivial) _))
    rw [List.any_append, hnone, Bool.false_or]
    obtain ⟨_, _, hends⟩ := exec_awaitNextFrame hx
    rcases hends with ⟨rfl, _⟩ | ⟨rfl, _, due⟩
    · obtain ⟨rfl, he, _⟩ := exec_pure.mp hrest
      cases he
      exact Or.inl ⟨rfl, rfl⟩
    · rcases exec_capture_error hrest with hkept | ⟨hlost, hf, he, now, hge, hs⟩
      · exact Or.inl hkept
      · have hdue : s.nextFrame ≤ now.toInt := due.trans (Int64.le_iff_toInt_le.mp hge)
        exact Or.inr ⟨hlost, hf, he, now, hdue, hs⟩

end SyntheticCamera

/-- The device may read `now` and grant an allocation, and stay as it is. -/
structure Grants {σ : Type} (D : Device timed σ) (d : σ) (now : Int64) : Prop where
  clock : D d .now now d
  storage : D d .allocateStorage true d
  record : D d .allocateRecord true d

namespace Grants

open SyntheticCamera

variable {σ : Type} {D : Device timed σ} {d : σ} {now : Int64} {s : SyntheticCamera}

theorem allocations (h : Grants D d now) (count : ℕ) :
    ∃ log, Exec D (allocations count).run d log (.ok ()) d := by
  induction count with
  | zero => exact ⟨[], exec_return.mpr ⟨rfl, rfl, rfl⟩⟩
  | succ count ih =>
      obtain ⟨log, hrest⟩ := ih
      have hfirst : Exec D allocateStorage d [⟨.allocateStorage, true⟩] true d :=
        exec_request.mpr ⟨h.storage, rfl⟩
      exact ⟨_, exec_lift_bind.mpr ⟨true, d, _, log, hfirst, hrest, rfl⟩⟩

theorem resizeEach (h : Grants D d now) {sizes : List UInt64}
    (hfits : ∀ size ∈ sizes, size ≤ vectorMaxSize) :
    ∃ log, Exec D (resizeEach sizes).run d log (.ok ()) d := by
  induction sizes with
  | nil => exact ⟨[], exec_return.mpr ⟨rfl, rfl, rfl⟩⟩
  | cons size sizes ih =>
      obtain ⟨log, hrest⟩ := ih fun size hs => hfits size (List.mem_cons_of_mem _ hs)
      obtain ⟨log', hfirst⟩ := h.allocations 1
      have hsize : ¬ vectorMaxSize < size := UInt64.not_lt.mpr (hfits size List.mem_cons_self)
      refine ⟨log' ++ log, ?_⟩
      unfold SyntheticCamera.resizeEach
      rw [if_neg hsize]
      exact exec_bind_ok.mpr ⟨(), d, log', log, hfirst, hrest, rfl⟩

theorem buildStorage (h : Grants D d now) {config : CaptureConfig} {sizes : List UInt64}
    (hs : planeSizes config = .ok sizes) (hfits : ∀ size ∈ sizes, size ≤ vectorMaxSize)
    (sequence : UInt64) :
    ∃ log, Exec D (buildStorage config sequence).run d log
      (.ok (generate config sizes sequence)) d := by
  obtain ⟨log₁, h₁⟩ := h.allocations 2
  obtain ⟨log₂, h₂⟩ := h.resizeEach hfits
  obtain ⟨log₃, h₃⟩ := h.allocations sizes.length
  exact ⟨_, exec_bind_ok.mpr ⟨(), d, log₁, _, h₁,
    exec_bind_ok.mpr ⟨sizes, d, [], _, exec_pure.mpr ⟨rfl, hs.symm, rfl⟩,
      exec_bind_ok.mpr ⟨(), d, log₂, _, h₂,
        exec_bind_ok.mpr ⟨(), d, log₃, [], h₃, exec_return.mpr ⟨rfl, rfl, rfl⟩, rfl⟩,
        rfl⟩, rfl⟩, rfl⟩⟩

theorem awaitNextFrame (h : Grants D d now) (due : s.nextFrame ≤ now.toInt) (timeoutMs : UInt32) :
    Exec D (s.awaitNextFrame timeoutMs) d [⟨.now, now⟩] (.ok ()) d := by
  refine exec_request_bind.mpr ⟨now, d, [], h.clock, ?_, rfl⟩
  rw [if_neg (not_lt.mpr due)]
  exact ⟨rfl, rfl, rfl⟩

theorem resizeEach_long (h : Grants D d now) {sizes : List UInt64} {long : UInt64}
    (hmem : long ∈ sizes) (hlong : vectorMaxSize < long) :
    ∃ log, Exec D (SyntheticCamera.resizeEach sizes).run d log (.error .lengthError) d := by
  induction sizes with
  | nil => cases hmem
  | cons size sizes ih =>
      unfold SyntheticCamera.resizeEach
      split_ifs with hsize
      · exact ⟨[], exec_throw.mpr ⟨rfl, rfl, rfl⟩⟩
      · have hne : long ≠ size := fun he => hsize (he ▸ hlong)
        obtain ⟨log, hrest⟩ := ih (List.mem_of_ne_of_mem hne hmem)
        obtain ⟨log', hfirst⟩ := h.allocations 1
        exact ⟨_, exec_bind_error.mpr (Or.inr ⟨(), d, log', log, hfirst, hrest, rfl⟩)⟩

theorem capture (h : Grants D d now) (fl : Rounding) {sizes : List UInt64}
    (hs : planeSizes s.config = .ok sizes) (hfits : ∀ size ∈ sizes, size ≤ vectorMaxSize) :
    ∃ log, Exec D (s.capture fl) d log
      (.ok (syntheticFrame fl s.config (generate s.config sizes s.sequence) s.sequence),
        s.advance fl now) d := by
  have hrecord : ∃ log, Exec D allocateRecord d log true d := ⟨_, exec_request.mpr ⟨h.record, rfl⟩⟩
  have hnow : ∃ log, Exec D steadyNow d log now d := ⟨_, exec_request.mpr ⟨h.clock, rfl⟩⟩
  refine exists_exec_bind (h.buildStorage hs hfits s.sequence) ?_
  refine exists_exec_bind hnow ?_
  exact exists_exec_bind hrecord ⟨[], rfl, rfl, rfl⟩

theorem read (h : Grants D d now) (fl : Rounding) {sizes : List UInt64} (hr : s.running = true)
    (due : s.nextFrame ≤ now.toInt) (hs : planeSizes s.config = .ok sizes)
    (hfits : ∀ size ∈ sizes, size ≤ vectorMaxSize) (timeoutMs : UInt32) :
    ∃ log, Exec D (s.read fl timeoutMs) d log
      (.ok (syntheticFrame fl s.config (generate s.config sizes s.sequence) s.sequence),
        s.advance fl now) d := by
  unfold SyntheticCamera.read
  rw [if_neg (by simp [hr])]
  exact exists_exec_bind ⟨_, h.awaitNextFrame due timeoutMs⟩ (h.capture fl hs hfits)

end Grants

theorem steadyClock_grants (recordsFail : Prop) (t : Int64) :
    Grants (steadyClock recordsFail) t t where
  clock := ⟨Int64.le_refl t, rfl⟩
  storage := Int64.le_refl t
  record := ⟨Int64.le_refl t, nofun⟩

namespace SyntheticCamera

variable {s : SyntheticCamera} {t : Int64}

theorem awaitNextFrame_due (recordsFail : Prop) (due : s.nextFrame ≤ t.toInt) (timeoutMs : UInt32) :
    Exec (steadyClock recordsFail) (s.awaitNextFrame timeoutMs) t [⟨.now, t⟩] (.ok ()) t :=
  (steadyClock_grants recordsFail t).awaitNextFrame due timeoutMs

theorem read_returns (fl : Rounding) (recordsFail : Prop) {sizes : List UInt64}
    (hr : s.running = true) (due : s.nextFrame ≤ t.toInt)
    (hs : planeSizes s.config = .ok sizes) (h : ∀ size ∈ sizes, size ≤ vectorMaxSize)
    (timeoutMs : UInt32) :
    ∃ log, Exec (steadyClock recordsFail) (s.read fl timeoutMs) t log
      (.ok (syntheticFrame fl s.config (generate s.config sizes s.sequence) s.sequence),
        s.advance fl t) t :=
  (steadyClock_grants recordsFail t).read fl hr due hs h timeoutMs

end SyntheticCamera

end CameraCore
