import CameraCore.V4L2Interface

/-!
# The shared state of a V4L2 capture and its critical sections

`V4L2State` is the object shared by a camera and the leases of its frames. Each
function below is one section that runs with the mutex held: the state goes in,
the ioctls are issued in the source's order, and the state comes out together
with the result or the exception. An exception leaves behind the state reached so
far, as in the source.
-/

namespace CameraCore

open DeviceProgram

/-- The plane counts a buffer or a format of this capture type may have. -/
def PlaneCount : CaptureType → ℕ → Prop
  | .videoCapture, n => n = 1
  | .videoCaptureMplane, n => 1 ≤ n ∧ n ≤ videoMaxPlanes

instance (t : CaptureType) (n : ℕ) : Decidable (PlaneCount t n) := by
  cases t <;> unfold PlaneCount <;> infer_instance

theorem PlaneCount.pos {t : CaptureType} {n : ℕ} (h : PlaneCount t n) : 0 < n := by
  cases t with
  | videoCapture =>
      have hn : n = 1 := h
      omega
  | videoCaptureMplane => exact h.1

/-- The bytes `[address, address + length)` mapped for one plane of a buffer. -/
structure Mapping where
  address : ℕ
  length : UInt64
deriving DecidableEq, Repr

structure BufferMemory (t : CaptureType) where
  planes : List Mapping
  planeCount : PlaneCount t planes.length
deriving DecidableEq

structure V4L2State (t : CaptureType) where
  buffers : List (BufferMemory t)
  outstanding : ℕ := 0
  streaming : Bool := false
  broken : Bool := false

namespace V4L2State

variable {t : CaptureType}

/-- The number of planes passed to `VIDIOC_QBUF`; the array is only attached in
multi-plane mode. -/
def queuedPlanes (s : V4L2State t) (index : ℕ) : ℕ :=
  match t with
  | .videoCapture => 0
  | .videoCaptureMplane => (s.buffers[index]?.map fun memory => memory.planes.length).getD 0

/-- The error is the `errno` left behind when the source returns `false`. In multi-plane mode an
array of planes is filled first; the function is `noexcept`, so without memory for it the process
ends and there is no state after the call. -/
def queueLocked (s : V4L2State t) (index : ℕ) : Syscalls (Except Errno Unit) :=
  if s.buffers.length ≤ index then pure (.error Errno.einval)
  else ioctl (.qbuf index t (s.queuedPlanes index))

/-- Queue a buffer that no lease holds any more; failing to marks the queue
broken. -/
def giveBack (s : V4L2State t) (index : ℕ) : Syscalls (V4L2State t) := do
  match ← s.queueLocked index with
  | .ok _ => pure s
  | .error _ => pure { s with broken := true }

def release (s : V4L2State t) (index : ℕ) : Syscalls (V4L2State t) :=
  let s := if 0 < s.outstanding then { s with outstanding := s.outstanding - 1 } else s
  if s.streaming then s.giveBack index else pure s

/-- The loop of `start` over the buffers still to be queued; stops at the first
failure. -/
def queueEach (s : V4L2State t) : List ℕ → Syscalls (Except Errno Unit)
  | [] => pure (.ok ())
  | index :: rest => do
      match ← s.queueLocked index with
      | .ok _ => queueEach s rest
      | .error error => pure (.error error)

def start (s : V4L2State t) : Syscalls (Except Exception Unit × V4L2State t) :=
  if s.streaming then
    pure (.error (.camera .invalidState "V4L2 camera is already running"), s)
  else if s.broken then
    pure (.error (.camera .invalidState "V4L2 camera entered an unrecoverable queue state"), s)
  else if s.outstanding ≠ 0 then
    pure (.error (.camera .invalidState
      "cannot restart V4L2 camera while captured frames are still leased"), s)
  else do
    match ← s.queueEach (List.range s.buffers.length) with
    | .error error =>
        pure (.error (.throwSystemError "VIDIOC_QBUF" error), { s with broken := true })
    | .ok _ =>
        match ← ioctl (.streamon t) with
        | .error error =>
            pure (.error (.throwSystemError "VIDIOC_STREAMON" error), { s with broken := true })
        | .ok _ => pure (.ok (), { s with streaming := true })

def readEntry (s : V4L2State t) : Except Exception Unit :=
  if !s.streaming then
    .error (.camera .invalidState "V4L2 camera must be started before read")
  else if s.broken then
    .error (.camera .systemError "V4L2 buffer queue failed while releasing a frame")
  else .ok ()

/-- The loop around `poll`, which is called again with the whole timeout after an
interruption, and the plane array the dequeue will fill. -/
def awaitFrame (t : CaptureType) (timeout : ℕ) : ℕ → Syscalls (Except Exception Unit)
  | 0 => .outOfFuel
  | fuel + 1 => do
      match (← poll timeout).result with
      | .error error =>
          if error = Errno.eintr then awaitFrame t timeout fuel
          else pure (.error (.throwSystemError "poll V4L2 device" error))
      | .ok 0 => pure (.error (.camera .timeout "timed out waiting for a V4L2 capture frame"))
      | .ok _ =>
          match t with
          | .videoCapture => pure (.ok ())
          | .videoCaptureMplane =>
              if ← allocate then pure (.ok ()) else pure (.error .badAlloc)

/-- The dequeue section of `read`; its result is the buffer a new lease holds. -/
def dequeue (s : V4L2State t) : Syscalls (Except Exception V4L2Buffer × V4L2State t) :=
  if !s.streaming then
    pure (.error (.camera .invalidState "V4L2 camera stopped while waiting for a frame"), s)
  else do
    match ← ioctl (.dqbuf t) with
    | .error error =>
        if error = Errno.eagain then
          pure (.error (.camera .timeout "V4L2 frame was not ready after poll"), s)
        else pure (.error (.throwSystemError "VIDIOC_DQBUF" error), s)
    | .ok buffer =>
        if s.buffers.length ≤ buffer.index then
          pure (.error (.camera .systemError "V4L2 returned an out-of-range buffer index"),
            { s with broken := true })
        else
          let s := { s with outstanding := s.outstanding + 1 }
          if ← allocate then pure (.ok buffer, s)
          else
            let s := { s with outstanding := s.outstanding - 1 }
            let s ← s.giveBack buffer.index
            pure (.error .badAlloc, s)

def stopCapture (s : V4L2State t) : Syscalls (V4L2State t) :=
  if !s.streaming then pure s
  else do
    let _ ← ioctl (.streamoff t)
    pure { s with streaming := false }

/-- The body of `~V4L2State`. -/
def destroy (s : V4L2State t) : Syscalls (V4L2State t) :=
  if s.streaming then do
    let _ ← ioctl (.streamoff t)
    pure { s with streaming := false }
  else pure s

def running (s : V4L2State t) : Bool := s.streaming

section Sections
variable {σ : Type} {D : Device linux σ} {s s' : V4L2State t} {d d' : σ} {log : Log} {index : ℕ}

def uncount (s : V4L2State t) : V4L2State t := { s with outstanding := s.outstanding - 1 }

theorem queueLocked_uncount : s.uncount.queueLocked index = s.queueLocked index := by
  cases t <;> rfl

def Refuses (s : V4L2State t) : Prop :=
  s.streaming = true ∨ s.broken = true ∨ s.outstanding ≠ 0

theorem streaming_of_not_refuses (hs : ¬ s.Refuses) : s.streaming = false :=
  Bool.eq_false_of_not_eq_true fun hst => hs (Or.inl hst)

theorem exec_queueLocked {x : Except Errno Unit} :
    Exec D (s.queueLocked index) d log x d' ↔
      (s.buffers.length ≤ index ∧ x = .error Errno.einval ∧ log = [] ∧ d' = d) ∨
      (index < s.buffers.length ∧ D d (.ioctl (.qbuf index t (s.queuedPlanes index))) x d' ∧
        log = [⟨.ioctl (.qbuf index t (s.queuedPlanes index)), x⟩]) := by
  unfold queueLocked
  by_cases h : s.buffers.length ≤ index
  · have hlt : ¬ index < s.buffers.length := by omega
    rw [if_pos h, exec_pure]
    constructor
    · rintro ⟨rfl, rfl, rfl⟩
      exact Or.inl ⟨h, rfl, rfl, rfl⟩
    · rintro (⟨_, rfl, rfl, rfl⟩ | ⟨hi, _⟩)
      · exact ⟨rfl, rfl, rfl⟩
      · exact absurd hi hlt
  · have hlt : index < s.buffers.length := by omega
    rw [if_neg h]
    simp only [ioctl, h, hlt, false_and, true_and, false_or]
    exact exec_request

def afterQueue (s : V4L2State t) : Except Errno Unit → V4L2State t
  | .ok _ => s
  | .error _ => { s with broken := true }

theorem exec_giveBack :
    Exec D (s.giveBack index) d log s' d' ↔
      ∃ x, Exec D (s.queueLocked index) d log x d' ∧ s' = s.afterQueue x := by
  unfold giveBack
  rw [exec_bind]
  constructor
  · rintro ⟨x, d₁, log₁, log₂, hq, hr, rfl⟩
    refine ⟨x, ?_⟩
    cases x <;> obtain ⟨rfl, rfl, rfl⟩ := hr <;> exact ⟨by simpa using hq, rfl⟩
  · rintro ⟨x, hq, rfl⟩
    refine ⟨x, d', log, [], hq, ?_, by simp⟩
    cases x <;> exact ⟨rfl, rfl, rfl⟩

theorem exec_release :
    Exec D (s.release index) d log s' d' ↔
      (s.streaming = true ∧ ∃ x, Exec D (s.queueLocked index) d log x d' ∧
        s' = s.uncount.afterQueue x) ∨
      (s.streaming = false ∧ log = [] ∧ s' = s.uncount ∧ d' = d) := by
  have hs : (if 0 < s.outstanding then { s with outstanding := s.outstanding - 1 } else s) =
      s.uncount := by
    split_ifs with h
    · rfl
    · have hz : s.outstanding - 1 = s.outstanding := by omega
      rw [uncount, hz]
  unfold release
  simp only [hs]
  cases hst : s.streaming with
  | false =>
      have hst' : s.uncount.streaming = false := hst
      rw [if_neg (by simp [hst']), exec_pure]
      simp
  | true =>
      have hst' : s.uncount.streaming = true := hst
      rw [if_pos hst', exec_giveBack]
      simp only [true_and, Bool.true_eq_false, false_and, or_false, queueLocked_uncount]

/-- How `start` can end. -/
inductive StartEnds (D : Device linux σ) (s : V4L2State t) (d : σ) :
    Log → Except Exception Unit → V4L2State t → σ → Prop
  | refused (text : String) (hs : s.Refuses) :
      StartEnds D s d [] (.error (.camera .invalidState text)) s d
  | queueFailed {log error d'} (hs : ¬ s.Refuses)
      (h : Exec D (s.queueEach (List.range s.buffers.length)) d log (.error error) d') :
      StartEnds D s d log (.error (.throwSystemError "VIDIOC_QBUF" error))
        { s with broken := true } d'
  | streamonFailed {log error d₁ d'} (hs : ¬ s.Refuses)
      (h : Exec D (s.queueEach (List.range s.buffers.length)) d log (.ok ()) d₁)
      (hon : D d₁ (.ioctl (.streamon t)) (.error error) d') :
      StartEnds D s d (log ++ [⟨.ioctl (.streamon t), .error error⟩])
        (.error (.throwSystemError "VIDIOC_STREAMON" error)) { s with broken := true } d'
  | started {log d₁ d'} (hs : ¬ s.Refuses)
      (h : Exec D (s.queueEach (List.range s.buffers.length)) d log (.ok ()) d₁)
      (hon : D d₁ (.ioctl (.streamon t)) (.ok ()) d') :
      StartEnds D s d (log ++ [⟨.ioctl (.streamon t), .ok ()⟩]) (.ok ())
        { s with streaming := true } d'

def startStream (s : V4L2State t) : Syscalls (Except Exception Unit × V4L2State t) := do
  match ← s.queueEach (List.range s.buffers.length) with
  | .error error =>
      pure (.error (.throwSystemError "VIDIOC_QBUF" error), { s with broken := true })
  | .ok _ =>
      match ← ioctl (.streamon t) with
      | .error error =>
          pure (.error (.throwSystemError "VIDIOC_STREAMON" error), { s with broken := true })
      | .ok _ => pure (.ok (), { s with streaming := true })

theorem start_of_refuses (hs : s.Refuses) :
    ∃ text, s.start = pure (.error (.camera .invalidState text), s) := by
  unfold start
  by_cases h₁ : s.streaming = true
  · exact ⟨_, if_pos h₁⟩
  · rw [if_neg h₁]
    by_cases h₂ : s.broken = true
    · exact ⟨_, if_pos h₂⟩
    · have h₃ : s.outstanding ≠ 0 := (hs.resolve_left h₁).resolve_left h₂
      rw [if_neg h₂]
      exact ⟨_, if_pos h₃⟩

theorem start_of_not_refuses (hs : ¬ s.Refuses) : s.start = s.startStream := by
  have h₁ : ¬ s.streaming = true := fun h => hs (Or.inl h)
  have h₂ : ¬ s.broken = true := fun h => hs (Or.inr (Or.inl h))
  have h₃ : ¬ s.outstanding ≠ 0 := fun h => hs (Or.inr (Or.inr h))
  unfold start
  rw [if_neg h₁, if_neg h₂, if_neg h₃]
  rfl

theorem exec_startStream (hs : ¬ s.Refuses) {r : Except Exception Unit}
    (h : Exec D s.startStream d log (r, s') d') : StartEnds D s d log r s' d' := by
  obtain ⟨x, d₁, log₁, log₂, hq, hr, rfl⟩ := exec_bind.mp h
  cases x with
  | error error =>
      obtain ⟨rfl, hr, rfl⟩ := hr
      cases hr
      rw [List.append_nil]
      exact .queueFailed hs hq
  | ok _ =>
      obtain ⟨y, d₂, log₃, hon, hend, rfl⟩ := exec_request_bind.mp hr
      cases y with
      | error error =>
          obtain ⟨rfl, he, rfl⟩ := hend
          cases he
          exact .streamonFailed hs hq hon
      | ok _ =>
          obtain ⟨rfl, he, rfl⟩ := hend
          cases he
          exact .started hs hq hon

theorem exec_start {r : Except Exception Unit} (h : Exec D s.start d log (r, s') d') :
    StartEnds D s d log r s' d' := by
  by_cases hs : s.Refuses
  · obtain ⟨text, he⟩ := start_of_refuses hs
    rw [he] at h
    obtain ⟨rfl, hr, rfl⟩ := h
    cases hr
    exact .refused text hs
  · rw [start_of_not_refuses hs] at h
    exact exec_startStream hs h

theorem exec_start_ok {d₁ : σ} (hs : ¬ s.Refuses)
    (h : Exec D (s.queueEach (List.range s.buffers.length)) d log (.ok ()) d₁)
    (hon : D d₁ (.ioctl (.streamon t)) (.ok ()) d') :
    Exec D s.start d (log ++ [⟨.ioctl (.streamon t), .ok ()⟩])
      (.ok (), { s with streaming := true }) d' := by
  rw [start_of_not_refuses hs]
  refine exec_bind.mpr ⟨.ok (), d₁, log, _, h, ?_, rfl⟩
  exact exec_bind.mpr ⟨.ok (), d', [_], [], exec_request.mpr ⟨hon, rfl⟩, ⟨rfl, rfl, rfl⟩, rfl⟩

theorem exec_start_queueFailed {error : Errno} (hs : ¬ s.Refuses)
    (h : Exec D (s.queueEach (List.range s.buffers.length)) d log (.error error) d') :
    Exec D s.start d log
      (.error (.throwSystemError "VIDIOC_QBUF" error), { s with broken := true }) d' := by
  rw [start_of_not_refuses hs]
  exact exec_bind.mpr ⟨.error error, d', log, [], h, ⟨rfl, rfl, rfl⟩, (List.append_nil log).symm⟩

theorem exec_awaitFrame_error {timeout fuel : ℕ} {e : Exception}
    (h : Exec D (awaitFrame t timeout fuel) d log (.error e) d') :
    e.hasCode .invalidState = false := by
  induction fuel generalizing d log with
  | zero => exact h.elim
  | succ fuel ih =>
      obtain ⟨answer, d₁, log₁, _, hrest, rfl⟩ := exec_request_bind.mp h
      match hresult : answer.result with
      | .error error =>
          rw [hresult] at hrest
          dsimp only at hrest
          split_ifs at hrest
          · exact ih hrest
          · obtain ⟨_, he, _⟩ := exec_pure.mp hrest
            cases he
            simp
      | .ok 0 =>
          rw [hresult] at hrest
          obtain ⟨_, he, _⟩ := exec_pure.mp hrest
          cases he
          simp
      | .ok (_ + 1) =>
          rw [hresult] at hrest
          cases t with
          | videoCapture =>
              obtain ⟨_, he, _⟩ := exec_pure.mp hrest
              cases he
          | videoCaptureMplane =>
              obtain ⟨ok, d₂, log₂, _, hend, rfl⟩ := exec_request_bind.mp hrest
              cases ok with
              | true =>
                  obtain ⟨_, he, _⟩ := exec_pure.mp hend
                  cases he
              | false =>
                  obtain ⟨_, he, _⟩ := exec_pure.mp hend
                  cases he
                  simp

/-- How the dequeue section of `read` can end. -/
inductive DequeueEnds (D : Device linux σ) (s : V4L2State t) (d : σ) :
    Log → Except Exception V4L2Buffer → V4L2State t → σ → Prop
  | notStreaming (hs : s.streaming = false) :
      DequeueEnds D s d []
        (.error (.camera .invalidState "V4L2 camera stopped while waiting for a frame")) s d
  | failed {error d'} (e : Exception) (hs : s.streaming = true)
      (he : e.hasCode .invalidState = false) (h : D d (.ioctl (.dqbuf t)) (.error error) d') :
      DequeueEnds D s d [⟨.ioctl (.dqbuf t), .error error⟩] (.error e) s d'
  | outOfRange {buffer d'} (hs : s.streaming = true)
      (h : D d (.ioctl (.dqbuf t)) (.ok buffer) d') (hi : s.buffers.length ≤ buffer.index) :
      DequeueEnds D s d [⟨.ioctl (.dqbuf t), .ok buffer⟩]
        (.error (.camera .systemError "V4L2 returned an out-of-range buffer index"))
        { s with broken := true } d'
  | leased {buffer d₁ d'} (hs : s.streaming = true)
      (h : D d (.ioctl (.dqbuf t)) (.ok buffer) d₁) (hi : buffer.index < s.buffers.length)
      (ha : D d₁ .allocate true d') :
      DequeueEnds D s d [⟨.ioctl (.dqbuf t), .ok buffer⟩, ⟨.allocate, true⟩] (.ok buffer)
        { s with outstanding := s.outstanding + 1 } d'
  | rolledBack {buffer d₁ d₂ log x d'} (hs : s.streaming = true)
      (h : D d (.ioctl (.dqbuf t)) (.ok buffer) d₁) (hi : buffer.index < s.buffers.length)
      (ha : D d₁ .allocate false d₂)
      (hq : Exec D (s.queueLocked buffer.index) d₂ log x d') :
      DequeueEnds D s d (⟨.ioctl (.dqbuf t), .ok buffer⟩ :: ⟨.allocate, false⟩ :: log)
        (.error .badAlloc) (s.afterQueue x) d'

theorem exec_dequeue {r : Except Exception V4L2Buffer}
    (h : Exec D s.dequeue d log (r, s') d') : DequeueEnds D s d log r s' d' := by
  unfold dequeue at h
  cases hs : s.streaming with
  | false =>
      rw [if_pos (by simp [hs])] at h
      obtain ⟨rfl, he, rfl⟩ := exec_pure.mp h
      cases he
      exact .notStreaming hs
  | true =>
      rw [if_neg (by simp [hs])] at h
      obtain ⟨x, d₁, log₁, hdq, hrest, rfl⟩ := exec_request_bind.mp h
      cases x with
      | error error =>
          dsimp only at hrest
          split_ifs at hrest with hagain
          all_goals
            obtain ⟨rfl, he, rfl⟩ := exec_pure.mp hrest
            cases he
            exact .failed _ hs (by simp) hdq
      | ok buffer =>
          dsimp only at hrest
          split_ifs at hrest with hi
          · obtain ⟨rfl, he, rfl⟩ := exec_pure.mp hrest
            cases he
            exact .outOfRange hs hdq hi
          · have hlt : buffer.index < s.buffers.length := by omega
            obtain ⟨ok, d₂, log₂, ha, hend, rfl⟩ := exec_request_bind.mp hrest
            cases ok with
            | true =>
                obtain ⟨rfl, he, rfl⟩ := exec_pure.mp hend
                cases he
                exact .leased hs hdq hlt ha
            | false =>
                obtain ⟨s₁, d₃, log₃, log₄, hg, hlast, rfl⟩ := exec_bind.mp hend
                obtain ⟨rfl, he, rfl⟩ := exec_pure.mp hlast
                cases he
                rw [List.append_nil]
                obtain ⟨x, hq, rfl⟩ := exec_giveBack.mp hg
                exact .rolledBack hs hdq hlt ha hq

theorem exec_dequeue_ok {buffer : V4L2Buffer} {d₁ : σ} (hs : s.streaming = true)
    (h : D d (.ioctl (.dqbuf t)) (.ok buffer) d₁) (hi : buffer.index < s.buffers.length)
    (ha : D d₁ .allocate true d') :
    Exec D s.dequeue d [⟨.ioctl (.dqbuf t), .ok buffer⟩, ⟨.allocate, true⟩]
      (.ok buffer, { s with outstanding := s.outstanding + 1 }) d' := by
  have hlt : ¬ s.buffers.length ≤ buffer.index := by omega
  unfold dequeue
  rw [if_neg (by simp [hs])]
  refine exec_request_bind.mpr ⟨.ok buffer, d₁, [_], h, ?_, rfl⟩
  dsimp only
  rw [if_neg hlt]
  exact exec_request_bind.mpr ⟨true, d', [], ha, ⟨rfl, rfl, rfl⟩, rfl⟩

theorem exec_stopCapture :
    Exec D s.stopCapture d log s' d' ↔
      (s.streaming = false ∧ log = [] ∧ s' = s ∧ d' = d) ∨
      (s.streaming = true ∧ ∃ x, D d (.ioctl (.streamoff t)) x d' ∧
        log = [⟨.ioctl (.streamoff t), x⟩] ∧ s' = { s with streaming := false }) := by
  unfold stopCapture
  cases hs : s.streaming with
  | false =>
      rw [if_pos (by simp), exec_pure]
      simp
  | true =>
      rw [if_neg (by simp)]
      constructor
      · intro h
        obtain ⟨x, d₁, log₁, hoff, hend, rfl⟩ := exec_request_bind.mp h
        obtain ⟨rfl, rfl, rfl⟩ := hend
        exact Or.inr ⟨rfl, x, hoff, rfl, rfl⟩
      · rintro (⟨hf, _⟩ | ⟨_, x, hoff, rfl, rfl⟩)
        · cases hf
        · exact exec_request_bind.mpr ⟨x, d', [], hoff, ⟨rfl, rfl, rfl⟩, rfl⟩

/-- The destructor of the shared state stops the stream the way the camera does. -/
theorem destroy_eq_stopCapture (s : V4L2State t) : s.destroy = s.stopCapture := by
  unfold destroy stopCapture
  cases s.streaming <;> rfl

end Sections

end V4L2State

end CameraCore
