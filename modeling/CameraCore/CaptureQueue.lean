import Mathlib.Data.Finset.Basic
import Mathlib.Data.Finset.Insert
import CameraCore.V4L2Interface

/-!
# The kernel's capture queue

The state of the device that matters to the buffers is the set of queued indices.
A `QBUF` succeeds on an unqueued buffer only, a `DQBUF` returns a queued one, and a
successful `STREAMOFF` empties the queue. What may go wrong beyond that is a
parameter: the indices a faulty driver may return besides, and the failures
admitted, which leave the queue alone.
-/

namespace CameraCore

open DeviceProgram

abbrev KernelQueue := Finset ℕ

def queueAnswers (outOfRange : ℕ → Prop) (mayFail : KernelQueue → Ioctl → Errno → Prop) :
    Device linux KernelQueue
  | q, .ioctl (.qbuf index _ _), .ok _, q' => index ∉ q ∧ q' = insert index q
  | q, .ioctl (.qbuf index t k), .error error, q' => mayFail q (.qbuf index t k) error ∧ q' = q
  | q, .ioctl (.dqbuf _), .ok buffer, q' =>
      (buffer.index ∈ q ∧ q' = q.erase buffer.index) ∨ (outOfRange buffer.index ∧ q' ⊆ q)
  | q, .ioctl (.dqbuf t), .error error, q' => mayFail q (.dqbuf t) error ∧ q' = q
  | q, .ioctl (.streamon _), .ok _, q' => q' = q
  | q, .ioctl (.streamon t), .error error, q' => mayFail q (.streamon t) error ∧ q' = q
  | _, .ioctl (.streamoff _), .ok _, q' => q' = ∅
  | q, .ioctl (.streamoff t), .error error, q' => mayFail q (.streamoff t) error ∧ q' = q
  | q, _, _, q' => q' = q

/-- Any call may fail, and nothing else goes wrong. -/
def queueDriver : Device linux KernelQueue := queueAnswers (fun _ => False) (fun _ _ _ => True)

/-- Any call may fail, and a dequeue may return an index past the `n` buffers. -/
def faultyDriver (n : ℕ) : Device linux KernelQueue :=
  queueAnswers (fun index => n ≤ index) (fun _ _ _ => True)

/-- The failures of a driver that keeps the protocol: an interruption, a `QBUF` of
an out-of-range or queued buffer, a `DQBUF` for whatever reason. -/
def conformingFailure (n : ℕ) (q : KernelQueue) (request : Ioctl) (error : Errno) : Prop :=
  error = Errno.eintr ∨
    match request with
    | .qbuf index _ _ => n ≤ index ∨ index ∈ q
    | .dqbuf _ => True
    | _ => False

def conformingDriver (n : ℕ) : Device linux KernelQueue :=
  queueAnswers (fun _ => False) (conformingFailure n)

section
variable {outOfRange outOfRange' : ℕ → Prop} {mayFail mayFail' : KernelQueue → Ioctl → Errno → Prop}
  {q q' : KernelQueue} {t : CaptureType} {index k : ℕ} {error : Errno} {buffer : V4L2Buffer}
  {u : Unit}

theorem queueAnswers_mono (hr : ∀ i, outOfRange i → outOfRange' i)
    (hf : ∀ q r e, mayFail q r e → mayFail' q r e) :
    queueAnswers outOfRange mayFail ≤ queueAnswers outOfRange' mayFail' := by
  intro q r x q' h
  unfold queueAnswers at h ⊢
  split at h
  · exact h
  · exact ⟨hf _ _ _ h.1, h.2⟩
  · exact h.imp_right (fun h => ⟨hr _ h.1, h.2⟩)
  · exact ⟨hf _ _ _ h.1, h.2⟩
  · exact h
  · exact ⟨hf _ _ _ h.1, h.2⟩
  · exact h
  · exact ⟨hf _ _ _ h.1, h.2⟩
  · exact h

/-- An interrupted ioctl leaves the queue alone, so the retry loop only removes
the interruptions. -/
theorem queueAnswers_interrupted {r : Request} {x : r.Answer} (hx : interrupted r x)
    (h : queueAnswers outOfRange mayFail q r x q') : q' = q := by
  cases r with
  | ioctl request =>
      cases x with
      | ok payload => exact hx.elim
      | error error =>
          cases request with
          | qbuf | dqbuf | streamon | streamoff => exact h.2
          | _ => exact h
  | _ => exact hx.elim

theorem retryIoctl_queueAnswers {r : Request} {x : r.Answer} :
    retryIoctl (queueAnswers outOfRange mayFail) q r x q' ↔
      queueAnswers outOfRange mayFail q r x q' ∧ ¬ interrupted r x :=
  retried_iff (I := linux) (fun _ _ _ _ => queueAnswers_interrupted)

theorem retryIoctl_queueAnswers_le :
    retryIoctl (queueAnswers outOfRange mayFail) ≤ queueAnswers outOfRange mayFail :=
  retried_le fun _ _ _ _ => queueAnswers_interrupted

end

theorem queueDriver_le_faultyDriver (n : ℕ) : queueDriver ≤ faultyDriver n :=
  queueAnswers_mono (fun _ h => h.elim) (fun _ _ _ h => h)

theorem conformingDriver_le_faultyDriver (n : ℕ) : conformingDriver n ≤ faultyDriver n :=
  queueAnswers_mono (fun _ h => h.elim) (fun _ _ _ _ => trivial)

end CameraCore
