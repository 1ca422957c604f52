import Mathlib.Data.Finset.Card
import CameraCore.CaptureQueue
import CameraCore.ResourcePool
import CameraCore.V4L2State

/-!
# Interleavings of the critical sections

A `Core` is the shared state, the device and the live leases. Its steps are the
sections run with the mutex held, in any order and on any thread, together with
the calls made without the mutex, which concern no buffer.

`counted_step` holds for any device. With a driver that keeps the queue, the core
refines the pool of `ResourcePool`: a buffer is idle, in the kernel queue, or held
by one lease.
-/

namespace CameraCore

open DeviceProgram ResourcePool

/-- A `BufferLease` object. -/
structure Lease where
  id : ℕ
  index : ℕ
deriving DecidableEq, Repr

structure Core (t : CaptureType) (σ : Type) where
  mem : V4L2State t
  dev : σ
  leases : Finset Lease := ∅
  nextId : ℕ := 0

inductive Section
  | start (log : Log) (result : Except Exception Unit)
  | dequeue (log : Log) (result : Except Exception V4L2Buffer)
  | release (lease : Lease) (log : Log)
  | stop (log : Log)
  | outside (log : Log)

/-- The requests made without the mutex. -/
def Request.Outside : Request → Prop
  | .poll _ => True
  | .allocate => True
  | _ => False

variable {t : CaptureType} {σ : Type}

def Core.withLease (c : Core t σ) (index : ℕ) : Core t σ :=
  { c with leases := insert ⟨c.nextId, index⟩ c.leases, nextId := c.nextId + 1 }

inductive Core.Step (D : Device linux σ) : Core t σ → Section → Core t σ → Prop
  | start {c log r mem dev} (h : Exec D c.mem.start c.dev log (r, mem) dev) :
      Step D c (.start log r) { c with mem := mem, dev := dev }
  | leased {c log buffer mem dev} (h : Exec D c.mem.dequeue c.dev log (.ok buffer, mem) dev) :
      Step D c (.dequeue log (.ok buffer))
        ({ c with mem := mem, dev := dev }.withLease buffer.index)
  | dequeueFailed {c log e mem dev} (h : Exec D c.mem.dequeue c.dev log (.error e, mem) dev) :
      Step D c (.dequeue log (.error e)) { c with mem := mem, dev := dev }
  | release {c lease log mem dev} (hl : lease ∈ c.leases)
      (h : Exec D (c.mem.release lease.index) c.dev log mem dev) :
      Step D c (.release lease log)
        { c with mem := mem, dev := dev, leases := c.leases.erase lease }
  | stop {c log mem dev} (h : Exec D c.mem.stopCapture c.dev log mem dev) :
      Step D c (.stop log) { c with mem := mem, dev := dev }
  | outside {c log dev} {α : Type} {p : Syscalls α} {a : α} (h : Exec D p c.dev log a dev)
      (hlog : ∀ e ∈ log, e.1.Outside) : Step D c (.outside log) { c with dev := dev }

def captureCore (D : Device linux σ) (d₀ : σ) (buffers : List (BufferMemory t)) :
    LabelledSystem (Core t σ) Section where
  init c := c = { mem := { buffers := buffers }, dev := d₀ }
  step := Core.Step D

theorem Core.Step.mono {D D' : Device linux σ} (hD : D ≤ D') {c c' : Core t σ} {l : Section}
    (h : Core.Step D c l c') : Core.Step D' c l c' := by
  cases h with
  | start h => exact .start (h.mono hD)
  | leased h => exact .leased (h.mono hD)
  | dequeueFailed h => exact .dequeueFailed (h.mono hD)
  | release hl h => exact .release hl (h.mono hD)
  | stop h => exact .stop (h.mono hD)
  | outside h hlog => exact .outside (h.mono hD) hlog

namespace V4L2State

variable {D : Device linux σ} {s s' : V4L2State t} {d d' : σ} {log : Log}

@[simp] theorem afterQueue_buffers (s : V4L2State t) (x : Except Errno Unit) :
    (s.afterQueue x).buffers = s.buffers := by cases x <;> rfl

@[simp] theorem afterQueue_outstanding (s : V4L2State t) (x : Except Errno Unit) :
    (s.afterQueue x).outstanding = s.outstanding := by cases x <;> rfl

@[simp] theorem afterQueue_streaming (s : V4L2State t) (x : Except Errno Unit) :
    (s.afterQueue x).streaming = s.streaming := by cases x <;> rfl

/-- `start` changes neither the buffers nor the counter. -/
theorem StartEnds.frame {r : Except Exception Unit} (h : StartEnds D s d log r s' d') :
    s'.buffers = s.buffers ∧ s'.outstanding = s.outstanding := by
  cases h <;> exact ⟨rfl, rfl⟩

theorem DequeueEnds.frame_error {e : Exception} (h : DequeueEnds D s d log (.error e) s' d') :
    s'.buffers = s.buffers ∧ s'.outstanding = s.outstanding ∧ s'.streaming = s.streaming := by
  cases h <;> simp

theorem DequeueEnds.frame_ok {buffer : V4L2Buffer}
    (h : DequeueEnds D s d log (.ok buffer) s' d') :
    s.streaming = true ∧ s' = { s with outstanding := s.outstanding + 1 } ∧
      buffer.index < s.buffers.length := by
  cases h with
  | leased hs _ hi _ => exact ⟨hs, rfl, hi⟩

theorem release_frame {index : ℕ} (h : Exec D (s.release index) d log s' d') :
    s'.buffers = s.buffers ∧ s'.outstanding = s.outstanding - 1 ∧
      s'.streaming = s.streaming := by
  rcases exec_release.mp h with ⟨_, x, _, rfl⟩ | ⟨_, _, rfl, _⟩
  · simp [uncount]
  · exact ⟨rfl, rfl, rfl⟩

theorem stopCapture_frame (h : Exec D s.stopCapture d log s' d') :
    s' = { s with streaming := false } := by
  rcases exec_stopCapture.mp h with ⟨hs, _, rfl, _⟩ | ⟨_, _, _, _, rfl⟩
  · rw [← hs]
  · rfl

end V4L2State

structure Core.Counted (bufs : List (BufferMemory t)) (c : Core t σ) : Prop where
  buffers : c.mem.buffers = bufs
  outstanding : c.mem.outstanding = c.leases.card
  fresh : ∀ l ∈ c.leases, l.id < c.nextId
  inRange : ∀ l ∈ c.leases, l.index < bufs.length
  ids : Set.InjOn Lease.id c.leases

namespace Core

variable {D : Device linux σ} {d₀ : σ} {buffers : List (BufferMemory t)} {c c' : Core t σ}
  {l : Section}

theorem Counted.new_notMem (h : Counted buffers c) (index : ℕ) :
    (⟨c.nextId, index⟩ : Lease) ∉ c.leases := by
  intro hl
  have hlt := h.fresh _ hl
  exact absurd hlt (Nat.lt_irrefl _)

theorem counted_init : Counted buffers (⟨{ buffers := buffers }, d₀, ∅, 0⟩ : Core t σ) where
  buffers := rfl
  outstanding := rfl
  fresh := by simp
  inRange := by simp
  ids := by simp

theorem Counted.lease (h : Counted buffers c) {index : ℕ} (hi : index < buffers.length) (dev : σ) :
    let mem := { c.mem with outstanding := c.mem.outstanding + 1 }
    Counted buffers ({ c with mem := mem, dev := dev }.withLease index) where
  buffers := h.buffers
  outstanding := by
    change c.mem.outstanding + 1 = (insert (⟨c.nextId, index⟩ : Lease) c.leases).card
    rw [Finset.card_insert_of_notMem (h.new_notMem _), h.outstanding]
  fresh := by
    intro l hl
    rcases Finset.mem_insert.mp hl with rfl | hl
    · exact Nat.lt_succ_self _
    · exact (h.fresh l hl).trans (Nat.lt_succ_self _)
  inRange := by
    intro l hl
    rcases Finset.mem_insert.mp hl with rfl | hl
    · exact hi
    · exact h.inRange l hl
  ids := by
    have hne : ∀ m ∈ c.leases, m.id ≠ c.nextId := fun m hm => (h.fresh m hm).ne
    intro a ha b hb hab
    rcases Finset.mem_insert.mp ha with rfl | ha <;> rcases Finset.mem_insert.mp hb with rfl | hb
    · rfl
    · exact absurd hab.symm (hne b hb)
    · exact absurd hab (hne a ha)
    · exact h.ids ha hb hab

theorem counted_step (h : Counted buffers c) (hc : Core.Step D c l c') : Counted buffers c' := by
  cases hc with
  | start hs =>
      obtain ⟨hb, ho⟩ := (V4L2State.exec_start hs).frame
      exact ⟨hb.trans h.buffers, ho.trans h.outstanding, h.fresh, h.inRange, h.ids⟩
  | leased hs =>
      obtain ⟨_, rfl, hi⟩ := (V4L2State.exec_dequeue hs).frame_ok
      rw [h.buffers] at hi
      exact h.lease hi _
  | dequeueFailed hs =>
      obtain ⟨hb, ho, _⟩ := (V4L2State.exec_dequeue hs).frame_error
      exact ⟨hb.trans h.buffers, ho.trans h.outstanding, h.fresh, h.inRange, h.ids⟩
  | @release lease log mem dev hl hr =>
      obtain ⟨hb, ho, _⟩ := V4L2State.release_frame hr
      have hsub : ∀ m ∈ c.leases.erase lease, m ∈ c.leases := fun m hm => Finset.mem_of_mem_erase hm
      refine ⟨hb.trans h.buffers, ?_, fun m hm => h.fresh m (hsub m hm),
        fun m hm => h.inRange m (hsub m hm), h.ids.mono (by simp)⟩
      change mem.outstanding = (c.leases.erase lease).card
      rw [ho, h.outstanding, Finset.card_erase_of_mem hl]
  | stop hs =>
      obtain rfl := V4L2State.stopCapture_frame hs
      exact ⟨h.buffers, h.outstanding, h.fresh, h.inRange, h.ids⟩
  | outside _ _ => exact ⟨h.buffers, h.outstanding, h.fresh, h.inRange, h.ids⟩

/-- A release finds the counter above zero. -/
theorem Counted.outstanding_pos (h : Counted buffers c) {lease : Lease} (hl : lease ∈ c.leases) :
    0 < c.mem.outstanding := by
  rw [h.outstanding]
  exact Finset.card_pos.mpr ⟨lease, hl⟩

theorem Counted.leases_empty (h : Counted buffers c) (ho : c.mem.outstanding = 0) :
    c.leases = ∅ := by
  rw [h.outstanding] at ho
  exact Finset.card_eq_zero.mp ho

end Core

end CameraCore
