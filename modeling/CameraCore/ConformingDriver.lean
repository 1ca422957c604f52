import Mathlib.Data.Finset.Union
import CameraCore.BufferConservation

/-!
# A driver that keeps the protocol

Behind the retry loop the failures left to such a driver are a `QBUF` of a buffer
that is out of range or queued, and a `DQBUF`. The library never issues the
former, so the queue is never marked broken and is empty while the stream is off.
-/

namespace CameraCore

open DeviceProgram ResourcePool

variable {t : CaptureType} {n : ℕ}

/-- The driver as the library sees it, behind `retry_ioctl`. -/
def conformed (n : ℕ) : Device linux KernelQueue := retryIoctl (conformingDriver n)

theorem conformed_le_faultyDriver : conformed n ≤ faultyDriver n :=
  le_trans retryIoctl_queueAnswers_le (conformingDriver_le_faultyDriver n)

section Answers
variable {q q' : KernelQueue} {index k : ℕ}

theorem conformed_qbuf {x : Except Errno Unit}
    (h : conformed n q (.ioctl (.qbuf index t k)) x q') (hi : index < n) (hq : index ∉ q) :
    x = .ok () ∧ q' = insert index q := by
  obtain ⟨hD, hx⟩ := retryIoctl_queueAnswers.mp h
  cases x with
  | ok u => exact ⟨rfl, hD.2⟩
  | error error =>
      obtain ⟨hfail, _⟩ := hD
      rcases hfail with hintr | hlt | hmem
      · exact absurd hintr hx
      · omega
      · exact absurd hmem hq

theorem conformed_qbuf_ok (hq : index ∉ q) :
    conformed n q (.ioctl (.qbuf index t k)) (.ok ()) (insert index q) :=
  retryIoctl_queueAnswers.mpr ⟨⟨hq, rfl⟩, id⟩

theorem conformed_streamon {x : Except Errno Unit}
    (h : conformed n q (.ioctl (.streamon t)) x q') : x = .ok () ∧ q' = q := by
  obtain ⟨hD, hx⟩ := retryIoctl_queueAnswers.mp h
  cases x with
  | ok u => exact ⟨rfl, hD⟩
  | error error =>
      rcases hD.1 with hintr | hfalse
      · exact absurd hintr hx
      · exact hfalse.elim

theorem conformed_streamon_ok : conformed n q (.ioctl (.streamon t)) (.ok ()) q :=
  retryIoctl_queueAnswers.mpr ⟨rfl, id⟩

theorem conformed_streamoff {x : Except Errno Unit}
    (h : conformed n q (.ioctl (.streamoff t)) x q') : x = .ok () ∧ q' = ∅ := by
  obtain ⟨hD, hx⟩ := retryIoctl_queueAnswers.mp h
  cases x with
  | ok u => exact ⟨rfl, hD⟩
  | error error =>
      rcases hD.1 with hintr | hfalse
      · exact absurd hintr hx
      · exact hfalse.elim

theorem conformed_dqbuf {buffer : V4L2Buffer}
    (h : conformed n q (.ioctl (.dqbuf t)) (.ok buffer) q') :
    buffer.index ∈ q ∧ q' = q.erase buffer.index :=
  (retryIoctl_queueAnswers.mp h).1.resolve_right (fun h => h.1)

theorem conformed_allocate {x : Bool} (h : conformed n q .allocate x q') : q' = q :=
  (retryIoctl_queueAnswers.mp h).1

end Answers

namespace V4L2State

variable {s : V4L2State t} {q q' : KernelQueue} {log : Log}

theorem queueLocked_conformed {index : ℕ} {x : Except Errno Unit}
    (h : Exec (conformed n) (s.queueLocked index) q log x q') (hn : s.buffers.length = n)
    (hi : index < n) (hq : index ∉ q) : x = .ok () ∧ q' = insert index q := by
  rcases exec_queueLocked.mp h with ⟨hle, _⟩ | ⟨_, hD, _⟩
  · omega
  · exact conformed_qbuf hD hi hq

theorem free_after_insert {index : ℕ} {is : List ℕ} (hnot : index ∉ is) (hq : ∀ i ∈ is, i ∉ q) :
    ∀ i ∈ is, i ∉ insert index q := by
  intro i hm hin
  rcases Finset.mem_insert.mp hin with rfl | hin
  · exact hnot hm
  · exact hq i hm hin

/-- The loop of `start` queues every buffer it is given, none of them queued yet. -/
theorem queueEach_conformed {is : List ℕ} {x : Except Errno Unit} (hn : s.buffers.length = n)
    (hnd : is.Nodup) (hi : ∀ i ∈ is, i < n) (hq : ∀ i ∈ is, i ∉ q)
    (h : Exec (conformed n) (s.queueEach is) q log x q') :
    x = .ok () ∧ q' = q ∪ is.toFinset := by
  induction is generalizing q log with
  | nil =>
      obtain ⟨_, rfl, rfl⟩ := exec_pure.mp h
      simp
  | cons index rest ih =>
      obtain ⟨hnot, hnd⟩ := List.nodup_cons.mp hnd
      obtain ⟨y, q₁, log₁, log₂, hone, hrest, rfl⟩ := exec_bind.mp h
      obtain ⟨rfl, rfl⟩ := queueLocked_conformed hone hn (hi index List.mem_cons_self)
        (hq index List.mem_cons_self)
      have hfree := free_after_insert hnot fun i hm => hq i (List.mem_cons_of_mem _ hm)
      obtain ⟨rfl, rfl⟩ := ih hnd (fun i hm => hi i (List.mem_cons_of_mem _ hm)) hfree hrest
      refine ⟨rfl, ?_⟩
      rw [List.toFinset_cons, Finset.insert_union, Finset.union_insert]

theorem exec_queueEach_conformed {is : List ℕ} (hn : s.buffers.length = n) (hnd : is.Nodup)
    (hi : ∀ i ∈ is, i < n) (hq : ∀ i ∈ is, i ∉ q) :
    ∃ log, Exec (conformed n) (s.queueEach is) q log (.ok ()) (q ∪ is.toFinset) := by
  induction is generalizing q with
  | nil => exact ⟨[], rfl, rfl, by simp⟩
  | cons index rest ih =>
      obtain ⟨hnot, hnd⟩ := List.nodup_cons.mp hnd
      have hlt : index < s.buffers.length := hn ▸ hi index List.mem_cons_self
      have hfree := free_after_insert hnot fun i hm => hq i (List.mem_cons_of_mem _ hm)
      obtain ⟨log, hlog⟩ := ih hnd (fun i hm => hi i (List.mem_cons_of_mem _ hm)) hfree
      have hone := conformed_qbuf_ok (n := n) (t := t) (k := s.queuedPlanes index)
        (hq index List.mem_cons_self)
      refine ⟨_, exec_bind.mpr ⟨.ok (), insert index q, _, log,
        exec_queueLocked.mpr (Or.inr ⟨hlt, hone, rfl⟩), ?_, rfl⟩⟩
      rwa [List.toFinset_cons, Finset.union_insert, ← Finset.insert_union]

end V4L2State

namespace Core

open V4L2State

structure Conforming (c : Core t KernelQueue) : Prop where
  notBroken : c.mem.broken = false
  offEmpty : c.mem.streaming = false → c.dev = ∅

variable {bufs : List (BufferMemory t)} {c c' : Core t KernelQueue} {p : ℕ → Place} {l : Section}

/-- With no lease outstanding and the stream off, every buffer is free to be queued. -/
theorem Conforming.start_queues (h : c.Conforming) (hp : c.Consistent bufs p)
    (hr : ¬ c.mem.Refuses) {log : Log} {x : Except Errno Unit} {dev : KernelQueue}
    (hq : Exec (conformed bufs.length) (c.mem.queueEach (List.range c.mem.buffers.length))
      c.dev log x dev) : x = .ok () ∧ dev = Finset.range bufs.length := by
  have hoff := streaming_of_not_refuses hr
  have hlen : c.mem.buffers.length = bufs.length := by rw [hp.counted.buffers]
  rw [h.offEmpty hoff, hlen] at hq
  obtain ⟨rfl, rfl⟩ := queueEach_conformed hlen List.nodup_range
    (fun i hi => List.mem_range.mp hi) (by simp) hq
  refine ⟨rfl, ?_⟩
  ext i
  simp

theorem conforming_step (h : c.Conforming) (hp : c.Consistent bufs p)
    (hc : Core.Step (conformed bufs.length) c l c') : c'.Conforming := by
  cases hc with
  | start hs =>
      cases exec_start hs with
      | refused => exact h
      | queueFailed hr hq => cases (h.start_queues hp hr hq).1
      | streamonFailed hr hq hon => cases (conformed_streamon hon).1
      | started hr hq hon => exact ⟨h.notBroken, by simp⟩
  | leased hs =>
      obtain ⟨hst, rfl, _⟩ := (exec_dequeue hs).frame_ok
      exact ⟨h.notBroken, fun hoff => absurd (hst.symm.trans hoff) (by simp)⟩
  | dequeueFailed hs =>
      cases exec_dequeue hs with
      | notStreaming hoff => exact h
      | failed _ hst _ hdq =>
          exact ⟨h.notBroken, fun hoff => absurd (hst.symm.trans hoff) (by simp)⟩
      | outOfRange hst hdq hi =>
          have hlt := hp.queueInRange _ (conformed_dqbuf hdq).1
          rw [hp.counted.buffers] at hi
          omega
      | rolledBack hst hdq hi ha hq =>
          obtain ⟨hmem, rfl⟩ := conformed_dqbuf hdq
          obtain rfl := conformed_allocate ha
          have hlen : c.mem.buffers.length = bufs.length := by rw [hp.counted.buffers]
          obtain ⟨rfl, rfl⟩ := queueLocked_conformed hq hlen (hp.queueInRange _ hmem)
            (Finset.notMem_erase _ _)
          exact ⟨h.notBroken, fun hoff => absurd (hst.symm.trans hoff) (by simp)⟩
  | release hl hs =>
      rcases exec_release.mp hs with ⟨hst, x, hq, rfl⟩ | ⟨hst, _, rfl, rfl⟩
      · have hlen : c.mem.buffers.length = bufs.length := by rw [hp.counted.buffers]
        obtain ⟨rfl, rfl⟩ := queueLocked_conformed hq hlen (hp.counted.inRange _ hl)
          (hp.represents.notMem_queue hl)
        exact ⟨h.notBroken, fun hoff => absurd (hst.symm.trans hoff) (by simp)⟩
      · exact ⟨h.notBroken, h.offEmpty⟩
  | stop hs =>
      rcases exec_stopCapture.mp hs with ⟨_, _, rfl, rfl⟩ | ⟨_, x, hoff, _, rfl⟩
      · exact h
      · exact ⟨h.notBroken, fun _ => (conformed_streamoff hoff).2⟩
  | outside hs hlog =>
      obtain rfl := outside_faulty (hs.mono conformed_le_faultyDriver) hlog
      exact h

/-- Past its guards `start` cannot fail and leaves every buffer queued. -/
theorem Conforming.start_succeeds (h : c.Conforming) (hp : c.Consistent bufs p)
    (hr : ¬ c.mem.Refuses) {log : Log} {r : Except Exception Unit} {mem : V4L2State t}
    {dev : KernelQueue} (hs : Exec (conformed bufs.length) c.mem.start c.dev log (r, mem) dev) :
    r = .ok () ∧ mem = { c.mem with streaming := true } ∧ dev = Finset.range bufs.length := by
  cases exec_start hs with
  | refused _ hr' => exact absurd hr' hr
  | queueFailed _ hq => cases (h.start_queues hp hr hq).1
  | streamonFailed _ _ hon => cases (conformed_streamon hon).1
  | started _ hq hon =>
      obtain ⟨_, rfl⟩ := h.start_queues hp hr hq
      exact ⟨rfl, rfl, (conformed_streamon hon).2⟩

theorem Conforming.exec_start_exists (h : c.Conforming) (hp : c.Consistent bufs p)
    (hr : ¬ c.mem.Refuses) :
    ∃ log mem dev, Exec (conformed bufs.length) c.mem.start c.dev log (.ok (), mem) dev := by
  have hoff := streaming_of_not_refuses hr
  have hlen : c.mem.buffers.length = bufs.length := by rw [hp.counted.buffers]
  have hrange : ∀ i ∈ List.range c.mem.buffers.length, i < bufs.length := by
    intro i hi
    rw [← hlen]
    exact List.mem_range.mp hi
  have hfree : ∀ i ∈ List.range c.mem.buffers.length, i ∉ c.dev := by
    simp [h.offEmpty hoff]
  obtain ⟨log, hq⟩ := exec_queueEach_conformed hlen List.nodup_range hrange hfree
  exact ⟨_, _, _, exec_start_ok hr hq conformed_streamon_ok⟩

theorem Conforming.start_returns (h : c.Conforming) (hp : c.Consistent bufs p) :
    ∃ log r mem dev, Exec (conformed bufs.length) c.mem.start c.dev log (r, mem) dev := by
  by_cases hr : c.mem.Refuses
  · obtain ⟨text, he⟩ := V4L2State.start_of_refuses hr
    exact ⟨[], .error (.camera .invalidState text), c.mem, c.dev,
      he ▸ exec_pure.mpr ⟨rfl, rfl, rfl⟩⟩
  · obtain ⟨log, mem, dev, hx⟩ := h.exec_start_exists hp hr
    exact ⟨log, _, mem, dev, hx⟩

end Core

end CameraCore
