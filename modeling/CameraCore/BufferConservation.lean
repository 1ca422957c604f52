import CameraCore.QueueProtocol

/-!
# The core refines the pool of buffers

With a driver that keeps the queue, however many of its calls fail, every section
moves buffers between their places by transitions of the pool. The invariant
`Consistent` ties the core to a state of the pool and says which buffers cannot be
idle: all of them, while the stream is on and the queue is not broken.
-/

namespace CameraCore

open DeviceProgram ResourcePool

variable {t : CaptureType}

namespace V4L2State

variable {n : ℕ} {s : V4L2State t} {q q' : KernelQueue} {log : Log}

theorem queueLocked_faulty {index : ℕ} {x : Except Errno Unit}
    (h : Exec (faultyDriver n) (s.queueLocked index) q log x q') :
    (x = .ok () ∧ index < s.buffers.length ∧ index ∉ q ∧ q' = insert index q) ∨
      (∃ error, x = .error error) ∧ q' = q := by
  rcases exec_queueLocked.mp h with ⟨_, rfl, _, rfl⟩ | ⟨hi, hD, _⟩
  · exact Or.inr ⟨⟨_, rfl⟩, rfl⟩
  · cases x with
    | error error => exact Or.inr ⟨⟨error, rfl⟩, hD.2⟩
    | ok u =>
        obtain ⟨hq, rfl⟩ := hD
        exact Or.inl ⟨rfl, hi, hq, rfl⟩

variable {κ : Type} {holders : Finset κ} {holds : κ → ℕ} {p : ℕ → Place}

theorem queueEach_offers {is : List ℕ} {x : Except Errno Unit}
    (hp : Represents q holders holds p) (hfree : ∀ l ∈ holders, holds l ∉ is)
    (h : Exec (faultyDriver n) (s.queueEach is) q log x q') :
    ∃ as p', (pool ℕ).Run p as p' ∧ Represents q' holders holds p' ∧
      (∀ i ∈ q', i ∈ q ∨ i < s.buffers.length) ∧ (∀ i, p i ≠ .idle → p' i ≠ .idle) ∧
      (x = .ok () → ∀ i ∈ is, p' i ≠ .idle) := by
  induction is generalizing q p log with
  | nil =>
      obtain ⟨_, rfl, rfl⟩ := exec_pure.mp h
      exact ⟨[], p, rfl, hp, fun i hi => Or.inl hi, fun i hi => hi, by simp⟩
  | cons index rest ih =>
      obtain ⟨y, q₁, log₁, log₂, hq, hrest, rfl⟩ := exec_bind.mp h
      rcases queueLocked_faulty hq with ⟨rfl, hi, hnq, rfl⟩ | ⟨⟨error, rfl⟩, rfl⟩
      · have hnone : ∀ l ∈ holders, holds l ≠ index := by
          rintro l hl rfl
          exact hfree l hl List.mem_cons_self
        have hidle : p index = .idle := hp.idle_of hnq hnone
        obtain ⟨as, p', hrun, hp', hin, hkeep, hall⟩ :=
          ih (hp.offer hidle) (fun l hl hm => hfree l hl (List.mem_cons_of_mem _ hm)) hrest
        have hkeep' : ∀ i, p i ≠ .idle → p' i ≠ .idle := by
          intro i hpi
          apply hkeep
          by_cases he : i = index
          · simp [he]
          · rwa [Function.update_of_ne he]
        refine ⟨.offer index :: as, p', ⟨_, ⟨hidle, rfl⟩, hrun⟩, hp', ?_, hkeep', ?_⟩
        · intro i hi'
          rcases hin i hi' with hm | hlt
          · rcases Finset.mem_insert.mp hm with rfl | hm
            · exact Or.inr hi
            · exact Or.inl hm
          · exact Or.inr hlt
        · intro hx i hm
          rcases List.mem_cons.mp hm with rfl | hm
          · apply hkeep
            simp
          · exact hall hx i hm
      · obtain ⟨_, rfl, rfl⟩ := exec_pure.mp hrest
        exact ⟨[], p, rfl, hp, fun i hi => Or.inl hi, fun i hi => hi, by simp⟩

end V4L2State

namespace Core

/-- The core and a state of the pool that agree, for `n` buffers. -/
structure Consistent (bufs : List (BufferMemory t)) (c : Core t KernelQueue) (p : ℕ → Place) :
    Prop where
  counted : c.Counted bufs
  represents : Represents c.dev c.leases Lease.index p
  queueInRange : ∀ i ∈ c.dev, i < bufs.length
  covered : c.mem.streaming = true → c.mem.broken = false → ∀ i < bufs.length, p i ≠ .idle

variable {bufs : List (BufferMemory t)} {c c' : Core t KernelQueue} {p : ℕ → Place} {l : Section}

theorem consistent_init :
    Consistent bufs (⟨{ buffers := bufs }, ∅, ∅, 0⟩ : Core t KernelQueue) (fun _ => .idle) where
  counted := counted_init
  represents := .empty _
  queueInRange := by simp
  covered := by simp

section Steps

open V4L2State

theorem consistent_start {log : Log} {r : Except Exception Unit} {mem : V4L2State t}
    {dev : KernelQueue} (h : c.Consistent bufs p)
    (hs : StartEnds (faultyDriver bufs.length) c.mem c.dev log r mem dev)
    (hc : Core.Counted bufs { c with mem := mem, dev := dev }) :
    ∃ as p', (pool ℕ).Run p as p' ∧ Consistent bufs { c with mem := mem, dev := dev } p' := by
  cases hs with
  | refused text hr => exact ⟨[], p, rfl, h⟩
  | queueFailed hr hq =>
      have hnone := h.counted.leases_empty (not_not.mp fun ho => hr (Or.inr (Or.inr ho)))
      obtain ⟨as, p', hrun, hp', hin, _, _⟩ := queueEach_offers h.represents (by simp [hnone]) hq
      rw [h.counted.buffers] at hin
      exact ⟨as, p', hrun, hc, hp', fun i hi => (hin i hi).elim (h.queueInRange i) id, by simp⟩
  | streamonFailed hr hq hon =>
      have hnone := h.counted.leases_empty (not_not.mp fun ho => hr (Or.inr (Or.inr ho)))
      obtain ⟨as, p', hrun, hp', hin, _, _⟩ := queueEach_offers h.represents (by simp [hnone]) hq
      rw [h.counted.buffers] at hin
      obtain ⟨_, rfl⟩ := hon
      exact ⟨as, p', hrun, hc, hp', fun i hi => (hin i hi).elim (h.queueInRange i) id, by simp⟩
  | started hr hq hon =>
      have hnone := h.counted.leases_empty (not_not.mp fun ho => hr (Or.inr (Or.inr ho)))
      obtain ⟨as, p', hrun, hp', hin, _, hall⟩ := queueEach_offers h.represents (by simp [hnone]) hq
      rw [h.counted.buffers] at hin hall
      obtain rfl := hon
      refine ⟨as, p', hrun, hc, hp', fun i hi => (hin i hi).elim (h.queueInRange i) id, ?_⟩
      intro _ _ i hi
      exact hall rfl i (List.mem_range.mpr hi)

theorem consistent_leased {log : Log} {buffer : V4L2Buffer} {mem : V4L2State t}
    {dev : KernelQueue} (h : c.Consistent bufs p)
    (hs : DequeueEnds (faultyDriver bufs.length) c.mem c.dev log (.ok buffer) mem dev)
    (hc : Core.Counted bufs ({ c with mem := mem, dev := dev }.withLease buffer.index)) :
    ∃ as p', (pool ℕ).Run p as p' ∧
      Consistent bufs ({ c with mem := mem, dev := dev }.withLease buffer.index) p' := by
  cases hs with
  | leased hs hdq hi ha =>
      obtain rfl := ha
      rw [h.counted.buffers] at hi
      rcases hdq with ⟨hq, rfl⟩ | ⟨hout, _⟩
      · have hplace := (h.represents.queued_iff buffer.index).mpr hq
        refine ⟨[.take buffer.index], _, LabelledSystem.run_singleton.mpr ⟨hplace, rfl⟩, hc,
          h.represents.take (l := ⟨c.nextId, buffer.index⟩) hq,
          fun i hm => h.queueInRange i (Finset.mem_of_mem_erase hm), ?_⟩
        intro hst hb i hlt
        by_cases he : i = buffer.index
        · simp [he]
        · rw [Function.update_of_ne he]
          exact h.covered hst hb i hlt
      · have hout : bufs.length ≤ buffer.index := hout
        omega

theorem consistent_rollback {index : ℕ} {log : Log} {x : Except Errno Unit} {dev : KernelQueue}
    (h : c.Consistent bufs p) (hq : index ∈ c.dev)
    (hx : Exec (faultyDriver bufs.length) (c.mem.queueLocked index) (c.dev.erase index) log x dev)
    (hc : Core.Counted bufs { c with mem := c.mem.afterQueue x, dev := dev }) :
    ∃ as p', (pool ℕ).Run p as p' ∧
      Consistent bufs { c with mem := c.mem.afterQueue x, dev := dev } p' := by
  have hsub : c.dev.erase index ⊆ c.dev := Finset.erase_subset _ _
  have hw := h.represents.withdraw hsub
  have hrange : ∀ i ∈ c.dev.erase index, i < bufs.length := fun i hi => h.queueInRange i (hsub hi)
  rcases queueLocked_faulty hx with ⟨rfl, _, _, rfl⟩ | ⟨⟨error, rfl⟩, rfl⟩
  · have hidle : restrict p (c.dev.erase index) index = .idle := by
      simp [restrict, (h.represents.queued_iff index).mpr hq]
    refine ⟨[.withdraw (c.dev.erase index), .offer index], _, ⟨_, rfl, _, ⟨hidle, rfl⟩, rfl⟩, hc,
      hw.offer hidle, ?_, ?_⟩
    · intro i hi
      rw [Finset.insert_erase hq] at hi
      exact h.queueInRange i hi
    · intro hst hb i hlt
      by_cases he : i = index
      · simp [he]
      · rw [Function.update_of_ne he]
        have hcov := h.covered hst hb i hlt
        have hiff := h.represents.queued_iff i
        cases hpi : p i with
        | idle => exact absurd hpi hcov
        | held => simp [restrict, hpi]
        | queued => simp [restrict, hpi, hiff.mp hpi, he]
  · exact ⟨[.withdraw (c.dev.erase index)], _, LabelledSystem.run_singleton.mpr rfl, hc, hw, hrange,
      by simp [afterQueue]⟩

theorem consistent_dequeueFailed {log : Log} {e : Exception} {mem : V4L2State t}
    {dev : KernelQueue} (h : c.Consistent bufs p)
    (hs : DequeueEnds (faultyDriver bufs.length) c.mem c.dev log (.error e) mem dev)
    (hc : Core.Counted bufs { c with mem := mem, dev := dev }) :
    ∃ as p', (pool ℕ).Run p as p' ∧ Consistent bufs { c with mem := mem, dev := dev } p' := by
  cases hs with
  | notStreaming hs => exact ⟨[], p, rfl, h⟩
  | failed _ _ _ hdq =>
      obtain ⟨_, rfl⟩ := hdq
      exact ⟨[], p, rfl, h⟩
  | outOfRange hs hdq hi =>
      rw [h.counted.buffers] at hi
      rcases hdq with ⟨hq, rfl⟩ | ⟨_, hsub⟩
      · have hlt := h.queueInRange _ hq
        omega
      · exact ⟨[.withdraw dev], _, LabelledSystem.run_singleton.mpr rfl, hc,
          h.represents.withdraw hsub, fun i hm => h.queueInRange i (hsub hm), by simp⟩
  | rolledBack hs hdq hi ha hx =>
      obtain rfl := ha
      rw [h.counted.buffers] at hi
      rcases hdq with ⟨hq, rfl⟩ | ⟨hout, _⟩
      · exact consistent_rollback h hq hx hc
      · have hout : bufs.length ≤ _ := hout
        omega

theorem consistent_release {lease : Lease} {log : Log} {mem : V4L2State t} {dev : KernelQueue}
    (h : c.Consistent bufs p) (hl : lease ∈ c.leases)
    (hs : Exec (faultyDriver bufs.length) (c.mem.release lease.index) c.dev log mem dev)
    (hc : Core.Counted bufs { c with mem := mem, dev := dev, leases := c.leases.erase lease }) :
    ∃ as p', (pool ℕ).Run p as p' ∧
      Consistent bufs { c with mem := mem, dev := dev, leases := c.leases.erase lease } p' := by
  have hheld := h.represents.held_of_mem hl
  rcases exec_release.mp hs with ⟨hst, x, hx, rfl⟩ | ⟨hst, _, rfl, rfl⟩
  · rcases queueLocked_faulty hx with ⟨rfl, _, _, rfl⟩ | ⟨⟨error, rfl⟩, rfl⟩
    · refine ⟨[.requeue lease.index], _, LabelledSystem.run_singleton.mpr ⟨hheld, rfl⟩, hc,
        h.represents.requeue hl, ?_, ?_⟩
      · intro i hm
        rcases Finset.mem_insert.mp hm with rfl | hm
        · exact h.counted.inRange lease hl
        · exact h.queueInRange i hm
      · intro _ hb i hlt
        by_cases he : i = lease.index
        · simp [he]
        · rw [Function.update_of_ne he]
          exact h.covered hst hb i hlt
    · exact ⟨[.drop lease.index], _, LabelledSystem.run_singleton.mpr ⟨hheld, rfl⟩, hc,
        h.represents.drop hl, h.queueInRange, by simp [afterQueue]⟩
  · exact ⟨[.drop lease.index], _, LabelledSystem.run_singleton.mpr ⟨hheld, rfl⟩, hc,
      h.represents.drop hl, h.queueInRange, by simp [uncount, hst]⟩

theorem consistent_stop {log : Log} {mem : V4L2State t} {dev : KernelQueue}
    (h : c.Consistent bufs p)
    (hs : Exec (faultyDriver bufs.length) c.mem.stopCapture c.dev log mem dev)
    (hc : Core.Counted bufs { c with mem := mem, dev := dev }) :
    ∃ as p', (pool ℕ).Run p as p' ∧ Consistent bufs { c with mem := mem, dev := dev } p' := by
  rcases exec_stopCapture.mp hs with ⟨_, _, rfl, rfl⟩ | ⟨_, x, hoff, _, rfl⟩
  · exact ⟨[], p, rfl, h⟩
  · cases x with
    | error error =>
        obtain ⟨_, rfl⟩ := hoff
        exact ⟨[], p, rfl, hc, h.represents, h.queueInRange, by simp⟩
    | ok u =>
        obtain rfl := hoff
        exact ⟨[.withdraw ∅], _, LabelledSystem.run_singleton.mpr rfl, hc,
          h.represents.withdraw (Finset.empty_subset _), by simp, by simp⟩

end Steps

theorem outside_faulty {n : ℕ} {q q' : KernelQueue} {log : Log} {α : Type} {prog : Syscalls α}
    {a : α} (h : Exec (faultyDriver n) prog q log a q') (hlog : ∀ e ∈ log, e.1.Outside) :
    q' = q := by
  refine (h.preserves (R := fun q q' => q' = q) (fun _ => rfl) ?_ ?_)
  · rintro _ _ _ rfl rfl
    rfl
  · intro q r x q' hD hm
    have hr := hlog _ hm
    cases r with
    | poll => exact hD
    | allocate => exact hD
    | _ => exact hr.elim

theorem consistent_step (h : c.Consistent bufs p)
    (hc : Core.Step (faultyDriver bufs.length) c l c') :
    ∃ as p', (pool ℕ).Run p as p' ∧ c'.Consistent bufs p' := by
  have hcount := counted_step h.counted hc
  cases hc with
  | start hs => exact consistent_start h (V4L2State.exec_start hs) hcount
  | leased hs => exact consistent_leased h (V4L2State.exec_dequeue hs) hcount
  | dequeueFailed hs => exact consistent_dequeueFailed h (V4L2State.exec_dequeue hs) hcount
  | release hl hs => exact consistent_release h hl hs hcount
  | stop hs => exact consistent_stop h hs hcount
  | outside hs hlog =>
      obtain rfl := outside_faulty hs hlog
      exact ⟨[], p, rfl, h⟩

/-- The core refines the pool. -/
theorem refines_pool (bufs : List (BufferMemory t)) :
    LabelledSystem.Simulation (captureCore (faultyDriver bufs.length) ∅ bufs) (pool ℕ)
      (Consistent bufs) where
  init := by
    rintro c rfl
    exact ⟨fun _ => .idle, fun _ => rfl, consistent_init⟩
  step := by
    intro c l c' p h hc
    exact consistent_step h hc

end Core

end CameraCore
