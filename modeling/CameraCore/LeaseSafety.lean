import CameraCore.FrameOwnership

/-!
# Leases and the kernel queue

The refinements compose: the system projects to its core, and the core of a driver
that keeps the queue refines the pool of buffers. What the pool cannot express, a
buffer queued and leased at once or leased twice, happens in no reachable state.
With a driver that keeps the protocol the queue is never marked broken, and a
stopped camera restarts exactly when every lease is gone.
-/

namespace CameraCore

open DeviceProgram LabelledSystem

variable {t : CaptureType}

namespace Core

variable {bufs : List (BufferMemory t)} {c : Core t KernelQueue} {D : Device linux KernelQueue}

theorem consistent_reachable (hD : D ≤ faultyDriver bufs.length)
    (h : (captureCore D ∅ bufs).Reachable c) : ∃ p, c.Consistent bufs p := by
  have hfaulty : (captureCore (faultyDriver bufs.length) ∅ bufs).Reachable c :=
    h.mono (fun _ hc => hc) (fun _ _ _ hs => Core.Step.mono hD hs)
  obtain ⟨p, _, hp⟩ := (refines_pool bufs).reachable hfaulty
  exact ⟨p, hp⟩

theorem conforming_reachable (h : (captureCore (conformed bufs.length) ∅ bufs).Reachable c) :
    c.Conforming := by
  apply h.induction (P := Core.Conforming)
  · intro c hc
    obtain rfl := hc
    exact ⟨rfl, fun _ => rfl⟩
  · intro c l c' hr hc hs
    obtain ⟨p, hp⟩ := consistent_reachable conformed_le_faultyDriver hr
    exact conforming_step hc hp hs

end Core

namespace System

variable {bufs : List (BufferMemory t)} {camera : V4L2Camera t} {s : System t KernelQueue}
  {D : Device linux KernelQueue}

theorem core_reachable {σ : Type} {D : Device linux σ} {d₀ : σ} {s : System t σ}
    (h : (captureSystem D d₀ camera bufs).Reachable s) :
    (captureCore D d₀ bufs).Reachable s.core := by
  obtain ⟨c, hc, rfl, _⟩ := (refines_core D d₀ camera bufs).reachable h
  exact hc

theorem consistent_reachable (hD : D ≤ faultyDriver bufs.length)
    (h : (captureSystem D ∅ camera bufs).Reachable s) : ∃ p, s.core.Consistent bufs p :=
  Core.consistent_reachable hD (core_reachable h)

end System

theorem queueDriver_retry_le (n : ℕ) : retryIoctl queueDriver ≤ faultyDriver n :=
  le_trans retryIoctl_queueAnswers_le (queueDriver_le_faultyDriver n)

theorem faultyDriver_retry_le (n : ℕ) : retryIoctl (faultyDriver n) ≤ faultyDriver n :=
  retryIoctl_queueAnswers_le

theorem conformed_le_retry (n : ℕ) : conformed n ≤ retryIoctl queueDriver :=
  Retried.mono (queueAnswers_mono (fun _ h => h) (fun _ _ _ _ => trivial))

section Sample

def sampleBuffers : List (BufferMemory .videoCapture) :=
  [⟨[⟨4096, 4096⟩], rfl⟩, ⟨[⟨8192, 4096⟩], rfl⟩]

def sampleCamera : V4L2Camera .videoCapture where
  config := { captureMode := .singlePlane, pixelFormat := .grey, bufferCount := 2 }
  capabilities := { streaming := true, singlePlane := true }
  strides := [640]
  selectedFourcc := 0x59455247
  strideCount := rfl

abbrev sampleSystem : LabelledSystem (System .videoCapture KernelQueue) Label :=
  captureSystem (conformed 2) ∅ sampleCamera sampleBuffers

def samplePayload : V4L2Buffer := { index := 0, bytesused := 1000 }

def sampleStarted : System .videoCapture KernelQueue where
  core := { mem := { buffers := sampleBuffers, streaming := true }, dev := {0, 1} }

def sampleLeased : System .videoCapture KernelQueue where
  core :=
    { mem := { buffers := sampleBuffers, outstanding := 1, streaming := true }
      dev := {1}
      leases := {⟨0, 0⟩}
      nextId := 1 }
  stateUses := 2
  reads := Function.update (fun _ => .idle) 0 (.holding ⟨0, 0⟩ samplePayload)

theorem sampleStarted_step : ∃ log, System.Step (conformed 2) sampleCamera
    { core := { mem := { buffers := sampleBuffers }, dev := ∅ } } (.start log (.ok ()))
    sampleStarted := by
  have hr : ¬ ({ buffers := sampleBuffers } : V4L2State .videoCapture).Refuses := by
    simp [V4L2State.Refuses]
  have hdev : (∅ : KernelQueue) ∪ (List.range 2).toFinset = {0, 1} := by decide
  obtain ⟨log, hq⟩ := V4L2State.exec_queueEach_conformed (n := 2) (q := ∅)
    (s := ({ buffers := sampleBuffers } : V4L2State .videoCapture)) rfl List.nodup_range
    (fun i hi => List.mem_range.mp hi) (by simp)
  rw [hdev] at hq
  exact ⟨_, .start rfl (V4L2State.exec_start_ok hr hq conformed_streamon_ok)⟩

theorem sampleStarted_reachable : sampleSystem.Reachable sampleStarted := by
  obtain ⟨log, hs⟩ := sampleStarted_step
  exact (Reachable.init rfl).step hs

theorem samplePolled (q : KernelQueue) :
    Exec (conformed 2) (V4L2State.awaitFrame .videoCapture 100 1) q [⟨.poll 100, ⟨0, .ok 1⟩⟩]
      (.ok ()) q := by
  have hpoll : conformed 2 q (.poll 100) ⟨0, .ok 1⟩ q := retryIoctl_queueAnswers.mpr ⟨rfl, id⟩
  exact exec_request_bind.mpr ⟨⟨0, .ok 1⟩, q, [], hpoll, ⟨rfl, rfl, rfl⟩, rfl⟩

theorem sampleDequeued : Exec (conformed 2) sampleStarted.core.mem.dequeue {0, 1}
    [⟨.ioctl (.dqbuf .videoCapture), .ok samplePayload⟩, ⟨.allocate, true⟩]
    (.ok samplePayload, sampleLeased.core.mem) {1} := by
  have hdq : conformed 2 {0, 1} (.ioctl (.dqbuf .videoCapture)) (.ok samplePayload) {1} :=
    retryIoctl_queueAnswers.mpr ⟨Or.inl ⟨by decide, by decide⟩, id⟩
  have ha : conformed 2 {1} .allocate true {1} := retryIoctl_queueAnswers.mpr ⟨rfl, id⟩
  exact V4L2State.exec_dequeue_ok rfl hdq (by decide) ha

theorem sampleLeased_reachable : sampleSystem.Reachable sampleLeased := by
  have hs : System.Step (conformed 2) sampleCamera sampleStarted (.enter 0 100 (.ok ()))
      (sampleStarted.setRead 0 (.polling 100)) := .enter rfl rfl
  have h₁ := sampleStarted_reachable.step hs
  have h₂ := h₁.step (.await (by decide) (Function.update_self _ _ _) (samplePolled _))
  have h₃ := h₂.step (.leased (by decide) (Function.update_self _ _ _) sampleDequeued)
  convert h₃ using 1
  simp only [sampleLeased, sampleStarted, System.setRead, System.withMem, Core.withLease,
    Function.update_idem, insert_empty_eq]
  rfl

def sampleFrame : V4L2Frame :=
  sampleCamera.frame [singlePlane ⟨4096, 4096⟩ 640 samplePayload] samplePayload ⟨0, 0⟩

def sampleFramed : System .videoCapture KernelQueue :=
  { sampleLeased.setRead 0 .idle with
    impls := Function.update sampleLeased.impls 0 (some sampleFrame)
    implUses := Function.update sampleLeased.implUses 0 1
    frames := {0} }

theorem sampleFramed_step : System.Step (conformed 2) sampleCamera sampleLeased
    (.returnFrame 0 [⟨.allocate, true⟩, ⟨.allocate, true⟩] sampleFrame) sampleFramed := by
  have ha : conformed 2 {1} .allocate true {1} := retryIoctl_queueAnswers.mpr ⟨rfl, id⟩
  exact .returnFrame rfl rfl (V4L2Camera.exec_buildFrame_ok rfl ha ha)

theorem sampleFramed_reachable : sampleSystem.Reachable sampleFramed :=
  sampleLeased_reachable.step sampleFramed_step

/-- The stream is off again while the frame is still there. -/
def sampleStopped : System .videoCapture KernelQueue :=
  sampleFramed.withMem { buffers := sampleBuffers, outstanding := 1 } ∅

theorem sampleStopped_step : System.Step (conformed 2) sampleCamera sampleFramed
    (.stop [⟨.ioctl (.streamoff .videoCapture), .ok ()⟩]) sampleStopped := by
  have hoff : conformed 2 {1} (.ioctl (.streamoff .videoCapture)) (.ok ()) ∅ :=
    retryIoctl_queueAnswers.mpr ⟨rfl, id⟩
  exact .stop rfl (exec_request_bind.mpr ⟨_, ∅, [], hoff, ⟨rfl, rfl, rfl⟩, rfl⟩)

theorem sampleStopped_reachable : sampleSystem.Reachable sampleStopped :=
  sampleFramed_reachable.step sampleStopped_step

theorem sampleStopped_release : ∃ s, System.Step (conformed 2) sampleCamera sampleStopped
    (.dropFrame 0 [] (some ⟨0, 0⟩)) s ∧ s.cameraAlive = true ∧ s.core.mem.running = false ∧
      s.core.leases = ∅ := by
  have hrelease : Exec (conformed 2) (sampleStopped.core.mem.release 0) ∅ []
      { buffers := sampleBuffers } ∅ := ⟨rfl, rfl, rfl⟩
  have hframe : sampleStopped.impls 0 = some sampleFrame := rfl
  have hshared : sampleStopped.stateUses - 1 ≠ 0 := by decide
  have hstep : System.Step (conformed 2) sampleCamera sampleStopped
      (.dropFrame 0 ([] ++ []) (some sampleFrame.lease)) _ :=
    .dropLast (by decide) (by decide) hframe (.intro hrelease (.shared hshared))
  exact ⟨_, hstep, rfl, rfl, by decide⟩

end Sample

variable {bufs : List (BufferMemory t)} {camera : V4L2Camera t} {s : System t KernelQueue}

/-- A buffer some lease holds is not in the kernel queue, and no other lease holds it. -/
theorem leased_not_queued
    (h : (captureSystem (retryIoctl queueDriver) ∅ camera bufs).Reachable s) :
    (∀ l ∈ s.core.leases, l.index ∉ s.core.dev) ∧
      ∀ l ∈ s.core.leases, ∀ m ∈ s.core.leases, l.index = m.index → l = m := by
  obtain ⟨p, hp⟩ := System.consistent_reachable (queueDriver_retry_le _) h
  refine ⟨fun l hl => hp.represents.notMem_queue hl, ?_⟩
  intro l hl m hm he
  exact hp.represents.injOn hl hm he

theorem leased_not_queued_sample :
    (∀ l ∈ sampleLeased.core.leases, l.index ∉ sampleLeased.core.dev) ∧
      ∀ l ∈ sampleLeased.core.leases, ∀ m ∈ sampleLeased.core.leases,
        l.index = m.index → l = m :=
  leased_not_queued (captureSystem_mono (conformed_le_retry 2) sampleLeased_reachable)

/-- The counter is the number of live leases, a release finds it above zero, and
while the stream is on with the queue intact every buffer is in exactly one place. -/
theorem buffers_conserved
    (h : (captureSystem (retryIoctl (faultyDriver bufs.length)) ∅ camera bufs).Reachable s) :
    s.core.mem.outstanding = s.core.leases.card ∧
      (∀ l s' lease, System.Step (retryIoctl (faultyDriver bufs.length)) camera s l s' →
        l.released = some lease → lease ∈ s.core.leases ∧ 0 < s.core.mem.outstanding) ∧
      (s.core.mem.streaming = true → s.core.mem.broken = false → ∀ i < bufs.length,
        (i ∈ s.core.dev ∧ ∀ l ∈ s.core.leases, l.index ≠ i) ∨
          (i ∉ s.core.dev ∧ ∃! l, l ∈ s.core.leases ∧ l.index = i)) := by
  obtain ⟨p, hp⟩ := System.consistent_reachable (faultyDriver_retry_le _) h
  have howned := System.owned_reachable h
  refine ⟨hp.counted.outstanding, ?_, ?_⟩
  · intro l s' lease hs hl
    have hlive := howned.released_mem hs hl
    exact ⟨hlive, hp.counted.outstanding_pos hlive⟩
  · intro hst hb i hi
    exact hp.represents.exactly_one (hp.covered hst hb i hi)

theorem buffers_conserved_sample :
    sampleLeased.core.mem.outstanding = sampleLeased.core.leases.card ∧
      ((1 ∈ sampleLeased.core.dev ∧ ∀ l ∈ sampleLeased.core.leases, l.index ≠ 1) ∨
        (1 ∉ sampleLeased.core.dev ∧ ∃! l, l ∈ sampleLeased.core.leases ∧ l.index = 1)) := by
  have hD : conformed 2 ≤ retryIoctl (faultyDriver 2) :=
    Retried.mono (conformingDriver_le_faultyDriver 2)
  have hreach : (captureSystem (retryIoctl (faultyDriver sampleBuffers.length)) ∅ sampleCamera
      sampleBuffers).Reachable sampleLeased := captureSystem_mono hD sampleLeased_reachable
  obtain ⟨hcount, _, hplace⟩ := buffers_conserved hreach
  exact ⟨hcount, hplace rfl rfl 1 (by decide)⟩

/-- The library does not break the queue of a driver that keeps the protocol, and a
camera that is not running starts exactly when no lease is live. -/
theorem conforming_restart
    (h : (captureSystem (conformed bufs.length) ∅ camera bufs).Reachable s) :
    s.core.mem.broken = false ∧
      (s.cameraAlive = true → s.core.mem.running = false →
        (∃ log r s', System.Step (conformed bufs.length) camera s (.start log r) s') ∧
        ∀ log r s', System.Step (conformed bufs.length) camera s (.start log r) s' →
          (r = .ok () ↔ s.core.leases = ∅) ∧
          (r = .ok () → s'.core.dev = Finset.range bufs.length ∧
            s'.core.mem.running = true)) := by
  obtain ⟨p, hp⟩ := System.consistent_reachable conformed_le_faultyDriver h
  have hc := Core.conforming_reachable (System.core_reachable h)
  refine ⟨hc.notBroken, ?_⟩
  intro alive hoff
  have hoff : s.core.mem.streaming = false := hoff
  constructor
  · obtain ⟨log, r, mem, dev, hx⟩ := hc.start_returns hp
    exact ⟨log, r, _, .start alive hx⟩
  · intro log r s' hs
    cases hs with
    | start _ hx =>
        by_cases hl : s.core.leases = ∅
        · have hr : ¬ s.core.mem.Refuses := by
            have ho := hp.counted.outstanding
            rw [hl] at ho
            simp [V4L2State.Refuses, hoff, hc.notBroken, ho]
          obtain ⟨rfl, rfl, rfl⟩ := hc.start_succeeds hp hr hx
          exact ⟨by simp [hl], fun _ => ⟨rfl, rfl⟩⟩
        · have hr : s.core.mem.Refuses := by
            refine Or.inr (Or.inr fun ho => hl ?_)
            exact hp.counted.leases_empty ho
          obtain ⟨text, he⟩ := V4L2State.start_of_refuses hr
          rw [he] at hx
          obtain ⟨_, hres, _⟩ := exec_pure.mp hx
          cases hres
          exact ⟨by simp [hl], by simp⟩

/-- The stopped camera is refused while the lease of the frame is live, and starts with every
buffer queued after its release. -/
theorem conforming_restart_sample :
    (∃ log r s', System.Step (conformed 2) sampleCamera sampleStopped (.start log r) s' ∧
      r ≠ .ok ()) ∧
    ∃ s, System.Step (conformed 2) sampleCamera sampleStopped
        (.dropFrame 0 [] (some ⟨0, 0⟩)) s ∧
      ∃ log s', System.Step (conformed 2) sampleCamera s (.start log (.ok ())) s' ∧
        s'.core.dev = Finset.range 2 := by
  obtain ⟨s, hrelease, halive, hoff, hleases⟩ := sampleStopped_release
  have hreach : (captureSystem (conformed sampleBuffers.length) ∅ sampleCamera
      sampleBuffers).Reachable sampleStopped := sampleStopped_reachable
  constructor
  · obtain ⟨_, hstart⟩ := conforming_restart hreach
    obtain ⟨⟨log, r, s', hs⟩, hall⟩ := hstart rfl rfl
    refine ⟨log, r, s', hs, fun hr => ?_⟩
    have hnone : sampleStopped.core.leases = ∅ := (hall log r s' hs).1.mp hr
    exact Finset.singleton_ne_empty _ hnone
  · obtain ⟨_, hstart⟩ := conforming_restart (hreach.step hrelease)
    obtain ⟨⟨log, r, s', hs⟩, hall⟩ := hstart halive hoff
    obtain ⟨hiff, hok⟩ := hall log r s' hs
    obtain rfl := hiff.mpr hleases
    exact ⟨s, hrelease, log, s', hs, (hok rfl).1⟩

end CameraCore
