import Mathlib.Algebra.Order.BigOperators.Group.List
import CameraCore.SingleThread

/-!
# The time a read spends waiting

`read` hands its timeout to `poll` and calls `poll` again when a signal interrupts it. The
second call is given the whole timeout again, so the wait is bounded by the timeout exactly
for reads that are not interrupted, and by one timeout for each call otherwise.
-/

namespace CameraCore

open DeviceProgram LabelledSystem

def polled : Event linux → Option (ℕ × PollAnswer)
  | ⟨.poll timeout, answer⟩ => some (timeout, answer)
  | _ => none

def polls (log : Log) : List (ℕ × PollAnswer) := log.filterMap polled

def stepPolls (ls : List Label) : List (ℕ × PollAnswer) := polls (ls.flatMap Label.log)

/-- The milliseconds spent in `poll`. -/
def timeInPoll (ls : List Label) : ℚ := ((stepPolls ls).map fun call => call.2.waited).sum

/-- No call of `poll` sleeps longer than its timeout. -/
def WaitsWithin (ls : List Label) : Prop :=
  ∀ call ∈ stepPolls ls, 0 ≤ call.2.waited ∧ call.2.waited ≤ call.1

/-- The calls are interrupted `n` times and then end with `final`. -/
def Interrupted (n : ℕ) (final : Except Errno ℕ) (ls : List Label) : Prop :=
  (stepPolls ls).map (fun call => call.2.result) = List.replicate n (.error Errno.eintr) ++ [final]

theorem polls_append (log log' : Log) : polls (log ++ log') = polls log ++ polls log' :=
  List.filterMap_append

def Request.PollsNothing : Request → Prop
  | .poll _ => False
  | _ => True

theorem polls_of_pollsNothing {log : Log} (h : ∀ e ∈ log, e.1.PollsNothing) : polls log = [] := by
  refine filterMap_eq_nil_of_issued ?_ h
  intro r x hr
  cases r with
  | poll timeout => exact hr.elim
  | _ => rfl

section Calls

variable {t : CaptureType} {σ : Type} {D : Device linux σ} {camera : V4L2Camera t}
  {s s' : System t σ} {d d' : σ} {log : Log} {mem mem' : V4L2State t}

/-- Every call gets the whole timeout; there is no other in the loop. -/
theorem awaitFrame_polls {timeout fuel : ℕ} {r : Except Exception Unit}
    (h : Exec D (V4L2State.awaitFrame t timeout fuel) d log r d') :
    ∀ call ∈ polls log, call.1 = timeout := by
  have hlog := h.issues
    (issues_awaitFrame (P := fun r => ∀ other, r = .poll other → other = timeout) t
      (by simp) (by simp) fuel)
  intro call hm
  obtain ⟨e, he, hcall⟩ := List.mem_filterMap.mp hm
  obtain ⟨r, x⟩ := e
  cases r with
  | poll other =>
      cases hcall
      exact hlog _ he other rfl
  | _ => cases hcall

theorem queueLocked_polls {index : ℕ} {x : Except Errno Unit}
    (h : Exec D (mem.queueLocked index) d log x d') : polls log = [] := by
  rcases V4L2State.exec_queueLocked.mp h with ⟨_, _, rfl, _⟩ | ⟨_, _, rfl⟩ <;> rfl

theorem dequeue_polls {r : Except Exception V4L2Buffer}
    (h : Exec D mem.dequeue d log (r, mem') d') : polls log = [] := by
  cases V4L2State.exec_dequeue h with
  | rolledBack _ _ _ _ hq =>
      have hlog := queueLocked_polls hq
      exact hlog
  | _ => rfl

theorem release_polls {index : ℕ} (h : Exec D (mem.release index) d log mem' d') :
    polls log = [] := by
  rcases V4L2State.exec_release.mp h with ⟨_, _, hq, _⟩ | ⟨_, rfl, _⟩
  · exact queueLocked_polls hq
  · rfl

theorem System.DropState.polls_eq (h : System.DropState D s log s') : polls log = [] := by
  cases h with
  | shared => rfl
  | last _ hd =>
      rw [V4L2State.destroy_eq_stopCapture] at hd
      rcases V4L2State.exec_stopCapture.mp hd with ⟨_, rfl, _⟩ | ⟨_, _, _, rfl, _⟩ <;> rfl

theorem System.DropLease.polls_eq {lease : Lease} (h : System.DropLease D s lease log s') :
    polls log = [] := by
  cases h with
  | intro hrelease hd => rw [polls_append, release_polls hrelease, hd.polls_eq, List.append_nil]

theorem buildFrame_polls {lease : Type} {memory : BufferMemory t} {buffer : V4L2Buffer}
    {held : lease} {r : Except Exception (FrameImpl ℕ lease)}
    (h : Exec D (camera.buildFrame memory buffer held) d log r d') : polls log = [] :=
  polls_of_pollsNothing (h.issues (issues_buildFrame trivial _ _ _ _))

theorem step_polls {l : Label} (hs : System.Step D camera s l s')
    (hl : ∀ reader log r, l ≠ .await reader log r) (hstart : l.reader ≠ none) :
    polls l.log = [] := by
  cases hs with
  | enter => rfl
  | await => exact absurd rfl (hl _ _ _)
  | leased _ _ hx => exact dequeue_polls hx
  | dequeueFailed _ _ hx => exact dequeue_polls hx
  | returnFrame _ _ hx => exact buildFrame_polls hx
  | unwind _ _ hx hd =>
      change polls (_ ++ _) = []
      rw [polls_append, buildFrame_polls hx, hd.polls_eq, List.append_nil]
  | _ => exact absurd rfl hstart

theorem stepPolls_cons (l : Label) (ls : List Label) :
    stepPolls (l :: ls) = polls l.log ++ stepPolls ls := by
  unfold stepPolls
  rw [List.flatMap_cons, polls_append]

theorem step_enter {timeoutMs : UInt32} {x : Except Exception Unit}
    (hs : System.Step D camera s (.enter 0 timeoutMs x) s') :
    s'.reads 0 = System.entered timeoutMs x := by
  cases hs with
  | enter => simp [System.setRead]

theorem step_await {timeoutMs : UInt32} {x : Except Exception Unit}
    (hs : System.Step D camera s (.await 0 log x) s')
    (hphase : s.reads 0 = System.entered timeoutMs (.ok ())) :
    ∀ call ∈ polls log, call.1 = pollTimeout timeoutMs := by
  cases hs with
  | await held phase hx =>
      rw [phase] at hphase
      cases hphase
      exact awaitFrame_polls hx

theorem run_polls {d₀ : σ} {bufs : List (BufferMemory t)} {ls : List Label}
    (hls : ∀ l ∈ ls, l.reader ≠ none ∧ ∀ reader log r, l ≠ .await reader log r)
    (hrun : (captureSystem D d₀ camera bufs).Run s ls s') : stepPolls ls = [] := by
  induction ls generalizing s with
  | nil => rfl
  | cons l ls ih =>
      obtain ⟨s₁, hs, hrest⟩ := hrun
      obtain ⟨hreader, hawait⟩ := hls l List.mem_cons_self
      rw [stepPolls_cons, step_polls hs hawait hreader,
        ih (fun l hm => hls l (List.mem_cons_of_mem _ hm)) hrest, List.append_nil]

/-- A read polls in one section, entered with its own timeout, if it gets so far. -/
theorem ReadTrace.polls_eq {timeoutMs : UInt32} {ms : List Label} {r : Except Exception V4L2Frame}
    {d₀ : σ} {bufs : List (BufferMemory t)} (hread : ReadTrace timeoutMs ms r)
    (hrun : (captureSystem D d₀ camera bufs).Run s ms s') :
    stepPolls ms = [] ∨ ∃ s₁ s₂ log x, System.Step D camera s₁ (.await 0 log x) s₂ ∧
      s₁.reads 0 = System.entered timeoutMs (.ok ()) ∧ stepPolls ms = polls log := by
  have hfirst : ∀ log ls, stepPolls ls = [] →
      stepPolls (.enter 0 timeoutMs (.ok ()) :: .await 0 log (.ok ()) :: ls) = polls log := by
    intro log ls hls
    rw [stepPolls_cons, stepPolls_cons, hls, List.append_nil]
    rfl
  cases hread with
  | refused e => exact Or.inl rfl
  | notReady log e =>
      obtain ⟨s₁, h₁, s₂, h₂, _⟩ := hrun
      refine Or.inr ⟨s₁, s₂, log, _, h₂, step_enter h₁, ?_⟩
      rw [stepPolls_cons, stepPolls_cons]
      exact List.append_nil _
  | notDequeued log log' e =>
      obtain ⟨s₁, h₁, s₂, h₂, hrest⟩ := hrun
      refine Or.inr ⟨s₁, s₂, log, _, h₂, step_enter h₁, hfirst log _ (run_polls ?_ hrest)⟩
      simp [Label.reader]
  | unwound log log' log'' buffer lease e =>
      obtain ⟨s₁, h₁, s₂, h₂, hrest⟩ := hrun
      refine Or.inr ⟨s₁, s₂, log, _, h₂, step_enter h₁, hfirst log _ (run_polls ?_ hrest)⟩
      simp [Label.reader]
  | returned log log' log'' buffer frame =>
      obtain ⟨s₁, h₁, s₂, h₂, hrest⟩ := hrun
      refine Or.inr ⟨s₁, s₂, log, _, h₂, step_enter h₁, hfirst log _ (run_polls ?_ hrest)⟩
      simp [Label.reader]

/-- Every call in a `read` is given its timeout. -/
theorem ReadTrace.timeouts {timeoutMs : UInt32} {ms : List Label} {r : Except Exception V4L2Frame}
    {d₀ : σ} {bufs : List (BufferMemory t)} (hread : ReadTrace timeoutMs ms r)
    (hrun : (captureSystem D d₀ camera bufs).Run s ms s') :
    ∀ call ∈ stepPolls ms, call.1 = pollTimeout timeoutMs := by
  rcases hread.polls_eq hrun with hnone | ⟨s₁, s₂, log, x, hawait, hphase, hpolls⟩
  · rw [hnone]
    simp
  · rw [hpolls]
    exact step_await hawait hphase

theorem timeInPoll_le {ls : List Label} {timeout : ℕ} (hw : WaitsWithin ls)
    (htimeout : ∀ call ∈ stepPolls ls, call.1 = timeout) :
    timeInPoll ls ≤ (stepPolls ls).length * (timeout : ℚ) := by
  have hle : ∀ w ∈ (stepPolls ls).map fun call => call.2.waited, w ≤ (timeout : ℚ) := by
    intro w hm
    obtain ⟨call, hcall, rfl⟩ := List.mem_map.mp hm
    rw [← htimeout call hcall]
    exact (hw call hcall).2
  have hsum := List.sum_le_card_nsmul _ _ hle
  rw [List.length_map, nsmul_eq_mul] at hsum
  exact hsum

theorem Interrupted.length {n : ℕ} {final : Except Errno ℕ} {ls : List Label}
    (h : Interrupted n final ls) : (stepPolls ls).length = n + 1 := by
  have hlen := congrArg List.length h
  simpa using hlen

end Calls

section Interruptions

variable {t : CaptureType}

theorem conformed_poll (k : ℕ) (q : KernelQueue) (timeout : ℕ) (answer : PollAnswer) :
    conformed k q (.poll timeout) answer q := retryIoctl_queueAnswers.mpr ⟨rfl, id⟩

theorem exec_awaitFrame_last (t : CaptureType) (k timeout : ℕ) (q : KernelQueue)
    {final : Except Errno ℕ} (hfinal : final ≠ .error Errno.eintr) :
    ∃ log x, Exec (conformed k) (V4L2State.awaitFrame t timeout 1) q log x q ∧
      polls log = [(timeout, ⟨timeout, final⟩)] := by
  have hpoll := conformed_poll k q timeout ⟨timeout, final⟩
  match final with
  | .error error =>
      have hne : error ≠ Errno.eintr := fun he => hfinal (congrArg Except.error he)
      refine ⟨_, .error (.throwSystemError "poll V4L2 device" error),
        exec_request_bind.mpr ⟨_, q, [], hpoll, ?_, rfl⟩, rfl⟩
      dsimp only
      rw [if_neg hne]
      exact ⟨rfl, rfl, rfl⟩
  | .ok 0 => exact ⟨_, _, exec_request_bind.mpr ⟨_, q, [], hpoll, ⟨rfl, rfl, rfl⟩, rfl⟩, rfl⟩
  | .ok (_ + 1) =>
      cases t with
      | videoCapture =>
          exact ⟨_, _, exec_request_bind.mpr ⟨_, q, [], hpoll, ⟨rfl, rfl, rfl⟩, rfl⟩, rfl⟩
      | videoCaptureMplane =>
          have ha : conformed k q .allocate true q := retryIoctl_queueAnswers.mpr ⟨rfl, id⟩
          exact ⟨_, _, exec_request_bind.mpr ⟨_, q, _, hpoll,
            exec_request_bind.mpr ⟨true, q, [], ha, ⟨rfl, rfl, rfl⟩, rfl⟩, rfl⟩, rfl⟩

/-- Every call sleeps to its end. -/
theorem exec_awaitFrame_interrupted (t : CaptureType) (k timeout n : ℕ) (q : KernelQueue)
    {final : Except Errno ℕ} (hfinal : final ≠ .error Errno.eintr) :
    ∃ log x, Exec (conformed k) (V4L2State.awaitFrame t timeout (n + 1)) q log x q ∧
      polls log = List.replicate n (timeout, ⟨timeout, .error Errno.eintr⟩) ++
        [(timeout, ⟨timeout, final⟩)] := by
  induction n with
  | zero => exact exec_awaitFrame_last t k timeout q hfinal
  | succ n ih =>
      obtain ⟨log, x, hx, hpolls⟩ := ih
      have hpoll := conformed_poll k q timeout ⟨timeout, .error Errno.eintr⟩
      refine ⟨_, x, exec_request_bind.mpr ⟨_, q, log, hpoll, ?_, rfl⟩, ?_⟩
      · dsimp only
        rw [if_pos rfl]
        exact hx
      · change _ :: polls log = _
        rw [hpolls]
        rfl

def streamingSystem (bufs : List (BufferMemory t)) : System t KernelQueue where
  core :=
    { mem := { buffers := bufs, streaming := true }
      dev := (List.range bufs.length).toFinset }

theorem streamingSystem_reachable (camera : V4L2Camera t) (bufs : List (BufferMemory t)) :
    (captureSystem (conformed bufs.length) ∅ camera bufs).Reachable (streamingSystem bufs) := by
  have hr : ¬ ({ buffers := bufs } : V4L2State t).Refuses := by simp [V4L2State.Refuses]
  obtain ⟨log, hq⟩ := V4L2State.exec_queueEach_conformed (n := bufs.length) (q := ∅)
    (s := ({ buffers := bufs } : V4L2State t)) rfl List.nodup_range
    (fun i hi => List.mem_range.mp hi) (by simp)
  rw [Finset.empty_union] at hq
  have hs : System.Step (conformed bufs.length) camera
      { core := { mem := { buffers := bufs }, dev := ∅ } } (.start _ (.ok ()))
      (streamingSystem bufs) :=
    .start rfl (V4L2State.exec_start_ok hr hq conformed_streamon_ok)
  exact (Reachable.init rfl).step hs

theorem exec_dequeue_again (bufs : List (BufferMemory t)) (q : KernelQueue) :
    Exec (conformed bufs.length) (V4L2State.dequeue { buffers := bufs, streaming := true }) q
      [⟨.ioctl (.dqbuf t), .error Errno.eagain⟩]
      (.error (.camera .timeout "V4L2 frame was not ready after poll"),
        { buffers := bufs, streaming := true }) q := by
  have hne : Errno.eagain ≠ Errno.eintr := by decide
  have hdq : conformed bufs.length q (.ioctl (.dqbuf t)) (.error Errno.eagain) q :=
    retryIoctl_queueAnswers.mpr ⟨⟨Or.inr trivial, rfl⟩, hne⟩
  exact exec_request_bind.mpr ⟨.error Errno.eagain, q, [], hdq, ⟨rfl, rfl, rfl⟩, rfl⟩

/-- A read on a running stream may be interrupted any number of times, by signals that come when
the timeout is about to pass. -/
theorem interrupted_read (camera : V4L2Camera t) (bufs : List (BufferMemory t))
    (timeoutMs : UInt32) (n : ℕ) {final : Except Errno ℕ}
    (hfinal : final ≠ .error Errno.eintr) :
    ∃ ms r s', ReadTrace timeoutMs ms r ∧
      (captureSystem (conformed bufs.length) ∅ camera bufs).Run (streamingSystem bufs) ms s' ∧
      stepPolls ms = List.replicate n
          (pollTimeout timeoutMs, ⟨pollTimeout timeoutMs, .error Errno.eintr⟩) ++
        [(pollTimeout timeoutMs, ⟨pollTimeout timeoutMs, final⟩)] := by
  obtain ⟨log, x, hx, hpolls⟩ := exec_awaitFrame_interrupted t bufs.length
    (pollTimeout timeoutMs) n (streamingSystem bufs).core.dev hfinal
  have henter : System.Step (conformed bufs.length) camera (streamingSystem bufs)
      (.enter 0 timeoutMs (.ok ())) _ := .enter rfl rfl
  have hawait : System.Step (conformed bufs.length) camera
      ((streamingSystem bufs).setRead 0 (.polling (pollTimeout timeoutMs))) (.await 0 log x) _ :=
    .await Nat.one_ne_zero (by simp [System.setRead]) hx
  cases x with
  | error e =>
      refine ⟨_, _, _, .notReady log e, ⟨_, henter, _, hawait, rfl⟩, ?_⟩
      rw [stepPolls_cons, stepPolls_cons, ← hpolls]
      exact List.append_nil _
  | ok _ =>
      have hdequeue := exec_dequeue_again bufs (streamingSystem bufs).core.dev
      refine ⟨_, _, _, .notDequeued log _ _, ⟨_, henter, _, hawait, _,
        .dequeueFailed Nat.one_ne_zero (by simp [System.setRead, System.awaited]) hdequeue,
        rfl⟩, ?_⟩
      rw [stepPolls_cons, stepPolls_cons, ← hpolls]
      exact List.append_nil _

end Interruptions

/-- Whatever the driver and the signals do, a read of which `n` calls are interrupted stays
within its timeout in `poll`. -/
def WaitBounded {t : CaptureType} (camera : V4L2Camera t) (bufs : List (BufferMemory t))
    (timeoutMs : UInt32) (n : ℕ) (final : Except Errno ℕ) : Prop :=
  ∀ (σ : Type) (D : Device linux σ) (d₀ : σ) (s s' : System t σ) (ms : List Label)
    (r : Except Exception V4L2Frame),
    (captureSystem D d₀ camera bufs).Reachable s → ReadTrace timeoutMs ms r →
    (captureSystem D d₀ camera bufs).Run s ms s' → Interrupted n final ms → WaitsWithin ms →
    timeInPoll ms ≤ timeoutMs.toNat

section Bound

variable {t : CaptureType} {camera : V4L2Camera t} {bufs : List (BufferMemory t)}
  {timeoutMs : UInt32} {n : ℕ} {final : Except Errno ℕ}

theorem pollTimeout_eq (h : timeoutMs.toNat ≤ intMax) :
    pollTimeout timeoutMs = timeoutMs.toNat := by
  unfold pollTimeout
  rw [if_neg (not_lt.mpr h)]

theorem timeInPoll_interrupted {ms : List Label} {timeout : ℕ}
    (h : stepPolls ms = List.replicate n (timeout, ⟨timeout, .error Errno.eintr⟩) ++
      [(timeout, ⟨timeout, final⟩)]) :
    Interrupted n final ms ∧ WaitsWithin ms ∧ timeInPoll ms = (n + 1) * (timeout : ℚ) := by
  refine ⟨?_, ?_, ?_⟩
  · unfold Interrupted
    rw [h]
    simp
  · intro call hm
    have hcall : call.1 = timeout ∧ call.2.waited = timeout := by
      rw [h] at hm
      rcases List.mem_append.mp hm with hm | hm
      · rw [List.eq_of_mem_replicate hm]
        exact ⟨rfl, rfl⟩
      · rw [List.mem_singleton.mp hm]
        exact ⟨rfl, rfl⟩
    rw [hcall.1, hcall.2]
    exact ⟨Nat.cast_nonneg _, le_rfl⟩
  · unfold timeInPoll
    rw [h]
    simp
    ring

/-- The timeout bounds the wait of a read just when no call is interrupted, or there is no time
to wait. -/
theorem wait_bounded_iff (h : timeoutMs.toNat ≤ intMax) (hfinal : final ≠ .error Errno.eintr) :
    WaitBounded camera bufs timeoutMs n final ↔ n = 0 ∨ timeoutMs = 0 := by
  constructor
  · intro hbound
    obtain ⟨ms, r, s', hread, hrun, hpolls⟩ := interrupted_read camera bufs timeoutMs n hfinal
    obtain ⟨hinterrupted, hwaits, htime⟩ := timeInPoll_interrupted hpolls
    have hle := hbound _ _ _ _ _ _ _ (streamingSystem_reachable camera bufs) hread hrun
      hinterrupted hwaits
    rw [htime, pollTimeout_eq h] at hle
    have hnat : (n + 1) * timeoutMs.toNat ≤ timeoutMs.toNat := by exact_mod_cast hle
    have hzero : n * timeoutMs.toNat = 0 := by
      rw [Nat.succ_mul] at hnat
      omega
    rcases Nat.mul_eq_zero.mp hzero with hn | ht
    · exact Or.inl hn
    · exact Or.inr (UInt32.toNat_inj.mp ht)
  · intro hn σ D d₀ s s' ms r _ hread hrun hinterrupted hwaits
    have hle := timeInPoll_le hwaits (hread.timeouts hrun)
    rw [hinterrupted.length, pollTimeout_eq h] at hle
    rcases hn with rfl | rfl
    · simpa using hle
    · simpa using hle

end Bound

theorem wait_bounded_iff_sample : WaitBounded sampleCamera sampleBuffers 100 0 (.ok 1) :=
  (wait_bounded_iff (by decide) (by decide)).mpr (Or.inl rfl)

/-- A signal after the first 100 milliseconds, and a frame after 100 more. -/
theorem interrupted_wait_doubled : ∃ ms r s',
    (captureSystem (conformed 2) ∅ sampleCamera sampleBuffers).Reachable
      (streamingSystem sampleBuffers) ∧
    ReadTrace 100 ms r ∧
    (captureSystem (conformed 2) ∅ sampleCamera sampleBuffers).Run (streamingSystem sampleBuffers)
      ms s' ∧
    Interrupted 1 (.ok 1) ms ∧ WaitsWithin ms ∧ timeInPoll ms = 200 ∧
    ¬ timeInPoll ms ≤ (100 : UInt32).toNat := by
  have hpoll : pollTimeout 100 = 100 := by decide
  have hfinal : (.ok 1 : Except Errno ℕ) ≠ .error Errno.eintr := by decide
  obtain ⟨ms, r, s', hread, hrun, hpolls⟩ :=
    interrupted_read sampleCamera sampleBuffers 100 1 hfinal
  rw [hpoll] at hpolls
  obtain ⟨hinterrupted, hwaits, htime⟩ := timeInPoll_interrupted hpolls
  have htotal : timeInPoll ms = 200 := by
    rw [htime]
    norm_num
  refine ⟨ms, r, s', streamingSystem_reachable sampleCamera sampleBuffers, hread, hrun,
    hinterrupted, hwaits, htotal, ?_⟩
  have htimeout : (100 : UInt32).toNat = 100 := rfl
  rw [htotal, htimeout, not_le]
  norm_num

end CameraCore
