import CameraCore.LeaseHistory

/-!
# A broken queue

The queue is marked broken when a buffer could not be given back, and stays so. A
`start` that fails past its guards leaves the stream off for good, and with it every
call after it. A release that fails while the stream is on leaves it on: a `read`
past its entry check dequeues all the same, as long as the kernel has a buffer.
-/

namespace CameraCore

open DeviceProgram LabelledSystem

variable {t : CaptureType} {σ : Type}

def QueueFailure : Event linux → Prop
  | ⟨.ioctl (.qbuf _ _ _), .error _⟩ => True
  | ⟨.ioctl (.streamon _), .error _⟩ => True
  | _ => False

def Request.MovesBuffer : Request → Prop
  | .ioctl (.qbuf _ _ _) => True
  | .ioctl (.dqbuf _) => True
  | _ => False

def InvalidState {α : Type} (r : Except Exception α) : Prop :=
  ∃ text, r = .error (.camera .invalidState text)

/-- What may still happen once a `start` has failed: every call throws. -/
def Label.Contained : Label → Prop
  | .start log r => log = [] ∧ InvalidState r
  | .enter _ _ r => InvalidState r
  | .dequeue _ log r => log = [] ∧ InvalidState r
  | .returnFrame _ _ _ => False
  | l => ∀ e ∈ l.log, ¬ e.1.MovesBuffer

theorem Label.Contained.movesNothing {l : Label} (h : l.Contained) :
    ∀ e ∈ l.log, ¬ e.1.MovesBuffer := by
  cases l with
  | start log r =>
      obtain ⟨rfl, _⟩ := h
      simp [Label.log]
  | enter reader timeoutMs r => simp [Label.log]
  | dequeue reader log r =>
      obtain ⟨rfl, _⟩ := h
      simp [Label.log]
  | returnFrame reader log frame => exact h.elim
  | _ => exact h

theorem Request.Outside.movesNothing {r : Request} (h : r.Outside) : ¬ r.MovesBuffer := by
  cases r with
  | ioctl request => exact h.elim
  | _ => exact id

namespace V4L2State

variable {D : Device linux σ} {s s' : V4L2State t} {d d' : σ} {log : Log}

theorem queueEach_ok {is : List ℕ} (h : Exec D (s.queueEach is) d log (.ok ()) d') :
    ∀ e ∈ log, ¬ QueueFailure e := by
  induction is generalizing d log with
  | nil =>
      obtain ⟨rfl, _, _⟩ := exec_pure.mp h
      simp
  | cons index rest ih =>
      obtain ⟨x, d₁, log₁, log₂, hq, hrest, rfl⟩ := exec_bind.mp h
      cases x with
      | error error =>
          obtain ⟨_, he, _⟩ := exec_pure.mp hrest
          cases he
      | ok u =>
          intro e he
          rcases List.mem_append.mp he with he | he
          · rcases exec_queueLocked.mp hq with ⟨_, hx, _⟩ | ⟨_, _, rfl⟩
            · cases hx
            · rw [List.mem_singleton.mp he]
              exact id
          · exact ih hrest e he

/-- The loop stops only at a `QBUF` that failed. -/
theorem queueEach_error {is : List ℕ} {error : Errno} (hi : ∀ i ∈ is, i < s.buffers.length)
    (h : Exec D (s.queueEach is) d log (.error error) d') : ∃ e ∈ log, QueueFailure e := by
  induction is generalizing d log with
  | nil =>
      obtain ⟨_, he, _⟩ := exec_pure.mp h
      cases he
  | cons index rest ih =>
      have hlt := hi index List.mem_cons_self
      obtain ⟨x, d₁, log₁, log₂, hq, hrest, rfl⟩ := exec_bind.mp h
      rcases exec_queueLocked.mp hq with ⟨hle, _⟩ | ⟨_, _, rfl⟩
      · omega
      · cases x with
        | error error => exact ⟨_, List.mem_append_left _ List.mem_cons_self, trivial⟩
        | ok u =>
            obtain ⟨e, he, hf⟩ := ih (fun i hm => hi i (List.mem_cons_of_mem _ hm)) hrest
            exact ⟨e, List.mem_append_right _ he, hf⟩

/-- Past its guards `start` fails exactly when one of its calls does. -/
theorem StartEnds.failed_iff {r : Except Exception Unit} (h : StartEnds D s d log r s' d')
    (hs : ¬ s.Refuses) : r ≠ .ok () ↔ ∃ e ∈ log, QueueFailure e := by
  cases h with
  | refused _ hr => exact absurd hr hs
  | queueFailed _ hq =>
      have hf := queueEach_error (fun i hi => List.mem_range.mp hi) hq
      simp only [ne_eq, reduceCtorEq, not_false_eq_true, true_iff]
      exact hf
  | streamonFailed =>
      simp only [ne_eq, reduceCtorEq, not_false_eq_true, true_iff]
      exact ⟨_, List.mem_append_right _ (List.mem_singleton.mpr rfl), trivial⟩
  | started _ hq _ =>
      simp only [ne_eq, not_true_eq_false, false_iff]
      intro hf
      obtain ⟨e, he, hf⟩ := hf
      rcases List.mem_append.mp he with he | he
      · exact queueEach_ok hq e he hf
      · rw [List.mem_singleton.mp he] at hf
        exact hf

/-- A `start` that fails past its guards leaves the stream off and the queue broken. -/
theorem StartEnds.failed {r : Except Exception Unit} (h : StartEnds D s d log r s' d')
    (hs : ¬ s.Refuses) (hr : r ≠ .ok ()) : s'.streaming = false ∧ s'.broken = true := by
  have hoff : s.streaming = false := by
    cases hst : s.streaming with
    | false => rfl
    | true => exact absurd (Or.inl hst) hs
  cases h with
  | refused _ hr' => exact absurd hr' hs
  | queueFailed => exact ⟨hoff, rfl⟩
  | streamonFailed => exact ⟨hoff, rfl⟩
  | started => exact absurd rfl hr

/-- Once broken, the queue stays so. -/
theorem StartEnds.broken {r : Except Exception Unit} (h : StartEnds D s d log r s' d')
    (hb : s.broken = true) : s'.broken = true := by
  cases h with
  | refused => exact hb
  | queueFailed => rfl
  | streamonFailed => rfl
  | started => exact hb

theorem afterQueue_broken (s : V4L2State t) (x : Except Errno Unit) (hb : s.broken = true) :
    (s.afterQueue x).broken = true := by
  cases x with
  | ok u => exact hb
  | error error => rfl

theorem DequeueEnds.broken {r : Except Exception V4L2Buffer} (h : DequeueEnds D s d log r s' d')
    (hb : s.broken = true) : s'.broken = true := by
  cases h with
  | outOfRange => rfl
  | rolledBack => exact s.afterQueue_broken _ hb
  | _ => exact hb

end V4L2State

namespace System

variable {D : Device linux σ} {d₀ : σ} {camera : V4L2Camera t} {bufs : List (BufferMemory t)}
  {s s' : System t σ} {l : Label} {log : Log}

/-- The state a failed `start` leaves behind: the stream is off, the queue broken, and
no lease is live. -/
structure Dead (bufs : List (BufferMemory t)) (s : System t σ) : Prop where
  owned : s.OwnedBy bufs 0
  off : s.core.mem.streaming = false
  broken : s.core.mem.broken = true
  unleased : s.core.leases = ∅

theorem Dead.no_frame (h : s.Dead bufs) {id : ℕ} : id ∉ s.frames := by
  intro hid
  obtain ⟨frame, _, hl, _⟩ := h.owned.framed id hid
  rw [h.unleased] at hl
  simp at hl

theorem Dead.not_holding (h : s.Dead bufs) {reader : ℕ} {lease : Lease} {buffer : V4L2Buffer} :
    s.reads reader ≠ .holding lease buffer := by
  intro hr
  obtain ⟨hl, _⟩ := h.owned.holding reader lease buffer hr
  rw [h.unleased] at hl
  simp at hl

theorem stopCapture_off {mem mem' : V4L2State t} {d d' : σ} (hoff : mem.streaming = false)
    (hx : Exec D mem.stopCapture d log mem' d') : log = [] ∧ mem' = mem := by
  rcases V4L2State.exec_stopCapture.mp hx with ⟨_, hlog, hmem, _⟩ | ⟨hst, _⟩
  · exact ⟨hlog, hmem⟩
  · rw [hoff] at hst
    cases hst

theorem DropState.off (h : DropState D s log s') (hoff : s.core.mem.streaming = false) :
    log = [] ∧ s'.core.mem = s.core.mem ∧ s'.core.leases = s.core.leases := by
  cases h with
  | shared => exact ⟨rfl, rfl, rfl⟩
  | last _ hd =>
      rw [V4L2State.destroy_eq_stopCapture] at hd
      obtain ⟨rfl, rfl⟩ := stopCapture_off hoff hd
      exact ⟨rfl, rfl, rfl⟩

theorem dead_step (h : s.Dead bufs) (hs : Step D camera s l s') : l.Contained ∧ s'.Dead bufs := by
  have hoff := h.off
  have howned := owned_step h.owned hs
  cases hs with
  | start alive hx =>
      cases V4L2State.exec_start hx with
      | refused text _ => exact ⟨⟨rfl, text, rfl⟩, howned, h.off, h.broken, h.unleased⟩
      | queueFailed hr _ => exact absurd (Or.inr (Or.inl h.broken)) hr
      | streamonFailed hr _ _ => exact absurd (Or.inr (Or.inl h.broken)) hr
      | started hr _ _ => exact absurd (Or.inr (Or.inl h.broken)) hr
  | enter alive idle =>
      refine ⟨⟨"V4L2 camera must be started before read", ?_⟩, howned, h.off, h.broken, h.unleased⟩
      rw [V4L2State.readEntry, hoff]
      rfl
  | await held phase hx =>
      refine ⟨fun e he => ?_, howned, h.off, h.broken, h.unleased⟩
      have hlog := hx.issues (issues_awaitFrame (P := Request.Outside) _ trivial trivial _)
      exact (hlog e he).movesNothing
  | leased held phase hx =>
      obtain ⟨hst, _⟩ := (V4L2State.exec_dequeue hx).frame_ok
      rw [hoff] at hst
      cases hst
  | dequeueFailed held phase hx =>
      cases V4L2State.exec_dequeue hx with
      | notStreaming _ => exact ⟨⟨rfl, _, rfl⟩, howned, h.off, h.broken, h.unleased⟩
      | failed _ hst _ _ => rw [hoff] at hst; cases hst
      | outOfRange hst _ _ => rw [hoff] at hst; cases hst
      | rolledBack hst _ _ _ _ => rw [hoff] at hst; cases hst
  | returnFrame phase hm hx => exact absurd phase h.not_holding
  | unwind phase hm hx hd => exact absurd phase h.not_holding
  | stop alive hx =>
      obtain ⟨rfl, rfl⟩ := stopCapture_off hoff hx
      refine ⟨?_, howned, h.off, h.broken, h.unleased⟩
      intro e he
      simp [Label.log] at he
  | copyFrame hid => exact absurd hid h.no_frame
  | dropShared hid hu => exact absurd hid h.no_frame
  | dropLast hid hu hf hd => exact absurd hid h.no_frame
  | destroyCamera alive hx hd =>
      obtain ⟨rfl, rfl⟩ := stopCapture_off hoff hx
      obtain ⟨rfl, hmem, hl⟩ := hd.off hoff
      refine ⟨?_, howned, ?_, ?_, hl.trans h.unleased⟩
      · intro e he
        simp [Label.log] at he
      · rw [hmem]
        exact h.off
      · rw [hmem]
        exact h.broken

theorem dead_run (h : s.Dead bufs) {ls : List Label}
    (hr : (captureSystem D d₀ camera bufs).Run s ls s') :
    s'.Dead bufs ∧ ∀ l ∈ ls, l.Contained :=
  hr.invariant (P := fun s => s.Dead bufs) (fun _ _ _ hd hs => dead_step hd hs) h

theorem dead_of_failed_start (h : s.OwnedBy bufs 0) {r : Except Exception Unit}
    (hs : Step D camera s (.start log r) s') (hr : ¬ s.core.mem.Refuses) (hf : r ≠ .ok ()) :
    s'.Dead bufs := by
  have howned := owned_step h hs
  cases hs with
  | start alive hx =>
      obtain ⟨hoff, hbroken⟩ := (V4L2State.exec_start hx).failed hr hf
      refine ⟨howned, hoff, hbroken, ?_⟩
      exact h.counted.leases_empty (not_not.mp fun ho => hr (Or.inr (Or.inr ho)))

end System

theorem Core.broken_step {D : Device linux σ} {c c' : Core t σ} {l : Section}
    (hb : c.mem.broken = true) (h : Core.Step D c l c') : c'.mem.broken = true := by
  cases h with
  | start hs => exact (V4L2State.exec_start hs).broken hb
  | leased hs => exact (V4L2State.exec_dequeue hs).broken hb
  | dequeueFailed hs => exact (V4L2State.exec_dequeue hs).broken hb
  | release hl hs =>
      rcases V4L2State.exec_release.mp hs with ⟨_, x, _, rfl⟩ | ⟨_, _, rfl, _⟩
      · exact V4L2State.afterQueue_broken _ x hb
      · exact hb
  | stop hs =>
      obtain rfl := V4L2State.stopCapture_frame hs
      exact hb
  | outside => exact hb

theorem System.broken_step {D : Device linux σ} {camera : V4L2Camera t}
    {bufs : List (BufferMemory t)} {s s' : System t σ} {l : Label} (ho : s.OwnedBy bufs 0)
    (hb : s.core.mem.broken = true) (hs : System.Step D camera s l s') :
    s'.core.mem.broken = true := by
  obtain ⟨ls, hr, _⟩ := System.project s.core.dev ho hs
  exact (hr.invariant (P := fun c => c.mem.broken = true) (Q := fun _ => True)
    (fun _ _ _ hb hs => ⟨trivial, Core.broken_step hb hs⟩) hb).1

/-- A `start` refused by a guard does nothing. One that fails past its guards, which it
does exactly when one of its calls fails, leaves the stream off and the queue broken,
and from then on every call throws and no buffer moves. -/
theorem start_contained {D : Device linux σ} {d₀ : σ} {camera : V4L2Camera t}
    {bufs : List (BufferMemory t)} {s s' : System t σ} {log : Log} {r : Except Exception Unit}
    (h : (captureSystem D d₀ camera bufs).Reachable s)
    (hs : System.Step D camera s (.start log r) s') :
    (s.core.mem.Refuses → log = [] ∧ s' = s ∧ InvalidState r) ∧
    (¬ s.core.mem.Refuses → (r ≠ .ok () ↔ ∃ e ∈ log, QueueFailure e) ∧
      (r ≠ .ok () → s'.core.mem.streaming = false ∧ s'.core.mem.broken = true ∧
        ∀ ls s'', (captureSystem D d₀ camera bufs).Run s' ls s'' →
          s''.core.mem.running = false ∧
          ∀ l ∈ ls, l.Contained ∧ ∀ e ∈ l.log, ¬ e.1.MovesBuffer)) := by
  have ho := System.owned_reachable h
  constructor
  · intro hr
    cases hs with
    | start alive hx =>
        obtain ⟨text, he⟩ := V4L2State.start_of_refuses hr
        rw [he] at hx
        obtain ⟨rfl, hres, rfl⟩ := exec_pure.mp hx
        cases hres
        exact ⟨rfl, rfl, text, rfl⟩
  · intro hr
    have hiff : r ≠ .ok () ↔ ∃ e ∈ log, QueueFailure e := by
      cases hs with
      | start alive hx => exact (V4L2State.exec_start hx).failed_iff hr
    refine ⟨hiff, ?_⟩
    intro hf
    have hdead := System.dead_of_failed_start ho hs hr hf
    refine ⟨hdead.off, hdead.broken, ?_⟩
    intro ls s'' hrun
    obtain ⟨hdead', hall⟩ := System.dead_run hdead hrun
    refine ⟨hdead'.off, ?_⟩
    intro l hl
    exact ⟨hall l hl, (hall l hl).movesNothing⟩

theorem sampleRefused_step : ∃ s', System.Step (retryIoctl queueDriver) sampleCamera
    { core := { mem := { buffers := sampleBuffers }, dev := ∅ } }
    (.start [⟨.ioctl (.qbuf 0 .videoCapture 0), .error Errno.einval⟩]
      (.error (.throwSystemError "VIDIOC_QBUF" Errno.einval))) s' := by
  have hq : retryIoctl queueDriver ∅ (.ioctl (.qbuf 0 .videoCapture 0)) (.error Errno.einval) ∅ :=
    retryIoctl_queueAnswers.mpr
      ⟨⟨trivial, rfl⟩, by simp [interrupted, Errno.einval, Errno.eintr]⟩
  have hr : ¬ ({ buffers := sampleBuffers } : V4L2State .videoCapture).Refuses := by
    simp [V4L2State.Refuses]
  have hloop : Exec (retryIoctl queueDriver)
      (V4L2State.queueEach { buffers := sampleBuffers } (List.range sampleBuffers.length)) ∅
      [⟨.ioctl (.qbuf 0 .videoCapture 0), .error Errno.einval⟩] (.error Errno.einval) ∅ :=
    exec_bind.mpr ⟨.error Errno.einval, ∅, [_], [],
      V4L2State.exec_queueLocked.mpr (Or.inr ⟨by decide, hq, rfl⟩), ⟨rfl, rfl, rfl⟩, rfl⟩
  exact ⟨_, .start rfl (V4L2State.exec_start_queueFailed hr hloop)⟩

theorem start_contained_sample : ∃ s',
    System.Step (retryIoctl queueDriver) sampleCamera
      { core := { mem := { buffers := sampleBuffers }, dev := ∅ } }
      (.start [⟨.ioctl (.qbuf 0 .videoCapture 0), .error Errno.einval⟩]
        (.error (.throwSystemError "VIDIOC_QBUF" Errno.einval))) s' ∧
    s'.core.mem.broken = true ∧
    ∀ ls s'', (captureSystem (retryIoctl queueDriver) ∅ sampleCamera sampleBuffers).Run s' ls s'' →
      s''.core.mem.running = false := by
  obtain ⟨s', hs⟩ := sampleRefused_step
  have hinit : (captureSystem (retryIoctl queueDriver) ∅ sampleCamera sampleBuffers).Reachable
      { core := { mem := { buffers := sampleBuffers }, dev := ∅ } } := Reachable.init rfl
  have hr : ¬ ({ buffers := sampleBuffers } : V4L2State .videoCapture).Refuses := by
    simp [V4L2State.Refuses]
  obtain ⟨_, hpast⟩ := start_contained hinit hs
  obtain ⟨_, hfailed⟩ := hpast hr
  obtain ⟨_, hbroken, hrun⟩ := hfailed (by simp)
  exact ⟨s', hs, hbroken, fun ls s'' h => (hrun ls s'' h).1⟩

namespace System

variable {camera : V4L2Camera t} {bufs : List (BufferMemory t)} {s s' : System t KernelQueue}
  {l : Label} {reader : ℕ}

/-- If the queue is broken, there is nothing to dequeue. -/
def Drained (s : System t KernelQueue) : Prop :=
  s.core.mem.broken = true → s.core.mem.streaming = false ∨ s.core.dev = ∅

/-- The dequeue sections run only where `Drained` holds. -/
def DequeuesDrained (s : System t KernelQueue) : Label → Prop
  | .dequeue _ _ _ => s.Drained
  | _ => True

/-- However its dequeue section ends, the `read` of `reader` throws there. -/
def ReadThrows (camera : V4L2Camera t) (s : System t KernelQueue) (reader : ℕ) : Prop :=
  ∀ log r s', Step (retryIoctl queueDriver) camera s (.dequeue reader log r) s' →
    ∃ e, r = .error e

/-- The `read` of `reader` may dequeue a buffer and return a frame for it. -/
def ReturnsFrame (camera : V4L2Camera t) (s : System t KernelQueue) (reader : ℕ) : Prop :=
  ∃ log buffer s₁ log' frame s₂,
    Step (retryIoctl queueDriver) camera s (.dequeue reader log (.ok buffer)) s₁ ∧
    Step (retryIoctl queueDriver) camera s₁ (.returnFrame reader log' frame) s₂

theorem readThrows_of_drained (hb : s.core.mem.broken = true) (hd : s.Drained) :
    s.ReadThrows camera reader := by
  intro log r s' hs
  cases hs with
  | dequeueFailed => exact ⟨_, rfl⟩
  | leased held phase hx =>
      cases V4L2State.exec_dequeue hx with
      | leased hst hdq hi ha =>
          rcases (retryIoctl_queueAnswers.mp hdq).1 with ⟨hq, _⟩ | ⟨hfalse, _⟩
          · rcases hd hb with hoff | hempty
            · rw [hoff] at hst
              cases hst
            · rw [hempty] at hq
              simp at hq
          · exact hfalse.elim

theorem returnsFrame_of_queued {index : ℕ} (ho : s.OwnedBy bufs 0) (held : s.stateUses ≠ 0)
    (phase : s.reads reader = .ready) (hst : s.core.mem.streaming = true)
    (hq : index ∈ s.core.dev) (hi : index < bufs.length) : s.ReturnsFrame camera reader := by
  have hlen : index < s.core.mem.buffers.length := by
    rw [ho.counted.buffers]
    exact hi
  have hdq : retryIoctl queueDriver s.core.dev (.ioctl (.dqbuf t)) (.ok { index := index })
      (s.core.dev.erase index) := retryIoctl_queueAnswers.mpr ⟨Or.inl ⟨hq, rfl⟩, id⟩
  have ha : retryIoctl queueDriver (s.core.dev.erase index) .allocate true
      (s.core.dev.erase index) := retryIoctl_queueAnswers.mpr ⟨rfl, id⟩
  have hx := V4L2State.exec_dequeue_ok (s := s.core.mem) hst hdq hlen ha
  obtain ⟨planes, hplanes, _⟩ := readPlanes_ok camera s.core.mem.buffers[index] { index := index }
  refine ⟨_, _, _, _, _, _, .leased held phase hx, .returnFrame (Function.update_self _ _ _) ?_
    (V4L2Camera.exec_buildFrame_ok hplanes ha ha)⟩
  exact List.getElem?_eq_getElem hlen

/-- A state of a run since the queue broke, with no lease but the old ones. -/
structure SinceBroken (bufs : List (BufferMemory t)) (old : Finset Lease)
    (s : System t KernelQueue) : Prop where
  owned : s.OwnedBy bufs 0
  broken : s.core.mem.broken = true
  leases : s.core.leases ⊆ old

theorem sinceBroken_step {old : Finset Lease} (h : SinceBroken bufs old s)
    (hs : Step (retryIoctl queueDriver) camera s l s') (hd : DequeuesDrained s l) :
    ((∀ reader log r, l = .dequeue reader log r → ∃ e, r = .error e) ∧
      ∀ m, l.returned = some m → m ∈ old) ∧ SinceBroken bufs old s' := by
  have hthrows : ∀ reader log r, l = .dequeue reader log r → ∃ e, r = .error e := by
    intro reader log r hl
    subst hl
    exact readThrows_of_drained h.broken hd log r s' hs
  have ht := step_transfer h.owned hs
  refine ⟨⟨hthrows, ?_⟩, owned_step h.owned hs, broken_step h.owned h.broken hs, ?_⟩
  · intro m hm
    cases ht with
    | unchanged _ returned => rw [returned] at hm; cases hm
    | leased _ _ _ _ returned => rw [returned] at hm; cases hm
    | released _ _ returned => rw [returned] at hm; cases hm
    | returned reader lease _ returned held =>
        rw [returned] at hm
        cases hm
        obtain ⟨buffer, hr⟩ := holds_eq_some.mp held
        exact h.leases (h.owned.holding reader m buffer hr).1
  · cases ht with
    | unchanged _ _ leases => rw [leases]; exact h.leases
    | returned _ _ _ _ _ leases => rw [leases]; exact h.leases
    | released _ _ _ _ leases =>
        rw [leases]
        exact (Finset.erase_subset _ _).trans h.leases
    | leased reader _ dequeued =>
        obtain ⟨log, buffer, hl⟩ := dequeued
        obtain ⟨e, he⟩ := hthrows reader log _ hl
        cases he

end System

variable {camera : V4L2Camera t} {bufs : List (BufferMemory t)} {s : System t KernelQueue}

/-- From a broken state, in every run whose dequeue sections run with the stream off or
the kernel queue empty, each of them throws and no buffer dequeued since is handed out;
and where a `read` is about to dequeue, it throws in all cases exactly under that
condition. -/
theorem broken_read_throws_iff
    (h : (captureSystem (retryIoctl queueDriver) ∅ camera bufs).Reachable s)
    (hb : s.core.mem.broken = true) :
    (∀ ls s', ((captureSystem (retryIoctl queueDriver) ∅ camera bufs).restrict
        System.DequeuesDrained).Run s ls s' →
      ∀ l ∈ ls, (∀ reader log r, l = .dequeue reader log r → ∃ e, r = .error e) ∧
        ∀ m, l.returned = some m → m ∈ s.core.leases) ∧
    (∀ reader, s.stateUses ≠ 0 → s.reads reader = .ready →
      (s.ReadThrows camera reader ↔ s.core.mem.streaming = false ∨ s.core.dev = ∅) ∧
      (¬ s.ReadThrows camera reader → s.ReturnsFrame camera reader)) := by
  have ho := System.owned_reachable h
  constructor
  · intro ls s' hr
    have hinit : System.SinceBroken bufs s.core.leases s := ⟨ho, hb, Finset.Subset.refl _⟩
    refine (hr.invariant (P := System.SinceBroken bufs s.core.leases)
      (Q := fun l => (∀ reader log r, l = .dequeue reader log r → ∃ e, r = .error e) ∧
        ∀ m, l.returned = some m → m ∈ s.core.leases) ?_ hinit).2
    intro s₁ l s₂ hs hl
    exact System.sinceBroken_step hs hl.1 hl.2
  · intro reader held phase
    obtain ⟨p, hp⟩ := System.consistent_reachable (queueDriver_retry_le _) h
    have hreturns : ¬ (s.core.mem.streaming = false ∨ s.core.dev = ∅) →
        s.ReturnsFrame camera reader := by
      intro hnot
      rw [not_or, Bool.not_eq_false] at hnot
      obtain ⟨hst, hne⟩ := hnot
      obtain ⟨index, hq⟩ := Finset.nonempty_iff_ne_empty.mpr hne
      exact System.returnsFrame_of_queued ho held phase hst hq (hp.queueInRange index hq)
    have hthrows : s.core.mem.streaming = false ∨ s.core.dev = ∅ → s.ReadThrows camera reader :=
      fun hd => System.readThrows_of_drained hb (fun _ => hd)
    have hiff : s.ReadThrows camera reader ↔ s.core.mem.streaming = false ∨ s.core.dev = ∅ := by
      refine ⟨?_, hthrows⟩
      intro hall
      by_contra hnot
      obtain ⟨log, buffer, s₁, _, _, _, hs, _⟩ := hreturns hnot
      obtain ⟨e, he⟩ := hall log _ s₁ hs
      cases he
    refine ⟨hiff, ?_⟩
    intro hnot
    exact hreturns fun hd => hnot (hthrows hd)

/-- The camera's thread waits for its second frame when the first is dropped on another
thread and cannot be queued again. -/
theorem sampleBroken_reachable : ∃ s : System .videoCapture KernelQueue,
    (captureSystem (retryIoctl queueDriver) ∅ sampleCamera sampleBuffers).Reachable s ∧
    s.core.mem.broken = true ∧ s.core.mem.streaming = true ∧ s.core.dev = {1} ∧
    s.stateUses ≠ 0 ∧ s.reads 0 = .ready := by
  have h₀ := captureSystem_mono (conformed_le_retry 2)
    sampleFramed_reachable
  have hs : System.Step (retryIoctl queueDriver) sampleCamera sampleFramed (.enter 0 100 (.ok ()))
      (sampleFramed.setRead 0 (.polling 100)) := .enter rfl rfl
  have h₁ := h₀.step hs
  have hpoll := (samplePolled {1}).mono (conformed_le_retry 2)
  have h₂ := h₁.step (.await (by decide) (Function.update_self _ _ _) hpoll)
  have hq : retryIoctl queueDriver {1} (.ioctl (.qbuf 0 .videoCapture 0)) (.error Errno.einval)
      {1} := retryIoctl_queueAnswers.mpr
    ⟨⟨trivial, rfl⟩, by simp [interrupted, Errno.einval, Errno.eintr]⟩
  have hrel : Exec (retryIoctl queueDriver) (sampleFramed.core.mem.release 0) {1}
      [⟨.ioctl (.qbuf 0 .videoCapture 0), .error Errno.einval⟩]
      { sampleFramed.core.mem with outstanding := 0, broken := true } {1} :=
    V4L2State.exec_release.mpr (Or.inl ⟨rfl, .error Errno.einval,
      V4L2State.exec_queueLocked.mpr (Or.inr ⟨by decide, hq, rfl⟩), rfl⟩)
  have hshared : sampleFramed.stateUses - 1 ≠ 0 := by decide
  have h₃ := h₂.step (.dropLast (Multiset.mem_singleton_self 0) rfl rfl
    (.intro hrel (.shared hshared)))
  exact ⟨_, h₃, rfl, rfl, rfl, by decide, rfl⟩

theorem broken_read_throws_iff_sample : ∃ s : System .videoCapture KernelQueue,
    s.core.mem.broken = true ∧ s.core.dev = {1} ∧
    (s.ReadThrows sampleCamera 0 ↔ s.core.mem.streaming = false ∨ s.core.dev = ∅) ∧
    s.ReturnsFrame sampleCamera 0 := by
  obtain ⟨s, hreach, hb, hst, hdev, held, phase⟩ := sampleBroken_reachable
  obtain ⟨_, hread⟩ := broken_read_throws_iff hreach hb
  obtain ⟨hiff, hreturns⟩ := hread 0 held phase
  refine ⟨s, hb, hdev, hiff, hreturns ?_⟩
  rw [hiff, hst, hdev]
  simp

/-- A `read` that runs its dequeue section with the queue broken can return a frame. -/
theorem broken_read_returns_frame :
    ¬ ∀ (s : System .videoCapture KernelQueue) (reader : ℕ),
      (captureSystem (retryIoctl queueDriver) ∅ sampleCamera sampleBuffers).Reachable s →
      s.core.mem.broken = true →
      s.ReadThrows sampleCamera reader ∧ ¬ s.ReturnsFrame sampleCamera reader := by
  intro hall
  obtain ⟨s, hreach, hb, hst, hdev, held, phase⟩ := sampleBroken_reachable
  have hq : 1 ∈ s.core.dev := by simp [hdev]
  have hreturns : s.ReturnsFrame sampleCamera 0 := System.returnsFrame_of_queued
    (System.owned_reachable hreach) held phase hst hq (by decide)
  exact (hall s 0 hreach hb).2 hreturns

end CameraCore
