import CameraCore.BackendProtocol
import CameraCore.LeaseHistory

/-!
# The V4L2 camera on one thread

Besides the flag the V4L2 camera has a broken mark, a count of leases and the kernel's
queue, and its guards look at all of them. On one thread that releases its frames before
it starts again, with a driver that keeps the protocol of the queue, the guards beyond
the flag never fire, so the camera follows the same protocol as the synthetic one.
-/

namespace CameraCore

open DeviceProgram FloatingPoint LabelledSystem

def Label.OnFrames : Label → Prop
  | .copyFrame _ => True
  | .dropFrame _ _ _ => True
  | _ => False

def Label.reader : Label → Option ℕ
  | .enter reader _ _ => some reader
  | .await reader _ _ => some reader
  | .dequeue reader _ _ => some reader
  | .returnFrame reader _ _ => some reader
  | .unwind reader _ _ _ => some reader
  | _ => none

/-- The steps that can start or stop the stream. -/
def Label.Switches : Label → Prop
  | .start _ _ => True
  | .stop _ => True
  | .destroyCamera _ => True
  | _ => False

/-- The sections of one `read` call, and what the call returned or threw. -/
inductive ReadTrace (timeoutMs : UInt32) : List Label → Except Exception V4L2Frame → Prop
  | refused (e : Exception) : ReadTrace timeoutMs [.enter 0 timeoutMs (.error e)] (.error e)
  | notReady (log : Log) (e : Exception) :
      ReadTrace timeoutMs [.enter 0 timeoutMs (.ok ()), .await 0 log (.error e)] (.error e)
  | notDequeued (log log' : Log) (e : Exception) :
      ReadTrace timeoutMs
        [.enter 0 timeoutMs (.ok ()), .await 0 log (.ok ()), .dequeue 0 log' (.error e)] (.error e)
  | unwound (log log' log'' : Log) (buffer : V4L2Buffer) (lease : Lease) (e : Exception) :
      ReadTrace timeoutMs
        [.enter 0 timeoutMs (.ok ()), .await 0 log (.ok ()), .dequeue 0 log' (.ok buffer),
          .unwind 0 log'' lease e] (.error e)
  | returned (log log' log'' : Log) (buffer : V4L2Buffer) (frame : V4L2Frame) :
      ReadTrace timeoutMs
        [.enter 0 timeoutMs (.ok ()), .await 0 log (.ok ()), .dequeue 0 log' (.ok buffer),
          .returnFrame 0 log'' frame] (.ok frame)

/-- One call of the thread that owns the camera, after operations on its frames. Every
frame is released before a `start`. -/
inductive V4L2Call {t : CaptureType} {σ : Type} (S : LabelledSystem (System t σ) Label) :
    System t σ → CallEvent → System t σ → Prop
  | start {s s₁ s' ls log r} (between : S.Run s ls s₁) (clients : ∀ l ∈ ls, l.OnFrames)
      (released : s₁.frames = 0) (h : S.step s₁ (.start log r) s') :
      V4L2Call S s (.start, ⟨throwsInvalidState r, s'.core.mem.running⟩) s'
  | read {s s₁ s' ls ms timeoutMs r} (between : S.Run s ls s₁) (clients : ∀ l ∈ ls, l.OnFrames)
      (sections : ReadTrace timeoutMs ms r) (h : S.Run s₁ ms s') :
      V4L2Call S s (.read timeoutMs, ⟨throwsInvalidState r, s'.core.mem.running⟩) s'
  | stop {s s₁ s' ls log} (between : S.Run s ls s₁) (clients : ∀ l ∈ ls, l.OnFrames)
      (h : S.step s₁ (.stop log) s') :
      V4L2Call S s (.stop, ⟨false, s'.core.mem.running⟩) s'

def v4l2Calls {t : CaptureType} {σ : Type} (S : LabelledSystem (System t σ) Label) :
    LabelledSystem (System t σ) CallEvent where
  init := S.init
  step := V4L2Call S

namespace System

section Frame

variable {t : CaptureType} {σ : Type} {D : Device linux σ} {camera : V4L2Camera t}
  {bufs : List (BufferMemory t)} {s s' : System t σ} {l : Label} {log : Log} {lease : Lease}

theorem OwnedBy.shared (h : s.OwnedBy bufs 0) (alive : s.cameraAlive = true)
    (hl : lease ∈ s.core.leases) : s.stateUses - 1 ≠ 0 := by
  have hu := h.stateUses
  have hcard := Finset.card_pos.mpr ⟨lease, hl⟩
  rw [alive, if_pos rfl] at hu
  omega

theorem DropLease.keeps (hd : DropLease D s lease log s') (hu : s.stateUses - 1 ≠ 0) :
    s'.core.mem.streaming = s.core.mem.streaming ∧ s'.cameraAlive = s.cameraAlive := by
  cases hd with
  | intro hx hd =>
      obtain ⟨_, _, hst⟩ := V4L2State.release_frame hx
      cases hd with
      | shared => exact ⟨hst, rfl⟩
      | last hz => exact absurd hz hu

theorem step_keeps (h : s.OwnedBy bufs 0) (alive : s.cameraAlive = true)
    (hs : Step D camera s l s') (hl : ¬ l.Switches) :
    s'.core.mem.streaming = s.core.mem.streaming ∧ s'.cameraAlive = true := by
  cases hs with
  | start => exact absurd trivial hl
  | enter => exact ⟨rfl, alive⟩
  | await => exact ⟨rfl, alive⟩
  | leased held phase hx =>
      obtain ⟨_, rfl, _⟩ := (V4L2State.exec_dequeue hx).frame_ok
      exact ⟨rfl, alive⟩
  | dequeueFailed held phase hx => exact ⟨(V4L2State.exec_dequeue hx).frame_error.2.2, alive⟩
  | returnFrame => exact ⟨rfl, alive⟩
  | unwind phase hm hx hd =>
      obtain ⟨hlive, _⟩ := h.holding _ _ _ phase
      have hu := h.shared alive hlive
      obtain ⟨hst, ha⟩ := hd.keeps hu
      exact ⟨hst, ha.trans alive⟩
  | stop => exact absurd trivial hl
  | copyFrame => exact ⟨rfl, alive⟩
  | dropShared => exact ⟨rfl, alive⟩
  | dropLast hid _ hf hd =>
      obtain ⟨frame', hf', hlive, _, _⟩ := h.framed _ hid
      rw [hf] at hf'
      cases hf'
      have hu := h.shared alive hlive
      obtain ⟨hst, ha⟩ := hd.keeps hu
      exact ⟨hst, ha.trans alive⟩
  | destroyCamera => exact absurd trivial hl

theorem step_reads (hs : Step D camera s l s') {r : ℕ} (hr : l.reader ≠ some r) :
    s'.reads r = s.reads r := by
  have hne : ∀ reader, some reader ≠ some r → r ≠ reader := by
    rintro reader hsome rfl
    exact hsome rfl
  cases hs with
  | enter => exact Function.update_of_ne (hne _ hr) _ _
  | await => exact Function.update_of_ne (hne _ hr) _ _
  | leased => exact Function.update_of_ne (hne _ hr) _ _
  | dequeueFailed => exact Function.update_of_ne (hne _ hr) _ _
  | returnFrame => exact Function.update_of_ne (hne _ hr) _ _
  | unwind phase hm hx hd =>
      obtain ⟨_, _, _, hreads⟩ := hd.transfer
      rw [hreads]
      exact Function.update_of_ne (hne _ hr) _ _
  | dropLast hid hu hf hd => rw [hd.transfer.2.2.2]
  | destroyCamera alive hx hd =>
      rw [hd.transfer.2.2.2]
      rfl
  | _ => rfl

end Frame

section OneThread

variable {t : CaptureType} {camera : V4L2Camera t} {bufs : List (BufferMemory t)}
  {s s' : System t KernelQueue} {l : Label} {log : Log}

/-- No call is in progress but perhaps a read of the owning thread. -/
structure Alone (camera : V4L2Camera t) (bufs : List (BufferMemory t))
    (s : System t KernelQueue) : Prop where
  reachable : (captureSystem (conformed bufs.length) ∅ camera bufs).Reachable s
  alive : s.cameraAlive = true
  others : ∀ r, r ≠ 0 → s.reads r = .idle

/-- Between two calls. -/
structure Quiescent (camera : V4L2Camera t) (bufs : List (BufferMemory t))
    (s : System t KernelQueue) : Prop extends Alone camera bufs s where
  idle : s.reads 0 = .idle

theorem Alone.step (h : s.Alone camera bufs)
    (hs : Step (conformed bufs.length) camera s l s') (hl : ¬ l.Switches)
    (hr : ∀ r, l.reader = some r → r = 0) :
    s'.Alone camera bufs ∧ s'.core.mem.streaming = s.core.mem.streaming := by
  obtain ⟨hst, halive⟩ := step_keeps (owned_reachable h.reachable) h.alive hs hl
  refine ⟨⟨h.reachable.step hs, halive, ?_⟩, hst⟩
  intro r hne
  rw [step_reads hs (fun hsome => hne (hr r hsome))]
  exact h.others r hne

theorem Quiescent.client (h : s.Quiescent camera bufs)
    (hs : Step (conformed bufs.length) camera s l s') (hl : l.OnFrames) :
    s'.Quiescent camera bufs ∧ s'.core.mem.streaming = s.core.mem.streaming := by
  have hswitch : ¬ l.Switches := by cases l <;> first | exact id | exact hl.elim
  have hreader : l.reader = none := by cases l <;> first | rfl | exact hl.elim
  obtain ⟨halone, hst⟩ := h.toAlone.step hs hswitch (by simp [hreader])
  refine ⟨⟨halone, ?_⟩, hst⟩
  rw [step_reads hs (by simp [hreader])]
  exact h.idle

theorem Quiescent.clients {ls : List Label} (h : s.Quiescent camera bufs)
    (hr : (captureSystem (conformed bufs.length) ∅ camera bufs).Run s ls s')
    (hl : ∀ l ∈ ls, l.OnFrames) :
    s'.Quiescent camera bufs ∧ s'.core.mem.streaming = s.core.mem.streaming := by
  induction ls generalizing s with
  | nil =>
      obtain rfl := hr
      exact ⟨h, rfl⟩
  | cons l ls ih =>
      obtain ⟨s₁, hs, hrest⟩ := hr
      obtain ⟨h₁, hst₁⟩ := h.client hs (hl l List.mem_cons_self)
      obtain ⟨h', hst⟩ := ih h₁ hrest (fun m hm => hl m (List.mem_cons_of_mem _ hm))
      exact ⟨h', hst.trans hst₁⟩

theorem Quiescent.holds_none (h : s.Quiescent camera bufs) (r : ℕ) : s.holds r = none := by
  unfold holds
  by_cases hr : r = 0
  · rw [hr, h.idle]
    rfl
  · rw [h.others r hr]
    rfl

/-- A thread that has released its frames leaves no lease. -/
theorem Quiescent.unleased (h : s.Quiescent camera bufs) (hf : s.frames = 0) :
    s.core.leases = ∅ := by
  obtain ⟨ls, htr⟩ := h.reachable
  rw [Finset.eq_empty_iff_forall_notMem]
  intro m hm
  rcases (history htr).attended m hm with hid | ⟨r, hr⟩
  · rw [hf] at hid
    simp at hid
  · rw [h.holds_none r] at hr
    cases hr

theorem Alone.notBroken (h : s.Alone camera bufs) : s.core.mem.broken = false :=
  (Core.conforming_reachable (core_reachable h.reachable)).notBroken

/-- The guards of `start` beyond the flag do not fire. -/
theorem Quiescent.refuses_iff (h : s.Quiescent camera bufs) (hf : s.frames = 0) :
    s.core.mem.Refuses ↔ s.core.mem.streaming = true := by
  have hcount : s.core.mem.outstanding = 0 := by
    rw [(owned_reachable h.reachable).counted.outstanding, h.unleased hf, Finset.card_empty]
  simp [V4L2State.Refuses, h.notBroken, hcount]

theorem Quiescent.start (h : s.Quiescent camera bufs) (hf : s.frames = 0)
    {r : Except Exception Unit}
    (hs : Step (conformed bufs.length) camera s (.start log r) s') :
    throwsInvalidState r = s.core.mem.streaming ∧ s'.core.mem.streaming = true ∧
      s'.Quiescent camera bufs := by
  have hreach := h.reachable.step hs
  obtain ⟨p, hp⟩ := consistent_reachable conformed_le_faultyDriver h.reachable
  have hc := Core.conforming_reachable (core_reachable h.reachable)
  cases hs with
  | start alive hx =>
      refine ⟨?_, ?_, ⟨hreach, h.alive, h.others⟩, h.idle⟩
      all_goals
        by_cases hr : s.core.mem.Refuses
        · obtain ⟨text, he⟩ := V4L2State.start_of_refuses hr
          rw [he] at hx
          obtain ⟨_, hres, _⟩ := exec_pure.mp hx
          cases hres
          have hst := (h.refuses_iff hf).mp hr
          simp [hst, throwsInvalidState, withMem]
        · obtain ⟨rfl, rfl, _⟩ := hc.start_succeeds hp hr hx
          have hst : s.core.mem.streaming = false :=
            Bool.eq_false_iff.mpr fun hst => hr ((h.refuses_iff hf).mpr hst)
          simp [hst, throwsInvalidState, withMem]

theorem Quiescent.stop (h : s.Quiescent camera bufs)
    (hs : Step (conformed bufs.length) camera s (.stop log) s') :
    s'.core.mem.streaming = false ∧ s'.Quiescent camera bufs := by
  have hreach := h.reachable.step hs
  cases hs with
  | stop alive hx =>
      obtain rfl := V4L2State.stopCapture_frame hx
      exact ⟨rfl, ⟨hreach, h.alive, h.others⟩, h.idle⟩

theorem enter_inv {D : Device linux KernelQueue} {reader : ℕ} {timeoutMs : UInt32}
    {x : Except Exception Unit} (hs : Step D camera s (.enter reader timeoutMs x) s') :
    x = s.core.mem.readEntry ∧ s'.reads reader = entered timeoutMs x := by
  cases hs with
  | enter alive idle => exact ⟨rfl, Function.update_self _ _ _⟩

theorem await_inv {D : Device linux KernelQueue} {reader : ℕ} {e : Exception}
    (hs : Step D camera s (.await reader log (.error e)) s') :
    e.hasCode .invalidState = false ∧ s'.reads reader = .idle := by
  cases hs with
  | await held phase hx =>
      exact ⟨V4L2State.exec_awaitFrame_error hx, Function.update_self _ _ _⟩

theorem dequeue_inv {D : Device linux KernelQueue} {reader : ℕ} {e : Exception}
    (hs : Step D camera s (.dequeue reader log (.error e)) s')
    (hst : s.core.mem.streaming = true) :
    e.hasCode .invalidState = false ∧ s'.reads reader = .idle := by
  cases hs with
  | dequeueFailed held phase hx =>
      refine ⟨?_, Function.update_self _ _ _⟩
      cases V4L2State.exec_dequeue hx with
      | notStreaming hoff =>
          rw [hst] at hoff
          cases hoff
      | failed _ _ he => exact he
      | outOfRange => simp
      | rolledBack => simp

theorem unwind_inv {D : Device linux KernelQueue} {reader : ℕ} {lease : Lease} {e : Exception}
    (hs : Step D camera s (.unwind reader log lease e) s') :
    e.hasCode .invalidState = false ∧ s'.reads reader = .idle := by
  cases hs with
  | unwind phase hm hx hd =>
      rw [buildFrame_error hx, hd.transfer.2.2.2]
      exact ⟨rfl, Function.update_self _ _ _⟩

theorem returnFrame_inv {D : Device linux KernelQueue} {reader : ℕ} {frame : V4L2Frame}
    (hs : Step D camera s (.returnFrame reader log frame) s') : s'.reads reader = .idle := by
  cases hs with
  | returnFrame => exact Function.update_self _ _ _

/-- Without a broken queue the entry check of `read` is the flag. -/
theorem Alone.readEntry_cases (h : s.Alone camera bufs) :
    (s.core.mem.streaming = true ∧ s.core.mem.readEntry = .ok ()) ∨
      (s.core.mem.streaming = false ∧ s.core.mem.readEntry =
        .error (.camera .invalidState "V4L2 camera must be started before read")) := by
  unfold V4L2State.readEntry
  cases hst : s.core.mem.streaming <;> simp [h.notBroken]

theorem Quiescent.entered (h : s.Quiescent camera bufs) {timeoutMs : UInt32}
    (hs : Step (conformed bufs.length) camera s (.enter 0 timeoutMs (.ok ())) s') :
    s'.Alone camera bufs ∧ s.core.mem.streaming = true ∧ s'.core.mem.streaming = true := by
  obtain ⟨hx, _⟩ := enter_inv hs
  obtain ⟨halone, hkeep⟩ := h.toAlone.step hs id (by simp [Label.reader])
  rcases h.toAlone.readEntry_cases with ⟨hst, _⟩ | ⟨_, he⟩
  · exact ⟨halone, hst, hkeep.trans hst⟩
  · rw [he] at hx
    cases hx

theorem Alone.section (h : s.Alone camera bufs)
    (hs : Step (conformed bufs.length) camera s l s') (hl : l.reader = some 0)
    (hst : s.core.mem.streaming = true) :
    s'.Alone camera bufs ∧ s'.core.mem.streaming = true := by
  have hswitch : ¬ l.Switches := by cases l <;> first | exact id | cases hl
  have hreader : ∀ r, l.reader = some r → r = 0 := by
    intro r hr
    rw [hl] at hr
    exact (Option.some.inj hr).symm
  obtain ⟨halone, hkeep⟩ := h.step hs hswitch hreader
  exact ⟨halone, hkeep.trans hst⟩

theorem Quiescent.read (h : s.Quiescent camera bufs) {timeoutMs : UInt32} {ms : List Label}
    {r : Except Exception V4L2Frame} (ht : ReadTrace timeoutMs ms r)
    (hr : (captureSystem (conformed bufs.length) ∅ camera bufs).Run s ms s') :
    throwsInvalidState r = !s.core.mem.streaming ∧
      s'.core.mem.streaming = s.core.mem.streaming ∧ s'.Quiescent camera bufs := by
  cases ht with
  | refused e =>
      have hs := run_singleton.mp hr
      obtain ⟨hx, hidle⟩ := enter_inv hs
      obtain ⟨halone, hkeep⟩ := h.toAlone.step hs id (by simp [Label.reader])
      refine ⟨?_, hkeep, halone, hidle⟩
      rcases h.toAlone.readEntry_cases with ⟨_, he⟩ | ⟨hst, he⟩
      · rw [he] at hx
        cases hx
      · rw [he] at hx
        cases hx
        rw [hst]
        rfl
  | notReady log e =>
      obtain ⟨s₁, h₁, s₂, h₂, rfl⟩ := hr
      obtain ⟨ha₁, hst, hst₁⟩ := h.entered h₁
      obtain ⟨he, hidle⟩ := await_inv h₂
      obtain ⟨ha₂, hst₂⟩ := ha₁.section h₂ rfl hst₁
      exact ⟨by rw [hst]; exact he, hst₂.trans hst.symm, ha₂, hidle⟩
  | notDequeued log log' e =>
      obtain ⟨s₁, h₁, s₂, h₂, s₃, h₃, rfl⟩ := hr
      obtain ⟨ha₁, hst, hst₁⟩ := h.entered h₁
      obtain ⟨ha₂, hst₂⟩ := ha₁.section h₂ rfl hst₁
      obtain ⟨he, hidle⟩ := dequeue_inv h₃ hst₂
      obtain ⟨ha₃, hst₃⟩ := ha₂.section h₃ rfl hst₂
      exact ⟨by rw [hst]; exact he, hst₃.trans hst.symm, ha₃, hidle⟩
  | unwound log log' log'' buffer lease e =>
      obtain ⟨s₁, h₁, s₂, h₂, s₃, h₃, s₄, h₄, rfl⟩ := hr
      obtain ⟨ha₁, hst, hst₁⟩ := h.entered h₁
      obtain ⟨ha₂, hst₂⟩ := ha₁.section h₂ rfl hst₁
      obtain ⟨ha₃, hst₃⟩ := ha₂.section h₃ rfl hst₂
      obtain ⟨he, hidle⟩ := unwind_inv h₄
      obtain ⟨ha₄, hst₄⟩ := ha₃.section h₄ rfl hst₃
      exact ⟨by rw [hst]; exact he, hst₄.trans hst.symm, ha₄, hidle⟩
  | returned log log' log'' buffer frame =>
      obtain ⟨s₁, h₁, s₂, h₂, s₃, h₃, s₄, h₄, rfl⟩ := hr
      obtain ⟨ha₁, hst, hst₁⟩ := h.entered h₁
      obtain ⟨ha₂, hst₂⟩ := ha₁.section h₂ rfl hst₁
      obtain ⟨ha₃, hst₃⟩ := ha₂.section h₃ rfl hst₂
      obtain ⟨ha₄, hst₄⟩ := ha₃.section h₄ rfl hst₃
      exact ⟨by rw [hst]; rfl, hst₄.trans hst.symm, ha₄, returnFrame_inv h₄⟩

theorem v4l2_follows (camera : V4L2Camera t) (bufs : List (BufferMemory t)) :
    Follows (v4l2Calls (captureSystem (conformed bufs.length) ∅ camera bufs))
      (Quiescent camera bufs) (fun s => s.core.mem.running) := by
  intro s c o s' h hc
  cases hc with
  | start between clients released hs =>
      obtain ⟨h₁, hst₁⟩ := h.clients between clients
      obtain ⟨hthrows, hrun, h'⟩ := h₁.start released hs
      refine ⟨?_, rfl, h'⟩
      simp only [Call.observe, V4L2State.running, hthrows, hst₁, hrun]
  | read between clients sections hr =>
      obtain ⟨h₁, hst₁⟩ := h.clients between clients
      obtain ⟨hthrows, hrun, h'⟩ := h₁.read sections hr
      refine ⟨?_, rfl, h'⟩
      simp only [Call.observe, V4L2State.running, hthrows, hrun, hst₁]
  | stop between clients hs =>
      obtain ⟨h₁, _⟩ := h.clients between clients
      obtain ⟨hrun, h'⟩ := h₁.stop hs
      refine ⟨?_, rfl, h'⟩
      simp only [Call.observe, V4L2State.running, hrun]

theorem exec_release_exists (h : s.Alone camera bufs) {lease : Lease}
    (hl : lease ∈ s.core.leases) :
    ∃ log mem dev,
      Exec (conformed bufs.length) (s.core.mem.release lease.index) s.core.dev log mem dev := by
  obtain ⟨p, hp⟩ := consistent_reachable conformed_le_faultyDriver h.reachable
  cases hst : s.core.mem.streaming with
  | false => exact ⟨_, _, _, V4L2State.exec_release.mpr (Or.inr ⟨hst, rfl, rfl, rfl⟩)⟩
  | true =>
      have hlt : lease.index < s.core.mem.buffers.length := by
        rw [hp.counted.buffers]
        exact hp.counted.inRange _ hl
      have hqbuf := conformed_qbuf_ok (n := bufs.length) (t := t)
        (k := s.core.mem.queuedPlanes lease.index) (hp.represents.notMem_queue hl)
      have hqueue := V4L2State.exec_queueLocked.mpr (Or.inr ⟨hlt, hqbuf, rfl⟩)
      exact ⟨_, _, _, V4L2State.exec_release.mpr (Or.inl ⟨hst, _, hqueue, rfl⟩)⟩

theorem Quiescent.drop_exists (h : s.Quiescent camera bufs) {id : ℕ} (hid : id ∈ s.frames) :
    ∃ log released s', Step (conformed bufs.length) camera s (.dropFrame id log released) s' ∧
      s'.frames = s.frames.erase id := by
  have ho := owned_reachable h.reachable
  obtain ⟨frame, hf, hl, _, _⟩ := ho.framed id hid
  by_cases hu : s.implUses id - 1 = 0
  · obtain ⟨log, mem, dev, hx⟩ := exec_release_exists h.toAlone hl
    have hshared := ho.shared h.alive hl
    exact ⟨_, _, _, .dropLast hid hu hf (.intro hx (.shared hshared)), rfl⟩
  · exact ⟨_, _, _, .dropShared hid hu, rfl⟩

theorem Quiescent.releases_exist (h : s.Quiescent camera bufs) :
    ∃ ls s', (captureSystem (conformed bufs.length) ∅ camera bufs).Run s ls s' ∧
      (∀ l ∈ ls, l.OnFrames) ∧ s'.frames = 0 := by
  induction hcard : s.frames.card generalizing s with
  | zero => exact ⟨[], s, rfl, by simp, Multiset.card_eq_zero.mp hcard⟩
  | succ k ih =>
      obtain ⟨id, hid⟩ := Multiset.card_pos_iff_exists_mem.mp (by omega : 0 < s.frames.card)
      obtain ⟨log, released, s₁, hs, hframes⟩ := h.drop_exists hid
      obtain ⟨h₁, _⟩ := h.client hs trivial
      have hcard₁ : s₁.frames.card = k := by
        rw [hframes, Multiset.card_erase_of_mem hid, hcard]
        rfl
      obtain ⟨ls, s', hr, hl, hzero⟩ := ih h₁ hcard₁
      refine ⟨.dropFrame id log released :: ls, s', ⟨s₁, hs, hr⟩, ?_, hzero⟩
      intro l hmem
      rcases List.mem_cons.mp hmem with rfl | hmem
      · trivial
      · exact hl l hmem

theorem exec_awaitFrame_timeout (n : ℕ) (t : CaptureType) (timeout : ℕ) (q : KernelQueue) :
    ∃ log e, Exec (conformed n) (V4L2State.awaitFrame t timeout 1) q log (.error e) q := by
  have hpoll : conformed n q (.poll timeout) ⟨timeout, .ok 0⟩ q :=
    retryIoctl_queueAnswers.mpr ⟨rfl, id⟩
  exact ⟨_, _, exec_request_bind.mpr ⟨⟨timeout, .ok 0⟩, q, [], hpoll, ⟨rfl, rfl, rfl⟩, rfl⟩⟩

theorem Quiescent.read_exists (h : s.Quiescent camera bufs) (timeoutMs : UInt32) :
    ∃ ms r s', ReadTrace timeoutMs ms r ∧
      (captureSystem (conformed bufs.length) ∅ camera bufs).Run s ms s' := by
  have hs : Step (conformed bufs.length) camera s (.enter 0 timeoutMs s.core.mem.readEntry) _ :=
    .enter h.alive h.idle
  rcases h.toAlone.readEntry_cases with ⟨_, he⟩ | ⟨_, he⟩
  · rw [he] at hs
    have hheld : s.stateUses ≠ 0 := by
      have hu := (owned_reachable h.reachable).stateUses
      rw [h.alive, if_pos rfl] at hu
      omega
    obtain ⟨log, e, hx⟩ := exec_awaitFrame_timeout bufs.length t (pollTimeout timeoutMs) s.core.dev
    have hphase : (s.setRead 0 (.polling (pollTimeout timeoutMs))).reads 0 =
        .polling (pollTimeout timeoutMs) := by simp [setRead]
    have hawait : Step (conformed bufs.length) camera
        (s.setRead 0 (.polling (pollTimeout timeoutMs))) (.await 0 log (.error e)) _ :=
      .await hheld hphase hx
    exact ⟨_, _, _, .notReady log e, _, hs, _, hawait, rfl⟩
  · rw [he] at hs
    exact ⟨_, _, _, .refused _, _, hs, rfl⟩

theorem Quiescent.stop_exists (h : s.Quiescent camera bufs) :
    ∃ log s', Step (conformed bufs.length) camera s (.stop log) s' := by
  have alive := h.alive
  cases hst : s.core.mem.streaming with
  | false =>
      exact ⟨_, _, .stop alive (V4L2State.exec_stopCapture.mpr (Or.inl ⟨hst, rfl, rfl, rfl⟩))⟩
  | true =>
      have hoff : conformed bufs.length s.core.dev (.ioctl (.streamoff t)) (.ok ()) ∅ :=
        retryIoctl_queueAnswers.mpr ⟨rfl, id⟩
      exact ⟨_, _, .stop alive (V4L2State.exec_stopCapture.mpr (Or.inr ⟨hst, _, hoff, rfl, rfl⟩))⟩

theorem v4l2_returns (h : s.Quiescent camera bufs) (c : Call) :
    ∃ o s', (v4l2Calls (captureSystem (conformed bufs.length) ∅ camera bufs)).step s (c, o) s' := by
  have hnone : (captureSystem (conformed bufs.length) ∅ camera bufs).Run s [] s := rfl
  cases c with
  | start =>
      obtain ⟨ls, s₁, hr, hl, hzero⟩ := h.releases_exist
      obtain ⟨h₁, _⟩ := h.clients hr hl
      obtain ⟨p, hp⟩ := consistent_reachable conformed_le_faultyDriver h₁.reachable
      have hc := Core.conforming_reachable (core_reachable h₁.reachable)
      obtain ⟨log, r, mem, dev, hx⟩ := hc.start_returns hp
      exact ⟨_, _, .start hr hl hzero (.start h₁.alive hx)⟩
  | read timeoutMs =>
      obtain ⟨ms, r, s', ht, hr⟩ := h.read_exists timeoutMs
      exact ⟨_, s', .read hnone (by simp) ht hr⟩
  | stop =>
      obtain ⟨log, s', hs⟩ := h.stop_exists
      exact ⟨_, s', .stop hnone (by simp) hs⟩

theorem quiescent_init (camera : V4L2Camera t) (bufs : List (BufferMemory t)) :
    Quiescent camera bufs { core := { mem := { buffers := bufs }, dev := ∅ } } where
  reachable := .init rfl
  alive := rfl
  others _ _ := rfl
  idle := rfl

theorem stop_inv {D : Device linux KernelQueue} (hs : Step D camera s (.stop log) s') :
    s'.core.mem.running = false ∧ (s.core.mem.running = false → log = [] ∧ s' = s) := by
  cases hs with
  | stop alive hx =>
      rcases V4L2State.exec_stopCapture.mp hx with ⟨hst, rfl, rfl, rfl⟩ | ⟨hst, x, _, rfl, rfl⟩
      · exact ⟨hst, fun _ => ⟨rfl, rfl⟩⟩
      · exact ⟨rfl, fun hoff => absurd (hst.symm.trans hoff) (by simp)⟩

end OneThread

end System

theorem SyntheticCamera.stop_of_not_running {s : SyntheticCamera} (h : s.running = false) :
    s.stop = s := by
  unfold stop
  rw [← h]

/-- The same calls show the same on both backends, whatever the driver and the clock do:
`running()` after each, and which of them throw `InvalidState`. Every sequence of calls
can be run on both, and `stop` does nothing to a camera that is not running. -/
theorem backends_agree {t : CaptureType} (bufs : List (BufferMemory t)) (camera : V4L2Camera t)
    (fl : Rounding) (recordsFail : Prop) {config : CaptureConfig} {synthetic : SyntheticCamera}
    (h : SyntheticCamera.make config = .ok synthetic) :
    let v4l2 := v4l2Calls (captureSystem (conformed bufs.length) ∅ camera bufs)
    let simulated := syntheticCalls fl (steadyClock recordsFail) synthetic
    (∀ events s events' s', v4l2.Trace events s → simulated.Trace events' s' →
      events.map Prod.fst = events'.map Prod.fst → events = events') ∧
    (∀ events s, v4l2.Trace events s →
      events.map Prod.snd = protocol false (events.map Prod.fst)) ∧
    (∀ calls, (∃ events s, v4l2.Trace events s ∧ events.map Prod.fst = calls) ∧
      ∃ events s, simulated.Trace events s ∧ events.map Prod.fst = calls) ∧
    (∀ s log s', System.Step (conformed bufs.length) camera s (.stop log) s' →
      s'.core.mem.running = false ∧ (s.core.mem.running = false → log = [] ∧ s' = s)) ∧
    (∀ s : SyntheticCamera, s.stop.running = false ∧ (s.running = false → s.stop = s)) := by
  obtain ⟨_, hrunning, _, hnext⟩ := SyntheticCamera.make_ok h
  have hv4l2 : ∀ events s,
      (v4l2Calls (captureSystem (conformed bufs.length) ∅ camera bufs)).Trace events s →
      events.map Prod.snd = protocol false (events.map Prod.fst) := by
    rintro events s ⟨s₀, rfl, hr⟩
    exact (System.v4l2_follows camera bufs).run (System.quiescent_init camera bufs) hr
  have hsynthetic : ∀ events s,
      (syntheticCalls fl (steadyClock recordsFail) synthetic).Trace events s →
      events.map Prod.snd = protocol false (events.map Prod.fst) := by
    rintro events s ⟨s₀, hinit, hr⟩
    obtain rfl : s₀.camera = synthetic := hinit
    rw [← hrunning]
    exact (synthetic_follows s₀.camera).run trivial hr
  refine ⟨?_, hv4l2, ?_, fun s log s' hs => System.stop_inv hs, ?_⟩
  · intro events s events' s' htr htr' hcalls
    have hobs : events.map Prod.snd = events'.map Prod.snd := by
      rw [hv4l2 events s htr, hsynthetic events' s' htr', hcalls]
    rw [List.zip_of_prod hcalls hobs]
    exact (List.zip_of_prod rfl rfl).symm
  · intro calls
    constructor
    · obtain ⟨events, s, hr, hcalls⟩ := run_exists (P := System.Quiescent camera bufs)
        (fun s c hq => by
          obtain ⟨o, s', hs⟩ := System.v4l2_returns hq c
          exact ⟨o, s', hs, (System.v4l2_follows camera bufs s c o s' hq hs).2.2⟩)
        calls (System.quiescent_init camera bufs)
      exact ⟨events, s, ⟨_, rfl, hr⟩, hcalls⟩
    · have hdue : synthetic.nextFrame ≤ (0 : Int64).toInt := by
        rw [hnext]
        rfl
      obtain ⟨events, s, hr, hcalls⟩ := run_exists
        (P := fun s : SyntheticSystem => s.camera.nextFrame ≤ s.clock.toInt)
        (synthetic_returns synthetic) calls (s := ⟨synthetic, 0⟩) hdue
      exact ⟨events, s, ⟨⟨synthetic, 0⟩, rfl, hr⟩, hcalls⟩
  · intro s
    exact ⟨rfl, SyntheticCamera.stop_of_not_running⟩

theorem backends_agree_sample : ∃ events s s',
    (v4l2Calls (captureSystem (conformed 2) ∅ sampleCamera sampleBuffers)).Trace events s ∧
    (syntheticCalls .exact (steadyClock True) syntheticSample).Trace events s' ∧
    events.map Prod.snd = [⟨false, true⟩, ⟨true, true⟩, ⟨false, false⟩, ⟨true, false⟩] := by
  have hmade : SyntheticCamera.make syntheticSampleConfig = .ok syntheticSample := rfl
  obtain ⟨hagree, hprotocol, hexists, _⟩ :=
    backends_agree sampleBuffers sampleCamera .exact True hmade
  obtain ⟨⟨events, s, htr, hcalls⟩, events', s', htr', hcalls'⟩ :=
    hexists [.start, .start, .stop, .read 100]
  obtain rfl := hagree events s events' s' htr htr' (hcalls.trans hcalls'.symm)
  refine ⟨events, s, s', htr, htr', ?_⟩
  rw [hprotocol events s htr, hcalls]
  rfl

end CameraCore
