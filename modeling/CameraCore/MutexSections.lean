import CameraCore.CriticalSections
import CameraCore.LeaseSafety

/-!
# The mutex of the shared state

The sections of `QueueProtocol` are single steps. Here they are taken apart: a thread locks the
mutex, makes its ioctls one by one, each again after an interruption, and unlocks it, while
other threads poll and allocate. The two views have the same states whenever the mutex is free,
and no thread is stuck with the mutex held.

Between two ioctls the kernel's queue is in a state no section starts or ends with. Even there
it holds no buffer of a live lease, but for the lease that is just being released.
-/

namespace CameraCore

open CriticalSections DeviceProgram LabelledSystem ResourcePool

/-- What is read and written with the mutex held, and the lease objects alive. -/
structure Guarded (t : CaptureType) where
  mem : V4L2State t
  leases : Finset Lease := ∅
  nextId : ℕ := 0

inductive Operation
  | start
  | dequeue
  | release (lease : Lease)
  | stop

inductive Outcome
  | started (result : Except Exception Unit)
  | dequeued (result : Except Exception V4L2Buffer)
  | released (lease : Lease)
  | stopped

variable {t : CaptureType} {σ : Type}

namespace Guarded

def core (g : Guarded t) (d : σ) : Core t σ := ⟨g.mem, d, g.leases, g.nextId⟩

def withLease (g : Guarded t) : Except Exception V4L2Buffer → Guarded t
  | .ok buffer =>
      { g with leases := insert ⟨g.nextId, buffer.index⟩ g.leases, nextId := g.nextId + 1 }
  | .error _ => g

/-- The code of an operation between `lock` and `unlock`. -/
def perform (g : Guarded t) : Operation → Syscalls (Outcome × Guarded t)
  | .start => do
      let (result, mem) ← g.mem.start
      pure (.started result, { g with mem := mem })
  | .dequeue => do
      let (result, mem) ← g.mem.dequeue
      pure (.dequeued result, { g with mem := mem }.withLease result)
  | .release lease => do
      let mem ← g.mem.release lease.index
      pure (.released lease, { g with mem := mem, leases := g.leases.erase lease })
  | .stop => do
      let mem ← g.mem.stopCapture
      pure (.stopped, { g with mem := mem })

/-- A lease is released once, by the destructor of its object. -/
def permits (g : Guarded t) : Operation → Prop
  | .release lease => lease ∈ g.leases
  | _ => True

end Guarded

def captureMonitor (t : CaptureType) : Monitor linux (Guarded t) Operation Outcome where
  enabled := Guarded.permits
  body := Guarded.perform

/-- The section an operation is, or the request made without the mutex. -/
def actSection : Act linux Operation Outcome → Section
  | .operation _ log (.started result) => .start log result
  | .operation _ log (.dequeued result) => .dequeue log result
  | .operation _ log (.released lease) => .release lease log
  | .operation _ log .stopped => .stop log
  | .outside e => .outside [e]

section Sections

variable {D : Device linux σ} {d d' d₀ : σ} {g g' : Guarded t} {c c' : Core t σ}
  {bufs : List (BufferMemory t)}

theorem core_step_of_atomic {act : Act linux Operation Outcome}
    (h : AtomicStep (captureMonitor t) D Request.Outside (g, d) act (g', d')) :
    Core.Step D (g.core d) (actSection act) (g'.core d') := by
  cases h with
  | @operation _ _ _ _ op log result he h =>
      cases op with
      | start =>
          obtain ⟨⟨r, mem⟩, d₁, log₁, log₂, hx, hend, rfl⟩ := exec_bind.mp h
          obtain ⟨rfl, hr, rfl⟩ := exec_pure.mp hend
          cases hr
          rw [List.append_nil]
          exact .start hx
      | dequeue =>
          obtain ⟨⟨r, mem⟩, d₁, log₁, log₂, hx, hend, rfl⟩ := exec_bind.mp h
          obtain ⟨rfl, hr, rfl⟩ := exec_pure.mp hend
          cases hr
          rw [List.append_nil]
          cases r with
          | ok buffer => exact .leased hx
          | error e => exact .dequeueFailed hx
      | release lease =>
          obtain ⟨mem, d₁, log₁, log₂, hx, hend, rfl⟩ := exec_bind.mp h
          obtain ⟨rfl, hr, rfl⟩ := exec_pure.mp hend
          cases hr
          rw [List.append_nil]
          exact .release he hx
      | stop =>
          obtain ⟨mem, d₁, log₁, log₂, hx, hend, rfl⟩ := exec_bind.mp h
          obtain ⟨rfl, hr, rfl⟩ := exec_pure.mp hend
          cases hr
          rw [List.append_nil]
          exact .stop hx
  | outside hr h =>
      have hx : Exec D (Program.request (I := linux) _) d [⟨_, _⟩] _ d' := exec_request.mpr ⟨h, rfl⟩
      refine .outside hx ?_
      intro e he
      rw [List.mem_singleton.mp he]
      exact hr

theorem exec_map_pure {α β : Type} {p : Syscalls α} {f : α → β} {log : Log} {a : α}
    (h : Exec D p d log a d') : Exec D (p >>= fun a => pure (f a)) d log (f a) d' :=
  exec_bind.mpr ⟨a, d', log, [], h, exec_pure.mpr ⟨rfl, rfl, rfl⟩, (List.append_nil log).symm⟩

theorem atomic_outside {α : Type} {p : Syscalls α} {a : α} {log : Log} (m₀ : Guarded t)
    (h : Exec D p d log a d') (hlog : ∀ e ∈ log, e.1.Outside) :
    (atomic (captureMonitor t) D Request.Outside m₀ d₀).Run (g, d) (log.map .outside)
      (g, d') := by
  induction p generalizing d log with
  | pure b =>
      obtain ⟨rfl, _, rfl⟩ := h
      rfl
  | call r next ih =>
      obtain ⟨x, d₁, log₁, hD, hrest, rfl⟩ := h
      rw [List.forall_mem_cons] at hlog
      exact ⟨_, .outside hlog.1 hD, ih x hrest hlog.2⟩
  | outOfFuel => exact h.elim

def Core.guarded (c : Core t σ) : Guarded t := ⟨c.mem, c.leases, c.nextId⟩

theorem atomic_run_of_core {l : Section} (m₀ : Guarded t) (h : Core.Step D c l c') :
    ∃ acts, (atomic (captureMonitor t) D Request.Outside m₀ d₀).Run (c.guarded, c.dev) acts
      (c'.guarded, c'.dev) := by
  cases h with
  | start h =>
      have hbody := exec_map_pure
        (f := fun x => (Outcome.started x.1, { c.guarded with mem := x.2 })) h
      exact ⟨[.operation .start _ _], run_singleton.mpr (.operation trivial hbody)⟩
  | leased h =>
      have hbody := exec_map_pure
        (f := fun x => (Outcome.dequeued x.1, { c.guarded with mem := x.2 }.withLease x.1)) h
      exact ⟨[.operation .dequeue _ _], run_singleton.mpr (.operation trivial hbody)⟩
  | dequeueFailed h =>
      have hbody := exec_map_pure
        (f := fun x => (Outcome.dequeued x.1, { c.guarded with mem := x.2 }.withLease x.1)) h
      exact ⟨[.operation .dequeue _ _], run_singleton.mpr (.operation trivial hbody)⟩
  | @release lease _ _ _ hl h =>
      have hbody := exec_map_pure
        (f := fun x => (Outcome.released lease,
          { c.guarded with mem := x, leases := c.leases.erase lease })) h
      exact ⟨[.operation (.release lease) _ _], run_singleton.mpr (.operation hl hbody)⟩
  | stop h =>
      have hbody := exec_map_pure (f := fun x => (Outcome.stopped, { c.guarded with mem := x })) h
      exact ⟨[.operation .stop _ _], run_singleton.mpr (.operation trivial hbody)⟩
  | outside h hlog => exact ⟨_, atomic_outside m₀ h hlog⟩

theorem core_trace_of_atomic {acts : List (Act linux Operation Outcome)}
    (h : (atomic (captureMonitor t) D Request.Outside { mem := { buffers := bufs } } d₀).Trace acts
      (g, d)) : (captureCore D d₀ bufs).Trace (acts.map actSection) (g.core d) := by
  apply h.induction (P := fun acts c => (captureCore D d₀ bufs).Trace (acts.map actSection)
    (c.1.core c.2))
  · intro c hc
    obtain rfl := hc
    exact .nil rfl
  · intro acts c act c' _ ht hs
    rw [List.map_append]
    exact ht.append (run_singleton.mpr (core_step_of_atomic hs))

theorem atomic_reachable_of_core (h : (captureCore D d₀ bufs).Reachable c) :
    (atomic (captureMonitor t) D Request.Outside { mem := { buffers := bufs } } d₀).Reachable
      (c.guarded, c.dev) := by
  apply h.induction (P := fun c => (atomic (captureMonitor t) D Request.Outside
    { mem := { buffers := bufs } } d₀).Reachable (c.guarded, c.dev))
  · intro c hc
    obtain rfl := hc
    exact .init rfl
  · intro c l c' _ ha hs
    obtain ⟨acts, hrun⟩ := atomic_run_of_core _ hs
    exact ha.run hrun

end Sections

section Queue

variable {bufs : List (BufferMemory t)} {outOfRange : ℕ → Prop}
  {mayFail : KernelQueue → Ioctl → Errno → Prop} {q q' : KernelQueue}

theorem inert_outside : Inert (queueAnswers outOfRange mayFail) Request.Outside where
  stays := by
    intro q r x q' hr h
    cases r with
    | poll timeout => exact h
    | allocate => exact h
    | _ => exact hr.elim
  anywhere := by
    intro q q₁ r x hr h
    cases r with
    | poll timeout => exact rfl
    | allocate => exact rfl
    | _ => exact hr.elim

def threadedCapture (bufs : List (BufferMemory t)) (D : Device linux KernelQueue) :
    LabelledSystem (Interleaving linux (Guarded t) Operation Outcome ℕ KernelQueue)
      (Move linux Operation Outcome ℕ) :=
  interleaved (captureMonitor t) D interrupted Request.Outside { mem := { buffers := bufs } } ∅

def completed (moves : List (Move linux Operation Outcome ℕ)) : List Section :=
  (moves.flatMap Move.acts).map actSection

theorem threaded_of_core {c : Core t KernelQueue}
    (h : (captureCore (retryIoctl (queueAnswers outOfRange mayFail)) ∅ bufs).Reachable c) :
    (threadedCapture bufs (queueAnswers outOfRange mayFail)).Reachable
      { mem := c.guarded, dev := c.dev } := by
  obtain ⟨acts, ht⟩ := atomic_reachable_of_core h
  obtain ⟨moves, hm, _⟩ := (histories_agree (θ := ℕ) inert_outside).mp ht
  exact ⟨moves, hm⟩

/-- Whatever the interleaving of the ioctls, what the threads complete is a history of whole
sections, and with the mutex free they are where that history leads; and every state of the core
is reached so. -/
theorem sections_atomic (bufs : List (BufferMemory t)) (outOfRange : ℕ → Prop)
    (mayFail : KernelQueue → Ioctl → Errno → Prop) :
    (∀ moves s, (threadedCapture bufs (queueAnswers outOfRange mayFail)).Trace moves s →
      ∃ c, (captureCore (retryIoctl (queueAnswers outOfRange mayFail)) ∅ bufs).Trace
          (completed moves) c ∧
        s.mem = c.guarded ∧ (s.lock = none → s.dev = c.dev)) ∧
    ∀ c, (captureCore (retryIoctl (queueAnswers outOfRange mayFail)) ∅ bufs).Reachable c →
      (threadedCapture bufs (queueAnswers outOfRange mayFail)).Reachable
        { mem := c.guarded, dev := c.dev } := by
  constructor
  · intro moves s h
    obtain ⟨⟨g, d⟩, ht, hb⟩ := interleaved_atomic inert_outside h
    refine ⟨g.core d, core_trace_of_atomic ht, ?_⟩
    cases hb with
    | free => exact ⟨rfl, fun _ => rfl⟩
    | held => exact ⟨rfl, nofun⟩
  · intro c h
    exact threaded_of_core h

theorem atMost_queueLocked (mem : V4L2State t) (index : ℕ) : AtMost 1 (mem.queueLocked index) := by
  unfold V4L2State.queueLocked
  split_ifs
  · exact atMost_pure 1 _
  · exact atMost_request _

theorem atMost_giveBack (mem : V4L2State t) (index : ℕ) : AtMost 1 (mem.giveBack index) := by
  apply (atMost_queueLocked mem index).bind (n := 0)
  intro x
  cases x <;> exact atMost_pure 0 _

theorem atMost_queueEach (mem : V4L2State t) (is : List ℕ) :
    AtMost is.length (mem.queueEach is) := by
  induction is with
  | nil => exact atMost_pure 0 _
  | cons index rest ih =>
      rw [List.length_cons, Nat.add_comm]
      apply (atMost_queueLocked mem index).bind
      intro x
      cases x with
      | ok u => exact ih
      | error e => exact atMost_pure _ _

theorem atMost_start (mem : V4L2State t) : AtMost (mem.buffers.length + 1) mem.start := by
  unfold V4L2State.start
  split_ifs
  · exact atMost_pure _ _
  · exact atMost_pure _ _
  · exact atMost_pure _ _
  · have hqueue := atMost_queueEach mem (List.range mem.buffers.length)
    rw [List.length_range] at hqueue
    apply hqueue.bind
    intro x
    cases x with
    | error e => exact atMost_pure 1 _
    | ok u =>
        apply (atMost_request _).bind (n := 0)
        intro y
        cases y <;> exact atMost_pure 0 _

theorem atMost_dequeue (mem : V4L2State t) : AtMost 3 mem.dequeue := by
  unfold V4L2State.dequeue
  split_ifs
  · exact atMost_pure 3 _
  · apply (atMost_request _).bind (n := 2)
    intro x
    cases x with
    | error e =>
        dsimp only
        split_ifs <;> exact atMost_pure 2 _
    | ok buffer =>
        dsimp only
        split_ifs
        · exact atMost_pure 2 _
        · apply (atMost_request _).bind (n := 1)
          intro ok
          cases ok with
          | true => exact atMost_pure 1 _
          | false => exact (atMost_giveBack _ _).bind (n := 0) fun _ => atMost_pure 0 _

theorem atMost_release (mem : V4L2State t) (index : ℕ) : AtMost 1 (mem.release index) := by
  unfold V4L2State.release
  dsimp only
  split_ifs
  all_goals first | exact atMost_giveBack _ _ | exact atMost_pure 1 _

theorem atMost_stopCapture (mem : V4L2State t) : AtMost 1 mem.stopCapture := by
  unfold V4L2State.stopCapture
  split_ifs
  · exact atMost_pure 1 _
  · exact (atMost_request _).bind (n := 0) fun _ => atMost_pure 0 _

/-- Every operation makes as many ioctls as `start` does, or the three of a dequeue that is
undone. -/
theorem atMost_perform (g : Guarded t) (op : Operation) :
    AtMost (max (g.mem.buffers.length + 1) 3) (g.perform op) := by
  cases op with
  | start =>
      have hstart := (atMost_start g.mem).bind (n := 0)
        fun x => atMost_pure 0 (Outcome.started x.1, { g with mem := x.2 })
      exact hstart.mono (le_max_left _ _)
  | dequeue =>
      have hdequeue := (atMost_dequeue g.mem).bind (n := 0)
        fun x => atMost_pure 0 (Outcome.dequeued x.1, { g with mem := x.2 }.withLease x.1)
      exact hdequeue.mono (le_max_right _ _)
  | release lease =>
      have hrelease := (atMost_release g.mem lease.index).bind (n := 0) fun mem =>
        atMost_pure 0 (Outcome.released lease,
          { g with mem := mem, leases := g.leases.erase lease })
      exact hrelease.mono (by omega)
  | stop =>
      have hstop := (atMost_stopCapture g.mem).bind (n := 0)
        fun mem => atMost_pure 0 (Outcome.stopped, { g with mem := mem })
      exact hstop.mono (by omega)

theorem behind_core {D : Device linux KernelQueue} (hinert : Inert D Request.Outside)
    {s : Interleaving linux (Guarded t) Operation Outcome ℕ KernelQueue}
    (h : (threadedCapture bufs D).Reachable s) :
    ∃ g d, (captureCore (retryIoctl D) ∅ bufs).Reachable (g.core d) ∧
      Behind (captureMonitor t) D interrupted s (g, d) := by
  obtain ⟨moves, ht⟩ := h
  obtain ⟨⟨g, d⟩, hc, hb⟩ := interleaved_atomic hinert ht
  exact ⟨g, d, ⟨_, core_trace_of_atomic hc⟩, hb⟩

theorem counted_reachable {σ : Type} {D : Device linux σ} {d₀ : σ} {c : Core t σ}
    (h : (captureCore D d₀ bufs).Reachable c) : c.Counted bufs := by
  apply h.induction (P := fun c => c.Counted bufs)
  · intro c hc
    obtain rfl := hc
    exact Core.counted_init
  · intro c l c' _ hc hs
    exact Core.counted_step hc hs

/-- Thread 1 is in the release of the one lease, after its `QBUF` and before the unlock. -/
theorem sampleReleasing_reachable : ∃ rest log,
    (threadedCapture sampleBuffers (faultyDriver sampleBuffers.length)).Reachable
      (.held sampleLeased.core.guarded {0, 1} 1 ⟨.release ⟨0, 0⟩, rest, log⟩) := by
  have hD : conformed 2 ≤ retryIoctl (faultyDriver 2) :=
    Retried.mono (conformingDriver_le_faultyDriver 2)
  have hcore : (captureCore (retryIoctl (faultyDriver sampleBuffers.length)) ∅
      sampleBuffers).Reachable sampleLeased.core :=
    System.core_reachable (captureSystem_mono hD sampleLeased_reachable)
  have hfree := threaded_of_core hcore
  have hacquire : (threadedCapture sampleBuffers (faultyDriver sampleBuffers.length)).step
      { mem := sampleLeased.core.guarded, dev := {1} } (.acquire 1 (.release ⟨0, 0⟩))
      (.held sampleLeased.core.guarded {1} 1
        ⟨.release ⟨0, 0⟩, sampleLeased.core.guarded.perform (.release ⟨0, 0⟩), []⟩) :=
    .acquire rfl (Finset.mem_singleton_self _)
  have hqbuf : faultyDriver sampleBuffers.length {1} (.ioctl (.qbuf 0 .videoCapture 0)) (.ok ())
      {0, 1} := ⟨by decide, rfl⟩
  exact ⟨_, _, (hfree.step hacquire).step (held_request hqbuf id)⟩

/-- The thread that has the mutex is alone inside, and on every path it unlocks the mutex after
at most `max (n + 1) 3` answers that are no interruptions, counted from the lock. -/
theorem mutex_released {s : Interleaving linux (Guarded t) Operation Outcome ℕ KernelQueue}
    {thread : ℕ} {r : Running linux (Guarded t) Operation Outcome}
    (h : (threadedCapture bufs (queueAnswers outOfRange mayFail)).Reachable s)
    (hr : s.threads thread = some r) :
    s.lock = some thread ∧ (∀ other, other ≠ thread → s.threads other = none) ∧
      r.log.length ≤ max (bufs.length + 1) 3 ∧
      AtMost (max (bufs.length + 1) 3 - r.log.length) r.rest := by
  obtain ⟨g, d, hc, hb⟩ := behind_core inert_outside h
  obtain ⟨hlock, _, hp, hs⟩ := hb.running hr
  have hbuffers : g.mem.buffers = bufs := (counted_reachable hc).buffers
  have hbound := hp.atMost (atMost_perform g r.op)
  rw [hbuffers] at hbound
  refine ⟨hlock, ?_, hbound⟩
  intro other hne
  rw [hs]
  simp only [Interleaving.held, Function.update_of_ne hne]

theorem mutex_released_sample : ∃ rest log,
    log.length ≤ 3 ∧ AtMost (3 - log.length) rest ∧
      (threadedCapture sampleBuffers (faultyDriver sampleBuffers.length)).Reachable
        (.held sampleLeased.core.guarded {0, 1} 1 ⟨.release ⟨0, 0⟩, rest, log⟩) := by
  obtain ⟨rest, log, h⟩ := sampleReleasing_reachable
  obtain ⟨_, _, hlog, hrest⟩ := mutex_released h (held_threads _ _ _ _)
  exact ⟨rest, log, hlog, hrest, h⟩

section Inside

variable {n index : ℕ} {A : ℕ → Prop} {mem : V4L2State t}

abbrev KeepsQueue {α : Type} (n : ℕ) (A : ℕ → Prop) (p : Syscalls α) (q : KernelQueue) : Prop :=
  Keeps (faultyDriver n) (fun q => ∀ i ∈ q, A i) (fun _ _ => True) p q

theorem keeps_queueLocked (hA : A index) (hq : ∀ i ∈ q, A i) :
    KeepsQueue n A (mem.queueLocked index) q := by
  unfold V4L2State.queueLocked
  split_ifs
  · exact keeps_pure hq trivial
  · refine ⟨hq, fun x q' hD => ⟨?_, trivial⟩⟩
    cases x with
    | ok u =>
        obtain ⟨_, rfl⟩ := hD
        intro i hi
        rcases Finset.mem_insert.mp hi with rfl | hi
        · exact hA
        · exact hq i hi
    | error e =>
        obtain ⟨_, rfl⟩ := hD
        exact hq

theorem keeps_giveBack (hA : A index) (hq : ∀ i ∈ q, A i) :
    KeepsQueue n A (mem.giveBack index) q := by
  apply (keeps_queueLocked hA hq).bind
  intro x q' hq' _
  cases x <;> exact keeps_pure hq' trivial

theorem keeps_queueEach {is : List ℕ} (hA : ∀ i ∈ is, A i) (hq : ∀ i ∈ q, A i) :
    KeepsQueue n A (mem.queueEach is) q := by
  induction is generalizing q with
  | nil => exact keeps_pure hq trivial
  | cons index rest ih =>
      rw [List.forall_mem_cons] at hA
      apply (keeps_queueLocked hA.1 hq).bind
      intro x q' hq' _
      cases x with
      | ok u => exact ih hA.2 hq'
      | error e => exact keeps_pure hq' trivial

theorem keeps_start (hA : ¬ mem.Refuses → ∀ i, A i) (hq : ∀ i ∈ q, A i) :
    KeepsQueue n A mem.start q := by
  by_cases hr : mem.Refuses
  · obtain ⟨text, he⟩ := V4L2State.start_of_refuses hr
    rw [he]
    exact keeps_pure hq trivial
  · rw [V4L2State.start_of_not_refuses hr]
    apply (keeps_queueEach (fun i _ => hA hr i) hq).bind
    intro x q' hq' _
    cases x with
    | error e => exact keeps_pure hq' trivial
    | ok u =>
        have hstreamon : KeepsQueue n A (ioctl (.streamon t)) q' := by
          exact ⟨hq', fun y q₁ _ => ⟨fun i _ => hA hr i, trivial⟩⟩
        apply hstreamon.bind
        intro y q₁ hq₁ _
        cases y <;> exact keeps_pure hq₁ trivial

theorem keeps_dequeue (hn : mem.buffers.length = n) (hq : ∀ i ∈ q, A i) :
    KeepsQueue n A mem.dequeue q := by
  unfold V4L2State.dequeue
  split_ifs
  · exact keeps_pure hq trivial
  · have hdqbuf : Keeps (faultyDriver n) (fun q => ∀ i ∈ q, A i)
        (fun x _ => ∀ buffer, x = .ok buffer → buffer.index < n → A buffer.index)
        (ioctl (.dqbuf t)) q := by
      refine ⟨hq, fun x q' hD => ?_⟩
      cases x with
      | error e =>
          obtain ⟨_, rfl⟩ := hD
          exact ⟨hq, nofun⟩
      | ok buffer =>
          rcases hD with ⟨hmem, rfl⟩ | ⟨hout, hsub⟩
          · refine ⟨fun i hi => hq i (Finset.mem_of_mem_erase hi), ?_⟩
            intro b hb _
            cases hb
            exact hq _ hmem
          · refine ⟨fun i hi => hq i (hsub hi), ?_⟩
            intro b hb hlt
            cases hb
            have hle : n ≤ buffer.index := hout
            omega
    apply hdqbuf.bind
    intro x q' hq' hx
    cases x with
    | error e =>
        dsimp only
        split_ifs <;> exact keeps_pure hq' trivial
    | ok buffer =>
        dsimp only
        split_ifs with hrange
        · exact keeps_pure hq' trivial
        · have hA : A buffer.index := hx buffer rfl (by omega)
          have hallocate : KeepsQueue n A allocate q' := by
            refine ⟨hq', fun ok q₁ hD => ?_⟩
            obtain rfl := hD
            exact ⟨hq', trivial⟩
          apply hallocate.bind
          intro ok q₁ hq₁ _
          cases ok with
          | true => exact keeps_pure hq₁ trivial
          | false =>
              apply (keeps_giveBack hA hq₁).bind
              intro mem' q₂ hq₂ _
              exact keeps_pure hq₂ trivial

theorem keeps_release (hA : A index) (hq : ∀ i ∈ q, A i) :
    KeepsQueue n A (mem.release index) q := by
  unfold V4L2State.release
  dsimp only
  split_ifs
  all_goals first | exact keeps_giveBack hA hq | exact keeps_pure hq trivial

theorem keeps_stopCapture (hq : ∀ i ∈ q, A i) : KeepsQueue n A mem.stopCapture q := by
  unfold V4L2State.stopCapture
  split_ifs
  · exact keeps_pure hq trivial
  · have hstreamoff : KeepsQueue n A (ioctl (.streamoff t)) q := by
      refine ⟨hq, fun x q' hD => ⟨?_, trivial⟩⟩
      cases x with
      | ok u =>
          obtain rfl := hD
          simp
      | error e =>
          obtain ⟨_, rfl⟩ := hD
          exact hq
    apply hstreamoff.bind
    intro x q' hq' _
    exact keeps_pure hq' trivial

/-- The buffers an operation may have in the queue: those of no lease, or of the lease it
releases. -/
def Guarded.Queueable (g : Guarded t) (op : Operation) (i : ℕ) : Prop :=
  ∀ l ∈ g.leases, l.index = i → op = .release l

theorem keeps_perform {g : Guarded t} {op : Operation} {p : ℕ → Place}
    (h : (g.core q).Consistent bufs p) (he : g.permits op) :
    KeepsQueue bufs.length (g.Queueable op) (g.perform op) q := by
  have hq : ∀ i ∈ q, g.Queueable op i := by
    rintro i hi l hl rfl
    exact absurd hi (h.represents.notMem_queue hl)
  cases op with
  | start =>
      have hA : ¬ g.mem.Refuses → ∀ i, g.Queueable .start i := by
        intro hr i l hl _
        have hnone : g.leases = ∅ :=
          h.counted.leases_empty (not_not.mp fun ho => hr (Or.inr (Or.inr ho)))
        rw [hnone] at hl
        cases hl
      exact (keeps_start hA hq).bind fun x q' hq' _ => keeps_pure hq' trivial
  | dequeue =>
      have hn : g.mem.buffers.length = bufs.length := congrArg List.length h.counted.buffers
      exact (keeps_dequeue hn hq).bind fun x q' hq' _ => keeps_pure hq' trivial
  | release lease =>
      have hA : g.Queueable (.release lease) lease.index := by
        intro l hl hi
        rw [h.represents.injOn hl he hi]
      exact (keeps_release hA hq).bind fun x q' hq' _ => keeps_pure hq' trivial
  | stop => exact (keeps_stopCapture hq).bind fun x q' hq' _ => keeps_pure hq' trivial

end Inside

/-- Wherever the threads stand, also between two ioctls of a section: a buffer some lease holds
is in the kernel's queue only if that lease is being released, and no other lease holds it. -/
theorem leased_between_ioctls
    {s : Interleaving linux (Guarded t) Operation Outcome ℕ KernelQueue}
    (h : (threadedCapture bufs (faultyDriver bufs.length)).Reachable s) :
    (∀ l ∈ s.mem.leases, l.index ∈ s.dev →
      ∃ thread r, s.threads thread = some r ∧ r.op = .release l) ∧
      ∀ l ∈ s.mem.leases, ∀ m ∈ s.mem.leases, l.index = m.index → l = m := by
  obtain ⟨g, d, hc, hb⟩ := behind_core inert_outside h
  obtain ⟨p, hp⟩ := Core.consistent_reachable (faultyDriver_retry_le _) hc
  cases hb with
  | free =>
      refine ⟨fun l hl hi => ?_, fun l hl m hm he => hp.represents.injOn hl hm he⟩
      exact absurd hi (hp.represents.notMem_queue hl)
  | held he hprogress =>
      refine ⟨fun l hl hi => ?_, fun l hl m hm he => hp.represents.injOn hl hm he⟩
      have hkept := hprogress.keeps (keeps_perform hp he) fun _ _ _ _ hx hD =>
        queueAnswers_interrupted hx hD
      exact ⟨_, _, held_threads _ _ _ _, hkept.now l.index hi l hl rfl⟩

theorem leased_between_ioctls_sample : ∃ rest log,
    (⟨0, 0⟩ : Lease) ∈ sampleLeased.core.guarded.leases ∧ ∃ thread r,
      (Interleaving.held sampleLeased.core.guarded ({0, 1} : KernelQueue) 1
        ⟨.release ⟨0, 0⟩, rest, log⟩ : Interleaving linux (Guarded .videoCapture) Operation
          Outcome ℕ KernelQueue).threads thread = some r ∧ r.op = .release ⟨0, 0⟩ := by
  obtain ⟨rest, log, h⟩ := sampleReleasing_reachable
  obtain ⟨hinside, _⟩ := leased_between_ioctls h
  have hl : (⟨0, 0⟩ : Lease) ∈ sampleLeased.core.guarded.leases := Finset.mem_singleton_self _
  exact ⟨rest, log, hl, hinside ⟨0, 0⟩ hl (Finset.mem_insert_self 0 _)⟩

end Queue

end CameraCore
