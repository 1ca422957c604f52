import CameraCore.SingleThread

/-!
# The calls of the V4L2 camera on one thread

A thread that is alone with its camera sees each call as one piece: a `read` from its entry check
to the frame it returns, the end of a frame, the destructors of the camera and of the state it was
the last to share. Each call is written as a program. Its executions are the runs of the system in
which the steps of no other thread come between, so what holds of the system holds here.
-/

namespace CameraCore

open DeviceProgram LabelledSystem

variable {t : CaptureType} {σ : Type}

/-- The state behind a camera, and the number its next lease gets. -/
structure V4L2Object (t : CaptureType) where
  state : V4L2State t
  nextId : ℕ := 0

namespace V4L2Camera

/-- The end of `read`, where the frame is built and the lease is given back if that fails. The
dequeue has checked the index, so the buffer exists. -/
def holdFrame (camera : V4L2Camera t) (s : V4L2Object t) (buffer : V4L2Buffer) :
    Syscalls (Except Exception V4L2Frame × V4L2Object t) :=
  let lease : Lease := ⟨s.nextId, buffer.index⟩
  match s.state.buffers[buffer.index]? with
  | none => .outOfFuel
  | some memory => do
      match ← camera.buildFrame memory buffer lease with
      | .ok frame => pure (.ok frame, { s with nextId := s.nextId + 1 })
      | .error e =>
          let state ← s.state.release lease.index
          pure (.error e, { state := state, nextId := s.nextId + 1 })

def read (camera : V4L2Camera t) (fuel : ℕ) (s : V4L2Object t) (timeoutMs : UInt32) :
    Syscalls (Except Exception V4L2Frame × V4L2Object t) :=
  match s.state.readEntry with
  | .error e => pure (.error e, s)
  | .ok _ => do
      match ← V4L2State.awaitFrame t (pollTimeout timeoutMs) fuel with
      | .error e => pure (.error e, s)
      | .ok _ =>
          match ← s.state.dequeue with
          | (.error e, state) => pure (.error e, { s with state := state })
          | (.ok buffer, state) => camera.holdFrame { s with state := state } buffer

end V4L2Camera

namespace V4L2Object

def start (s : V4L2Object t) : Syscalls (Except Exception Unit × V4L2Object t) := do
  let (r, state) ← s.state.start
  pure (r, { s with state := state })

def stop (s : V4L2Object t) : Syscalls (V4L2Object t) := do
  let state ← s.state.stopCapture
  pure { s with state := state }

/-- The last copy of a frame is destroyed, and with it the lease. -/
def release (s : V4L2Object t) (frame : V4L2Frame) : Syscalls (V4L2Object t) := do
  let state ← s.state.release frame.lease.index
  pure { s with state := state }

/-- `~V4L2Camera` and, when no frame is left, `~V4L2State`. -/
def destroy (s : V4L2Object t) : Syscalls (V4L2Object t) := do
  let state ← s.state.stopCapture
  let state ← state.destroy
  pure { s with state := state }

end V4L2Object

namespace System

def object (s : System t σ) : V4L2Object t := ⟨s.core.mem, s.core.nextId⟩

/-- No call is under way, and the thread holds this frame and no other, or none. -/
structure Rests (held : Option V4L2Frame) (s : System t σ) : Prop where
  alive : s.cameraAlive = true
  idle : ∀ r, s.reads r = .idle
  frames : s.frames = held.elim 0 fun frame => {frame.lease.id}
  leases : s.core.leases = held.elim ∅ fun frame => {frame.lease}
  record : ∀ frame, held = some frame → s.impls frame.lease.id = some frame

def handedOut : Label → System t σ → Option (V4L2Frame × σ)
  | .returnFrame _ _ frame, s => some (frame, s.core.dev)
  | _, _ => none

/-- The system takes steps with these calls of the device, which hand out these frames, and comes
to rest with this object. -/
def Performs (D : Device linux σ) (camera : V4L2Camera t) (d₀ : σ) (bufs : List (BufferMemory t))
    (s : System t σ) (log : Log) (handed : List (V4L2Frame × σ)) (object : V4L2Object t) (d : σ)
    (held : Option V4L2Frame) : Prop :=
  ∃ ls s', (captureSystem D d₀ camera bufs).Observed handedOut s ls handed s' ∧
    ls.flatMap Label.log = log ∧ s'.object = object ∧ s'.core.dev = d ∧ s'.Rests held

variable {D : Device linux σ} {d₀ d' : σ} {camera : V4L2Camera t} {bufs : List (BufferMemory t)}
  {s : System t σ} {o' : V4L2Object t} {log : Log} {held : Option V4L2Frame} {frame : V4L2Frame}

theorem rests_init (d₀ : σ) :
    Rests none ({ core := { mem := { buffers := bufs }, dev := d₀ } } : System t σ) where
  alive := rfl
  idle _ := rfl
  frames := rfl
  leases := rfl
  record _ h := by cases h

theorem Rests.withMem (h : s.Rests held) (mem : V4L2State t) (dev : σ) :
    (s.withMem mem dev).Rests held := ⟨h.alive, h.idle, h.frames, h.leases, h.record⟩

theorem Rests.stateUses (h : s.Rests held) (ho : s.OwnedBy bufs 0) :
    s.stateUses = (if held.isSome then 1 else 0) + 1 := by
  have hu := ho.stateUses
  rw [h.leases, h.alive] at hu
  cases held with
  | none => simpa using hu
  | some frame => simpa using hu

theorem setRead_idle (h : ∀ r, s.reads r = .idle) (r : ℕ) : s.setRead r .idle = s := by
  have hsame : Function.update s.reads r .idle = s.reads := by
    rw [← h r]
    exact Function.update_eq_self r s.reads
  unfold setRead
  rw [hsame]

theorem performs_step {l : Label} {s' : System t σ}
    (h : (captureSystem D d₀ camera bufs).step s l s') (ho : s'.object = o')
    (hrests : s'.Rests held) :
    Performs D camera d₀ bufs s l.log (handedOut l s').toList o' s'.core.dev held :=
  ⟨[l], s', .single h, List.append_nil _, ho, rfl, hrests⟩

theorem performs_start {r : Except Exception Unit} (h : s.Rests held)
    (hx : Exec D s.object.start s.core.dev log (r, o') d') :
    Performs D camera d₀ bufs s log [] o' d' held := by
  obtain ⟨⟨x, mem⟩, d₁, log₁, log₂, hstart, hend, rfl⟩ := exec_bind.mp hx
  obtain ⟨rfl, he, rfl⟩ := exec_pure.mp hend
  cases he
  have hstep : (captureSystem D d₀ camera bufs).step s (.start log₁ r) _ := .start h.alive hstart
  rw [List.append_nil]
  exact performs_step hstep rfl (h.withMem _ _)

theorem performs_stop (h : s.Rests held) (hx : Exec D s.object.stop s.core.dev log o' d') :
    Performs D camera d₀ bufs s log [] o' d' held := by
  obtain ⟨mem, d₁, log₁, log₂, hstop, hend, rfl⟩ := exec_bind.mp hx
  obtain ⟨rfl, rfl, rfl⟩ := exec_pure.mp hend
  have hstep : (captureSystem D d₀ camera bufs).step s (.stop log₁) _ := .stop h.alive hstop
  rw [List.append_nil]
  exact performs_step hstep rfl (h.withMem _ _)

theorem performs_release (h : s.Rests (some frame)) (ho : s.OwnedBy bufs 0)
    (hx : Exec D (s.object.release frame) s.core.dev log o' d') :
    Performs D camera d₀ bufs s log [] o' d' none := by
  obtain ⟨mem, d₁, log₁, log₂, hrelease, hend, rfl⟩ := exec_bind.mp hx
  obtain ⟨rfl, rfl, rfl⟩ := exec_pure.mp hend
  have hid : frame.lease.id ∈ s.frames := by
    rw [h.frames]
    exact Multiset.mem_singleton_self _
  have huses : s.implUses frame.lease.id - 1 = 0 := by
    rw [ho.implUses, h.frames]
    simp
  have hstate := h.stateUses ho
  have hdrop : DropState D ({ s with
      impls := Function.update s.impls frame.lease.id none
      implUses := Function.update s.implUses frame.lease.id 0
      frames := s.frames.erase frame.lease.id
      core := { s.core with mem := mem, dev := d', leases := s.core.leases.erase frame.lease } })
      [] _ := .shared (by simp [hstate])
  have hstep : (captureSystem D d₀ camera bufs).step s
      (.dropFrame frame.lease.id (log₁ ++ []) (some frame.lease)) _ :=
    .dropLast hid huses (h.record frame rfl) (.intro hrelease hdrop)
  exact performs_step hstep rfl
    ⟨h.alive, h.idle, by simp [h.frames], by simp [h.leases], fun _ hf => by cases hf⟩

def returned : Except Exception V4L2Frame → Option V4L2Frame
  | .ok frame => some frame
  | .error _ => none

def handedBy (r : Except Exception V4L2Frame) (d : σ) : List (V4L2Frame × σ) :=
  (returned r).toList.map fun frame => (frame, d)

theorem setRead_reads (s : System t σ) (r : ℕ) (p : ReadPhase) : (s.setRead r p).reads r = p := by
  simp [setRead]

theorem idle_setRead (h : ∀ r, r ≠ 0 → s.reads r = .idle) (r : ℕ) :
    (s.setRead 0 .idle).reads r = .idle := by
  by_cases hr : r = 0
  · subst hr
    exact setRead_reads s 0 .idle
  · exact (Function.update_of_ne hr _ _).trans (h r hr)

structure Reads (p : ReadPhase) (s : System t σ) : Prop where
  alive : s.cameraAlive = true
  phase : s.reads 0 = p
  others : ∀ r, r ≠ 0 → s.reads r = .idle
  frames : s.frames = 0
  leases : s.core.leases = p.lease.elim (∅ : Finset Lease) fun lease => {lease}
  stateUses : s.stateUses = s.core.leases.card + 1

theorem Reads.shared {p : ReadPhase} (h : s.Reads p) : s.stateUses ≠ 0 := by
  rw [h.stateUses]
  exact Nat.succ_ne_zero _

theorem Reads.next {p p' : ReadPhase} (h : s.Reads p) (hp : p.lease = none)
    (hp' : p'.lease = none) (dev : σ) :
    ((s.withMem s.core.mem dev).setRead 0 p').Reads p' where
  alive := h.alive
  phase := setRead_reads _ 0 p'
  others r hr := (Function.update_of_ne hr _ _).trans (h.others r hr)
  frames := h.frames
  leases := by
    rw [hp']
    have hl := h.leases
    rw [hp] at hl
    exact hl
  stateUses := h.stateUses

theorem Reads.rests {p : ReadPhase} (h : s.Reads p) (hp : p.lease = none)
    (mem : V4L2State t) (dev : σ) : ((s.withMem mem dev).setRead 0 .idle).Rests none where
  alive := h.alive
  idle := idle_setRead h.others
  frames := h.frames
  leases := by
    have hl := h.leases
    rw [hp] at hl
    exact hl
  record _ hf := by cases hf

theorem Reads.leased {buffer : V4L2Buffer} (h : s.Reads .ready) (mem : V4L2State t) (dev : σ) :
    Reads (.holding ⟨s.core.nextId, buffer.index⟩ buffer)
      { s.setRead 0 (.holding ⟨s.core.nextId, buffer.index⟩ buffer) with
        core := { s.core with mem := mem, dev := dev }.withLease buffer.index
        stateUses := s.stateUses + 1 } where
  alive := h.alive
  phase := setRead_reads s 0 _
  others r hr := (Function.update_of_ne hr _ _).trans (h.others r hr)
  frames := h.frames
  leases := by
    change insert _ s.core.leases = _
    rw [h.leases]
    rfl
  stateUses := by
    change s.stateUses + 1 = (insert _ s.core.leases).card + 1
    rw [h.stateUses, h.leases]
    rfl

theorem performs_holdFrame {buffer : V4L2Buffer} {n : ℕ} {r : Except Exception V4L2Frame}
    (h : s.Reads (.holding ⟨n, buffer.index⟩ buffer)) (hn : s.core.nextId = n + 1)
    (hx : Exec D (camera.holdFrame ⟨s.core.mem, n⟩ buffer) s.core.dev log (r, o') d') :
    Performs D camera d₀ bufs s log (handedBy r d') o' d' (returned r) := by
  unfold V4L2Camera.holdFrame at hx
  dsimp only at hx
  cases hm : s.core.mem.buffers[buffer.index]? with
  | none =>
      rw [hm] at hx
      exact hx.elim
  | some memory =>
      rw [hm] at hx
      obtain ⟨x, d₁, log₁, log₂, hbuild, hrest, rfl⟩ := exec_bind.mp hx
      cases x with
      | ok frame =>
          obtain ⟨rfl, he, rfl⟩ := exec_pure.mp hrest
          cases he
          have hlease := (V4L2Camera.buildFrame_ok hbuild).2.1
          have hid : frame.lease.id = n := by rw [hlease]
          have hstep : (captureSystem D d₀ camera bufs).step s (.returnFrame 0 log₁ frame) _ :=
            .returnFrame h.phase hm hbuild
          rw [List.append_nil]
          refine performs_step hstep ?_ ?_
          · unfold object
            exact congrArg (V4L2Object.mk _) hn
          · refine ⟨h.alive, idle_setRead h.others, ?_, ?_, ?_⟩
            · change n ::ₘ s.frames = {frame.lease.id}
              rw [h.frames, hid]
              rfl
            · change s.core.leases = {frame.lease}
              rw [h.leases, hlease]
              rfl
            · intro frame' hf
              cases hf
              rw [hid]
              exact Function.update_self _ _ _
      | error e =>
          obtain ⟨mem, d₂, log₃, log₄, hrelease, hend, rfl⟩ := exec_bind.mp hrest
          obtain ⟨rfl, he, rfl⟩ := exec_pure.mp hend
          cases he
          have huses := h.stateUses
          rw [h.leases] at huses
          have hdrop : DropState D ({ (s.withMem s.core.mem d₁).setRead 0 .idle with
              core := { s.core with mem := mem, dev := d',
                                    leases := s.core.leases.erase ⟨n, buffer.index⟩ } })
              [] _ := .shared (by
                change s.stateUses - 1 ≠ 0
                rw [huses]
                exact Nat.one_ne_zero)
          have hstep : (captureSystem D d₀ camera bufs).step s
              (.unwind 0 (log₁ ++ (log₃ ++ [])) ⟨n, buffer.index⟩ e) _ :=
            .unwind h.phase hm hbuild (.intro hrelease hdrop)
          refine performs_step hstep ?_ ?_
          · unfold object
            exact congrArg (V4L2Object.mk _) hn
          · refine ⟨h.alive, idle_setRead h.others, h.frames, ?_, fun _ hf => by cases hf⟩
            change s.core.leases.erase ⟨n, buffer.index⟩ = ∅
            rw [h.leases]
            simp [ReadPhase.lease]

theorem performs_read {fuel : ℕ} {timeoutMs : UInt32} {r : Except Exception V4L2Frame}
    (h : s.Rests none) (ho : s.OwnedBy bufs 0)
    (hx : Exec D (camera.read fuel s.object timeoutMs) s.core.dev log (r, o') d') :
    Performs D camera d₀ bufs s log (handedBy r d') o' d' (returned r) := by
  have henter : (captureSystem D d₀ camera bufs).step s (.enter 0 timeoutMs _) _ :=
    .enter h.alive (h.idle 0)
  unfold V4L2Camera.read at hx
  cases hentry : s.object.state.readEntry with
  | error e =>
      have hcore : s.core.mem.readEntry = .error e := hentry
      rw [hentry] at hx
      obtain ⟨rfl, he, rfl⟩ := exec_pure.mp hx
      cases he
      rw [hcore, entered, setRead_idle h.idle] at henter
      exact performs_step henter rfl h
  | ok u =>
      have hcore : s.core.mem.readEntry = .ok u := hentry
      rw [hentry] at hx
      rw [hcore] at henter
      have hpolling : (s.setRead 0 (entered timeoutMs (.ok u))).Reads
          (.polling (pollTimeout timeoutMs)) := by
        refine ⟨h.alive, setRead_reads s 0 _, fun r hr => ?_, h.frames, h.leases, ?_⟩
        · exact (Function.update_of_ne hr _ _).trans (h.idle r)
        · have huses := h.stateUses ho
          change s.stateUses = s.core.leases.card + 1
          rw [h.leases]
          exact huses
      obtain ⟨x, d₁, log₁, log₂, hawait, hrest, rfl⟩ := exec_bind.mp hx
      have hawaited : (captureSystem D d₀ camera bufs).step _ (.await 0 log₁ x) _ :=
        .await hpolling.shared hpolling.phase hawait
      have hrun : (captureSystem D d₀ camera bufs).Observed handedOut s _ [] _ :=
        (Observed.single henter).trans (.single hawaited)
      cases x with
      | error e =>
          obtain ⟨rfl, he, rfl⟩ := exec_pure.mp hrest
          cases he
          exact ⟨_, _, hrun, by simp [Label.log], rfl, rfl, hpolling.rests rfl _ _⟩
      | ok u₁ =>
          have hready : Reads .ready _ := hpolling.next rfl rfl d₁
          obtain ⟨⟨y, mem⟩, d₂, log₃, log₄, hdequeue, hlast, rfl⟩ := exec_bind.mp hrest
          cases y with
          | error e =>
              obtain ⟨rfl, he, rfl⟩ := exec_pure.mp hlast
              cases he
              have hfailed : (captureSystem D d₀ camera bufs).step _
                  (.dequeue 0 log₃ (.error e)) _ :=
                .dequeueFailed hready.shared hready.phase hdequeue
              have hall : (captureSystem D d₀ camera bufs).Observed handedOut s _ [] _ :=
                hrun.trans (.single hfailed)
              exact ⟨_, _, hall, by simp [Label.log], rfl, rfl, hready.rests rfl _ _⟩
          | ok buffer =>
              have hleased : (captureSystem D d₀ camera bufs).step _
                  (.dequeue 0 log₃ (.ok buffer)) _ :=
                .leased hready.shared hready.phase hdequeue
              have hholding : Reads (.holding ⟨s.core.nextId, buffer.index⟩ buffer) _ :=
                hready.leased mem d₂
              have hheld : Performs D camera d₀ bufs _ _ _ _ _ _ :=
                performs_holdFrame hholding rfl hlast
              obtain ⟨ls, s', hrest, hlog, hobject, hdev, hrests⟩ := hheld
              have hbefore : (captureSystem D d₀ camera bufs).Observed handedOut s _ [] _ :=
                hrun.trans (.single hleased)
              refine ⟨_, s', hbefore.trans hrest, ?_, hobject, hdev, hrests⟩
              simp [Label.log, hlog]

theorem exec_destroy (h : s.Rests none) (ho : s.OwnedBy bufs 0)
    (hx : Exec D s.object.destroy s.core.dev log o' d') :
    ∃ s', (captureSystem D d₀ camera bufs).step s (.destroyCamera log) s' ∧
      s'.object = o' ∧ s'.core.dev = d' ∧ s'.cameraAlive = false ∧ s'.core.leases = ∅ := by
  obtain ⟨mem, d₁, log₁, log₂, hstop, hrest, rfl⟩ := exec_bind.mp hx
  obtain ⟨mem', d₂, log₃, log₄, hdestroy, hend, rfl⟩ := exec_bind.mp hrest
  obtain ⟨rfl, rfl, rfl⟩ := exec_pure.mp hend
  have huses : s.stateUses = 1 := h.stateUses ho
  have hlast : s.stateUses - 1 = 0 := by omega
  rw [List.append_nil]
  exact ⟨_, .destroyCamera h.alive hstop (.last hlast hdestroy), rfl, rfl, rfl, h.leases⟩

end System

end CameraCore
