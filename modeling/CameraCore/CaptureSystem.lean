import Mathlib.Data.Multiset.Count
import CameraCore.ConformingDriver
import CameraCore.PlaneConstruction

/-!
# A camera, its readers and the frames of its clients

The whole system around one V4L2 camera: any number of `read` calls in flight, the
`Frame` values held by clients, the records and leases behind them, and the three
kinds of owners of the shared state with their use counts. A step is one critical
section or one operation on frame values; the steps of different threads interleave
freely.

A use count that drops to zero runs the destructor in the same step: the object is
then out of reach of every other thread until the destructor takes the mutex. The
steps of a `read` that is in flight while its camera is destroyed go on as long as
the shared state exists; `project` shows that every step is a run of the core.
-/

namespace CameraCore

open DeviceProgram

abbrev V4L2Frame := FrameImpl ℕ Lease

/-- Where a `read` call of a thread stands between its critical sections. -/
inductive ReadPhase
  | idle
  | polling (timeout : ℕ)
  | ready
  | holding (lease : Lease) (buffer : V4L2Buffer)

def ReadPhase.lease : ReadPhase → Option Lease
  | .holding lease _ => some lease
  | _ => none

def intMax : ℕ := 2 ^ 31 - 1

def pollTimeout (timeoutMs : UInt32) : ℕ :=
  if timeoutMs.toNat > intMax then intMax else timeoutMs.toNat

/-- `impls` and `implUses` are the records behind the frames and their use counts,
named by the lease each of them owns; `frames` are the `Frame` values alive. -/
structure System (t : CaptureType) (σ : Type) where
  core : Core t σ
  cameraAlive : Bool := true
  stateUses : ℕ := 1
  reads : ℕ → ReadPhase := fun _ => .idle
  impls : ℕ → Option V4L2Frame := fun _ => none
  implUses : ℕ → ℕ := fun _ => 0
  frames : Multiset ℕ := 0

inductive Label
  | start (log : Log) (result : Except Exception Unit)
  | enter (reader : ℕ) (timeoutMs : UInt32) (result : Except Exception Unit)
  | await (reader : ℕ) (log : Log) (result : Except Exception Unit)
  | dequeue (reader : ℕ) (log : Log) (result : Except Exception V4L2Buffer)
  | returnFrame (reader : ℕ) (log : Log) (frame : V4L2Frame)
  | unwind (reader : ℕ) (log : Log) (lease : Lease) (e : Exception)
  | stop (log : Log)
  | copyFrame (id : ℕ)
  | dropFrame (id : ℕ) (log : Log) (released : Option Lease)
  | destroyCamera (log : Log)

def Label.released : Label → Option Lease
  | .unwind _ _ lease _ => some lease
  | .dropFrame _ _ released => released
  | _ => none

variable {t : CaptureType} {σ : Type}

namespace System

def withMem (s : System t σ) (mem : V4L2State t) (dev : σ) : System t σ :=
  { s with core := { s.core with mem := mem, dev := dev } }

def setRead (s : System t σ) (reader : ℕ) (phase : ReadPhase) : System t σ :=
  { s with reads := Function.update s.reads reader phase }

/-- The phase of a read after its entry check. -/
def entered (timeoutMs : UInt32) : Except Exception Unit → ReadPhase
  | .ok _ => .polling (pollTimeout timeoutMs)
  | .error _ => .idle

def awaited : Except Exception Unit → ReadPhase
  | .ok _ => .ready
  | .error _ => .idle

/-- One owner of the shared state goes; the last one destroys it. -/
inductive DropState (D : Device linux σ) : System t σ → Log → System t σ → Prop
  | shared {s : System t σ} (h : s.stateUses - 1 ≠ 0) :
      DropState D s [] { s with stateUses := s.stateUses - 1 }
  | last {s : System t σ} {log mem dev} (h : s.stateUses - 1 = 0)
      (hd : Exec D s.core.mem.destroy s.core.dev log mem dev) :
      DropState D s log { s.withMem mem dev with stateUses := 0 }

/-- `~BufferLease`: the release, then the lease's share of the state. -/
inductive DropLease (D : Device linux σ) : System t σ → Lease → Log → System t σ → Prop
  | intro {s s' : System t σ} {lease log mem dev log'}
      (h : Exec D (s.core.mem.release lease.index) s.core.dev log mem dev)
      (hd : DropState D { s.withMem mem dev with
        core.leases := s.core.leases.erase lease } log' s') :
      DropLease D s lease (log ++ log') s'

inductive Step (D : Device linux σ) (camera : V4L2Camera t) :
    System t σ → Label → System t σ → Prop
  | start {s : System t σ} {log r mem dev} (alive : s.cameraAlive = true)
      (h : Exec D s.core.mem.start s.core.dev log (r, mem) dev) :
      Step D camera s (.start log r) (s.withMem mem dev)
  | enter {s : System t σ} {reader timeoutMs} (alive : s.cameraAlive = true)
      (idle : s.reads reader = .idle) :
      Step D camera s (.enter reader timeoutMs s.core.mem.readEntry)
        (s.setRead reader (entered timeoutMs s.core.mem.readEntry))
  | await {s : System t σ} {reader timeout fuel log r dev} (held : s.stateUses ≠ 0)
      (phase : s.reads reader = .polling timeout)
      (h : Exec D (V4L2State.awaitFrame t timeout fuel) s.core.dev log r dev) :
      Step D camera s (.await reader log r)
        ((s.withMem s.core.mem dev).setRead reader (awaited r))
  | leased {s : System t σ} {reader log buffer mem dev} (held : s.stateUses ≠ 0)
      (phase : s.reads reader = .ready)
      (h : Exec D s.core.mem.dequeue s.core.dev log (.ok buffer, mem) dev) :
      Step D camera s (.dequeue reader log (.ok buffer))
        { s.setRead reader (.holding ⟨s.core.nextId, buffer.index⟩ buffer) with
          core := { s.core with mem := mem, dev := dev }.withLease buffer.index
          stateUses := s.stateUses + 1 }
  | dequeueFailed {s : System t σ} {reader log e mem dev} (held : s.stateUses ≠ 0)
      (phase : s.reads reader = .ready)
      (h : Exec D s.core.mem.dequeue s.core.dev log (.error e, mem) dev) :
      Step D camera s (.dequeue reader log (.error e)) ((s.withMem mem dev).setRead reader .idle)
  | returnFrame {s : System t σ} {reader lease buffer memory log frame dev}
      (phase : s.reads reader = .holding lease buffer)
      (hm : s.core.mem.buffers[lease.index]? = some memory)
      (h : Exec D (camera.buildFrame memory buffer lease) s.core.dev log (.ok frame) dev) :
      Step D camera s (.returnFrame reader log frame)
        { (s.withMem s.core.mem dev).setRead reader .idle with
          impls := Function.update s.impls lease.id (some frame)
          implUses := Function.update s.implUses lease.id 1
          frames := lease.id ::ₘ s.frames }
  | unwind {s s' : System t σ} {reader lease buffer memory log log' e dev}
      (phase : s.reads reader = .holding lease buffer)
      (hm : s.core.mem.buffers[lease.index]? = some memory)
      (h : Exec D (camera.buildFrame memory buffer lease) s.core.dev log (.error e) dev)
      (hd : DropLease D ((s.withMem s.core.mem dev).setRead reader .idle) lease log' s') :
      Step D camera s (.unwind reader (log ++ log') lease e) s'
  | stop {s : System t σ} {log mem dev} (alive : s.cameraAlive = true)
      (h : Exec D s.core.mem.stopCapture s.core.dev log mem dev) :
      Step D camera s (.stop log) (s.withMem mem dev)
  | copyFrame {s : System t σ} {id} (hid : id ∈ s.frames) :
      Step D camera s (.copyFrame id)
        { s with
          implUses := Function.update s.implUses id (s.implUses id + 1)
          frames := id ::ₘ s.frames }
  | dropShared {s : System t σ} {id} (hid : id ∈ s.frames) (hu : s.implUses id - 1 ≠ 0) :
      Step D camera s (.dropFrame id [] none)
        { s with
          implUses := Function.update s.implUses id (s.implUses id - 1)
          frames := s.frames.erase id }
  | dropLast {s s' : System t σ} {id log frame} (hid : id ∈ s.frames)
      (hu : s.implUses id - 1 = 0) (hf : s.impls id = some frame)
      (hd : DropLease D
        { s with
          impls := Function.update s.impls id none
          implUses := Function.update s.implUses id 0
          frames := s.frames.erase id } frame.lease log s') :
      Step D camera s (.dropFrame id log (some frame.lease)) s'
  | destroyCamera {s s' : System t σ} {log mem dev log'} (alive : s.cameraAlive = true)
      (h : Exec D s.core.mem.stopCapture s.core.dev log mem dev)
      (hd : DropState D { s.withMem mem dev with cameraAlive := false } log' s') :
      Step D camera s (.destroyCamera (log ++ log')) s'

section Mono
variable {D D' : Device linux σ} {camera : V4L2Camera t} {s s' : System t σ} {log : Log}

theorem DropState.mono (hD : D ≤ D') (h : DropState D s log s') : DropState D' s log s' := by
  cases h with
  | shared h => exact .shared h
  | last h hd => exact .last h (hd.mono hD)

theorem DropLease.mono {lease : Lease} (hD : D ≤ D') (h : DropLease D s lease log s') :
    DropLease D' s lease log s' := by
  cases h with
  | intro h hd => exact .intro (h.mono hD) (hd.mono hD)

theorem Step.mono {l : Label} (hD : D ≤ D') (h : Step D camera s l s') :
    Step D' camera s l s' := by
  cases h with
  | start alive h => exact .start alive (h.mono hD)
  | enter alive idle => exact .enter alive idle
  | await held phase h => exact .await held phase (h.mono hD)
  | leased held phase h => exact .leased held phase (h.mono hD)
  | dequeueFailed held phase h => exact .dequeueFailed held phase (h.mono hD)
  | returnFrame phase hm h => exact .returnFrame phase hm (h.mono hD)
  | unwind phase hm h hd => exact .unwind phase hm (h.mono hD) (hd.mono hD)
  | stop alive h => exact .stop alive (h.mono hD)
  | copyFrame hid => exact .copyFrame hid
  | dropShared hid hu => exact .dropShared hid hu
  | dropLast hid hu hf hd => exact .dropLast hid hu hf (hd.mono hD)
  | destroyCamera alive h hd => exact .destroyCamera alive (h.mono hD) (hd.mono hD)

end Mono

end System

/-- A camera just constructed, with these buffers, and no read or frame yet. -/
def captureSystem (D : Device linux σ) (d₀ : σ) (camera : V4L2Camera t)
    (buffers : List (BufferMemory t)) : LabelledSystem (System t σ) Label where
  init s := s = { core := { mem := { buffers := buffers }, dev := d₀ } }
  step := System.Step D camera

theorem captureSystem_mono {D D' : Device linux σ} (hD : D ≤ D') {d₀ : σ} {camera : V4L2Camera t}
    {buffers : List (BufferMemory t)} {s : System t σ}
    (h : (captureSystem D d₀ camera buffers).Reachable s) :
    (captureSystem D' d₀ camera buffers).Reachable s :=
  h.mono (fun _ hs => hs) (fun _ _ _ hs => System.Step.mono hD hs)

def Section.log : Section → Log
  | .start log _ => log
  | .dequeue log _ => log
  | .release _ log => log
  | .stop log => log
  | .outside log => log

def Label.log : Label → Log
  | .start log _ => log
  | .enter _ _ _ => []
  | .await _ log _ => log
  | .dequeue _ log _ => log
  | .returnFrame _ log _ => log
  | .unwind _ log _ _ => log
  | .stop log => log
  | .copyFrame _ => []
  | .dropFrame _ log _ => log
  | .destroyCamera log => log

theorem issues_awaitFrame {P : Request → Prop} (t : CaptureType) {timeout : ℕ}
    (hpoll : P (.poll timeout)) (ha : P .allocate) (fuel : ℕ) :
    Issues P (V4L2State.awaitFrame t timeout fuel) := by
  induction fuel with
  | zero => trivial
  | succ fuel ih =>
      unfold V4L2State.awaitFrame
      refine (issues_request (I := linux) (r := .poll timeout) hpoll).bind ?_
      intro answer
      match answer.result with
      | .error error =>
          dsimp only
          split_ifs
          · exact ih
          · exact issues_pure _
      | .ok 0 => exact issues_pure _
      | .ok (_ + 1) =>
          cases t with
          | videoCapture => exact issues_pure _
          | videoCaptureMplane =>
              refine (issues_request (I := linux) (r := .allocate) ha).bind ?_
              intro ok
              cases ok <;> exact issues_pure _

theorem issues_buildFrame {P : Request → Prop} (ha : P .allocate) {lease : Type}
    (camera : V4L2Camera t) (memory : BufferMemory t) (buffer : V4L2Buffer) (held : lease) :
    Issues P (camera.buildFrame memory buffer held) := by
  unfold V4L2Camera.buildFrame
  cases camera.readPlanes memory buffer with
  | error e => exact issues_pure _
  | ok planes =>
      refine (issues_request (I := linux) (r := .allocate) ha).bind ?_
      intro first
      cases first with
      | false => exact issues_pure _
      | true =>
          refine (issues_request (I := linux) (r := .allocate) ha).bind ?_
          intro second
          cases second <;> exact issues_pure _

end CameraCore
