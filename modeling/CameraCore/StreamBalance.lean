import CameraCore.LeaseHistory

/-!
# Calls to the device over a whole run

The `STREAMON` and `STREAMOFF` calls of a run alternate, and the flag of the shared
state says whether the last `STREAMON` is still open. Three places may stop the
stream, each of them through the flag. Together with the life of the leases this
gives the contract between the frames of a client and the device.
-/

namespace CameraCore

open DeviceProgram LabelledSystem

variable {t : CaptureType} {σ : Type}

inductive StreamCall
  | on
  | off
deriving DecidableEq

/-- A successful `STREAMON`, or a `STREAMOFF` whatever its result. -/
def streamCall : Event linux → List StreamCall
  | ⟨.ioctl (.streamon _), .ok _⟩ => [.on]
  | ⟨.ioctl (.streamoff _), _⟩ => [.off]
  | _ => []

def streamCalls (log : Log) : List StreamCall := log.flatMap streamCall

def queuedIndex : Event linux → List ℕ
  | ⟨.ioctl (.qbuf index _ _), _⟩ => [index]
  | _ => []

/-- The buffers passed to `QBUF`, one entry for each call. -/
def queuedIndices (log : Log) : List ℕ := log.flatMap queuedIndex

/-- The requests that do not concern the stream. -/
def Request.Quiet : Request → Prop
  | .ioctl (.streamon _) => False
  | .ioctl (.streamoff _) => False
  | _ => True

theorem streamCall_of_quiet {e : Event linux} (h : e.1.Quiet) : streamCall e = [] := by
  obtain ⟨r, x⟩ := e
  cases r with
  | ioctl request => cases request <;> first | rfl | exact h.elim
  | _ => rfl

theorem streamCalls_of_quiet {log : Log} (h : ∀ e ∈ log, e.1.Quiet) : streamCalls log = [] := by
  unfold streamCalls
  rw [List.flatMap_eq_nil_iff]
  intro e he
  exact streamCall_of_quiet (h e he)

theorem streamCalls_append (log log' : Log) :
    streamCalls (log ++ log') = streamCalls log ++ streamCalls log' := List.flatMap_append

theorem Request.Outside.quiet {r : Request} (h : r.Outside) : r.Quiet := by
  cases r with
  | ioctl request => exact h.elim
  | _ => trivial

namespace V4L2State

variable {s s' : V4L2State t}

theorem issues_queueLocked (s : V4L2State t) (index : ℕ) :
    Issues Request.Quiet (s.queueLocked index) := by
  unfold queueLocked
  split_ifs
  · exact issues_pure _
  · exact issues_request (I := linux) (r := .ioctl (.qbuf index t _)) trivial

theorem issues_queueEach (s : V4L2State t) (is : List ℕ) :
    Issues Request.Quiet (s.queueEach is) := by
  induction is with
  | nil => exact issues_pure _
  | cons index rest ih =>
      refine (s.issues_queueLocked index).bind ?_
      intro x
      cases x with
      | ok _ => exact ih
      | error _ => exact issues_pure _

end V4L2State

/-- Stream calls that take the flag from one value to another. -/
inductive StreamStep : Bool → List StreamCall → Bool → Prop
  | same (b : Bool) : StreamStep b [] b
  | on : StreamStep false [.on] true
  | off : StreamStep true [.off] false

theorem StreamStep.nothing {b b' : Bool} {calls : List StreamCall} (hc : calls = [])
    (hb : b' = b) : StreamStep b calls b' := by
  rw [hc, hb]
  exact .same b

/-- Alternating calls beginning with `on`, the last one open while `streaming`. -/
def Balanced (calls : List StreamCall) (streaming : Bool) : Prop :=
  ∃ n, calls = (List.replicate n [.on, .off]).flatten ++ if streaming then [.on] else []

theorem Balanced.step {calls more : List StreamCall} {b b' : Bool} (h : Balanced calls b)
    (hs : StreamStep b more b') : Balanced (calls ++ more) b' := by
  obtain ⟨n, rfl⟩ := h
  cases hs with
  | same => exact ⟨n, by simp⟩
  | on => exact ⟨n, by simp⟩
  | off =>
      refine ⟨n + 1, ?_⟩
      rw [List.replicate_succ', List.flatten_append]
      simp

namespace Core

variable {D : Device linux σ} {d₀ : σ} {bufs : List (BufferMemory t)} {c c' : Core t σ}
  {l : Section} {ls : List Section}

theorem start_stream {s s' : V4L2State t} {d d' : σ} {log : Log} {r : Except Exception Unit}
    (h : V4L2State.StartEnds D s d log r s' d') :
    StreamStep s.streaming (streamCalls log) s'.streaming := by
  cases h with
  | refused => exact .same _
  | queueFailed hr hq =>
      exact .nothing (streamCalls_of_quiet (hq.issues (s.issues_queueEach _))) rfl
  | streamonFailed hr hq hon =>
      rw [streamCalls_append, streamCalls_of_quiet (hq.issues (s.issues_queueEach _))]
      exact .same _
  | started hr hq hon =>
      have hoff : s.streaming = false := by
        cases hst : s.streaming with
        | false => rfl
        | true => exact absurd (Or.inl hst) hr
      rw [streamCalls_append, streamCalls_of_quiet (hq.issues (s.issues_queueEach _)), hoff]
      exact .on

theorem dequeue_stream {s s' : V4L2State t} {d d' : σ} {log : Log}
    {r : Except Exception V4L2Buffer} (h : V4L2State.DequeueEnds D s d log r s' d') :
    streamCalls log = [] ∧ s'.streaming = s.streaming := by
  cases h with
  | rolledBack hst hdq hi ha hq =>
      have hlog := streamCalls_of_quiet (hq.issues (s.issues_queueLocked _))
      exact ⟨hlog, by simp⟩
  | _ => exact ⟨rfl, rfl⟩

theorem stream_step (h : Core.Step D c l c') :
    StreamStep c.mem.streaming (streamCalls l.log) c'.mem.streaming := by
  cases h with
  | start hs => exact start_stream (V4L2State.exec_start hs)
  | leased hs =>
      obtain ⟨hlog, hst⟩ := dequeue_stream (V4L2State.exec_dequeue hs)
      exact .nothing hlog hst
  | dequeueFailed hs =>
      obtain ⟨hlog, hst⟩ := dequeue_stream (V4L2State.exec_dequeue hs)
      exact .nothing hlog hst
  | release hl hs =>
      refine .nothing ?_ (V4L2State.release_frame hs).2.2
      rcases V4L2State.exec_release.mp hs with ⟨_, x, hq, _⟩ | ⟨_, rfl, _⟩
      · exact streamCalls_of_quiet (hq.issues (c.mem.issues_queueLocked _))
      · rfl
  | stop hs =>
      rcases V4L2State.exec_stopCapture.mp hs with ⟨_, rfl, rfl, _⟩ | ⟨hst, x, _, rfl, rfl⟩
      · exact .same _
      · rw [hst]
        exact .off
  | outside hs hlog =>
      exact .nothing (streamCalls_of_quiet fun e he => (hlog e he).quiet) rfl

theorem balanced_run {calls : List StreamCall} (h : Balanced calls c.mem.streaming)
    (hr : (captureCore D d₀ bufs).Run c ls c') :
    Balanced (calls ++ streamCalls (ls.flatMap Section.log)) c'.mem.streaming := by
  induction ls generalizing c calls with
  | nil =>
      obtain rfl := hr
      rw [List.flatMap_nil, streamCalls, List.flatMap_nil, List.append_nil]
      exact h
  | cons l ls ih =>
      obtain ⟨c₁, hl, hls⟩ := hr
      rw [List.flatMap_cons, streamCalls_append, ← List.append_assoc]
      exact ih (h.step (stream_step hl)) hls

end Core

namespace System

variable {D : Device linux σ} {d₀ : σ} {camera : V4L2Camera t} {bufs : List (BufferMemory t)}
  {s s' : System t σ} {ls : List Label} {l : Label} {log : Log}

theorem stream_balanced (h : (captureSystem D d₀ camera bufs).Trace ls s) :
    Balanced (streamCalls (ls.flatMap Label.log)) s.core.mem.streaming := by
  apply h.induction
    (P := fun ls s => Balanced (streamCalls (ls.flatMap Label.log)) s.core.mem.streaming)
  · intro s hs
    obtain rfl := hs
    exact ⟨0, rfl⟩
  · intro ls s l s' htr hb hs
    obtain ⟨ks, hr, hlog⟩ := project d₀ (owned_reachable htr.reachable) hs
    rw [List.flatMap_append, streamCalls_append, List.flatMap_singleton, hlog]
    exact Core.balanced_run hb hr

theorem DropState.queues_nothing (h : DropState D s log s') : queuedIndices log = [] := by
  cases h with
  | shared => rfl
  | last _ hd =>
      rw [V4L2State.destroy_eq_stopCapture] at hd
      rcases V4L2State.exec_stopCapture.mp hd with ⟨_, rfl, _⟩ | ⟨_, x, _, rfl, _⟩ <;> rfl

/-- A release queues its own buffer while the stream is on, and nothing otherwise. -/
theorem DropLease.queues {lease : Lease} (h : DropLease D s lease log s')
    (hi : lease.index < s.core.mem.buffers.length) :
    queuedIndices log = if s.core.mem.streaming then [lease.index] else [] := by
  cases h with
  | intro hx hd =>
      unfold queuedIndices
      rw [List.flatMap_append]
      have hnone := hd.queues_nothing
      unfold queuedIndices at hnone
      rw [hnone, List.append_nil]
      rcases V4L2State.exec_release.mp hx with ⟨hst, x, hq, _⟩ | ⟨hst, rfl, _⟩
      · rw [hst]
        rcases V4L2State.exec_queueLocked.mp hq with ⟨hle, _⟩ | ⟨_, _, rfl⟩
        · omega
        · rfl
      · rw [hst]
        rfl

theorem dropFrame_releases {id : ℕ} {released : Option Lease} (h : s.OwnedBy bufs 0)
    (hs : Step D camera s (.dropFrame id log released) s') :
    (released.isSome ↔ s.frames.count id = 1) ∧
      ∀ lease, released = some lease →
        (∃ frame, s.impls id = some frame ∧ frame.lease = lease ∧ lease.id = id) ∧
        queuedIndices log = if s.core.mem.streaming then [lease.index] else [] := by
  cases hs with
  | dropShared hid hu =>
      have huse := h.implUses id
      refine ⟨?_, by simp⟩
      simp only [Option.isSome_none, Bool.false_eq_true, false_iff]
      omega
  | dropLast hid hu hf hd =>
      have huse := h.implUses id
      have hpos := Multiset.count_pos.mpr hid
      obtain ⟨frame, hf', hl, he, _⟩ := h.framed id hid
      rw [hf] at hf'
      cases hf'
      refine ⟨?_, ?_⟩
      · simp only [Option.isSome_some, true_iff]
        omega
      · intro lease hlease
        cases hlease
        refine ⟨⟨_, hf, rfl, he⟩, ?_⟩
        have hi := h.counted.inRange _ hl
        rw [← h.counted.buffers] at hi
        exact hd.queues hi

/-- The mappings that exist: the last owner of the shared state unmaps them all. -/
def mappings (s : System t σ) : List Mapping :=
  if s.stateUses = 0 then [] else s.core.mem.buffers.flatMap BufferMemory.planes

theorem OwnedBy.state_destroyed (h : s.OwnedBy bufs 0) (hu : s.stateUses = 0) :
    s.cameraAlive = false ∧ s.frames = 0 := by
  have hcount := h.stateUses
  have hl : s.core.leases = ∅ := Finset.card_eq_zero.mp (by omega)
  constructor
  · cases ha : s.cameraAlive with
    | false => rfl
    | true =>
        rw [ha, if_pos rfl] at hcount
        omega
  · rw [Multiset.eq_zero_iff_forall_notMem]
    intro id hid
    obtain ⟨frame, _, hlive, _⟩ := h.framed id hid
    rw [hl] at hlive
    simp at hlive

theorem OwnedBy.planes_mapped (h : s.OwnedBy bufs 0) {id : ℕ} (hid : id ∈ s.frames) :
    ∃ frame, s.impls id = some frame ∧ ∀ p ∈ frame.planes, ∃ m ∈ s.mappings, p.Within m := by
  have hu : s.stateUses ≠ 0 := by
    intro hu
    rw [(h.state_destroyed hu).2] at hid
    simp at hid
  obtain ⟨frame, hf, _, _, memory, hm, hp⟩ := h.framed id hid
  refine ⟨frame, hf, ?_⟩
  intro p hpm
  obtain ⟨m, hmem, hw⟩ := hp p hpm
  refine ⟨m, ?_, hw⟩
  rw [mappings, if_neg hu, h.counted.buffers]
  exact List.mem_flatMap.mpr ⟨memory, List.mem_of_getElem? hm, hmem⟩

end System

variable {D : Device linux σ} {d₀ : σ} {camera : V4L2Camera t} {bufs : List (BufferMemory t)}
  {s : System t σ} {ls : List Label}

/-- In every history a buffer handed out in a frame is released once, with the last
copy of the frame, by one `QBUF` of it if the stream is on and none otherwise; the
mappings outlive the camera and the frames; and the stream is switched on and off in
turns and is off when the camera is gone. -/
theorem frames_own_buffers (h : (captureSystem D d₀ camera bufs).Trace ls s) :
    (∀ reader log frame, .returnFrame reader log frame ∈ ls →
      System.releases frame.lease ls = if frame.lease.id ∈ s.frames then 0 else 1) ∧
    (∀ id log released s', System.Step D camera s (.dropFrame id log released) s' →
      (released.isSome ↔ s.frames.count id = 1) ∧
      ∀ lease, released = some lease →
        (∃ frame, s.impls id = some frame ∧ frame.lease = lease ∧ lease.id = id) ∧
        queuedIndices log = if s.core.mem.streaming then [lease.index] else []) ∧
    (s.stateUses = 0 → s.cameraAlive = false ∧ s.frames = 0) ∧
    (∀ id ∈ s.frames, ∃ frame, s.impls id = some frame ∧
      ∀ p ∈ frame.planes, ∃ m ∈ s.mappings, p.Within m) ∧
    Balanced (streamCalls (ls.flatMap Label.log)) s.core.mem.streaming ∧
    (s.cameraAlive = false → s.core.mem.streaming = false) := by
  have ho := System.owned_reachable h.reachable
  refine ⟨?_, ?_, ho.state_destroyed, fun id hid => ho.planes_mapped hid,
    System.stream_balanced h, ho.off⟩
  · intro reader log frame hl
    exact System.releases_returned h hl rfl
  · intro id log released s' hs
    exact System.dropFrame_releases ho hs

theorem frames_own_buffers_sample : ∃ ls, sampleSystem.Trace ls sampleFramed ∧
    System.releases ⟨0, 0⟩ ls = 0 ∧
    (∃ frame, sampleFramed.impls 0 = some frame ∧
      ∀ p ∈ frame.planes, ∃ m ∈ sampleFramed.mappings, p.Within m) ∧
    Balanced (streamCalls (ls.flatMap Label.log)) true := by
  obtain ⟨ls, htr⟩ := sampleLeased_reachable
  have h := htr.snoc sampleFramed_step
  obtain ⟨honce, _, _, hmapped, hbalanced, _⟩ := frames_own_buffers h
  have hzero : (0 : ℕ) ∈ sampleFramed.frames := by decide
  refine ⟨_, h, ?_, hmapped 0 hzero, hbalanced⟩
  have hrel := honce 0 _ sampleFrame (List.mem_append_right _ (List.mem_singleton.mpr rfl))
  exact hrel.trans (if_pos hzero)

end CameraCore
