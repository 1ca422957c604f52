import CameraCore.CameraConstruction
import CameraCore.FrameOwnership

/-!
# The shape construction leaves behind

`read` and the queueing of buffers index what the constructor built without looking at the
bounds again: the first plane and the first stride, the buffer of a lease, the plane of a
dequeued buffer. The checks made on the driver's counts in two places of the constructor are
enough for every access, in every later run and whatever the driver answers.
-/

namespace CameraCore

open DeviceProgram LabelledSystem

/-- What the memory of the buffers comes from: the description of a buffer, or a region mapped. -/
inductive Setup
  | described (index : ℕ) (buffer : V4L2Buffer)
  | mapped (length : UInt64) (offset : UInt32) (address : ℕ)

def setup : Event linux → Option Setup
  | ⟨.ioctl (.querybuf index _), .ok buffer⟩ => some (.described index buffer)
  | ⟨.mmap length offset, .ok address⟩ => some (.mapped length offset address)
  | _ => none

/-- The answers to `QUERYBUF` and to `mmap`, in their order. -/
def setups (log : Log) : List Setup := log.filterMap setup

/-- The lengths and the offsets `QUERYBUF` reported for the planes of a buffer, in its order. -/
def V4L2Buffer.reported (buffer : V4L2Buffer) : CaptureType → List (UInt64 × UInt32)
  | .videoCapture => [(buffer.length.toUInt64, buffer.offset)]
  | .videoCaptureMplane =>
      ((List.ofFn buffer.planes).take buffer.length.toNat).map fun plane =>
        (plane.length.toUInt64, plane.memOffset)

/-- Each plane reported is mapped with its length at its offset, and its mapping is the region that
call returned. -/
inductive MapsPlanes : List (UInt64 × UInt32) → List Setup → List Mapping → Prop
  | nil : MapsPlanes [] [] []
  | cons {length : UInt64} {offset : UInt32} {address : ℕ} {reported : List (UInt64 × UInt32)}
      {answers : List Setup} {mappings : List Mapping} (h : MapsPlanes reported answers mappings) :
      MapsPlanes ((length, offset) :: reported) (.mapped length offset address :: answers)
        (⟨address, length⟩ :: mappings)

/-- For each index a buffer is described, and then mapped as it was described. -/
inductive SetsUp {t : CaptureType} : List ℕ → List Setup → List (BufferMemory t) → Prop
  | nil : SetsUp [] [] []
  | cons {index : ℕ} {buffer : V4L2Buffer} {memory : BufferMemory t} {rest : List ℕ}
      {regions answers : List Setup} {others : List (BufferMemory t)}
      (h : MapsPlanes (buffer.reported t) regions memory.planes)
      (hrest : SetsUp rest answers others) :
      SetsUp (index :: rest) (.described index buffer :: (regions ++ answers)) (memory :: others)

theorem SetsUp.length {t : CaptureType} {is : List ℕ} {answers : List Setup}
    {buffers : List (BufferMemory t)} (h : SetsUp is answers buffers) :
    buffers.length = is.length := by
  induction h with
  | nil => rfl
  | cons _ _ ih => exact congrArg Nat.succ ih

def Request.SetsNoneUp : Request → Prop
  | .ioctl (.querybuf _ _) => False
  | .mmap _ _ => False
  | _ => True

theorem Request.Enumerates.setsNoneUp {r : Request} (h : r.Enumerates) : r.SetsNoneUp := by
  cases r with
  | ioctl request => cases request <;> trivial
  | mmap => exact h.elim
  | _ => trivial

theorem setups_eq_nil {log : Log} (h : ∀ e ∈ log, e.1.SetsNoneUp) : setups log = [] := by
  refine filterMap_eq_nil_of_issued ?_ h
  intro r x hr
  cases r with
  | ioctl request => cases request <;> first | rfl | exact hr.elim
  | mmap => exact hr.elim
  | _ => rfl

theorem setups_append (log log' : Log) : setups (log ++ log') = setups log ++ setups log' :=
  List.filterMap_append

section Construction

variable {σ : Type} {D : Device linux σ} {d d' : σ} {log : Log} {t : CaptureType}

theorem mapRegion_ok {length : UInt64} {offset : UInt32} {mapping : Mapping}
    (h : Exec D (mapRegion length offset).run d log (.ok mapping) d') :
    ∃ address, setups log = [.mapped length offset address] ∧ mapping = ⟨address, length⟩ := by
  obtain ⟨x, d₁, log₁, log₂, hmap, hrest, rfl⟩ := exec_lift_bind.mp h
  obtain ⟨_, rfl⟩ := exec_request.mp hmap
  cases x with
  | error error =>
      obtain ⟨_, he, _⟩ := exec_throw.mp hrest
      cases he
  | ok address =>
      obtain ⟨rfl, he, _⟩ := exec_return.mp hrest
      cases he
      exact ⟨address, rfl, rfl⟩

theorem mapRegions_ok {planes : List V4L2Plane}
    {mappings : { mappings : List Mapping // mappings.length = planes.length }}
    (h : Exec D (mapRegions planes).run d log (.ok mappings) d') :
    MapsPlanes (planes.map fun plane => (plane.length.toUInt64, plane.memOffset)) (setups log)
      mappings.val := by
  induction planes generalizing d log with
  | nil =>
      obtain ⟨rfl, he, _⟩ := exec_return.mp h
      cases he
      exact .nil
  | cons plane rest ih =>
      obtain ⟨mapping, d₁, log₁, log₂, hfirst, h₁, rfl⟩ := exec_bind_ok.mp h
      obtain ⟨others, d₂, log₃, log₄, hrest, hlast, rfl⟩ := exec_bind_ok.mp h₁
      obtain ⟨rfl, he, rfl⟩ := exec_return.mp hlast
      cases he
      obtain ⟨address, hlog, rfl⟩ := mapRegion_ok hfirst
      rw [setups_append, hlog, List.append_nil]
      exact .cons (ih hrest)

theorem mapBuffer_ok {buffer : V4L2Buffer} {memory : BufferMemory t}
    (h : Exec D (mapBuffer t buffer).run d log (.ok memory) d') :
    MapsPlanes (buffer.reported t) (setups log) memory.planes := by
  cases t with
  | videoCapture =>
      obtain ⟨mapping, d₁, log₁, log₂, hmap, hlast, rfl⟩ := exec_bind_ok.mp h
      obtain ⟨rfl, he, _⟩ := exec_return.mp hlast
      cases he
      obtain ⟨address, hlog, rfl⟩ := mapRegion_ok hmap
      rw [List.append_nil, hlog]
      exact .cons .nil
  | videoCaptureMplane =>
      unfold mapBuffer mapMultiPlane at h
      dsimp only at h
      split_ifs at h with hcount
      · obtain ⟨_, he, _⟩ := exec_throw.mp h
        cases he
      · obtain ⟨mappings, d₁, log₁, log₂, hmap, hlast, rfl⟩ := exec_bind_ok.mp h
        obtain ⟨rfl, he, _⟩ := exec_return.mp hlast
        cases he
        rw [List.append_nil]
        exact mapRegions_ok hmap

theorem allocateEach_ok {is : List ℕ} {buffers : List (BufferMemory t)}
    (h : Exec D (allocateEach t is).run d log (.ok buffers) d') :
    SetsUp is (setups log) buffers := by
  induction is generalizing buffers d log with
  | nil =>
      obtain ⟨rfl, he, _⟩ := exec_return.mp h
      cases he
      exact .nil
  | cons index rest ih =>
      obtain ⟨x, d₁, log₁, _, hrest, rfl⟩ := exec_tryIoctl_bind.mp h
      cases x with
      | error error =>
          obtain ⟨_, he, _⟩ := exec_throw.mp hrest
          cases he
      | ok buffer =>
          obtain ⟨memory, d₂, log₂, log₃, hmap, h₂, rfl⟩ := exec_bind_ok.mp hrest
          obtain ⟨others, d₃, log₄, log₅, heach, hlast, rfl⟩ := exec_bind_ok.mp h₂
          obtain ⟨rfl, he, rfl⟩ := exec_return.mp hlast
          cases he
          change SetsUp _ (.described index buffer :: setups (log₂ ++ (log₄ ++ []))) _
          rw [List.append_nil, setups_append]
          exact .cons (mapBuffer_ok hmap) (ih heach)

theorem allocateBuffers_shape {config config' : CaptureConfig} {buffers : List (BufferMemory t)}
    (h : Exec D (allocateBuffers t config).run d log (.ok (config', buffers)) d') :
    buffers.length = config'.bufferCount.toNat ∧ 2 ≤ buffers.length ∧
      SetsUp (List.range buffers.length) (setups log) buffers := by
  obtain ⟨x, d₁, log₁, _, hrest, rfl⟩ := exec_tryIoctl_bind.mp h
  cases x with
  | error error =>
      obtain ⟨_, he, _⟩ := exec_throw.mp hrest
      cases he
  | ok count =>
      dsimp only at hrest
      split_ifs at hrest with hcount
      · obtain ⟨_, he, _⟩ := exec_throw.mp hrest
        cases he
      · obtain ⟨bufs, d₂, log₂, log₃, heach, hlast, rfl⟩ := exec_bind_ok.mp hrest
        obtain ⟨rfl, he, _⟩ := exec_return.mp hlast
        cases he
        have hsetup := allocateEach_ok heach
        have hlen : buffers.length = count.toNat := by rw [hsetup.length, List.length_range]
        have htwo : 2 ≤ count.toNat := UInt32.le_iff_toNat_le.mp (UInt32.not_lt.mp hcount)
        change _ ∧ _ ∧ SetsUp _ (setups (log₂ ++ [])) _
        rw [hlen, List.append_nil]
        exact ⟨rfl, htwo, hsetup⟩

end Construction

theorem PlaneCount.single {t : CaptureType} {n : ℕ} (h : PlaneCount t n)
    (ht : t = .videoCapture) : n = 1 := by
  subst ht
  exact h

theorem PlaneCount.multi {t : CaptureType} {n : ℕ} (h : PlaneCount t n)
    (ht : t = .videoCaptureMplane) : 1 ≤ n ∧ n ≤ videoMaxPlanes := by
  subst ht
  exact h

/-- `Auto` is resolved before the buffers are set up. -/
theorem resolve_ne_auto {config : CaptureConfig} {caps : Capabilities} {mode : CaptureMode}
    {code : UInt32} (h : resolve config caps = .ok (mode, code)) : mode ≠ .auto := by
  have hchosen : ∀ chosen selected, resolveAuto config caps = .ok (chosen, selected) →
      chosen ≠ .auto := by
    intro chosen selected hauto
    unfold resolveAuto at hauto
    dsimp only at hauto
    split_ifs at hauto with ha hs hm
    all_goals
      cases hauto
      first | exact ha | decide
  unfold resolve at h
  split_ifs at h
  cases hauto : resolveAuto config caps with
  | error e =>
      rw [hauto] at h
      cases h
  | ok found =>
      rw [hauto] at h
      change resolveMode config caps found.1 found.2 = _ at h
      unfold resolveMode at h
      dsimp only at h
      split_ifs at h
      all_goals
        cases h
        exact hchosen _ _ hauto

/-- What `read` and the queueing of buffers rely on. -/
structure Constructed.Shaped (log : Log) (c : Constructed) : Prop where
  fresh : c.state = { buffers := c.state.buffers }
  count : c.state.buffers.length = c.camera.config.bufferCount.toNat
  atLeastTwo : 2 ≤ c.state.buffers.length
  mode : c.camera.config.captureMode = .singlePlane ∨ c.camera.config.captureMode = .multiPlane
  single : c.camera.config.captureMode = .singlePlane →
    c.camera.strides.length = 1 ∧ ∀ memory ∈ c.state.buffers, memory.planes.length = 1
  multi : c.camera.config.captureMode = .multiPlane →
    (1 ≤ c.camera.strides.length ∧ c.camera.strides.length ≤ videoMaxPlanes) ∧
      ∀ memory ∈ c.state.buffers,
        1 ≤ memory.planes.length ∧ memory.planes.length ≤ videoMaxPlanes
  mapped : SetsUp (List.range c.state.buffers.length) (setups log) c.state.buffers

section

variable {σ : Type} {D : Device linux σ} {d d' : σ} {log : Log} {fl : FloatingPoint.Rounding}
  {fuel : ℕ} {requested : CaptureConfig} {c : Constructed}

theorem construct_setsUp
    (h : Exec D (V4L2Camera.construct fl fuel requested).run d log (.ok c) d') :
    c.state = { buffers := c.state.buffers } ∧
      c.state.buffers.length = c.camera.config.bufferCount.toNat ∧ 2 ≤ c.state.buffers.length ∧
      SetsUp (List.range c.state.buffers.length) (setups log) c.state.buffers := by
  cases construct_stages h with
  | stages hopen henum hres hformat hrate halloc =>
      have hnone₁ := setups_eq_nil (hopen.issues (issues_openDevice (fun _ => trivial) _))
      have hnone₂ := setups_eq_nil
        (fun e he => (henum.issues (issues_enumerateFd _) e he).setsNoneUp)
      have hnone₃ := setups_eq_nil
        (hformat.issues (issues_configureFormat (fun _ _ _ _ => trivial) _ _ _))
      have hnone₄ := setups_eq_nil
        (hrate.issues (issues_configureFrameRate (fun _ _ => trivial) _ _ _))
      refine ⟨rfl, ?_⟩
      simp only [setups_append, hnone₁, hnone₂, hnone₃, hnone₄, List.nil_append]
      exact allocateBuffers_shape halloc

theorem construct_shaped
    (h : Exec D (V4L2Camera.construct fl fuel requested).run d log (.ok c) d') : c.Shaped log := by
  have hn := construct_negotiated h
  obtain ⟨hfresh, hcount, htwo, hmapped⟩ := construct_setsUp h
  refine ⟨hfresh, hcount, htwo, ?_, ?_, ?_, hmapped⟩
  · have hne := resolve_ne_auto hn.resolved
    cases hmode : c.camera.config.captureMode with
    | auto => exact absurd hmode hne
    | singlePlane => exact Or.inl rfl
    | multiPlane => exact Or.inr rfl
  · intro hmode
    have htype : c.type = .videoCapture := by rw [hn.type, hmode]; rfl
    exact ⟨c.camera.strideCount.single htype, fun memory _ => memory.planeCount.single htype⟩
  · intro hmode
    have htype : c.type = .videoCaptureMplane := by rw [hn.type, hmode]; rfl
    exact ⟨c.camera.strideCount.multi htype, fun memory _ => memory.planeCount.multi htype⟩

end

section Runs

variable {t : CaptureType} {σ : Type} {D : Device linux σ} {d d' : σ} {log : Log}
  {camera : V4L2Camera t} {bufs : List (BufferMemory t)} {s s' : System t σ} {l : Label}

def V4L2State.queueRequest (s : V4L2State t) (index : ℕ) : Ioctl :=
  .qbuf index t (s.queuedPlanes index)

theorem queueLocked_asks {mem : V4L2State t} {index : ℕ} {x : Except Errno Unit}
    (hi : index < mem.buffers.length) (h : Exec D (mem.queueLocked index) d log x d') :
    log = [⟨.ioctl (mem.queueRequest index), x⟩] := by
  rcases V4L2State.exec_queueLocked.mp h with ⟨hout, _⟩ | ⟨_, _, hlog⟩
  · omega
  · exact hlog

theorem queueEach_asks {mem : V4L2State t} {is : List ℕ} {error : Errno}
    (hi : ∀ index ∈ is, index < mem.buffers.length)
    (h : Exec D (mem.queueEach is) d log (.error error) d') :
    ∃ index ∈ is, (⟨.ioctl (mem.queueRequest index), .error error⟩ : Event linux) ∈ log := by
  induction is generalizing d log with
  | nil =>
      obtain ⟨_, he, _⟩ := exec_pure.mp h
      cases he
  | cons index rest ih =>
      obtain ⟨x, d₁, log₁, log₂, hq, hrest, rfl⟩ := exec_bind.mp h
      have hlog := queueLocked_asks (hi index List.mem_cons_self) hq
      cases x with
      | ok _ =>
          obtain ⟨i, hm, hevent⟩ := ih (fun i hm => hi i (List.mem_cons_of_mem _ hm)) hrest
          exact ⟨i, List.mem_cons_of_mem _ hm, List.mem_append_right _ hevent⟩
      | error failure =>
          obtain ⟨_, he, _⟩ := exec_pure.mp hrest
          cases he
          refine ⟨index, List.mem_cons_self, List.mem_append_left _ ?_⟩
          rw [hlog]
          exact List.mem_singleton.mpr rfl

/-- The accesses of `read` and of the releases are in range. -/
structure AccessesInRange (camera : V4L2Camera t) (bufs : List (BufferMemory t))
    (s : System t σ) : Prop where
  buffers : s.core.mem.buffers = bufs
  leases : ∀ lease ∈ s.core.leases, lease.index < s.core.mem.buffers.length
  holding : ∀ reader lease buffer, s.reads reader = .holding lease buffer →
    ∃ memory, s.core.mem.buffers[lease.index]? = some memory ∧ memory.planes ≠ [] ∧
      camera.strides ≠ [] ∧ memory.planes.length ≤ videoMaxPlanes ∧
      ∃ planes, camera.readPlanes memory buffer = .ok planes

/-- In a step no plane count is refused, and every buffer that is to be queued gets as far as
the driver: the failure of `start` is the driver's, and a release on a running stream or after a
failed allocation makes its request. -/
structure QueuesInRange (s : System t σ) (l : Label) : Prop where
  dequeued : ∀ reader log buffer, l = .dequeue reader log (.ok buffer) →
    buffer.index < s.core.mem.buffers.length
  unwound : ∀ reader log lease e, l = .unwind reader log lease e → e = .badAlloc
  started : ∀ log error, l = .start log (.error (.throwSystemError "VIDIOC_QBUF" error)) →
    ∃ index, (⟨.ioctl (s.core.mem.queueRequest index), .error error⟩ : Event linux) ∈ log
  released : ∀ lease, l.released = some lease → s.core.mem.streaming = true →
    ∃ x, (⟨.ioctl (s.core.mem.queueRequest lease.index), x⟩ : Event linux) ∈ l.log
  rolledBack : ∀ reader log result, l = .dequeue reader log result →
    (⟨.allocate, false⟩ : Event linux) ∈ log →
    ∃ buffer x, (⟨.ioctl (.dqbuf t), .ok buffer⟩ : Event linux) ∈ log ∧
      (⟨.ioctl (s.core.mem.queueRequest buffer.index), x⟩ : Event linux) ∈ log

theorem accessesInRange (h : s.OwnedBy bufs 0) : AccessesInRange camera bufs s := by
  have hleases : ∀ lease ∈ s.core.leases, lease.index < s.core.mem.buffers.length := by
    intro lease hl
    rw [h.counted.buffers]
    exact h.counted.inRange lease hl
  refine ⟨h.counted.buffers, hleases, ?_⟩
  intro reader lease buffer hr
  obtain ⟨hl, _⟩ := h.holding reader lease buffer hr
  have hi := hleases lease hl
  obtain ⟨planes, hplanes, _⟩ := readPlanes_ok camera (s.core.mem.buffers[lease.index]) buffer
  exact ⟨_, List.getElem?_eq_getElem hi, PlaneCount.ne_nil (BufferMemory.planeCount _),
    camera.strideCount.ne_nil, BufferMemory.planes_le _, planes, hplanes⟩

theorem started_asks {mem mem' : V4L2State t} {error : Errno}
    (h : Exec D mem.start d log (.error (.throwSystemError "VIDIOC_QBUF" error), mem') d') :
    ∃ index, (⟨.ioctl (mem.queueRequest index), .error error⟩ : Event linux) ∈ log := by
  generalize hr : Except.error (Exception.throwSystemError "VIDIOC_QBUF" error) = r at h
  cases V4L2State.exec_start h with
  | refused => cases hr
  | queueFailed hs hq =>
      cases hr
      obtain ⟨index, _, hevent⟩ := queueEach_asks (fun i hi => List.mem_range.mp hi) hq
      exact ⟨index, hevent⟩
  | streamonFailed => simp [Exception.throwSystemError] at hr
  | started => cases hr

theorem release_asks {mem mem' : V4L2State t} {index : ℕ} (hi : index < mem.buffers.length)
    (hs : mem.streaming = true) (h : Exec D (mem.release index) d log mem' d') :
    ∃ x, log = [⟨.ioctl (mem.queueRequest index), x⟩] := by
  rcases V4L2State.exec_release.mp h with ⟨_, x, hq, _⟩ | ⟨hoff, _⟩
  · exact ⟨x, queueLocked_asks hi hq⟩
  · rw [hs] at hoff
    cases hoff

theorem System.DropLease.asks {lease : Lease} (h : System.DropLease D s lease log s')
    (hi : lease.index < s.core.mem.buffers.length) (hs : s.core.mem.streaming = true) :
    ∃ x, (⟨.ioctl (s.core.mem.queueRequest lease.index), x⟩ : Event linux) ∈ log := by
  cases h with
  | intro hrelease _ =>
      obtain ⟨x, rfl⟩ := release_asks hi hs hrelease
      exact ⟨x, List.mem_append_left _ (List.mem_singleton.mpr rfl)⟩

/-- A buffer that got no lease goes back to the driver. -/
theorem rolledBack_asks {mem mem' : V4L2State t} {r : Except Exception V4L2Buffer}
    (h : Exec D mem.dequeue d log (r, mem') d') (ha : (⟨.allocate, false⟩ : Event linux) ∈ log) :
    ∃ buffer x, (⟨.ioctl (.dqbuf t), .ok buffer⟩ : Event linux) ∈ log ∧
      (⟨.ioctl (mem.queueRequest buffer.index), x⟩ : Event linux) ∈ log := by
  cases V4L2State.exec_dequeue h with
  | notStreaming => cases ha
  | failed => simp at ha
  | outOfRange => simp at ha
  | leased => simp at ha
  | @rolledBack buffer _ _ _ x _ hs hdq hi hfail hq =>
      have hlog := queueLocked_asks hi hq
      refine ⟨buffer, x, List.mem_cons_self, ?_⟩
      rw [hlog]
      simp

theorem queuesInRange (h : s.OwnedBy bufs 0) (hs : System.Step D camera s l s') :
    QueuesInRange s l := by
  have hacc : AccessesInRange camera bufs s := accessesInRange h
  refine ⟨?_, ?_, ?_, ?_, ?_⟩
  · rintro reader log buffer rfl
    cases hs with
    | leased _ _ hx => exact (V4L2State.exec_dequeue hx).frame_ok.2.2
  · rintro reader log lease e rfl
    cases hs with
    | unwind _ _ hx _ => exact buildFrame_error hx
  · rintro log error rfl
    cases hs with
    | start _ hx => exact started_asks hx
  · intro lease hl hstreaming
    cases hs with
    | unwind phase _ hx hd =>
        cases hl
        obtain ⟨hm, _⟩ := h.holding _ _ _ phase
        have hi := hacc.leases _ hm
        obtain ⟨x, hevent⟩ := hd.asks hi hstreaming
        exact ⟨x, List.mem_append_right _ hevent⟩
    | dropLast hid _ hf hd =>
        cases hl
        obtain ⟨frame, hf', hm, _, _⟩ := h.framed _ hid
        rw [hf] at hf'
        cases hf'
        have hi := hacc.leases _ hm
        exact hd.asks hi hstreaming
    | _ => cases hl
  · rintro reader log result rfl ha
    cases hs with
    | leased _ _ hx => exact rolledBack_asks hx ha
    | dequeueFailed _ _ hx => exact rolledBack_asks hx ha

end Runs

/-- A camera that was constructed has the shape its accesses rely on, and from then on, whatever
the driver answers and whichever threads run, every access is in range. -/
theorem construction_shapes_accesses {fl : FloatingPoint.Rounding} {fuel : ℕ}
    {requested : CaptureConfig} {σ : Type} {D : Device linux σ} {d d' : σ} {log : Log}
    {c : Constructed}
    (h : Exec D (V4L2Camera.construct fl fuel requested).run d log (.ok c) d') :
    c.Shaped log ∧ ∀ (τ : Type) (D' : Device linux τ) (d₀ : τ) (s : System c.type τ),
      (captureSystem D' d₀ c.camera c.state.buffers).Reachable s →
        AccessesInRange c.camera c.state.buffers s ∧
        ∀ l s', System.Step D' c.camera s l s' → QueuesInRange s l := by
  refine ⟨construct_shaped h, ?_⟩
  intro τ D' d₀ s hs
  have howned := System.owned_reachable hs
  exact ⟨accessesInRange howned, fun l s' hstep => queuesInRange howned hstep⟩

theorem construction_shapes_accesses_sample :
    (∃ log c, Exec (fixed bufferedAnswer)
        (V4L2Camera.construct .exact 2 { pixelFormat := .grey }).run () log (.ok c) () ∧
      c.Shaped log ∧ c.camera.config.captureMode = .singlePlane ∧
      c.state.buffers.map BufferMemory.planes = [[⟨4096, 4096⟩], [⟨4096, 4096⟩]]) ∧
    ∃ log c, Exec (fixed planarAnswer)
        (V4L2Camera.construct .exact 2 { pixelFormat := .nv12 }).run () log (.ok c) () ∧
      c.Shaped log ∧ c.camera.config.captureMode = .multiPlane ∧
      c.state.buffers.map BufferMemory.planes =
        [[⟨4096, 307200⟩, ⟨528384, 153600⟩], [⟨1052672, 307200⟩, ⟨1576960, 153600⟩]] := by
  constructor
  · have hrun : Exec (fixed bufferedAnswer)
        (V4L2Camera.construct .exact 2 { pixelFormat := .grey }).run () _ (.ok _) () :=
      exec_fixed rfl
    obtain ⟨hshaped, _⟩ := construction_shapes_accesses hrun
    exact ⟨_, _, hrun, hshaped, rfl, rfl⟩
  · have hrun : Exec (fixed planarAnswer)
        (V4L2Camera.construct .exact 2 { pixelFormat := .nv12 }).run () _ (.ok _) () :=
      exec_fixed rfl
    obtain ⟨hshaped, _⟩ := construction_shapes_accesses hrun
    exact ⟨_, _, hrun, hshaped, rfl, rfl⟩

end CameraCore
