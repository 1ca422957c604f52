import Mathlib.Order.Interval.Set.Basic
import CameraCore.V4L2State

/-!
# The planes of a dequeued buffer

The last part of `read` describes the payload of a dequeued buffer by one plane for
each mapping of it. The sizes reported by the driver are untrusted; the planes stay
inside their mappings and expose exactly the driver's payload cut to them.
-/

namespace CameraCore

open DeviceProgram

/-- The camera object besides the shared state; `strides` has one entry in
single-plane mode and one for each plane of the format in multi-plane mode. -/
structure V4L2Camera (t : CaptureType) where
  config : CaptureConfig
  capabilities : Capabilities
  strides : List UInt32
  selectedFourcc : UInt32
  strideCount : PlaneCount t strides.length

def timestampTypeMask : UInt32 := 0x0000e000

def timestampMonotonic : UInt32 := 0x00002000

def timestampFrom (buffer : V4L2Buffer) : Timestamp where
  seconds := buffer.timestamp.tvSec
  nanoseconds := buffer.timestamp.tvUsec.toUInt64.toUInt32 * 1000
  clock := if buffer.flags &&& timestampTypeMask = timestampMonotonic then .monotonic else .unknown

variable {t : CaptureType}

theorem PlaneCount.ne_nil {α : Type} {l : List α} (h : PlaneCount t l.length) : l ≠ [] :=
  List.ne_nil_of_length_pos h.pos

theorem planeIndex_lt {n : ℕ} (h : ¬ (n = 0 ∨ videoMaxPlanes < n)) (index : Fin n) :
    index.val < videoMaxPlanes := by
  have hlt := index.isLt
  omega

def singlePlane (mapping : Mapping) (stride : UInt32) (buffer : V4L2Buffer) : Plane ℕ where
  data := mapping.address
  bytesUsed := min buffer.bytesused.toUInt64 mapping.length
  length := mapping.length
  stride := stride

/-- Where the payload starts in the mapping, clamped to its end. -/
def planeOffset (mapping : Mapping) (dequeued : V4L2Plane) : UInt64 :=
  min dequeued.dataOffset.toUInt64 mapping.length

def multiPlane (mapping : Mapping) (stride : UInt32) (dequeued : V4L2Plane) : Plane ℕ :=
  let offset := planeOffset mapping dequeued
  { data := mapping.address + offset.toNat
    bytesUsed :=
      if dequeued.bytesused.toUInt64 > offset then
        min (dequeued.bytesused.toUInt64 - offset) (mapping.length - offset)
      else 0
    length := mapping.length - offset
    stride := stride }

namespace V4L2Camera

def readPlanes : {t : CaptureType} → V4L2Camera t → BufferMemory t → V4L2Buffer →
    Except Exception (List (Plane ℕ))
  | .videoCapture, camera, memory, buffer =>
      .ok [singlePlane (memory.planes.head memory.planeCount.ne_nil)
        (camera.strides.head camera.strideCount.ne_nil) buffer]
  | .videoCaptureMplane, camera, memory, buffer =>
      let planeCount := memory.planes.length
      if h : planeCount = 0 ∨ videoMaxPlanes < planeCount then
        .error (.camera .systemError "V4L2 returned an invalid plane count")
      else
        .ok (List.ofFn fun index : Fin planeCount =>
          multiPlane memory.planes[index] (camera.strides[index.val]?.getD 0)
            (buffer.planes ⟨index, planeIndex_lt h index⟩))

def frame {lease : Type} (camera : V4L2Camera t) (planes : List (Plane ℕ)) (buffer : V4L2Buffer)
    (held : lease) : FrameImpl ℕ lease :=
  FrameBuilder.build planes camera.config.width camera.config.height camera.config.pixelFormat
    camera.config.captureMode buffer.sequence.toUInt64 (timestampFrom buffer) held

/-- From the dequeued buffer to the frame: the planes are collected in a vector and
moved into the record behind the frame, each an allocation. -/
def buildFrame {lease : Type} (camera : V4L2Camera t) (memory : BufferMemory t)
    (buffer : V4L2Buffer) (held : lease) : Syscalls (Except Exception (FrameImpl ℕ lease)) :=
  match camera.readPlanes memory buffer with
  | .error e => pure (.error e)
  | .ok planes => do
      if !(← allocate) then pure (.error .badAlloc)
      else if !(← allocate) then pure (.error .badAlloc)
      else pure (.ok (camera.frame planes buffer held))

theorem exec_buildFrame_ok {lease σ : Type} {D : Device linux σ} {d d₁ d₂ : σ}
    {camera : V4L2Camera t} {memory : BufferMemory t} {buffer : V4L2Buffer} {held : lease}
    {planes : List (Plane ℕ)} (hp : camera.readPlanes memory buffer = .ok planes)
    (h₁ : D d .allocate true d₁) (h₂ : D d₁ .allocate true d₂) :
    Exec D (camera.buildFrame memory buffer held) d [⟨.allocate, true⟩, ⟨.allocate, true⟩]
      (.ok (camera.frame planes buffer held)) d₂ := by
  unfold buildFrame
  rw [hp]
  refine exec_request_bind.mpr ⟨true, d₁, [_], h₁, ?_, rfl⟩
  exact exec_request_bind.mpr ⟨true, d₂, [], h₂, ⟨rfl, rfl, rfl⟩, rfl⟩

theorem buildFrame_ok {lease σ : Type} {D : Device linux σ} {d d' : σ} {log : Log}
    {camera : V4L2Camera t} {memory : BufferMemory t} {buffer : V4L2Buffer} {held : lease}
    {frame : FrameImpl ℕ lease}
    (h : Exec D (camera.buildFrame memory buffer held) d log (.ok frame) d') :
    camera.readPlanes memory buffer = .ok frame.planes ∧ frame.lease = held ∧
      frame.pixelFormat = camera.config.pixelFormat := by
  unfold buildFrame at h
  cases hp : camera.readPlanes memory buffer with
  | error e =>
      rw [hp] at h
      obtain ⟨_, he, _⟩ := h
      cases he
  | ok planes =>
      rw [hp] at h
      obtain ⟨first, _, _, _, h₁, _⟩ := exec_request_bind.mp h
      cases first with
      | false =>
          obtain ⟨_, he, _⟩ := h₁
          cases he
      | true =>
          obtain ⟨second, _, _, _, h₂, _⟩ := exec_request_bind.mp h₁
          cases second with
          | false =>
              obtain ⟨_, he, _⟩ := h₂
              cases he
          | true =>
              obtain ⟨_, he, _⟩ := h₂
              cases he
              exact ⟨rfl, rfl, rfl⟩

end V4L2Camera

structure Plane.Within (p : Plane ℕ) (m : Mapping) : Prop where
  start : m.address ≤ p.data
  ends : (p.data - m.address) + p.length.toNat = m.length.toNat
  used : p.bytesUsed.toNat ≤ p.length.toNat

def Plane.exposed (p : Plane ℕ) (m : Mapping) : Set ℕ :=
  Set.Ico (p.data - m.address) (p.data - m.address + p.bytesUsed.toNat)

/-- The bytes of a plane the driver reports as payload. -/
def driverPayload (t : CaptureType) (buffer : V4L2Buffer) (index : Fin videoMaxPlanes) : Set ℕ :=
  match t with
  | .videoCapture => Set.Ico 0 buffer.bytesused.toNat
  | .videoCaptureMplane =>
      Set.Ico (buffer.planes index).dataOffset.toNat (buffer.planes index).bytesused.toNat

/-- The subtractions of `multiPlane` are those of the integers. -/
def NoUnderflow (mapping : Mapping) (dequeued : V4L2Plane) : Prop :=
  let offset := planeOffset mapping dequeued
  (mapping.length - offset).toNat + offset.toNat = mapping.length.toNat ∧
    (dequeued.bytesused.toUInt64 > offset →
      (dequeued.bytesused.toUInt64 - offset).toNat + offset.toNat = dequeued.bytesused.toNat)

theorem toNat_min (a b : UInt64) : (min a b).toNat = min a.toNat b.toNat := by
  change (if a ≤ b then a else b).toNat = _
  by_cases h : a ≤ b
  · have hn := UInt64.le_iff_toNat_le.mp h
    rw [if_pos h, Nat.min_eq_left hn]
  · have hn : ¬ a.toNat ≤ b.toNat := fun hn => h (UInt64.le_iff_toNat_le.mpr hn)
    rw [if_neg h, Nat.min_eq_right (by omega)]

section Bounds
variable (m : Mapping) (stride : UInt32) (buffer : V4L2Buffer) (dequeued : V4L2Plane)

theorem planeOffset_toNat :
    (planeOffset m dequeued).toNat = min dequeued.dataOffset.toNat m.length.toNat := by
  rw [planeOffset, toNat_min, UInt32.toNat_toUInt64]

theorem planeOffset_le : planeOffset m dequeued ≤ m.length := by
  rw [UInt64.le_iff_toNat_le, planeOffset_toNat]
  exact Nat.min_le_right _ _

theorem length_sub_offset :
    (m.length - planeOffset m dequeued).toNat =
      m.length.toNat - (planeOffset m dequeued).toNat :=
  UInt64.toNat_sub_of_le _ _ (planeOffset_le m dequeued)

theorem bytesused_sub_offset (h : dequeued.bytesused.toUInt64 > planeOffset m dequeued) :
    (dequeued.bytesused.toUInt64 - planeOffset m dequeued).toNat =
      dequeued.bytesused.toNat - (planeOffset m dequeued).toNat := by
  have hle : planeOffset m dequeued ≤ dequeued.bytesused.toUInt64 := UInt64.le_of_lt h
  rw [UInt64.toNat_sub_of_le _ _ hle, UInt32.toNat_toUInt64]

theorem noUnderflow : NoUnderflow m dequeued := by
  have hle : (planeOffset m dequeued).toNat ≤ m.length.toNat :=
    UInt64.le_iff_toNat_le.mp (planeOffset_le m dequeued)
  constructor
  · rw [length_sub_offset]
    omega
  · intro h
    have hlt := UInt64.lt_iff_toNat_lt.mp h
    rw [UInt32.toNat_toUInt64] at hlt
    rw [bytesused_sub_offset m dequeued h]
    omega

theorem multiPlane_bytesUsed :
    (multiPlane m stride dequeued).bytesUsed.toNat =
      min dequeued.bytesused.toNat m.length.toNat - (planeOffset m dequeued).toNat := by
  have hle : (planeOffset m dequeued).toNat ≤ m.length.toNat :=
    UInt64.le_iff_toNat_le.mp (planeOffset_le m dequeued)
  simp only [multiPlane]
  by_cases h : dequeued.bytesused.toUInt64 > planeOffset m dequeued
  · rw [if_pos h, toNat_min, bytesused_sub_offset m dequeued h, length_sub_offset]
    omega
  · have hn : ¬ (planeOffset m dequeued).toNat < dequeued.bytesused.toUInt64.toNat :=
      fun hlt => h (UInt64.lt_iff_toNat_lt.mpr hlt)
    rw [UInt32.toNat_toUInt64] at hn
    rw [if_neg h]
    change 0 = _
    omega

theorem multiPlane_within : (multiPlane m stride dequeued).Within m where
  start := Nat.le_add_right _ _
  ends := by
    have hle : (planeOffset m dequeued).toNat ≤ m.length.toNat :=
      UInt64.le_iff_toNat_le.mp (planeOffset_le m dequeued)
    simp only [multiPlane, Nat.add_sub_cancel_left, length_sub_offset]
    omega
  used := by
    rw [multiPlane_bytesUsed]
    simp only [multiPlane, length_sub_offset]
    omega

theorem multiPlane_exposed :
    (multiPlane m stride dequeued).exposed m =
      Set.Ico dequeued.dataOffset.toNat dequeued.bytesused.toNat ∩ Set.Ico 0 m.length.toNat := by
  have hoff := planeOffset_toNat m dequeued
  unfold Plane.exposed
  rw [multiPlane_bytesUsed]
  simp only [multiPlane, Nat.add_sub_cancel_left]
  ext x
  simp only [Set.mem_Ico, Set.mem_inter_iff]
  omega

theorem singlePlane_bytesUsed :
    (singlePlane m stride buffer).bytesUsed.toNat =
      min buffer.bytesused.toNat m.length.toNat := by
  simp only [singlePlane]
  rw [toNat_min, UInt32.toNat_toUInt64]

theorem singlePlane_within : (singlePlane m stride buffer).Within m where
  start := le_rfl
  ends := by simp [singlePlane]
  used := by
    rw [singlePlane_bytesUsed]
    exact Nat.min_le_right _ _

theorem singlePlane_exposed :
    (singlePlane m stride buffer).exposed m =
      Set.Ico 0 buffer.bytesused.toNat ∩ Set.Ico 0 m.length.toNat := by
  unfold Plane.exposed
  rw [singlePlane_bytesUsed]
  simp only [singlePlane, Nat.sub_self]
  ext x
  simp only [Set.mem_Ico, Set.mem_inter_iff]
  omega

end Bounds

theorem BufferMemory.planes_le (memory : BufferMemory t) :
    memory.planes.length ≤ videoMaxPlanes := by
  have h := memory.planeCount
  cases t with
  | videoCapture =>
      have h1 : memory.planes.length = 1 := h
      rw [h1]
      decide
  | videoCaptureMplane => exact h.2

/-- What `read` says about one plane of a frame. -/
def PlaneFaithful (t : CaptureType) (buffer : V4L2Buffer) (index : Fin videoMaxPlanes)
    (mapping : Mapping) (plane : Plane ℕ) : Prop :=
  plane.Within mapping ∧ (t = .videoCaptureMplane → NoUnderflow mapping (buffer.planes index)) ∧
    plane.exposed mapping = driverPayload t buffer index ∩ Set.Ico 0 mapping.length.toNat

def PlanesFaithful (buffer : V4L2Buffer) (memory : BufferMemory t) (planes : List (Plane ℕ)) :
    Prop :=
  ∃ hlen : planes.length = memory.planes.length,
    ∀ (i : ℕ) (hi : i < memory.planes.length),
      PlaneFaithful t buffer ⟨i, hi.trans_le memory.planes_le⟩ memory.planes[i] planes[i]

theorem readPlanes_ok (camera : V4L2Camera t) (memory : BufferMemory t) (buffer : V4L2Buffer) :
    ∃ planes, camera.readPlanes memory buffer = .ok planes ∧
      PlanesFaithful buffer memory planes := by
  cases t with
  | videoCapture =>
      have hone : memory.planes.length = 1 := memory.planeCount
      refine ⟨_, rfl, hone.symm, ?_⟩
      intro i hi
      have hz : i = 0 := by omega
      subst hz
      rw [← List.head_eq_getElem memory.planeCount.ne_nil]
      exact ⟨singlePlane_within _ _ _, by simp, singlePlane_exposed _ _ _⟩
  | videoCaptureMplane =>
      have hcount : 1 ≤ memory.planes.length ∧ memory.planes.length ≤ videoMaxPlanes :=
        memory.planeCount
      have hok : ¬ (memory.planes.length = 0 ∨ videoMaxPlanes < memory.planes.length) := by omega
      refine ⟨_, dif_neg hok, List.length_ofFn, ?_⟩
      intro i hi
      rw [List.getElem_ofFn]
      exact ⟨multiPlane_within _ _ _, fun _ => noUnderflow _ _, multiPlane_exposed _ _ _⟩

theorem buildFrame_error {lease σ : Type} {D : Device linux σ} {d d' : σ} {log : Log}
    {camera : V4L2Camera t} {memory : BufferMemory t} {buffer : V4L2Buffer} {held : lease}
    {e : Exception}
    (h : Exec D (camera.buildFrame memory buffer held) d log (.error e) d') : e = .badAlloc := by
  obtain ⟨planes, hp, _⟩ := readPlanes_ok camera memory buffer
  unfold V4L2Camera.buildFrame at h
  rw [hp] at h
  obtain ⟨first, _, _, _, h₁, _⟩ := exec_request_bind.mp h
  cases first with
  | false =>
      obtain ⟨_, he, _⟩ := exec_pure.mp h₁
      cases he
      rfl
  | true =>
      obtain ⟨second, _, _, _, h₂, _⟩ := exec_request_bind.mp h₁
      cases second with
      | false =>
          obtain ⟨_, he, _⟩ := exec_pure.mp h₂
          cases he
          rfl
      | true =>
          obtain ⟨_, he, _⟩ := exec_pure.mp h₂
          cases he

theorem readPlanes_within {camera : V4L2Camera t} {memory : BufferMemory t}
    {buffer : V4L2Buffer} {planes : List (Plane ℕ)}
    (h : camera.readPlanes memory buffer = .ok planes) :
    ∀ p ∈ planes, ∃ m ∈ memory.planes, p.Within m := by
  obtain ⟨planes', h', hlen, hp⟩ := readPlanes_ok camera memory buffer
  rw [h] at h'
  cases h'
  intro p hmem
  obtain ⟨i, hi, rfl⟩ := List.getElem_of_mem hmem
  have hi' : i < memory.planes.length := hlen ▸ hi
  exact ⟨memory.planes[i], List.getElem_mem hi', (hp i hi').1⟩

/-- Whatever sizes and offsets the driver reports, `read` puts one plane in the frame
for each mapping, each inside its mapping and exposing the driver's payload cut to it. -/
theorem readPlanes_faithful (camera : V4L2Camera t) (memory : BufferMemory t)
    (buffer : V4L2Buffer) :
    ∃ planes, camera.readPlanes memory buffer = .ok planes ∧
      PlanesFaithful buffer memory planes ∧
      ∀ (lease σ : Type) (held : lease) (D : Device linux σ) (d d' : σ) (log : Log)
        (frame : FrameImpl ℕ lease),
        Exec D (camera.buildFrame memory buffer held) d log (.ok frame) d' →
          frame.planes = planes := by
  obtain ⟨planes, hok, hfaithful⟩ := readPlanes_ok camera memory buffer
  refine ⟨planes, hok, hfaithful, ?_⟩
  intro lease σ held D d d' log frame hx
  obtain ⟨hplanes, _, _⟩ := V4L2Camera.buildFrame_ok hx
  rw [hok] at hplanes
  exact (Except.ok.inj hplanes).symm

end CameraCore
