import CameraCore.InspectRuns

/-!
# The checksums the tool prints

The tool computes the checksum of a frame through the pointers of its planes, while the kernel goes
on filling the buffers of its queue. The buffer of the frame is not among them until the frame is
released at the end of the pass, so the checksum printed is that of the bytes the frame was handed
out with.
-/

namespace CameraCore

open DeviceProgram FloatingPoint LabelledSystem

variable {t : CaptureType}

def ProcessRequest.Sees : (r : ProcessRequest) → r.Answer → Bytes → Prop
  | .print _ _, _, _ => True
  | .load address, byte, bytes => byte = bytes address

/-- The process on a memory that the kernel fills before and after each of its requests. -/
def fillingParts (bufs : List (BufferMemory t)) : HostParts (KernelQueue × Bytes) where
  system := filling bufs
  clock s _ _ s' := s' = s
  process s r x s' := s'.1 = s.1 ∧
    ∃ bytes, Fills bufs s.1 s.2 bytes ∧ r.Sees x bytes ∧ Fills bufs s.1 bytes s'.2

section Runs

variable {bufs : List (BufferMemory t)} {camera : V4L2Camera t} {bytes : Bytes}
  {s : System t (KernelQueue × Bytes)} {memory : BufferMemory t} {k : ℕ}

theorem Fills.trans {q : KernelQueue} {bytes bytes' bytes'' : Bytes} (h : Fills bufs q bytes bytes')
    (h' : Fills bufs q bytes' bytes'') : Fills bufs q bytes bytes'' := by
  intro a hne
  by_cases hsame : bytes' a = bytes a
  · exact h' a fun he => hne (he.trans hsame)
  · exact h a hsame

/-- What the process does is, to the camera, time in which the kernel fills buffers. -/
theorem filling_of_tool
    (h : (toolSystem (fillingParts bufs) (∅, bytes) camera bufs).Reachable s) :
    (fillingCapture camera bufs).Reachable s := by
  apply h.induction (P := fun s => (fillingCapture camera bufs).Reachable s)
  · intro s hs
    obtain rfl := hs
    exact .init ⟨bytes, rfl⟩
  · intro s l s' _ hr hs
    cases hs with
    | camera hs => exact hr.step (.step hs)
    | @own e dev hs =>
        obtain ⟨q, bytes'⟩ := dev
        obtain ⟨rfl, filled, hbefore, _, hafter⟩ := hs
        exact hr.step (.fill (hbefore.trans hafter))

structure Holds (memory : BufferMemory t) (k : ℕ) (bytes : Bytes) (d : KernelQueue × Bytes) :
    Prop where
  dequeued : k ∉ d.1
  same : ∀ a ∈ memory.addresses, d.2 a = bytes a

theorem Holds.byte {fuel : ℕ} {d d' : KernelQueue × Bytes} {data index : ℕ} {byte : UInt8}
    {log : List (Event process)} (hsep : Separate bufs) (hk : bufs[k]? = some memory)
    (h : Holds memory k bytes d)
    (hx : Exec (fillingParts bufs).process ((v4l2Class camera fuel).byte data index) d log byte d')
    (ha : data + index ∈ memory.addresses) :
    byte = bytes (data + index) ∧ Holds memory k bytes d' := by
  obtain ⟨⟨hqueue, filled, hbefore, hsees, hafter⟩, _⟩ := exec_request.mp hx
  have hfilled : ∀ a ∈ memory.addresses, filled a = bytes a := fun a ha =>
    (hbefore.same hsep hk h.dequeued a ha).trans (h.same a ha)
  refine ⟨hsees.trans (hfilled _ ha), ?_, ?_⟩
  · rw [hqueue]
    exact h.dequeued
  · intro a ha
    exact (hafter.same hsep hk h.dequeued a ha).trans (hfilled a ha)

/-- The loops of `frame_checksum`, while the kernel fills other buffers. -/
theorem Holds.checksum {fuel : ℕ} {frame : V4L2Frame} {d d' : KernelQueue × Bytes}
    {checksum : UInt32} {log : List (Event process)} (hsep : Separate bufs)
    (hk : bufs[k]? = some memory) (h : Holds memory k bytes d)
    (hframe : ∀ p ∈ frame.planes, ∃ m ∈ memory.planes, p.Within m)
    (hx : Exec (fillingParts bufs).process ((v4l2Class camera fuel).checksum frame) d log checksum
      d') :
    checksum = frameChecksum (fetchByte bytes) frame := by
  refine (exec_foldlM (P := Holds memory k bytes) ?_ h hx).1
  intro p hp b d₁ log₁ b₁ d₂ h₁ hplane
  obtain ⟨m, hm, hw⟩ := hframe p hp
  refine exec_foldlM (P := Holds memory k bytes) ?_ h₁ hplane
  intro index hindex b₂ d₃ log₃ b₃ d₄ h₃ hstep
  have hlt := (List.mem_range.mp hindex).trans_le hw.used
  obtain ⟨byte, d₅, log₄, log₅, hbyte, hend, rfl⟩ := exec_bind.mp hstep
  obtain ⟨rfl, rfl, rfl⟩ := exec_pure.mp hend
  obtain ⟨rfl, hheld⟩ := h₃.byte hsep hk hbyte ⟨m, hm, hw.mem_addresses hlt⟩
  exact ⟨rfl, hheld⟩

def LineOf (shown : V4L2Frame × (KernelQueue × Bytes)) (text : String) : Prop :=
  ∃ timestampNs, shown.1.timestamp.toNanoseconds = some timestampNs ∧
    text = frameText shown.1 timestampNs (frameChecksum (fetchByte shown.2.2) shown.1)

theorem printsAs_lineOf {fuel : ℕ} (hsep : Separate bufs) :
    System.PrintsAs (fillingParts bufs) (∅, bytes) camera bufs fuel LineOf := by
  intro s log handed frame log' a d' h hx
  have hsound := sound_reachable (filling_of_tool h.reachable)
  obtain ⟨p, hp⟩ := hsound.consistent
  have hid : frame.lease.id ∈ s.frames := by
    rw [h.rests.frames]
    exact Multiset.mem_singleton_self _
  have hrecord := h.rests.record frame rfl
  have hown := hsound.owned.framed frame.lease.id hid
  rw [hrecord] at hown
  obtain ⟨_, he, hlive, _, memory, hk, hplanes⟩ := hown
  cases he
  have hholds : Holds memory frame.lease.index s.core.dev.2 s.core.dev :=
    ⟨hp.represents.notMem_queue hlive, fun _ _ => rfl⟩
  obtain ⟨timestampNs, checksum, hns, ⟨log₁, d₁, hsum⟩, hout, _⟩ := exec_printFrame hx
  rw [hholds.checksum hsep hk hplanes hsum] at hout
  exact ⟨_, hout, timestampNs, hns, rfl⟩

/-- Whatever the kernel does to the buffers in its queue and whenever it does it: after the
capabilities the tool prints one line for each frame the camera hands out, in order, with the
checksum of the bytes the frame had when it was handed out. -/
theorem inspect_sums_frames {fl : Rounding} {fuel : ℕ} {options : Options}
    {capabilities : Capabilities} {d' : KernelQueue × Bytes} {log : List (Event host)}
    {r : Except Exception Unit} (hsep : Separate bufs)
    (h : Exec (fillingParts bufs).device ((v4l2Class camera fuel).inspect fl options capabilities
      ⟨{ buffers := bufs }, 0⟩) (∅, bytes) log r d') :
    ∃ handed lines, System.Ends (fillingParts bufs) (∅, bytes) camera bufs log handed ∧
      printed .out log = capabilitiesText fl capabilities :: lines ∧
      List.Forall₂ LineOf handed lines := by
  have hbegin := System.stands_init (fillingParts bufs) (∅, bytes) camera bufs
  have hrun := hbegin.inspect (printsAs_lineOf hsep) h
  rw [List.nil_append] at hrun
  exact hrun

/-- A driver of the sample buffers that fills the first one, and answers what its queue allows. -/
def queueAnswer (s : KernelQueue × Bytes) : (r : Request) → r.Answer × (KernelQueue × Bytes)
  | .ioctl (.qbuf index _ _) =>
      if index ∈ s.1 then (.error Errno.einval, s) else (.ok (), (insert index s.1, s.2))
  | .ioctl (.dqbuf _) =>
      if 0 ∈ s.1 then (.ok { index := 0, bytesused := 1 }, (s.1.erase 0, s.2))
      else (.error Errno.eagain, s)
  | .ioctl (.streamon _) => (.ok (), s)
  | .ioctl (.streamoff _) => (.ok (), (∅, s.2))
  | .ioctl _ => (.error Errno.einval, s)
  | .openFile _ => (.ok (), s)
  | .mmap _ _ => (.ok 4096, s)
  | .poll _ => (⟨0, .ok 1⟩, s)
  | .allocate => (true, s)

def memoryAnswer (s : KernelQueue × Bytes) :
    (r : host.Request) → host.Answer r × (KernelQueue × Bytes)
  | .inl (.inl (.call r)) => queueAnswer s r
  | .inl (.inl .allocate) => (true, s)
  | .inl (.inl (.release _)) => ((), s)
  | .inl (.inr r) => (stillAnswer 0 true r, s)
  | .inr (.print _ _) => ((), s)
  | .inr (.load address) => (s.2 address, s)

theorem queueAnswer_filling (s : KernelQueue × Bytes) (r : Request) :
    filling sampleBuffers s r (queueAnswer s r).1 (queueAnswer s r).2 := by
  obtain ⟨q, bytes⟩ := s
  cases r with
  | ioctl request =>
      cases request with
      | qbuf index _ _ =>
          by_cases hqueued : index ∈ q
          · rw [queueAnswer, if_pos hqueued]
            exact filling_still bytes (.done ⟨trivial, rfl⟩ nofun)
          · rw [queueAnswer, if_neg hqueued]
            exact filling_still bytes (.done ⟨hqueued, rfl⟩ id)
      | dqbuf _ =>
          by_cases hqueued : 0 ∈ q
          · rw [queueAnswer, if_pos hqueued]
            exact filling_still bytes (.done (Or.inl ⟨hqueued, rfl⟩) id)
          · rw [queueAnswer, if_neg hqueued]
            exact filling_still bytes (.done ⟨trivial, rfl⟩ nofun)
      | streamon _ => exact filling_still bytes (.done rfl id)
      | streamoff _ => exact filling_still bytes (.done rfl id)
      | _ => exact filling_still bytes (.done rfl nofun)
  | _ => exact filling_still bytes (.done rfl id)

theorem memoryAnswer_filling (s : KernelQueue × Bytes) (r : host.Request) :
    (fillingParts sampleBuffers).device s r (memoryAnswer s r).1 (memoryAnswer s r).2 := by
  match r with
  | .inl (.inl (.call r)) => exact queueAnswer_filling s r
  | .inl (.inl .allocate) => rfl
  | .inl (.inl (.release _)) => rfl
  | .inl (.inr _) => rfl
  | .inr (.print _ _) => exact ⟨rfl, s.2, fills_refl _ _, trivial, fills_refl _ _⟩
  | .inr (.load _) => exact ⟨rfl, s.2, fills_refl _ _, rfl, fills_refl _ _⟩

def sampleInspect : Program host (Except Exception Unit) :=
  (v4l2Class sampleCamera 2).inspect .exact { captureCount := 1 } sampleCamera.capabilities
    ⟨{ buffers := sampleBuffers }, 0⟩

theorem inspect_sums_frames_sample : ∃ log r d' handed lines,
    Exec (fillingParts sampleBuffers).device sampleInspect (∅, fun _ => 0) log r d' ∧
      printed .out log = capabilitiesText .exact sampleCamera.capabilities :: lines ∧
      lines.length = 1 ∧ List.Forall₂ LineOf handed lines := by
  have hcount : (sampleInspect.evaluateFrom memoryAnswer (∅, fun _ => 0)).map
      (fun out => (printed .out out.1).length) = some 2 := by decide +kernel
  obtain ⟨out, hout, htwo⟩ := Option.map_eq_some_iff.mp hcount
  have hrun := exec_evaluateFrom memoryAnswer_filling hout
  obtain ⟨handed, lines, _, hprinted, hlines⟩ := inspect_sums_frames sample_separate hrun
  refine ⟨_, _, _, handed, lines, hrun, hprinted, ?_, hlines⟩
  rw [hprinted, List.length_cons] at htwo
  exact Nat.succ_injective htwo

end Runs

end CameraCore
