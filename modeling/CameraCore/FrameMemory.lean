import CameraCore.FrameChecksum
import CameraCore.LeaseHistory
import CameraCore.MutexSections

/-!
# The bytes behind a frame

The planes of a frame point into memory that the kernel writes to. It may write at any time,
between two ioctls of a section as well as between two steps, but only to the mappings of the
buffers in its queue; nothing in the process writes there.

The buffer of a frame stays out of the queue until the last copy of the frame starts to release
it. So a frame keeps the bytes it was handed out with, whatever the camera does in the meantime.
-/

namespace CameraCore

open CriticalSections DeviceProgram LabelledSystem ResourcePool

abbrev Bytes := ℕ → UInt8

variable {t : CaptureType} {σ τ : Type}

def Mapping.addresses (m : Mapping) : Set ℕ := Set.Ico m.address (m.address + m.length.toNat)

def BufferMemory.addresses (memory : BufferMemory t) : Set ℕ :=
  {a | ∃ m ∈ memory.planes, a ∈ m.addresses}

/-- No byte is mapped for two buffers. -/
def Separate (bufs : List (BufferMemory t)) : Prop :=
  ∀ (i j : ℕ) (memory memory' : BufferMemory t), bufs[i]? = some memory →
    bufs[j]? = some memory' → i ≠ j → ∀ a ∈ memory.addresses, a ∉ memory'.addresses

/-- The kernel writes to the buffers of its queue. -/
def Fills (bufs : List (BufferMemory t)) (q : KernelQueue) (bytes bytes' : Bytes) : Prop :=
  ∀ a, bytes' a ≠ bytes a → ∃ i ∈ q, ∃ memory, bufs[i]? = some memory ∧ a ∈ memory.addresses

/-- A driver of the queue that fills buffers before and after it answers. -/
def fillingDevice (bufs : List (BufferMemory t)) (D : Device linux KernelQueue) :
    Device linux (KernelQueue × Bytes) :=
  fun s r x s' => D s.1 r x s'.1 ∧ ∃ bytes, Fills bufs s.1 s.2 bytes ∧ Fills bufs s'.1 bytes s'.2

def Core.mapDev (f : σ → τ) (c : Core t σ) : Core t τ := ⟨c.mem, f c.dev, c.leases, c.nextId⟩

namespace System

def mapDev (f : σ → τ) (s : System t σ) : System t τ :=
  ⟨s.core.mapDev f, s.cameraAlive, s.stateUses, s.reads, s.impls, s.implUses, s.frames⟩

variable {D : Device linux σ} {D' : Device linux τ} {f : σ → τ} {camera : V4L2Camera t}
  {bufs : List (BufferMemory t)} {s s' : System t σ} {log : Log} {l : Label} {extra : ℕ}

theorem DropState.map (hD : ∀ d r x d', D d r x d' → D' (f d) r x (f d'))
    (h : DropState D s log s') : DropState D' (s.mapDev f) log (s'.mapDev f) := by
  cases h with
  | shared h => exact .shared h
  | last h hd => exact .last h (Exec.map (f := f) hD hd)

theorem DropLease.map {lease : Lease} (hD : ∀ d r x d', D d r x d' → D' (f d) r x (f d'))
    (h : DropLease D s lease log s') : DropLease D' (s.mapDev f) lease log (s'.mapDev f) := by
  cases h with
  | intro h hd => exact .intro (Exec.map (f := f) hD h) (DropState.map hD hd)

theorem Step.map (hD : ∀ d r x d', D d r x d' → D' (f d) r x (f d'))
    (h : Step D camera s l s') : Step D' camera (s.mapDev f) l (s'.mapDev f) := by
  cases h with
  | start alive h => exact .start alive (Exec.map (f := f) hD h)
  | enter alive idle => exact .enter alive idle
  | await held phase h => exact .await held phase (Exec.map (f := f) hD h)
  | leased held phase h => exact .leased held phase (Exec.map (f := f) hD h)
  | dequeueFailed held phase h => exact .dequeueFailed held phase (Exec.map (f := f) hD h)
  | returnFrame phase hm h => exact .returnFrame phase hm (Exec.map (f := f) hD h)
  | unwind phase hm h hd => exact .unwind phase hm (Exec.map (f := f) hD h) (DropLease.map hD hd)
  | stop alive h => exact .stop alive (Exec.map (f := f) hD h)
  | copyFrame hid => exact .copyFrame hid
  | dropShared hid hu => exact .dropShared hid hu
  | dropLast hid hu hf hd => exact .dropLast hid hu hf (DropLease.map hD hd)
  | destroyCamera alive h hd =>
      exact .destroyCamera alive (Exec.map (f := f) hD h) (DropState.map hD hd)

theorem OwnedBy.of_mapDev (h : (s.mapDev f).OwnedBy bufs extra) : s.OwnedBy bufs extra where
  counted := ⟨h.counted.buffers, h.counted.outstanding, h.counted.fresh, h.counted.inRange,
    h.counted.ids⟩
  stateUses := h.stateUses
  implUses := h.implUses
  framed := h.framed
  holding := h.holding
  distinct := h.distinct
  off := h.off

end System

theorem Core.Step.map {D : Device linux σ} {D' : Device linux τ} {f : σ → τ} {c c' : Core t σ}
    {l : Section} (hD : ∀ d r x d', D d r x d' → D' (f d) r x (f d')) (h : Core.Step D c l c') :
    Core.Step D' (c.mapDev f) l (c'.mapDev f) := by
  cases h with
  | start h => exact .start (Exec.map (f := f) hD h)
  | leased h => exact .leased (Exec.map (f := f) hD h)
  | dequeueFailed h => exact .dequeueFailed (Exec.map (f := f) hD h)
  | release hl h => exact .release hl (Exec.map (f := f) hD h)
  | stop h => exact .stop (Exec.map (f := f) hD h)
  | outside h hlog => exact .outside (Exec.map (f := f) hD h) hlog

section Requests

variable {bufs : List (BufferMemory t)} {outOfRange : ℕ → Prop}
  {mayFail : KernelQueue → Ioctl → Errno → Prop} {e e' : KernelQueue × Bytes}
  {r : linux.Request} {x : linux.Answer r} {memory : BufferMemory t} {k : ℕ}

theorem Fills.same {q : KernelQueue} {bytes bytes' : Bytes} (hsep : Separate bufs)
    (hk : bufs[k]? = some memory) (hq : k ∉ q) (h : Fills bufs q bytes bytes') :
    ∀ a ∈ memory.addresses, bytes' a = bytes a := by
  intro a ha
  by_contra hne
  obtain ⟨i, hi, memory', hi', ha'⟩ := h a hne
  have hik : i ≠ k := by
    rintro rfl
    exact hq hi
  exact hsep i k memory' memory hi' hk hik a ha' ha

theorem fills_refl (q : KernelQueue) (bytes : Bytes) : Fills bufs q bytes bytes :=
  fun _ hne => absurd rfl hne

theorem retried_filling
    (h : retryIoctl (fillingDevice bufs (queueAnswers outOfRange mayFail)) e r x e') :
    retryIoctl (queueAnswers outOfRange mayFail) e.1 r x e'.1 := by
  unfold retryIoctl at h ⊢
  induction h with
  | done hD hx => exact .done hD.1 hx
  | retry hD hx _ ih => exact .retry hD.1 hx ih

theorem retried_same (hsep : Separate bufs) (hk : bufs[k]? = some memory)
    (h : retryIoctl (fillingDevice bufs (queueAnswers outOfRange mayFail)) e r x e')
    (hq : k ∉ e.1) (hq' : k ∉ e'.1) : ∀ a ∈ memory.addresses, e'.2 a = e.2 a := by
  unfold retryIoctl at h
  induction h with
  | done hD hx =>
      obtain ⟨_, bytes, hbefore, hafter⟩ := hD
      intro a ha
      exact (hafter.same hsep hk hq' a ha).trans (hbefore.same hsep hk hq a ha)
  | retry hD hx _ ih =>
      obtain ⟨hstay, bytes, hbefore, hafter⟩ := hD
      have hstay := queueAnswers_interrupted hx hstay
      rw [hstay] at hafter
      have hrest := ih (hstay ▸ hq) hq'
      intro a ha
      exact (hrest a ha).trans
        ((hafter.same hsep hk hq a ha).trans (hbefore.same hsep hk hq a ha))

end Requests
section Sections

variable {bufs : List (BufferMemory t)} {memory : BufferMemory t} {lease : Lease}
  {c c' : Core t (KernelQueue × Bytes)} {p : ℕ → Place} {l : Section}

abbrev filling (bufs : List (BufferMemory t)) : Device linux (KernelQueue × Bytes) :=
  retryIoctl (fillingDevice bufs (faultyDriver bufs.length))

theorem filling_queue (d : KernelQueue × Bytes) (r : Request) (x : r.Answer)
    (d' : KernelQueue × Bytes) (h : filling bufs d r x d') :
    retryIoctl (faultyDriver bufs.length) d.1 r x d'.1 := retried_filling h

theorem queue_step (hs : Core.Step (filling bufs) c l c') :
    Core.Step (faultyDriver bufs.length) (c.mapDev Prod.fst) l (c'.mapDev Prod.fst) :=
  hs.map fun _ _ _ _ hD => faultyDriver_retry_le _ _ _ _ _ (filling_queue _ _ _ _ hD)

theorem perform_same {g : Guarded t} (op : Operation) {log : Log} {x : Outcome × Guarded t}
    {e e' : KernelQueue × Bytes} (hsep : Separate bufs) (hk : bufs[lease.index]? = some memory)
    (hc : (g.core e.1).Consistent bufs p) (he : g.permits op) (hl : lease ∈ g.leases)
    (hop : op ≠ .release lease) (h : Exec (filling bufs) (g.perform op) e log x e') :
    ∀ a ∈ memory.addresses, e'.2 a = e.2 a := by
  have hkeeps : KeepsQueue bufs.length (g.Queueable op) (g.perform op) (Prod.fst e) :=
    keeps_perform hc he
  have hout : ∀ q : KernelQueue, (∀ i ∈ q, g.Queueable op i) → lease.index ∉ q := by
    intro q hq hi
    exact hop (hq _ hi lease hl rfl)
  refine hkeeps.preserves (R := fun e e' => ∀ a ∈ memory.addresses, e'.2 a = e.2 a)
    (fun e a _ => rfl) ?_ ?_ ?_ h
  · intro e₁ e₂ e₃ h₁ h₂ a ha
    exact (h₂ a ha).trans (h₁ a ha)
  · intro e₁ r x e₂ hD
    exact faultyDriver_retry_le _ _ _ _ _ (filling_queue _ _ _ _ hD)
  · intro e₁ r x e₂ hD hq hq'
    exact retried_same hsep hk hD (hout _ hq) (hout _ hq')

theorem outside_same {α : Type} {prog : Syscalls α} {a : α} {log : Log} {e e' : KernelQueue × Bytes}
    (hsep : Separate bufs) (hk : bufs[lease.index]? = some memory) (hq : lease.index ∉ e.1)
    (h : Exec (filling bufs) prog e log a e') (hlog : ∀ e ∈ log, e.1.Outside) :
    ∀ a ∈ memory.addresses, e'.2 a = e.2 a := by
  have hkept : e'.1 = e.1 ∧ (lease.index ∉ e.1 → ∀ a ∈ memory.addresses, e'.2 a = e.2 a) := by
    refine h.preserves (R := fun e e' => e'.1 = e.1 ∧
      (lease.index ∉ e.1 → ∀ a ∈ memory.addresses, e'.2 a = e.2 a))
      (fun e => ⟨rfl, fun _ _ _ => rfl⟩) ?_ ?_
    · rintro e₁ e₂ e₃ ⟨hq₁, h₁⟩ ⟨hq₂, h₂⟩
      refine ⟨hq₂.trans hq₁, fun hn a ha => ?_⟩
      exact (h₂ (hq₁ ▸ hn) a ha).trans (h₁ hn a ha)
    · intro e₁ r x e₂ hD hm
      have hstay : e₂.1 = e₁.1 := inert_outside.stays _ _ _ _ (hlog _ hm)
        (faultyDriver_retry_le _ _ _ _ _ (filling_queue _ _ _ _ hD))
      exact ⟨hstay, fun hn => retried_same hsep hk hD hn (hstay ▸ hn)⟩
  exact hkept.2 hq

theorem section_same (hsep : Separate bufs) (hk : bufs[lease.index]? = some memory)
    (hc : (c.mapDev Prod.fst).Consistent bufs p) (hl : lease ∈ c.leases)
    (hs : Core.Step (filling bufs) c l c') (hl' : lease ∈ c'.leases) :
    ∀ a ∈ memory.addresses, c'.dev.2 a = c.dev.2 a := by
  have hcore : (c.guarded.core c.dev.1).Consistent bufs p := hc
  cases hs with
  | start h =>
      have hbody := exec_map_pure
        (f := fun x => (Outcome.started x.1, { c.guarded with mem := x.2 })) h
      exact perform_same .start hsep hk hcore trivial hl nofun hbody
  | leased h =>
      have hbody := exec_map_pure
        (f := fun x => (Outcome.dequeued x.1, { c.guarded with mem := x.2 }.withLease x.1)) h
      exact perform_same .dequeue hsep hk hcore trivial hl nofun hbody
  | dequeueFailed h =>
      have hbody := exec_map_pure
        (f := fun x => (Outcome.dequeued x.1, { c.guarded with mem := x.2 }.withLease x.1)) h
      exact perform_same .dequeue hsep hk hcore trivial hl nofun hbody
  | @release other _ _ _ ho h =>
      have hbody := exec_map_pure
        (f := fun x => (Outcome.released other,
          { c.guarded with mem := x, leases := c.leases.erase other })) h
      have hne : Operation.release other ≠ .release lease := by
        intro he
        cases he
        exact Finset.notMem_erase _ _ hl'
      exact perform_same (.release other) hsep hk hcore ho hl hne hbody
  | stop h =>
      have hbody := exec_map_pure (f := fun x => (Outcome.stopped, { c.guarded with mem := x })) h
      exact perform_same .stop hsep hk hcore trivial hl nofun hbody
  | outside h hlog => exact outside_same hsep hk (hc.represents.notMem_queue hl) h hlog

/-- A lease that has gone is not made again. -/
theorem gone_step {σ : Type} {D : Device linux σ} {c c' : Core t σ}
    (h : lease ∉ c.leases ∧ lease.id < c.nextId) (hs : Core.Step D c l c') :
    lease ∉ c'.leases ∧ lease.id < c'.nextId := by
  obtain ⟨hn, hid⟩ := h
  cases hs with
  | @leased log buffer mem dev hx =>
      refine ⟨?_, Nat.lt_succ_of_lt hid⟩
      intro hm
      rcases Finset.mem_insert.mp hm with he | hm
      · rw [he] at hid
        exact absurd hid (Nat.lt_irrefl _)
      · exact hn hm
  | release hl hx => exact ⟨fun hm => hn (Finset.mem_of_mem_erase hm), hid⟩
  | _ => exact ⟨hn, hid⟩

theorem sections_same {ls : List Section} (hsep : Separate bufs)
    (hk : bufs[lease.index]? = some memory) (hc : (c.mapDev Prod.fst).Consistent bufs p)
    (hl : lease ∈ c.leases) {d₀ : KernelQueue × Bytes}
    (hr : (captureCore (filling bufs) d₀ bufs).Run c ls c') (hl' : lease ∈ c'.leases) :
    ∀ a ∈ memory.addresses, c'.dev.2 a = c.dev.2 a := by
  induction ls generalizing c p with
  | nil =>
      obtain rfl := hr
      exact fun _ _ => rfl
  | cons l ls ih =>
      obtain ⟨c₁, hs, hrest⟩ := hr
      have hl₁ : lease ∈ c₁.leases := by
        by_contra hn
        have hid := hc.counted.fresh lease hl
        have hgone := hrest.invariant (P := fun c => lease ∉ c.leases ∧ lease.id < c.nextId)
          (Q := fun _ => True) (fun _ _ _ h hs => ⟨trivial, gone_step h hs⟩)
          ⟨hn, lt_of_lt_of_le hid (by cases hs <;> first | exact le_rfl | exact Nat.le_succ _)⟩
        exact hgone.1.1 hl'
      obtain ⟨_, p₁, _, hc₁⟩ := Core.consistent_step hc (queue_step hs)
      have hfirst := section_same hsep hk hc hl hs hl₁
      intro a ha
      exact (ih hc₁ hl₁ hrest a ha).trans (hfirst a ha)

end Sections

section Runs

variable {bufs : List (BufferMemory t)} {camera : V4L2Camera t}
  {s s' : System t (KernelQueue × Bytes)} {l : Option Label} {frame : V4L2Frame} {id : ℕ}

/-- A step of the system, or the kernel fills queued buffers between two steps. -/
inductive FillStep (camera : V4L2Camera t) (bufs : List (BufferMemory t)) :
    System t (KernelQueue × Bytes) → Option Label → System t (KernelQueue × Bytes) → Prop
  | step {s s' : System t (KernelQueue × Bytes)} {l : Label}
      (h : System.Step (filling bufs) camera s l s') : FillStep camera bufs s (some l) s'
  | fill {s : System t (KernelQueue × Bytes)} {bytes : Bytes}
      (h : Fills bufs s.core.dev.1 s.core.dev.2 bytes) :
      FillStep camera bufs s none (s.withMem s.core.mem (s.core.dev.1, bytes))

def fillingCapture (camera : V4L2Camera t) (bufs : List (BufferMemory t)) :
    LabelledSystem (System t (KernelQueue × Bytes)) (Option Label) where
  init s := ∃ bytes, s = { core := { mem := { buffers := bufs }, dev := (∅, bytes) } }
  step := FillStep camera bufs

/-- Apart from the memory, this is the system on the driver of the queue. -/
theorem filling_refines (camera : V4L2Camera t) (bufs : List (BufferMemory t)) :
    Simulation (fillingCapture camera bufs)
      (captureSystem (retryIoctl (faultyDriver bufs.length)) ∅ camera bufs)
      (fun s s' => s' = s.mapDev Prod.fst) where
  init := by
    rintro s ⟨bytes, rfl⟩
    exact ⟨_, rfl, rfl⟩
  step := by
    rintro s l s' _ rfl hs
    cases hs with
    | step h => exact ⟨[_], _, run_singleton.mpr (h.map filling_queue), rfl⟩
    | fill h => exact ⟨[], _, rfl, rfl⟩

structure Sound (bufs : List (BufferMemory t)) (s : System t (KernelQueue × Bytes)) : Prop where
  owned : s.OwnedBy bufs 0
  consistent : ∃ p, (s.core.mapDev Prod.fst).Consistent bufs p

theorem sound_reachable (h : (fillingCapture camera bufs).Reachable s) : Sound bufs s := by
  obtain ⟨_, hr, rfl⟩ := (filling_refines camera bufs).reachable h
  exact ⟨(System.owned_reachable hr).of_mapDev,
    System.consistent_reachable (faultyDriver_retry_le _) hr⟩

/-- A frame keeps its record as long as its lease is live. -/
theorem frame_kept {σ : Type} {D : Device linux σ} {s s' : System t σ} {l : Label}
    (ho : s.OwnedBy bufs 0) (hid : id ∈ s.frames) (hf : s.impls id = some frame)
    (hs : System.Step D camera s l s') (hl : frame.lease ∈ s'.core.leases) :
    id ∈ s'.frames ∧ s'.impls id = some frame := by
  have hown := ho.framed id hid
  rw [hf] at hown
  obtain ⟨_, he, hlive, hlease, _⟩ := hown
  cases he
  cases hs with
  | returnFrame phase hm hx =>
      obtain ⟨_, hn⟩ := ho.holding _ _ _ phase
      refine ⟨Multiset.mem_cons_of_mem hid, ?_⟩
      rw [← hf]
      apply Function.update_of_ne
      rintro rfl
      exact hn hid
  | unwind phase hm hx hd =>
      cases hd with
      | intro hx hd => cases hd <;> exact ⟨hid, hf⟩
  | copyFrame => exact ⟨Multiset.mem_cons_of_mem hid, hf⟩
  | dropShared _ hu => exact ⟨(System.transfer_dropShared ho hu id).mpr hid, hf⟩
  | @dropLast _ other log frame' hid' hu hf' hd =>
      have hleases := hd.transfer.1
      have hne : id ≠ other := by
        rintro rfl
        rw [hf] at hf'
        cases hf'
        rw [hleases] at hl
        exact Finset.notMem_erase _ _ hl
      cases hd with
      | intro hx hd =>
          have hkept := (Multiset.mem_erase_of_ne hne).mpr hid
          have himpl := (Function.update_of_ne hne none s.impls).trans hf
          cases hd <;> exact ⟨hkept, himpl⟩
  | destroyCamera alive hx hd => cases hd <;> exact ⟨hid, hf⟩
  | _ => exact ⟨hid, hf⟩

structure Kept (s s' : System t (KernelQueue × Bytes)) (frame : V4L2Frame) (id : ℕ)
    (memory : BufferMemory t) : Prop where
  here : id ∈ s'.frames
  impl : s'.impls id = some frame
  bytes : ∀ a ∈ memory.addresses, s'.core.dev.2 a = s.core.dev.2 a

theorem kept_step {memory : BufferMemory t} (hsep : Separate bufs)
    (hk : bufs[frame.lease.index]? = some memory) (h : Sound bufs s) (hid : id ∈ s.frames)
    (hf : s.impls id = some frame) (hs : FillStep camera bufs s l s')
    (hl : frame.lease ∈ s'.core.leases) : Kept s s' frame id memory := by
  obtain ⟨p, hp⟩ := h.consistent
  have hown := h.owned.framed id hid
  rw [hf] at hown
  obtain ⟨_, he, hlive, _⟩ := hown
  cases he
  cases hs with
  | step h' =>
      obtain ⟨hid', hf'⟩ := frame_kept h.owned hid hf h' hl
      obtain ⟨ls, hr, _⟩ := System.project s.core.dev h.owned h'
      exact ⟨hid', hf', sections_same hsep hk hp hlive hr hl⟩
  | fill hfill =>
      exact ⟨hid, hf, hfill.same hsep hk (hp.represents.notMem_queue hlive)⟩

/-- No lease of this number is live, and none will be. -/
def Gone {σ : Type} (id : ℕ) (s : System t σ) : Prop :=
  id < s.core.nextId ∧ ∀ m ∈ s.core.leases, m.id ≠ id

theorem Gone.transfer {σ : Type} {s s' : System t σ} {l : Label} (h : Gone id s)
    (ht : System.Transfer s s' l) : Gone id s' := by
  obtain ⟨hid, hnone⟩ := h
  refine ⟨hid.trans_le ht.next_le, ?_⟩
  intro m hm
  rcases ht.leases_old hm with hold | hnew
  · exact hnone m hold
  · rw [hnew]
    exact hid.ne'

theorem gone_of_released {σ : Type} {s s' : System t σ} {l : Label} (ho : s.OwnedBy bufs 0)
    (ht : System.Transfer s s' l) {lease : Lease} (hl : lease ∈ s.core.leases)
    (hl' : lease ∉ s'.core.leases) : Gone lease.id s' := by
  have hid := ho.counted.fresh lease hl
  refine ⟨hid.trans_le ht.next_le, ?_⟩
  intro m hm he
  rcases ht.leases_old hm with hold | hnew
  · rw [ho.counted.ids hold hl he] at hm
    exact hl' hm
  · rw [← he, hnew] at hid
    exact absurd hid (Nat.lt_irrefl _)

theorem Gone.fill (ho : s.OwnedBy bufs 0) (h : Gone id s) (hs : FillStep camera bufs s l s') :
    Gone id s' := by
  cases hs with
  | step h' => exact h.transfer (System.step_transfer ho h')
  | fill => exact h

theorem Gone.run {ls : List (Option Label)} (hreach : (fillingCapture camera bufs).Reachable s)
    (h : Gone id s) (hr : (fillingCapture camera bufs).Run s ls s') : Gone id s' := by
  induction ls generalizing s with
  | nil =>
      obtain rfl := hr
      exact h
  | cons l ls ih =>
      obtain ⟨s₁, hs, hrest⟩ := hr
      exact ih (hreach.step hs) (h.fill (sound_reachable hreach).owned hs) hrest

theorem Gone.notMem_frames {σ : Type} {s : System t σ} (ho : s.OwnedBy bufs 0) (h : Gone id s) :
    id ∉ s.frames := by
  intro hid
  obtain ⟨frame, _, hl, he, _⟩ := ho.framed id hid
  exact h.2 _ hl he

theorem kept_run {memory : BufferMemory t} {ls : List (Option Label)} (hsep : Separate bufs)
    (hk : bufs[frame.lease.index]? = some memory)
    (hreach : (fillingCapture camera bufs).Reachable s) (hid : id ∈ s.frames)
    (hf : s.impls id = some frame) (hr : (fillingCapture camera bufs).Run s ls s')
    (hid' : id ∈ s'.frames) : Kept s s' frame id memory := by
  induction ls generalizing s with
  | nil =>
      obtain rfl := hr
      exact ⟨hid, hf, fun _ _ => rfl⟩
  | cons l ls ih =>
      obtain ⟨s₁, hs, hrest⟩ := hr
      have hsound := sound_reachable hreach
      by_cases hl : frame.lease ∈ s₁.core.leases
      · have hfirst := kept_step hsep hk hsound hid hf hs hl
        have hlast := ih (hreach.step hs) hfirst.here hfirst.impl hrest
        exact ⟨hid', hlast.impl, fun a ha => (hlast.bytes a ha).trans (hfirst.bytes a ha)⟩
      · have hown := hsound.owned.framed id hid
        rw [hf] at hown
        obtain ⟨_, he, hlive, hlease, _⟩ := hown
        cases he
        have hgone : Gone id s₁ := by
          cases hs with
          | step h' =>
              rw [← hlease]
              exact gone_of_released hsound.owned (System.step_transfer hsound.owned h') hlive hl
          | fill => exact absurd hlive hl
        have hend := hgone.run (hreach.step hs) hrest
        have howned := (sound_reachable ((hreach.step hs).run hrest)).owned
        exact absurd hid' (hend.notMem_frames howned)

theorem Plane.Within.mem_addresses {p : Plane ℕ} {m : Mapping} (h : p.Within m) {k : ℕ}
    (hk : k < p.length.toNat) : p.data + k ∈ m.addresses := by
  have hstart := h.start
  have hends := h.ends
  constructor <;> omega

def fetchByte (bytes : Bytes) (data index : ℕ) : UInt8 := bytes (data + index)

/-- As long as a copy of a frame is there, its record, every byte of its planes and its checksum
stay what they are, while reads, starts, stops and releases go on and the kernel fills buffers. -/
theorem frame_bytes_stable {ls : List (Option Label)} (hsep : Separate bufs)
    (h : (fillingCapture camera bufs).Reachable s)
    (hr : (fillingCapture camera bufs).Run s ls s') (hid : id ∈ s.frames)
    (hid' : id ∈ s'.frames) :
    ∃ frame, s.impls id = some frame ∧ s'.impls id = some frame ∧
      (∀ p ∈ frame.planes, ∀ k < p.length.toNat,
        s'.core.dev.2 (p.data + k) = s.core.dev.2 (p.data + k)) ∧
      frameChecksum (fetchByte s'.core.dev.2) frame =
        frameChecksum (fetchByte s.core.dev.2) frame := by
  obtain ⟨frame, hf, _, _, memory, hk, hplanes⟩ := (sound_reachable h).owned.framed id hid
  have hkept := kept_run hsep hk h hid hf hr hid'
  have hbytes : ∀ p ∈ frame.planes, ∀ k < p.length.toNat,
      s'.core.dev.2 (p.data + k) = s.core.dev.2 (p.data + k) := by
    intro p hp k hlt
    obtain ⟨m, hm, hw⟩ := hplanes p hp
    exact hkept.bytes _ ⟨m, hm, hw.mem_addresses hlt⟩
  refine ⟨frame, hf, hkept.impl, hbytes, ?_⟩
  apply frameChecksum_congr
  unfold FrameImpl.payload FrameImpl.payloads
  congr 1
  apply List.map_congr_left
  intro p hp
  obtain ⟨m, _, hw⟩ := hplanes p hp
  apply List.map_congr_left
  intro k hlt
  exact hbytes p hp k ((List.mem_range.mp hlt).trans_le hw.used)

theorem filling_still {q q' : KernelQueue} {r : linux.Request} {x : linux.Answer r}
    (bytes : Bytes) (h : retryIoctl (faultyDriver bufs.length) q r x q') :
    filling bufs (q, bytes) r x (q', bytes) := by
  unfold retryIoctl at h
  induction h with
  | done hD hx => exact .done ⟨hD, bytes, fills_refl _ _, fills_refl _ _⟩ hx
  | retry hD hx _ ih => exact .retry ⟨hD, bytes, fills_refl _ _, fills_refl _ _⟩ hx ih

theorem fillingCapture_reachable {s : System t KernelQueue} (bytes : Bytes)
    (h : (captureSystem (retryIoctl (faultyDriver bufs.length)) ∅ camera bufs).Reachable s) :
    (fillingCapture camera bufs).Reachable (s.mapDev fun q => (q, bytes)) := by
  apply h.induction
    (P := fun s => (fillingCapture camera bufs).Reachable (s.mapDev fun q => (q, bytes)))
  · intro s hs
    obtain rfl := hs
    exact .init ⟨bytes, rfl⟩
  · intro s l s' _ hr hs
    exact hr.step (.step (hs.map fun _ _ _ _ hD => filling_still bytes hD))

theorem sample_separate : Separate sampleBuffers := by
  intro i j memory memory' hi hj hne
  rintro a ⟨m, hm, ha⟩ ⟨m', hm', ha'⟩
  match i, j with
  | 0, 0 => exact hne rfl
  | 1, 1 => exact hne rfl
  | 0, 1 =>
      cases hi
      cases hj
      obtain rfl := List.mem_singleton.mp hm
      obtain rfl := List.mem_singleton.mp hm'
      exact absurd ha.2 (not_lt.mpr ha'.1)
  | 1, 0 =>
      cases hi
      cases hj
      obtain rfl := List.mem_singleton.mp hm
      obtain rfl := List.mem_singleton.mp hm'
      exact absurd ha'.2 (not_lt.mpr ha.1)
  | _ + 2, _ => cases hi
  | _, _ + 2 => cases hj

theorem frame_bytes_stable_sample :
    ∃ bytes : Bytes, bytes 8192 = 1 ∧ Fills sampleBuffers {1} (fun _ => 0) bytes ∧
      ∀ p ∈ sampleFrame.planes, ∀ k < p.length.toNat, bytes (p.data + k) = 0 := by
  have hD : conformed 2 ≤ retryIoctl (faultyDriver 2) :=
    Retried.mono (conformingDriver_le_faultyDriver 2)
  have hqueue : (captureSystem (retryIoctl (faultyDriver sampleBuffers.length)) ∅ sampleCamera
      sampleBuffers).Reachable sampleFramed :=
    captureSystem_mono hD sampleFramed_reachable
  have hreach := fillingCapture_reachable (fun _ => 0) hqueue
  have hfills : Fills sampleBuffers {1} (fun _ => 0) (Function.update (fun _ => 0) 8192 1) := by
    intro a ha
    refine ⟨1, Finset.mem_singleton_self 1, _, rfl, ⟨8192, 4096⟩, List.mem_singleton_self _, ?_⟩
    by_cases he : a = 8192
    · rw [he]
      constructor <;> decide
    · exact absurd (Function.update_of_ne he _ _) ha
  have hheld : (0 : ℕ) ∈ sampleFramed.frames := by decide
  obtain ⟨frame, hf, _, hbytes, _⟩ := frame_bytes_stable sample_separate hreach
    (run_singleton.mpr (.fill hfills)) hheld hheld
  cases hf
  exact ⟨_, Function.update_self _ _ _, hfills, hbytes⟩

end Runs

end CameraCore
