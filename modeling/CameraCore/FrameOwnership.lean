import CameraCore.CaptureSystem

/-!
# Use counts and owners

`OwnedBy` relates the use counts to the owners they stand for: the shared state is
owned by the camera and the live leases, a frame record by the `Frame` values that
name it, a lease by one record or by one `read` in flight. It holds for any device,
and with it every step of the system projects to the core.
-/

namespace CameraCore

open DeviceProgram LabelledSystem

variable {t : CaptureType} {σ : Type}

/-- Every plane of the frame points into a mapping of the buffer it leases. -/
def PlanesHeld (bufs : List (BufferMemory t)) (frame : V4L2Frame) : Prop :=
  ∃ memory, bufs[frame.lease.index]? = some memory ∧
    ∀ p ∈ frame.planes, ∃ m ∈ memory.planes, p.Within m

namespace System

/-- `extra` counts the owners of the shared state on their way out. -/
structure OwnedBy (bufs : List (BufferMemory t)) (extra : ℕ) (s : System t σ) : Prop where
  counted : s.core.Counted bufs
  stateUses : s.stateUses = s.core.leases.card + (if s.cameraAlive then 1 else 0) + extra
  implUses : ∀ id, s.implUses id = s.frames.count id
  framed : ∀ id ∈ s.frames, ∃ frame, s.impls id = some frame ∧ frame.lease ∈ s.core.leases ∧
    frame.lease.id = id ∧ PlanesHeld bufs frame
  holding : ∀ r lease buffer, s.reads r = .holding lease buffer →
    lease ∈ s.core.leases ∧ lease.id ∉ s.frames
  distinct : ∀ r r' lease buffer buffer', s.reads r = .holding lease buffer →
    s.reads r' = .holding lease buffer' → r = r'
  off : s.cameraAlive = false → s.core.mem.streaming = false

variable {D : Device linux σ} {d₀ d d' : σ} {camera : V4L2Camera t}
  {bufs : List (BufferMemory t)} {s s' : System t σ} {log : Log} {extra : ℕ}

theorem owned_init (d₀ : σ) :
    OwnedBy bufs 0 ({ core := { mem := { buffers := bufs }, dev := d₀ } } : System t σ) where
  counted := Core.counted_init
  stateUses := rfl
  implUses := by simp
  framed := by simp
  holding := by simp
  distinct := by simp
  off := by simp

theorem OwnedBy.withCore (h : s.OwnedBy bufs extra) {c : Core t σ} (hc : c.Counted bufs)
    (hl : c.leases = s.core.leases) (hoff : s.cameraAlive = false → c.mem.streaming = false) :
    OwnedBy bufs extra { s with core := c } where
  counted := hc
  stateUses := by
    change s.stateUses = c.leases.card + _ + extra
    rw [hl]
    exact h.stateUses
  implUses := h.implUses
  framed := by
    intro id hid
    change ∃ frame, s.impls id = some frame ∧ frame.lease ∈ c.leases ∧ _
    rw [hl]
    exact h.framed id hid
  holding := by
    intro r lease buffer hr
    change lease ∈ c.leases ∧ _
    rw [hl]
    exact h.holding r lease buffer hr
  distinct := h.distinct
  off := hoff

theorem OwnedBy.setRead (h : s.OwnedBy bufs extra) (reader : ℕ) {phase : ReadPhase}
    (hp : ∀ lease buffer, phase ≠ .holding lease buffer) :
    OwnedBy bufs extra (s.setRead reader phase) where
  counted := h.counted
  stateUses := h.stateUses
  implUses := h.implUses
  framed := h.framed
  holding := by
    intro r lease buffer hr
    by_cases he : r = reader
    · subst he
      simp only [System.setRead, Function.update_self] at hr
      exact absurd hr (hp lease buffer)
    · simp only [System.setRead, Function.update_of_ne he] at hr
      exact h.holding r lease buffer hr
  distinct := by
    intro r r' lease buffer buffer' hr hr'
    by_cases he : r = reader
    · subst he
      simp only [System.setRead, Function.update_self] at hr
      exact absurd hr (hp lease buffer)
    · by_cases he' : r' = reader
      · subst he'
        simp only [System.setRead, Function.update_self] at hr'
        exact absurd hr' (hp lease buffer')
      · simp only [System.setRead, Function.update_of_ne he, Function.update_of_ne he'] at hr hr'
        exact h.distinct r r' lease buffer buffer' hr hr'
  off := h.off

theorem DropState.spec (h : DropState D s log s') (d₀ : σ) (bufs : List (BufferMemory t)) :
    ∃ ls c, s' = { s with core := c, stateUses := s.stateUses - 1 } ∧
      (captureCore D d₀ bufs).Run s.core ls c ∧ log = ls.flatMap Section.log ∧
      c.leases = s.core.leases ∧ c.nextId = s.core.nextId ∧
      (s.core.mem.streaming = false → c.mem.streaming = false) := by
  cases h with
  | shared hu => exact ⟨[], s.core, rfl, rfl, rfl, rfl, rfl, id⟩
  | @last log mem dev hu hd =>
      rw [V4L2State.destroy_eq_stopCapture] at hd
      obtain rfl := V4L2State.stopCapture_frame hd
      refine ⟨[.stop log], _, ?_, run_singleton.mpr (.stop hd), by simp [Section.log], rfl, rfl,
        fun _ => rfl⟩
      rw [hu]
      rfl

theorem Core.counted_run {c c' : Core t σ} {ls : List Section} (h : c.Counted bufs)
    (hr : (captureCore D d₀ bufs).Run c ls c') : c'.Counted bufs :=
  (hr.invariant (P := fun c => c.Counted bufs) (Q := fun _ => True)
    (fun _ _ _ hc hs => ⟨trivial, Core.counted_step hc hs⟩) h).1

theorem DropState.owned (h : s.OwnedBy bufs (extra + 1)) (hd : DropState D s log s') :
    s'.OwnedBy bufs extra := by
  obtain ⟨ls, c, rfl, hr, _, hl, _, hoff⟩ := hd.spec s.core.dev bufs
  have hc := Core.counted_run h.counted hr
  have ho := h.withCore hc hl (fun ha => hoff (h.off ha))
  refine { ho with stateUses := ?_ }
  have hu := ho.stateUses
  dsimp only at hu ⊢
  omega

theorem DropLease.owned {lease : Lease} (h : s.OwnedBy bufs extra)
    (hl : lease ∈ s.core.leases) (hf : lease.id ∉ s.frames)
    (hr : ∀ r m buffer, s.reads r = .holding m buffer → m ≠ lease)
    (hd : DropLease D s lease log s') : s'.OwnedBy bufs extra := by
  cases hd with
  | intro hx hd =>
      have hc := Core.counted_step h.counted (.release hl hx)
      apply DropState.owned _ hd
      refine ⟨hc, ?_, h.implUses, ?_, ?_, h.distinct, ?_⟩
      · have hu := h.stateUses
        have hcard := Finset.card_erase_add_one hl
        change s.stateUses =
          (s.core.leases.erase lease).card + (if s.cameraAlive then 1 else 0) + (extra + 1)
        omega
      · intro id hid
        obtain ⟨frame, hi, hm, rfl, hp⟩ := h.framed id hid
        refine ⟨frame, hi, Finset.mem_erase.mpr ⟨?_, hm⟩, rfl, hp⟩
        rintro rfl
        exact hf hid
      · intro r m buffer hrm
        obtain ⟨hm, hid⟩ := h.holding r m buffer hrm
        exact ⟨Finset.mem_erase.mpr ⟨hr r m buffer hrm, hm⟩, hid⟩
      · intro ha
        have hst := (V4L2State.release_frame hx).2.2
        exact hst.trans (h.off ha)

section Steps

theorem OwnedBy.frame_fresh (h : s.OwnedBy bufs extra) {id : ℕ} (hid : id ∈ s.frames) :
    id < s.core.nextId := by
  obtain ⟨frame, _, hl, rfl, _⟩ := h.framed id hid
  exact h.counted.fresh _ hl

theorem owned_leased {reader : ℕ} {buffer : V4L2Buffer} {mem : V4L2State t} {dev : σ}
    (h : s.OwnedBy bufs 0) (hx : Exec D s.core.mem.dequeue s.core.dev log (.ok buffer, mem) dev) :
    OwnedBy bufs 0
      { s.setRead reader (.holding ⟨s.core.nextId, buffer.index⟩ buffer) with
        core := { s.core with mem := mem, dev := dev }.withLease buffer.index
        stateUses := s.stateUses + 1 } := by
  have hc := Core.counted_step h.counted (.leased hx)
  have hnew := h.counted.new_notMem buffer.index
  have hfresh : ∀ l ∈ s.core.leases, l ≠ ⟨s.core.nextId, buffer.index⟩ := by
    rintro l hl rfl
    exact hnew hl
  obtain ⟨hst, rfl, _⟩ := (V4L2State.exec_dequeue hx).frame_ok
  refine ⟨hc, ?_, h.implUses, ?_, ?_, ?_, ?_⟩
  · have hu := h.stateUses
    have hcard := Finset.card_insert_of_notMem hnew
    change s.stateUses + 1 = (insert (⟨s.core.nextId, buffer.index⟩ : Lease) s.core.leases).card +
      (if s.cameraAlive then 1 else 0) + 0
    omega
  · intro id hid
    obtain ⟨frame, hi, hl, he, hp⟩ := h.framed id hid
    exact ⟨frame, hi, Finset.mem_insert_of_mem hl, he, hp⟩
  · intro r lease buf hr
    by_cases he : r = reader
    · subst he
      simp only [System.setRead, Function.update_self] at hr
      cases hr
      refine ⟨Finset.mem_insert_self _ _, fun hid => ?_⟩
      exact absurd (h.frame_fresh hid) (Nat.lt_irrefl _)
    · simp only [System.setRead, Function.update_of_ne he] at hr
      obtain ⟨hl, hid⟩ := h.holding r lease buf hr
      exact ⟨Finset.mem_insert_of_mem hl, hid⟩
  · intro r r' lease buf buf' hr hr'
    by_cases he : r = reader <;> by_cases he' : r' = reader
    · exact he.trans he'.symm
    · subst he
      simp only [System.setRead, Function.update_self, Function.update_of_ne he'] at hr hr'
      cases hr
      exact absurd rfl (hfresh _ (h.holding r' _ buf' hr').1)
    · subst he'
      simp only [System.setRead, Function.update_self, Function.update_of_ne he] at hr hr'
      cases hr'
      exact absurd rfl (hfresh _ (h.holding r _ buf hr).1)
    · simp only [System.setRead, Function.update_of_ne he, Function.update_of_ne he'] at hr hr'
      exact h.distinct r r' lease buf buf' hr hr'
  · intro ha
    have hoff := h.off ha
    rw [hst] at hoff
    cases hoff

theorem owned_returnFrame {reader : ℕ} {lease : Lease} {buffer : V4L2Buffer}
    {memory : BufferMemory t} {frame : V4L2Frame} {dev : σ} (h : s.OwnedBy bufs 0)
    (phase : s.reads reader = .holding lease buffer)
    (hm : s.core.mem.buffers[lease.index]? = some memory)
    (hx : Exec D (camera.buildFrame memory buffer lease) s.core.dev log (.ok frame) dev) :
    OwnedBy bufs 0
      { (s.withMem s.core.mem dev).setRead reader .idle with
        impls := Function.update s.impls lease.id (some frame)
        implUses := Function.update s.implUses lease.id 1
        frames := lease.id ::ₘ s.frames } := by
  obtain ⟨hl, hid⟩ := h.holding reader lease buffer phase
  obtain ⟨hplanes, hlease, _⟩ := V4L2Camera.buildFrame_ok hx
  have hc := Core.counted_step h.counted
    (.outside hx (hx.issues (issues_buildFrame trivial _ _ _ _)))
  have h₁ : ((s.withMem s.core.mem dev).setRead reader .idle).OwnedBy bufs 0 :=
    (h.withCore hc rfl h.off).setRead reader (by simp)
  refine ⟨h₁.counted, h₁.stateUses, ?_, ?_, ?_, h₁.distinct, h₁.off⟩
  · intro id
    by_cases he : id = lease.id
    · subst he
      simp [Multiset.count_eq_zero_of_notMem hid]
    · simp only [Function.update_of_ne he, Multiset.count_cons_of_ne he]
      exact h.implUses id
  · intro id hmem
    by_cases he : id = lease.id
    · subst he
      refine ⟨frame, Function.update_self _ _ _, ?_, by rw [hlease], memory, ?_,
        readPlanes_within hplanes⟩
      · rw [hlease]
        exact hl
      · rw [hlease, ← h.counted.buffers]
        exact hm
    · obtain ⟨frame', hi, hrest⟩ := h.framed id ((Multiset.mem_cons.mp hmem).resolve_left he)
      exact ⟨frame', by simpa [Function.update_of_ne he] using hi, hrest⟩
  · intro r m buf hr
    obtain ⟨hm', hid'⟩ := h₁.holding r m buf hr
    refine ⟨hm', fun hmem => ?_⟩
    rcases Multiset.mem_cons.mp hmem with he | hmem
    · have hme : m = lease := h.counted.ids hm' hl he
      subst hme
      by_cases hrr : r = reader
      · subst hrr
        simp [System.setRead] at hr
      · simp only [System.setRead, Function.update_of_ne hrr] at hr
        exact hrr (h.distinct r reader m buf buffer hr phase)
    · exact hid' hmem

theorem owned_copyFrame {id : ℕ} (h : s.OwnedBy bufs 0) (hid : id ∈ s.frames) :
    OwnedBy bufs 0
      { s with
        implUses := Function.update s.implUses id (s.implUses id + 1)
        frames := id ::ₘ s.frames } := by
  have hmem : ∀ i, i ∈ id ::ₘ s.frames → i ∈ s.frames := by
    intro i hi
    rcases Multiset.mem_cons.mp hi with rfl | hi
    · exact hid
    · exact hi
  refine ⟨h.counted, h.stateUses, ?_, fun i hi => h.framed i (hmem i hi), ?_, h.distinct, h.off⟩
  · intro i
    by_cases he : i = id
    · subst he
      simp [h.implUses i]
    · simp only [Function.update_of_ne he, Multiset.count_cons_of_ne he]
      exact h.implUses i
  · intro r lease buffer hr
    obtain ⟨hl, hn⟩ := h.holding r lease buffer hr
    exact ⟨hl, fun hi => hn (hmem _ hi)⟩

/-- A `Frame` value goes away; `impls'` may forget the record it was the last to name. -/
theorem OwnedBy.eraseFrame (h : s.OwnedBy bufs 0) (id : ℕ) (impls' : ℕ → Option V4L2Frame)
    (hi : ∀ i ∈ s.frames.erase id, impls' i = s.impls i) :
    OwnedBy bufs 0
      { s with
        impls := impls'
        implUses := Function.update s.implUses id (s.implUses id - 1)
        frames := s.frames.erase id } := by
  refine ⟨h.counted, h.stateUses, ?_, ?_, ?_, h.distinct, h.off⟩
  · intro i
    by_cases he : i = id
    · subst he
      simp [h.implUses i]
    · simp only [Function.update_of_ne he, Multiset.count_erase_of_ne he]
      exact h.implUses i
  · intro i hmem
    obtain ⟨frame, hf, hrest⟩ := h.framed i (Multiset.mem_of_mem_erase hmem)
    exact ⟨frame, (hi i hmem).trans hf, hrest⟩
  · intro r lease buffer hr
    obtain ⟨hl, hn⟩ := h.holding r lease buffer hr
    exact ⟨hl, fun hm => hn (Multiset.mem_of_mem_erase hm)⟩

theorem OwnedBy.notMem_erase {id : ℕ} (h : s.OwnedBy bufs 0) (hu : s.implUses id - 1 = 0) :
    id ∉ s.frames.erase id := by
  intro hmem
  have hpos := Multiset.count_pos.mpr hmem
  rw [Multiset.count_erase_self, ← h.implUses] at hpos
  omega

theorem owned_dropLast {id : ℕ} {frame : V4L2Frame} (h : s.OwnedBy bufs 0) (hid : id ∈ s.frames)
    (hu : s.implUses id - 1 = 0) (hf : s.impls id = some frame)
    (hd : DropLease D
      { s with
        impls := Function.update s.impls id none
        implUses := Function.update s.implUses id 0
        frames := s.frames.erase id } frame.lease log s') : s'.OwnedBy bufs 0 := by
  have hgone := h.notMem_erase hu
  obtain ⟨frame', hf', hl, he, _⟩ := h.framed id hid
  rw [hf] at hf'
  cases hf'
  have h₁ := h.eraseFrame id (Function.update s.impls id none) (by
    intro i hi
    have hne : i ≠ id := by
      rintro rfl
      exact hgone hi
    exact Function.update_of_ne hne _ _)
  rw [hu] at h₁
  refine DropLease.owned h₁ hl (by rw [he]; exact hgone) ?_ hd
  rintro r m buffer hr rfl
  exact (h.holding r _ buffer hr).2 (by rw [he]; exact hid)

theorem owned_unwind {reader : ℕ} {lease : Lease} {buffer : V4L2Buffer} {dev : σ} {log' : Log}
    (h : s.OwnedBy bufs 0) (phase : s.reads reader = .holding lease buffer)
    (hc : Core.Counted bufs { s.core with dev := dev })
    (hd : DropLease D ((s.withMem s.core.mem dev).setRead reader .idle) lease log' s') :
    s'.OwnedBy bufs 0 := by
  obtain ⟨hl, hid⟩ := h.holding reader lease buffer phase
  have h₁ : ((s.withMem s.core.mem dev).setRead reader .idle).OwnedBy bufs 0 :=
    (h.withCore hc rfl h.off).setRead reader (by simp)
  refine DropLease.owned h₁ hl hid ?_ hd
  rintro r m buf hr rfl
  by_cases he : r = reader
  · subst he
    simp [System.setRead] at hr
  · simp only [System.setRead, Function.update_of_ne he] at hr
    exact he (h.distinct r reader m buf buffer hr phase)

theorem entered_not_holding (timeoutMs : UInt32) (x : Except Exception Unit) (lease : Lease)
    (buffer : V4L2Buffer) : entered timeoutMs x ≠ .holding lease buffer := by
  cases x <;> simp [entered]

theorem awaited_not_holding (x : Except Exception Unit) (lease : Lease) (buffer : V4L2Buffer) :
    awaited x ≠ .holding lease buffer := by
  cases x <;> simp [awaited]

theorem owned_step {l : Label} (h : s.OwnedBy bufs 0) (hs : Step D camera s l s') :
    s'.OwnedBy bufs 0 := by
  cases hs with
  | start alive hx =>
      exact h.withCore (Core.counted_step h.counted (.start hx)) rfl
        (fun ha => absurd (alive.symm.trans ha) (by simp))
  | enter alive idle => exact h.setRead _ (entered_not_holding _ _)
  | await held phase hx =>
      have hc := Core.counted_step h.counted
        (.outside hx (hx.issues (issues_awaitFrame _ trivial trivial _)))
      exact (h.withCore hc rfl h.off).setRead _ (awaited_not_holding _)
  | leased held phase hx => exact owned_leased h hx
  | dequeueFailed held phase hx =>
      have hst := (V4L2State.exec_dequeue hx).frame_error.2.2
      exact (h.withCore (Core.counted_step h.counted (.dequeueFailed hx)) rfl
        (fun ha => hst.trans (h.off ha))).setRead _ (by simp)
  | returnFrame phase hm hx => exact owned_returnFrame h phase hm hx
  | unwind phase hm hx hd =>
      have hc := Core.counted_step h.counted
        (.outside hx (hx.issues (issues_buildFrame trivial _ _ _ _)))
      exact owned_unwind h phase hc hd
  | stop alive hx =>
      have hmem := V4L2State.stopCapture_frame hx
      exact h.withCore (Core.counted_step h.counted (.stop hx)) rfl (fun _ => by rw [hmem])
  | copyFrame hid => exact owned_copyFrame h hid
  | dropShared hid hu => exact h.eraseFrame _ _ (fun _ _ => rfl)
  | dropLast hid hu hf hd => exact owned_dropLast h hid hu hf hd
  | destroyCamera alive hx hd =>
      have hmem := V4L2State.stopCapture_frame hx
      have h₁ := h.withCore (Core.counted_step h.counted (.stop hx)) rfl (fun _ => by rw [hmem])
      apply DropState.owned _ hd
      refine ⟨h₁.counted, ?_, h₁.implUses, h₁.framed, h₁.holding, h₁.distinct, fun _ => ?_⟩
      · have hu := h.stateUses
        rw [alive] at hu
        exact hu
      · rw [hmem]
        rfl

end Steps

theorem owned_reachable (h : (captureSystem D d₀ camera bufs).Reachable s) : s.OwnedBy bufs 0 := by
  apply h.induction (P := fun s => s.OwnedBy bufs 0)
  · rintro s rfl
    exact owned_init d₀
  · intro s l s' _ ho hs
    exact owned_step ho hs

theorem OwnedBy.released_mem (h : s.OwnedBy bufs 0) {l : Label} {lease : Lease}
    (hs : Step D camera s l s') (hl : l.released = some lease) : lease ∈ s.core.leases := by
  cases hs with
  | unwind phase hm hx hd =>
      obtain rfl : _ = lease := Option.some.inj hl
      exact (h.holding _ _ _ phase).1
  | dropLast hid hu hf hd =>
      obtain rfl : _ = lease := Option.some.inj hl
      obtain ⟨frame, hf', hlive, _, _⟩ := h.framed _ hid
      rw [hf] at hf'
      cases hf'
      exact hlive
  | _ => cases hl

theorem DropLease.project {lease : Lease} (hd : DropLease D s lease log s')
    (hl : lease ∈ s.core.leases) :
    ∃ ls, (captureCore D d₀ bufs).Run s.core ls s'.core ∧ log = ls.flatMap Section.log := by
  cases hd with
  | intro hx hd =>
      obtain ⟨ls, c, rfl, hr, rfl, _⟩ := hd.spec d₀ bufs
      exact ⟨.release lease _ :: ls, ⟨_, .release hl hx, hr⟩, rfl⟩

/-- Each step of the system is a run of the core that makes the same calls. -/
theorem project (d₀ : σ) {l : Label} (h : s.OwnedBy bufs 0) (hs : Step D camera s l s') :
    ∃ ls, (captureCore D d₀ bufs).Run s.core ls s'.core ∧ l.log = ls.flatMap Section.log := by
  cases hs with
  | start alive hx =>
      exact ⟨[.start _ _], run_singleton.mpr (.start hx), by simp [Label.log, Section.log]⟩
  | enter alive idle => exact ⟨[], rfl, rfl⟩
  | await held phase hx =>
      have hlog := hx.issues (issues_awaitFrame (P := Request.Outside) _ trivial trivial _)
      exact ⟨[.outside _], run_singleton.mpr (.outside hx hlog), by simp [Label.log, Section.log]⟩
  | leased held phase hx =>
      exact ⟨[.dequeue _ _], run_singleton.mpr (.leased hx), by simp [Label.log, Section.log]⟩
  | dequeueFailed held phase hx =>
      exact ⟨[.dequeue _ _], run_singleton.mpr (.dequeueFailed hx),
        by simp [Label.log, Section.log]⟩
  | returnFrame phase hm hx =>
      have hlog := hx.issues (issues_buildFrame (P := Request.Outside) trivial _ _ _ _)
      exact ⟨[.outside _], run_singleton.mpr (.outside hx hlog), by simp [Label.log, Section.log]⟩
  | unwind phase hm hx hd =>
      have hlog := hx.issues (issues_buildFrame (P := Request.Outside) trivial _ _ _ _)
      obtain ⟨hl, _⟩ := h.holding _ _ _ phase
      obtain ⟨ls, hr, rfl⟩ := hd.project hl
      exact ⟨.outside _ :: ls, ⟨_, .outside hx hlog, hr⟩, rfl⟩
  | stop alive hx =>
      exact ⟨[.stop _], run_singleton.mpr (.stop hx), by simp [Label.log, Section.log]⟩
  | copyFrame hid => exact ⟨[], rfl, rfl⟩
  | dropShared hid hu => exact ⟨[], rfl, rfl⟩
  | dropLast hid hu hf hd =>
      obtain ⟨frame, hf', hl, _, _⟩ := h.framed _ hid
      rw [hf] at hf'
      cases hf'
      obtain ⟨ls, hr, hlog⟩ := hd.project hl
      exact ⟨ls, hr, hlog⟩
  | destroyCamera alive hx hd =>
      obtain ⟨ls, c, rfl, hr, rfl, _⟩ := hd.spec d₀ bufs
      exact ⟨.stop _ :: ls, ⟨_, .stop hx, hr⟩, rfl⟩

/-- The system refines its core. -/
theorem refines_core (D : Device linux σ) (d₀ : σ) (camera : V4L2Camera t)
    (bufs : List (BufferMemory t)) :
    Simulation (captureSystem D d₀ camera bufs) (captureCore D d₀ bufs)
      (fun s c => s.core = c ∧ s.OwnedBy bufs 0) where
  init := by
    rintro s rfl
    exact ⟨_, rfl, rfl, owned_init d₀⟩
  step := by
    rintro s l s' c ⟨rfl, ho⟩ hs
    obtain ⟨ls, hr, _⟩ := project d₀ ho hs
    exact ⟨ls, _, hr, rfl, owned_step ho hs⟩

end System

end CameraCore
