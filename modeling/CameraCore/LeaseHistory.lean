import CameraCore.LeaseSafety

/-!
# The life of a lease

`Transfer` says once how a step moves a lease between a `read`, the frames that
share its record, and nobody. From it, by induction on the history: a lease that is
live has an owner, and a lease handed out in a frame is released once, with the last
copy of the frame, and not before.
-/

namespace CameraCore

open DeviceProgram LabelledSystem

variable {t : CaptureType} {σ : Type}

def Label.returned : Label → Option Lease
  | .returnFrame _ _ frame => some frame.lease
  | _ => none

namespace System

/-- The lease a `read` in flight holds. -/
def holds (s : System t σ) (reader : ℕ) : Option Lease := (s.reads reader).lease

variable {s s' : System t σ} {reader : ℕ} {lease : Lease}

theorem holds_eq_some :
    s.holds reader = some lease ↔ ∃ buffer, s.reads reader = .holding lease buffer := by
  unfold holds
  cases s.reads reader <;> simp [ReadPhase.lease]

theorem holds_setRead (s : System t σ) (reader : ℕ) (phase : ReadPhase) (r : ℕ) :
    (s.setRead reader phase).holds r = if r = reader then phase.lease else s.holds r := by
  unfold holds setRead
  by_cases hr : r = reader
  · subst hr
    simp only [Function.update_self, if_pos]
  · simp only [Function.update_of_ne hr, if_neg hr]

/-- A read that has no lease before or after holds what it held. -/
theorem holds_setRead_of_none {phase : ReadPhase} (hp : phase.lease = none)
    (hr : (s.reads reader).lease = none) (r : ℕ) :
    (s.setRead reader phase).holds r = s.holds r := by
  rw [holds_setRead]
  by_cases he : r = reader
  · subst he
    rw [if_pos rfl, hp]
    exact hr.symm
  · rw [if_neg he]

/-- How a step moves leases between their owners. -/
inductive Transfer (s s' : System t σ) (l : Label) : Prop
  | unchanged (released : l.released = none) (returned : l.returned = none)
      (leases : s'.core.leases = s.core.leases) (next : s'.core.nextId = s.core.nextId)
      (frames : ∀ id, id ∈ s'.frames ↔ id ∈ s.frames) (holds : ∀ r, s'.holds r = s.holds r)
  | leased (reader index : ℕ) (dequeued : ∃ log buffer, l = .dequeue reader log (.ok buffer))
      (released : l.released = none) (returned : l.returned = none) (free : s.holds reader = none)
      (leases : s'.core.leases = insert ⟨s.core.nextId, index⟩ s.core.leases)
      (next : s'.core.nextId = s.core.nextId + 1) (frames : ∀ id, id ∈ s'.frames ↔ id ∈ s.frames)
      (holds : ∀ r, s'.holds r = if r = reader then some ⟨s.core.nextId, index⟩ else s.holds r)
  | returned (reader : ℕ) (lease : Lease) (released : l.released = none)
      (returned : l.returned = some lease) (held : s.holds reader = some lease)
      (leases : s'.core.leases = s.core.leases) (next : s'.core.nextId = s.core.nextId)
      (frames : ∀ id, id ∈ s'.frames ↔ id = lease.id ∨ id ∈ s.frames)
      (holds : ∀ r, s'.holds r = if r = reader then none else s.holds r)
  | released (lease : Lease) (released : l.released = some lease) (returned : l.returned = none)
      (live : lease ∈ s.core.leases) (leases : s'.core.leases = s.core.leases.erase lease)
      (next : s'.core.nextId = s.core.nextId)
      (frames : ∀ id, id ∈ s'.frames ↔ id ∈ s.frames ∧ id ≠ lease.id)
      (holds : ∀ r, s'.holds r = if s.holds r = some lease then none else s.holds r)

section
variable {D : Device linux σ} {camera : V4L2Camera t} {bufs : List (BufferMemory t)} {l : Label}
  {log : Log}

theorem DropState.transfer (h : DropState D s log s') :
    s'.core.leases = s.core.leases ∧ s'.core.nextId = s.core.nextId ∧ s'.frames = s.frames ∧
      s'.reads = s.reads := by
  obtain ⟨ls, c, rfl, _, _, hl, hn, _⟩ := h.spec s.core.dev []
  exact ⟨hl, hn, rfl, rfl⟩

theorem DropLease.transfer (h : DropLease D s lease log s') :
    s'.core.leases = s.core.leases.erase lease ∧ s'.core.nextId = s.core.nextId ∧
      s'.frames = s.frames ∧ s'.reads = s.reads := by
  cases h with
  | intro hx hd =>
      obtain ⟨hl, hn, hf, hr⟩ := hd.transfer
      exact ⟨hl, hn, hf, hr⟩

theorem entered_lease (timeoutMs : UInt32) (x : Except Exception Unit) :
    (entered timeoutMs x).lease = none := by
  cases x <;> rfl

theorem awaited_lease (x : Except Exception Unit) : (awaited x).lease = none := by
  cases x <;> rfl

theorem transfer_unwind (h : s.OwnedBy bufs 0) {buffer : V4L2Buffer} {dev : σ} {log log' : Log}
    {e : Exception} (phase : s.reads reader = .holding lease buffer)
    (hd : DropLease D ((s.withMem s.core.mem dev).setRead reader .idle) lease log' s') :
    Transfer s s' (.unwind reader log lease e) := by
  obtain ⟨hl, hn, hf, hr⟩ := hd.transfer
  obtain ⟨hlive, hid⟩ := h.holding reader lease buffer phase
  refine .released lease rfl rfl hlive hl hn ?_ ?_
  · intro id
    rw [hf]
    constructor
    · intro hm
      refine ⟨hm, ?_⟩
      intro he
      rw [he] at hm
      exact hid hm
    · intro hm
      exact hm.1
  · intro r
    have hh : s'.holds r = ((s.withMem s.core.mem dev).setRead reader .idle).holds r := by
      unfold holds
      rw [hr]
    rw [hh, holds_setRead]
    by_cases he : r = reader
    · have hs : s.holds r = some lease := holds_eq_some.mpr ⟨buffer, he ▸ phase⟩
      rw [if_pos he, if_pos hs]
      rfl
    · have hs : s.holds r ≠ some lease := by
        intro hs
        obtain ⟨buffer', hr'⟩ := holds_eq_some.mp hs
        exact he (h.distinct r reader lease buffer' buffer hr' phase)
      rw [if_neg he, if_neg hs]
      rfl

theorem transfer_dropShared (h : s.OwnedBy bufs 0) {id : ℕ}
    (hu : s.implUses id - 1 ≠ 0) (i : ℕ) : i ∈ s.frames.erase id ↔ i ∈ s.frames := by
  constructor
  · exact Multiset.mem_of_mem_erase
  · intro hi
    by_cases he : i = id
    · rw [h.implUses] at hu
      rw [he, ← Multiset.count_pos, Multiset.count_erase_self]
      omega
    · exact (Multiset.mem_erase_of_ne he).mpr hi

theorem transfer_dropLast (h : s.OwnedBy bufs 0) {id : ℕ} {frame : V4L2Frame}
    (hid : id ∈ s.frames) (hu : s.implUses id - 1 = 0) (hf : s.impls id = some frame)
    (hd : DropLease D
      { s with
        impls := Function.update s.impls id none
        implUses := Function.update s.implUses id 0
        frames := s.frames.erase id } frame.lease log s') :
    Transfer s s' (.dropFrame id log (some frame.lease)) := by
  obtain ⟨hl, hn, hfr, hr⟩ := hd.transfer
  obtain ⟨frame', hf', hlive, he, _⟩ := h.framed id hid
  rw [hf] at hf'
  cases hf'
  refine .released frame.lease rfl rfl hlive hl hn ?_ ?_
  · intro i
    rw [hfr, he]
    by_cases hi : i = id
    · have hgone := h.notMem_erase hu
      subst hi
      simp [hgone]
    · simp [Multiset.mem_erase_of_ne hi, hi]
  · intro r
    have hh : s'.holds r = s.holds r := by
      unfold holds
      rw [hr]
    have hs : s.holds r ≠ some frame.lease := by
      intro hs
      obtain ⟨buffer, hr'⟩ := holds_eq_some.mp hs
      obtain ⟨_, hnot⟩ := h.holding r _ buffer hr'
      rw [he] at hnot
      exact hnot hid
    rw [hh, if_neg hs]

theorem step_transfer (h : s.OwnedBy bufs 0) (hs : Step D camera s l s') : Transfer s s' l := by
  cases hs with
  | start alive hx => exact .unchanged rfl rfl rfl rfl (fun _ => Iff.rfl) (fun _ => rfl)
  | enter alive idle =>
      refine .unchanged rfl rfl rfl rfl (fun _ => Iff.rfl) ?_
      exact holds_setRead_of_none (entered_lease _ _) (by rw [idle]; rfl)
  | await held phase hx =>
      refine .unchanged rfl rfl rfl rfl (fun _ => Iff.rfl) ?_
      exact holds_setRead_of_none (s := s.withMem _ _) (awaited_lease _)
        (by rw [withMem, phase]; rfl)
  | leased held phase hx =>
      have free : s.holds _ = none := congrArg ReadPhase.lease phase
      exact .leased _ _ ⟨_, _, rfl⟩ rfl rfl free rfl rfl (fun _ => Iff.rfl) (holds_setRead s _ _)
  | dequeueFailed held phase hx =>
      refine .unchanged rfl rfl rfl rfl (fun _ => Iff.rfl) ?_
      exact holds_setRead_of_none (s := s.withMem _ _) rfl (by rw [withMem, phase]; rfl)
  | returnFrame phase hm hx =>
      obtain ⟨_, hlease, _⟩ := V4L2Camera.buildFrame_ok hx
      refine .returned _ _ rfl (by rw [Label.returned, hlease])
        (holds_eq_some.mpr ⟨_, phase⟩) rfl rfl ?_ (holds_setRead _ _ _)
      intro id
      exact Multiset.mem_cons
  | unwind phase hm hx hd => exact transfer_unwind h phase hd
  | stop alive hx => exact .unchanged rfl rfl rfl rfl (fun _ => Iff.rfl) (fun _ => rfl)
  | copyFrame hid =>
      refine .unchanged rfl rfl rfl rfl ?_ (fun _ => rfl)
      intro id
      rw [Multiset.mem_cons]
      constructor
      · intro hm
        rcases hm with rfl | hm
        · exact hid
        · exact hm
      · exact Or.inr
  | dropShared hid hu =>
      exact .unchanged rfl rfl rfl rfl (transfer_dropShared h hu) (fun _ => rfl)
  | dropLast hid hu hf hd => exact transfer_dropLast h hid hu hf hd
  | destroyCamera alive hx hd =>
      obtain ⟨hl, hn, hf, hr⟩ := hd.transfer
      refine .unchanged rfl rfl hl hn ?_ ?_
      · intro id
        rw [hf]
        rfl
      · intro r
        unfold holds
        rw [hr]
        rfl

/-- Every live lease is owned by a frame record or by a `read` in flight. -/
def Attended (s : System t σ) : Prop :=
  ∀ m ∈ s.core.leases, m.id ∈ s.frames ∨ ∃ r, s.holds r = some m

theorem Transfer.attended (ht : Transfer s s' l) (h : s.OwnedBy bufs 0) (ha : s.Attended) :
    s'.Attended := by
  intro m hm
  cases ht with
  | unchanged _ _ leases _ frames holds =>
      rw [leases] at hm
      rcases ha m hm with hf | ⟨r, hr⟩
      · exact Or.inl ((frames _).mpr hf)
      · exact Or.inr ⟨r, (holds r).trans hr⟩
  | leased reader index _ _ _ free leases _ frames holds =>
      rw [leases] at hm
      rcases Finset.mem_insert.mp hm with rfl | hm
      · exact Or.inr ⟨reader, by rw [holds, if_pos rfl]⟩
      · rcases ha m hm with hf | ⟨r, hr⟩
        · exact Or.inl ((frames _).mpr hf)
        · by_cases he : r = reader
          · rw [he, free] at hr
            cases hr
          · exact Or.inr ⟨r, by rw [holds, if_neg he, hr]⟩
  | returned reader lease _ _ held leases _ frames holds =>
      rw [leases] at hm
      rcases ha m hm with hf | ⟨r, hr⟩
      · exact Or.inl ((frames _).mpr (Or.inr hf))
      · by_cases he : r = reader
        · rw [he, held] at hr
          cases hr
          exact Or.inl ((frames _).mpr (Or.inl rfl))
        · exact Or.inr ⟨r, by rw [holds, if_neg he, hr]⟩
  | released lease _ _ live leases _ frames holds =>
      rw [leases] at hm
      obtain ⟨hne, hm⟩ := Finset.mem_erase.mp hm
      rcases ha m hm with hf | ⟨r, hr⟩
      · refine Or.inl ((frames _).mpr ⟨hf, ?_⟩)
        intro he
        exact hne (h.counted.ids hm live he)
      · refine Or.inr ⟨r, ?_⟩
        rw [holds, hr, if_neg (by simpa using hne)]

end

def releases (lease : Lease) (ls : List Label) : ℕ :=
  ls.countP fun l => l.released = some lease

theorem releases_snoc (lease : Lease) (ls : List Label) (l : Label) :
    releases lease (ls ++ [l]) = releases lease ls + if l.released = some lease then 1 else 0 := by
  unfold releases
  rw [List.countP_append, List.countP_singleton]
  simp

section
variable {D : Device linux σ} {d₀ : σ} {camera : V4L2Camera t} {bufs : List (BufferMemory t)}
  {l : Label} {ls : List Label} {m : Lease}

theorem Transfer.next_le (ht : Transfer s s' l) : s.core.nextId ≤ s'.core.nextId := by
  cases ht <;> omega

theorem Transfer.leases_old (ht : Transfer s s' l) (hm : m ∈ s'.core.leases) :
    m ∈ s.core.leases ∨ m.id = s.core.nextId := by
  cases ht with
  | unchanged _ _ leases => exact Or.inl (leases ▸ hm)
  | leased _ _ _ _ _ _ leases =>
      rw [leases] at hm
      rcases Finset.mem_insert.mp hm with rfl | hm
      · exact Or.inr rfl
      · exact Or.inl hm
  | returned _ _ _ _ _ leases => exact Or.inl (leases ▸ hm)
  | released _ _ _ _ leases =>
      rw [leases] at hm
      exact Or.inl (Finset.mem_of_mem_erase hm)

theorem Transfer.holds_old (ht : Transfer s s' l) (hr : s'.holds reader = some m) :
    s.holds reader = some m ∨ m.id = s.core.nextId := by
  cases ht with
  | unchanged _ _ _ _ _ holds => exact Or.inl (holds reader ▸ hr)
  | leased _ _ _ _ _ _ _ _ _ holds =>
      rw [holds] at hr
      split_ifs at hr
      · cases hr
        exact Or.inr rfl
      · exact Or.inl hr
  | returned _ _ _ _ _ _ _ _ holds =>
      rw [holds] at hr
      split_ifs at hr
      exact Or.inl hr
  | released _ _ _ _ _ _ _ holds =>
      rw [holds] at hr
      split_ifs at hr
      exact Or.inl hr

/-- A lease stops being live exactly in the step that releases it. -/
theorem Transfer.released_iff (ht : Transfer s s' l) :
    l.released = some m ↔ m ∈ s.core.leases ∧ m ∉ s'.core.leases := by
  cases ht with
  | unchanged released _ leases => simp [released, leases]
  | leased _ _ _ released _ _ leases =>
      simp only [released, leases, Finset.mem_insert, not_or, false_iff, not_and, not_not,
        reduceCtorEq]
      intro hm _
      exact hm
  | returned _ _ released _ _ leases => simp [released, leases]
  | released lease released _ live leases =>
      rw [released, leases, Finset.mem_erase]
      constructor
      · intro he
        cases he
        exact ⟨live, fun h => h.1 rfl⟩
      · intro h
        by_contra hne
        exact h.2 ⟨fun he => hne (congrArg some he.symm), h.1⟩

/-- A lease not released so far: it is live, or still to be created. -/
def Unreleased (ls : List Label) (s : System t σ) : Prop :=
  ∀ m : Lease, s.core.nextId ≤ m.id ∨ m ∈ s.core.leases → releases m ls = 0

theorem Transfer.unreleased (ht : Transfer s s' l) (h : s.OwnedBy bufs 0)
    (hu : Unreleased ls s) : Unreleased (ls ++ [l]) s' := by
  intro m hm
  have hnext := ht.next_le
  have hbefore : s.core.nextId ≤ m.id ∨ m ∈ s.core.leases := by
    rcases hm with hm | hm
    · exact Or.inl (hnext.trans hm)
    · rcases ht.leases_old hm with hm | hm
      · exact Or.inr hm
      · exact Or.inl hm.ge
  have hnot : l.released ≠ some m := by
    intro hr
    obtain ⟨hlive, hgone⟩ := ht.released_iff.mp hr
    have hlt := h.counted.fresh m hlive
    rcases hm with hm | hm
    · omega
    · exact hgone hm
  rw [releases_snoc, hu m hbefore, if_neg hnot]

/-- A lease handed out in a frame belongs to that frame until its one release. -/
structure Settled (ls : List Label) (s : System t σ) (m : Lease) : Prop where
  old : m.id < s.core.nextId
  only : ∀ m' ∈ s.core.leases, m'.id = m.id → m' = m
  free : ∀ r, s.holds r ≠ some m
  once : m ∉ s.core.leases → releases m ls = 1

theorem Settled.step (hm : Settled ls s m) (hu : Unreleased ls s) (ht : Transfer s s' l) :
    Settled (ls ++ [l]) s' m where
  old := hm.old.trans_le ht.next_le
  only := by
    intro m' hm' he
    have hold := hm.old
    rcases ht.leases_old hm' with hlive | hid
    · exact hm.only m' hlive he
    · omega
  free := by
    intro r hr
    have hold := hm.old
    rcases ht.holds_old hr with hr | hid
    · exact hm.free r hr
    · omega
  once := by
    intro hgone
    rw [releases_snoc]
    by_cases hlive : m ∈ s.core.leases
    · rw [hu m (Or.inr hlive), if_pos (ht.released_iff.mpr ⟨hlive, hgone⟩)]
    · have hnot : l.released ≠ some m := fun hr => hlive (ht.released_iff.mp hr).1
      rw [hm.once hlive, if_neg hnot]

theorem Transfer.settled (ht : Transfer s s' l) (h : s.OwnedBy bufs 0)
    (hl : l.returned = some m) : Settled (ls ++ [l]) s' m := by
  cases ht with
  | unchanged _ returned => rw [returned] at hl; cases hl
  | leased _ _ _ _ returned => rw [returned] at hl; cases hl
  | released _ _ returned => rw [returned] at hl; cases hl
  | returned reader lease _ returned held leases next _ holds =>
      rw [returned] at hl
      cases hl
      obtain ⟨buffer, hr⟩ := holds_eq_some.mp held
      obtain ⟨hlive, _⟩ := h.holding reader m buffer hr
      refine ⟨?_, ?_, ?_, ?_⟩
      · rw [next]
        exact h.counted.fresh m hlive
      · intro m' hm' he
        rw [leases] at hm'
        exact h.counted.ids hm' hlive he
      · intro r hrm
        rw [holds] at hrm
        split_ifs at hrm with he
        obtain ⟨buffer', hr'⟩ := holds_eq_some.mp hrm
        exact he (h.distinct r reader m buffer' buffer hr' hr)
      · intro hgone
        rw [leases] at hgone
        exact absurd hlive hgone

structure History (ls : List Label) (s : System t σ) : Prop where
  unreleased : Unreleased ls s
  settled : ∀ l ∈ ls, ∀ m, l.returned = some m → Settled ls s m
  attended : s.Attended

theorem history (h : (captureSystem D d₀ camera bufs).Trace ls s) : History ls s := by
  apply h.induction (P := History)
  · intro s hs
    obtain rfl := hs
    exact ⟨fun _ _ => rfl, by simp, by simp [Attended]⟩
  · intro ls s l s' htr hh hs
    have ho := owned_reachable htr.reachable
    have ht := step_transfer ho hs
    refine ⟨ht.unreleased ho hh.unreleased, ?_, ht.attended ho hh.attended⟩
    intro l' hl' m hm
    rcases List.mem_append.mp hl' with hl' | hl'
    · exact (hh.settled l' hl' m hm).step hh.unreleased ht
    · rw [List.mem_singleton.mp hl'] at hm
      exact ht.settled ho hm

/-- A lease handed out in a frame is released once, when no copy of the frame is left. -/
theorem releases_returned (h : (captureSystem D d₀ camera bufs).Trace ls s) (hl : l ∈ ls)
    (hm : l.returned = some m) : releases m ls = if m.id ∈ s.frames then 0 else 1 := by
  have hh := history h
  have ho := owned_reachable h.reachable
  have hset := hh.settled l hl m hm
  by_cases hf : m.id ∈ s.frames
  · obtain ⟨frame, _, hlive, he, _⟩ := ho.framed m.id hf
    rw [hset.only _ hlive he] at hlive
    rw [if_pos hf]
    exact hh.unreleased m (Or.inr hlive)
  · have hgone : m ∉ s.core.leases := by
      intro hlive
      rcases hh.attended m hlive with hm | ⟨r, hr⟩
      · exact hf hm
      · exact hset.free r hr
    rw [if_neg hf]
    exact hset.once hgone

end

end System

end CameraCore
