import Mathlib.Algebra.BigOperators.Group.Finset.Basic
import Mathlib.Data.Finset.Option
import CameraCore.LeaseHistory
import CameraCore.MutexSections
import CameraCore.SingleThread

/-!
# Winding a camera down

`start` refuses while a frame is leased, and the descriptor and the mappings stay until the last
frame is gone, so a lease that nobody can release any more would make a camera useless for good.
Here no new call begins and no frame is copied: the reads under way go on, the frames are dropped
and the stream may be stopped, in any order. Each such step but a stop uses up a piece of work,
none of them can be stuck while there is work left, and what remains then is the camera alone.
-/

namespace CameraCore

open CriticalSections DeviceProgram LabelledSystem

/-- The steps of the calls under way and of the frames going. -/
def Label.finishes : Label → Bool
  | .await _ _ _ => true
  | .dequeue _ _ _ => true
  | .returnFrame _ _ _ => true
  | .unwind _ _ _ _ => true
  | .dropFrame _ _ _ => true
  | _ => false

/-- No call begins but `stop`, and no frame is copied. -/
def Label.Winds : Label → Prop
  | .stop _ => True
  | l => l.finishes = true

theorem Label.winds_of_finishes {l : Label} (hl : l.finishes = true) : l.Winds := by
  cases l <;> first | exact hl | trivial

theorem Label.not_switches_of_finishes {l : Label} (hl : l.finishes = true) : ¬ l.Switches := by
  cases l <;> first | exact id | cases hl

/-- The steps left to a read and to the frame it may return. -/
def ReadPhase.remaining : ReadPhase → ℕ
  | .idle => 0
  | .polling _ => 4
  | .ready => 3
  | .holding _ _ => 2

/-- A system that answers every request, and a poll at some time without an interruption. -/
structure Responsive {σ : Type} (D : Device linux σ) : Prop where
  answers : ∀ d r, ∃ x d', D d r x d'
  polls : ∀ d timeout, ∃ x d', D d (.poll timeout) x d' ∧ x.result ≠ .error Errno.eintr

variable {t : CaptureType} {σ : Type}

namespace System

def remaining (readers : Finset ℕ) (s : System t σ) : ℕ :=
  ∑ r ∈ readers, (s.reads r).remaining + s.frames.card

/-- Nobody but the camera has a share of the state. -/
structure AtRest (s : System t σ) : Prop where
  idle : ∀ r, s.reads r = .idle
  frames : s.frames = 0
  leases : s.core.leases = ∅
  outstanding : s.core.mem.outstanding = 0
  stateUses : s.stateUses = if s.cameraAlive then 1 else 0

variable {D : Device linux σ} {d₀ : σ} {camera : V4L2Camera t} {bufs : List (BufferMemory t)}
  {s s' : System t σ} {l : Label} {log : Log} {readers : Finset ℕ}

theorem finite_reads (h : (captureSystem D d₀ camera bufs).Reachable s) :
    ∃ readers : Finset ℕ, ∀ r ∉ readers, s.reads r = .idle := by
  apply h.induction (P := fun s => ∃ readers : Finset ℕ, ∀ r ∉ readers, s.reads r = .idle)
  · intro s hs
    obtain rfl := hs
    exact ⟨∅, fun _ _ => rfl⟩
  · intro s l s' _ ih hs
    obtain ⟨readers, hidle⟩ := ih
    refine ⟨readers ∪ l.reader.toFinset, ?_⟩
    intro r hr
    rw [Finset.mem_union, not_or] at hr
    have hother : l.reader ≠ some r := by
      intro hl
      exact hr.2 (Option.mem_toFinset.mpr hl)
    rw [step_reads hs hother]
    exact hidle r hr.1

theorem remaining_setRead {reader : ℕ} (hm : reader ∈ readers) (s : System t σ)
    (phase : ReadPhase) :
    (s.setRead reader phase).remaining readers + (s.reads reader).remaining =
      s.remaining readers + phase.remaining := by
  have hrest : ∑ r ∈ readers.erase reader, ((s.setRead reader phase).reads r).remaining =
      ∑ r ∈ readers.erase reader, (s.reads r).remaining := by
    apply Finset.sum_congr rfl
    intro r hr
    have hne : r ≠ reader := Finset.ne_of_mem_erase hr
    exact congrArg ReadPhase.remaining (Function.update_of_ne hne _ _)
  have hself : (s.setRead reader phase).reads reader = phase := Function.update_self _ _ _
  have hframes : (s.setRead reader phase).frames = s.frames := rfl
  unfold remaining
  rw [← Finset.sum_erase_add _ _ hm, ← Finset.sum_erase_add _ _ hm, hrest, hself, hframes]
  omega

theorem remaining_congr {s₁ s₂ : System t σ} (hr : s₁.reads = s₂.reads)
    (hf : s₁.frames = s₂.frames) : s₁.remaining readers = s₂.remaining readers := by
  unfold remaining
  rw [hr, hf]

theorem remaining_cons {s₁ : System t σ} (id : ℕ) :
    ({ s₁ with frames := id ::ₘ s₁.frames } : System t σ).remaining readers =
      s₁.remaining readers + 1 := by
  unfold remaining
  rw [Multiset.card_cons, add_assoc]

theorem setRead_idle_of_mem {reader : ℕ} {phase : ReadPhase} (hm : reader ∈ readers)
    (hidle : ∀ r ∉ readers, s.reads r = .idle) :
    ∀ r ∉ readers, (s.setRead reader phase).reads r = .idle := by
  intro r hr
  have hne : r ≠ reader := by
    rintro rfl
    exact hr hm
  exact (Function.update_of_ne hne _ _).trans (hidle r hr)

theorem mem_of_busy {reader : ℕ} (hidle : ∀ r ∉ readers, s.reads r = .idle)
    (hbusy : s.reads reader ≠ .idle) : reader ∈ readers := by
  by_contra hr
  exact hbusy (hidle reader hr)

theorem awaited_remaining (x : Except Exception Unit) : (awaited x).remaining ≤ 3 := by
  cases x with
  | ok u => exact le_rfl
  | error e => exact Nat.zero_le 3

/-- A step of a read uses up work as long as its next phase has less of it left. -/
theorem setRead_lt {reader : ℕ} {phase : ReadPhase} {s₁ : System t σ}
    (hidle : ∀ r ∉ readers, s.reads r = .idle) (hlt : phase.remaining < (s.reads reader).remaining)
    (hr : s₁.reads = (s.setRead reader phase).reads) (hf : s₁.frames = s.frames) :
    (∀ r ∉ readers, s₁.reads r = .idle) ∧ s₁.remaining readers < s.remaining readers := by
  have hbusy : s.reads reader ≠ .idle := by
    intro he
    rw [he] at hlt
    exact absurd hlt (Nat.not_lt_zero _)
  have hm := mem_of_busy hidle hbusy
  have hsum := remaining_setRead hm s phase
  have hsame : s₁.remaining readers = (s.setRead reader phase).remaining readers :=
    remaining_congr hr hf
  refine ⟨?_, by omega⟩
  intro r hnot
  rw [hr]
  exact setRead_idle_of_mem hm hidle r hnot

theorem erase_lt {id : ℕ} {s₁ : System t σ} (hidle : ∀ r ∉ readers, s.reads r = .idle)
    (hid : id ∈ s.frames) (hr : s₁.reads = s.reads) (hf : s₁.frames = s.frames.erase id) :
    (∀ r ∉ readers, s₁.reads r = .idle) ∧ s₁.remaining readers < s.remaining readers := by
  have hcard := Multiset.card_erase_add_one hid
  constructor
  · rw [hr]
    exact hidle
  · unfold remaining
    rw [hr, hf]
    omega

theorem finishing_lt (hidle : ∀ r ∉ readers, s.reads r = .idle) (hs : Step D camera s l s')
    (hl : l.finishes = true) :
    (∀ r ∉ readers, s'.reads r = .idle) ∧ s'.remaining readers < s.remaining readers := by
  cases hs with
  | start => cases hl
  | enter => cases hl
  | await held phase hx =>
      refine setRead_lt hidle ?_ rfl rfl
      rw [phase]
      exact Nat.lt_succ_of_le (awaited_remaining _)
  | leased held phase hx =>
      refine setRead_lt hidle ?_ rfl rfl
      rw [phase]
      exact Nat.lt_succ_self 2
  | dequeueFailed held phase hx =>
      refine setRead_lt hidle ?_ rfl rfl
      rw [phase]
      exact Nat.succ_pos 2
  | @returnFrame reader lease _ _ _ _ _ phase hm hx =>
      have hreader := mem_of_busy hidle (by rw [phase]; exact nofun)
      have hsum := remaining_setRead hreader s .idle
      have hframe : ({ s.setRead reader .idle with frames := lease.id ::ₘ s.frames } :
          System t σ).remaining readers = (s.setRead reader .idle).remaining readers + 1 :=
        remaining_cons lease.id
      rw [phase] at hsum
      refine ⟨setRead_idle_of_mem hreader hidle, lt_of_eq_of_lt hframe ?_⟩
      change _ + 2 = _ + 0 at hsum
      omega
  | unwind phase hm hx hd =>
      obtain ⟨_, _, hf, hr⟩ := hd.transfer
      refine setRead_lt hidle ?_ hr hf
      rw [phase]
      exact Nat.succ_pos 1
  | stop => cases hl
  | copyFrame => cases hl
  | dropShared hid hu => exact erase_lt hidle hid rfl rfl
  | dropLast hid hu hf hd =>
      obtain ⟨_, _, hframes, hr⟩ := hd.transfer
      exact erase_lt hidle hid hr hframes
  | destroyCamera => cases hl

theorem exists_awaitFrame (hD : Responsive D) (timeout : ℕ) (d : σ) :
    ∃ log x d', Exec D (V4L2State.awaitFrame t timeout 1) d log x d' := by
  obtain ⟨answer, d₁, hpoll, hend⟩ := hD.polls d timeout
  match hresult : answer.result with
  | .error error =>
      have herror : error ≠ Errno.eintr := by
        rintro rfl
        exact hend hresult
      refine ⟨_, .error (.throwSystemError "poll V4L2 device" error), d₁,
        exec_request_bind.mpr ⟨answer, d₁, [], hpoll, ?_, rfl⟩⟩
      rw [hresult]
      dsimp only
      rw [if_neg herror]
      exact ⟨rfl, rfl, rfl⟩
  | .ok 0 =>
      refine ⟨_, .error (.camera .timeout "timed out waiting for a V4L2 capture frame"), d₁,
        exec_request_bind.mpr ⟨answer, d₁, [], hpoll, ?_, rfl⟩⟩
      rw [hresult]
      exact ⟨rfl, rfl, rfl⟩
  | .ok (_ + 1) =>
      cases t with
      | videoCapture =>
          refine ⟨_, .ok (), d₁, exec_request_bind.mpr ⟨answer, d₁, [], hpoll, ?_, rfl⟩⟩
          rw [hresult]
          exact ⟨rfl, rfl, rfl⟩
      | videoCaptureMplane =>
          obtain ⟨ok, d₂, halloc⟩ := hD.answers d₁ .allocate
          refine ⟨_, if ok then .ok () else .error .badAlloc, d₂,
            exec_request_bind.mpr ⟨answer, d₁, [⟨.allocate, ok⟩], hpoll, ?_, rfl⟩⟩
          rw [hresult]
          refine exec_request_bind.mpr ⟨ok, d₂, [], halloc, ?_, rfl⟩
          cases ok <;> exact ⟨rfl, rfl, rfl⟩

theorem atMost_buildFrame {lease : Type} (camera : V4L2Camera t) (memory : BufferMemory t)
    (buffer : V4L2Buffer) (held : lease) : AtMost 2 (camera.buildFrame memory buffer held) := by
  unfold V4L2Camera.buildFrame
  cases camera.readPlanes memory buffer with
  | error e => exact atMost_pure 2 _
  | ok planes =>
      apply (atMost_request _).bind (n := 1)
      intro first
      cases first with
      | false => exact atMost_pure 1 _
      | true =>
          apply (atMost_request _).bind (n := 0)
          intro second
          cases second <;> exact atMost_pure 0 _

theorem exists_dropState (hD : Responsive D) (s : System t σ) :
    ∃ log s', DropState D s log s' := by
  by_cases hlast : s.stateUses - 1 = 0
  · have hdestroy : AtMost 1 s.core.mem.destroy := by
      rw [V4L2State.destroy_eq_stopCapture]
      exact atMost_stopCapture s.core.mem
    obtain ⟨log, mem, dev, hx⟩ := hdestroy.exists_exec hD.answers s.core.dev
    exact ⟨log, _, .last hlast hx⟩
  · exact ⟨[], _, .shared hlast⟩

theorem exists_dropLease (hD : Responsive D) (s : System t σ) (lease : Lease) :
    ∃ log s', DropLease D s lease log s' := by
  have hrelease := atMost_release s.core.mem lease.index
  obtain ⟨log, mem, dev, hx⟩ := hrelease.exists_exec hD.answers s.core.dev
  obtain ⟨log', s', hd⟩ := exists_dropState hD
    { s.withMem mem dev with core.leases := s.core.leases.erase lease }
  exact ⟨log ++ log', s', .intro hx hd⟩

theorem OwnedBy.buffer (h : s.OwnedBy bufs 0) {lease : Lease} (hl : lease ∈ s.core.leases) :
    ∃ memory, s.core.mem.buffers[lease.index]? = some memory := by
  have hlt := h.counted.inRange lease hl
  rw [h.counted.buffers]
  exact ⟨_, List.getElem?_eq_getElem hlt⟩

theorem exists_read_step (camera : V4L2Camera t) (hD : Responsive D) (h : s.OwnedBy bufs 0)
    (hu : s.stateUses ≠ 0) {reader : ℕ} (hbusy : s.reads reader ≠ .idle) :
    ∃ l s', l.finishes = true ∧ Step D camera s l s' := by
  cases phase : s.reads reader with
  | idle => exact absurd phase hbusy
  | polling timeout =>
      obtain ⟨log, x, dev, hx⟩ := exists_awaitFrame hD timeout s.core.dev
      exact ⟨_, _, rfl, .await hu phase hx⟩
  | ready =>
      have hdequeue := atMost_dequeue s.core.mem
      obtain ⟨log, ⟨x, mem⟩, dev, hx⟩ := hdequeue.exists_exec hD.answers s.core.dev
      cases x with
      | ok buffer => exact ⟨_, _, rfl, .leased hu phase hx⟩
      | error e => exact ⟨_, _, rfl, .dequeueFailed hu phase hx⟩
  | holding lease buffer =>
      obtain ⟨memory, hm⟩ := h.buffer (h.holding _ _ _ phase).1
      have hbuild := atMost_buildFrame camera memory buffer lease
      obtain ⟨log, x, dev, hx⟩ := hbuild.exists_exec hD.answers s.core.dev
      cases x with
      | ok frame => exact ⟨_, _, rfl, .returnFrame phase hm hx⟩
      | error e =>
          obtain ⟨log', s', hd⟩ := exists_dropLease hD
            ((s.withMem s.core.mem dev).setRead reader .idle) lease
          exact ⟨_, s', rfl, .unwind phase hm hx hd⟩

theorem exists_drop (camera : V4L2Camera t) (hD : Responsive D) (h : s.OwnedBy bufs 0) {id : ℕ}
    (hid : id ∈ s.frames) :
    ∃ l s', l.finishes = true ∧ Step D camera s l s' := by
  by_cases hlast : s.implUses id - 1 = 0
  · obtain ⟨frame, hf, _⟩ := h.framed id hid
    obtain ⟨log, s', hd⟩ := exists_dropLease hD
      { s with
        impls := Function.update s.impls id none
        implUses := Function.update s.implUses id 0
        frames := s.frames.erase id } frame.lease
    exact ⟨_, s', rfl, .dropLast hid hlast hf hd⟩
  · exact ⟨_, _, rfl, .dropShared hid hlast⟩

structure Winding (D : Device linux σ) (d₀ : σ) (camera : V4L2Camera t)
    (bufs : List (BufferMemory t)) (readers : Finset ℕ) (s : System t σ) : Prop where
  reachable : (captureSystem D d₀ camera bufs).Reachable s
  idle : ∀ r ∉ readers, s.reads r = .idle
  attended : s.cameraAlive = true ∨ readers = ∅

theorem Winding.owned (h : s.Winding D d₀ camera bufs readers) : s.OwnedBy bufs 0 :=
  owned_reachable h.reachable

theorem Winding.finishing (h : s.Winding D d₀ camera bufs readers) (hs : Step D camera s l s')
    (hl : l.finishes = true) :
    s'.Winding D d₀ camera bufs readers ∧ s'.remaining readers < s.remaining readers := by
  obtain ⟨hidle, hlt⟩ := finishing_lt h.idle hs hl
  refine ⟨⟨h.reachable.step hs, hidle, ?_⟩, hlt⟩
  have hswitch := Label.not_switches_of_finishes hl
  exact h.attended.imp_left fun alive => (step_keeps h.owned alive hs hswitch).2

theorem Winding.step (h : s.Winding D d₀ camera bufs readers) (hs : Step D camera s l s')
    (hl : l.Winds) :
    s'.Winding D d₀ camera bufs readers ∧
      s'.remaining readers + (if l.finishes then 1 else 0) ≤ s.remaining readers := by
  by_cases hf : l.finishes = true
  · obtain ⟨h', hlt⟩ := h.finishing hs hf
    rw [if_pos hf]
    exact ⟨h', hlt⟩
  · rw [if_neg hf]
    cases l with
    | stop log =>
        have hreach := h.reachable.step hs
        cases hs with
        | stop alive hx => exact ⟨⟨hreach, h.idle, h.attended⟩, le_rfl⟩
    | _ => exact absurd hl hf

/-- No call under way and no frame can take another step. -/
def Finished (D : Device linux σ) (camera : V4L2Camera t) (s : System t σ) : Prop :=
  ∀ l s', l.finishes = true → ¬ Step D camera s l s'

theorem AtRest.finished (h : s.AtRest) : s.Finished D camera := by
  have hnone : ∀ id, id ∉ s.frames := by
    intro id hid
    rw [h.frames] at hid
    exact Multiset.notMem_zero _ hid
  have hidle : ∀ r phase, s.reads r = phase → phase = .idle := by
    rintro r phase rfl
    exact h.idle r
  intro l s' hl hs
  cases hs with
  | start => cases hl
  | enter => cases hl
  | await held phase => cases hidle _ _ phase
  | leased held phase => cases hidle _ _ phase
  | dequeueFailed held phase => cases hidle _ _ phase
  | returnFrame phase => cases hidle _ _ phase
  | unwind phase => cases hidle _ _ phase
  | stop => cases hl
  | copyFrame => cases hl
  | dropShared hid => exact hnone _ hid
  | dropLast hid => exact hnone _ hid
  | destroyCamera => cases hl

theorem Winding.atRest (hD : Responsive D) (h : s.Winding D d₀ camera bufs readers)
    (hend : s.Finished D camera) : s.AtRest := by
  have ho := h.owned
  have hframes : s.frames = 0 := by
    by_contra hne
    obtain ⟨id, hid⟩ := Multiset.exists_mem_of_ne_zero hne
    obtain ⟨l, s', hl, hs⟩ := exists_drop camera hD ho hid
    exact hend l s' hl hs
  have hidle : ∀ r, s.reads r = .idle := by
    intro r
    rcases h.attended with alive | hnobody
    · by_contra hbusy
      have hu : s.stateUses ≠ 0 := by
        have huses := ho.stateUses
        rw [alive, if_pos rfl] at huses
        omega
      obtain ⟨l, s', hl, hs⟩ := exists_read_step camera hD ho hu hbusy
      exact hend l s' hl hs
    · exact h.idle r (by rw [hnobody]; exact Finset.notMem_empty r)
  have hleases : s.core.leases = ∅ := by
    obtain ⟨ls, htrace⟩ := h.reachable
    refine Finset.eq_empty_of_forall_notMem ?_
    intro lease hl
    rcases (history htrace).attended lease hl with hid | ⟨r, hr⟩
    · rw [hframes] at hid
      exact Multiset.notMem_zero _ hid
    · obtain ⟨buffer, hphase⟩ := holds_eq_some.mp hr
      rw [hidle r] at hphase
      cases hphase
  have hcounted := ho.counted.outstanding
  have huses := ho.stateUses
  rw [hleases, Finset.card_empty] at hcounted huses
  rw [zero_add, add_zero] at huses
  exact ⟨hidle, hframes, hleases, hcounted, huses⟩

theorem winding_of_reachable (h : (captureSystem D d₀ camera bufs).Reachable s)
    (hcamera : s.cameraAlive = true ∨ ∀ r, s.reads r = .idle) :
    ∃ readers, s.Winding D d₀ camera bufs readers := by
  rcases hcamera with alive | hidle
  · obtain ⟨readers, hreaders⟩ := finite_reads h
    exact ⟨readers, h, hreaders, Or.inl alive⟩
  · exact ⟨∅, h, fun r _ => hidle r, Or.inr rfl⟩

theorem Winding.run {ls : List Label} (h : s.Winding D d₀ camera bufs readers)
    (hr : (captureSystem D d₀ camera bufs).Run s ls s') (hls : ∀ l ∈ ls, l.Winds) :
    s'.Winding D d₀ camera bufs readers ∧
      ls.countP Label.finishes + s'.remaining readers ≤ s.remaining readers :=
  Run.countP_add_rank_le (fun _ _ _ hw hl hs => hw.step hs hl) hr h hls

theorem Winding.exists_atRest (hD : Responsive D) (h : s.Winding D d₀ camera bufs readers) :
    ∃ ls s', (captureSystem D d₀ camera bufs).Run s ls s' ∧ (∀ l ∈ ls, l.finishes = true) ∧
      s'.AtRest := by
  obtain ⟨ls, s', hr, hls, hstuck⟩ := exists_run_stuck
    (S := captureSystem D d₀ camera bufs) (Q := fun l => l.finishes = true)
    (fun _ _ _ hw hl hs => Winding.finishing hw hs hl) h
  obtain ⟨h', _⟩ := h.run hr fun l hl => Label.winds_of_finishes (hls l hl)
  exact ⟨ls, s', hr, hls, h'.atRest hD hstuck⟩

theorem streaming_of_stop (hs : Step D camera s (.stop log) s') :
    s'.core.mem.streaming = false := by
  cases hs with
  | stop alive hx =>
      rcases V4L2State.exec_stopCapture.mp hx with ⟨hoff, _, rfl, rfl⟩ | ⟨_, _, _, _, rfl⟩
      · exact hoff
      · rfl

theorem Winding.keeps (h : s.Winding D d₀ camera bufs readers) (alive : s.cameraAlive = true)
    (hs : Step D camera s l s') (hl : l.Winds) :
    s'.cameraAlive = true ∧
      (s.core.mem.streaming = false → s'.core.mem.streaming = false) := by
  by_cases hf : l.finishes = true
  · have hswitch := Label.not_switches_of_finishes hf
    obtain ⟨hst, halive⟩ := step_keeps h.owned alive hs hswitch
    exact ⟨halive, fun hoff => hst.trans hoff⟩
  · cases l with
    | stop log =>
        have hoff := streaming_of_stop hs
        cases hs with
        | stop _ hx => exact ⟨alive, fun _ => hoff⟩
    | _ => exact absurd hl hf

/-- Once the stream has been stopped nothing turns it on again. -/
theorem Winding.stopped {ls : List Label} (h : s.Winding D d₀ camera bufs readers)
    (alive : s.cameraAlive = true) (hr : (captureSystem D d₀ camera bufs).Run s ls s')
    (hls : ∀ l ∈ ls, l.Winds)
    (hoff : s.core.mem.streaming = false ∨ ∃ log, Label.stop log ∈ ls) :
    s'.cameraAlive = true ∧ s'.core.mem.streaming = false := by
  induction ls generalizing s with
  | nil =>
      obtain rfl := hr
      exact ⟨alive, hoff.resolve_right (by simp)⟩
  | cons l ls ih =>
      obtain ⟨s₁, hs, hrest⟩ := hr
      have hl := hls l List.mem_cons_self
      obtain ⟨halive, hkeep⟩ := h.keeps alive hs hl
      refine ih (h.step hs hl).1 halive hrest (fun m hm => hls m (List.mem_cons_of_mem _ hm)) ?_
      rcases hoff with hoff | ⟨log, hm⟩
      · exact Or.inl (hkeep hoff)
      · rcases List.mem_cons.mp hm with rfl | hm
        · exact Or.inl (streaming_of_stop hs)
        · exact Or.inr ⟨log, hm⟩

end System

/-- From every state that is reached with a camera behind its reads, and with any system that
answers: finishing the reads and dropping the frames takes a bounded number of steps in whatever
order they come, it can always go on until the camera alone has a share of the state, and it goes
no further. -/
theorem winding_ends {D : Device linux σ} {d₀ : σ} {camera : V4L2Camera t}
    {bufs : List (BufferMemory t)} {s : System t σ} (hD : Responsive D)
    (h : (captureSystem D d₀ camera bufs).Reachable s)
    (hcamera : s.cameraAlive = true ∨ ∀ r, s.reads r = .idle) :
    (∃ readers : Finset ℕ, (∀ r ∉ readers, s.reads r = .idle) ∧
      ∀ ls s', (captureSystem D d₀ camera bufs).Run s ls s' → (∀ l ∈ ls, l.Winds) →
        ls.countP Label.finishes ≤ s.remaining readers ∧ (s'.Finished D camera ↔ s'.AtRest)) ∧
      ∃ ls s', (captureSystem D d₀ camera bufs).Run s ls s' ∧
        (∀ l ∈ ls, l.finishes = true) ∧ s'.AtRest := by
  obtain ⟨readers, hw⟩ := System.winding_of_reachable h hcamera
  refine ⟨⟨readers, hw.idle, ?_⟩, hw.exists_atRest hD⟩
  intro ls s' hr hls
  obtain ⟨hw', hle⟩ := hw.run hr hls
  exact ⟨by omega, fun hend => hw'.atRest hD hend, fun hrest => hrest.finished⟩

/-- A driver that keeps the protocol answers everything. -/
theorem responsive_conformed (n : ℕ) : Responsive (conformed n) where
  polls q timeout :=
    ⟨⟨0, .ok 0⟩, q, retryIoctl_queueAnswers.mpr ⟨rfl, id⟩, nofun⟩
  answers q r := by
    have hinterrupted : Errno.einval ≠ Errno.eintr := by decide
    cases r with
    | ioctl request =>
        cases request with
        | qbuf index t k =>
            by_cases hq : index ∈ q
            · exact ⟨.error Errno.einval, q,
                retryIoctl_queueAnswers.mpr ⟨⟨Or.inr (Or.inr hq), rfl⟩, hinterrupted⟩⟩
            · exact ⟨.ok (), insert index q, conformed_qbuf_ok hq⟩
        | dqbuf t =>
            exact ⟨.error Errno.einval, q,
              retryIoctl_queueAnswers.mpr ⟨⟨Or.inr trivial, rfl⟩, hinterrupted⟩⟩
        | streamon t => exact ⟨.ok (), q, conformed_streamon_ok⟩
        | streamoff t => exact ⟨.ok (), ∅, retryIoctl_queueAnswers.mpr ⟨rfl, id⟩⟩
        | _ => exact ⟨.error Errno.einval, q, retryIoctl_queueAnswers.mpr ⟨rfl, hinterrupted⟩⟩
    | openFile path => exact ⟨.ok (), q, retryIoctl_queueAnswers.mpr ⟨rfl, id⟩⟩
    | mmap length offset => exact ⟨.ok 0, q, retryIoctl_queueAnswers.mpr ⟨rfl, id⟩⟩
    | poll timeout => exact ⟨⟨0, .ok 0⟩, q, retryIoctl_queueAnswers.mpr ⟨rfl, id⟩⟩
    | allocate => exact ⟨true, q, retryIoctl_queueAnswers.mpr ⟨rfl, id⟩⟩

theorem winding_ends_sample : ∃ ls s',
    sampleSystem.Run sampleFramed ls s' ∧ (∀ l ∈ ls, l.finishes = true) ∧ s'.AtRest :=
  (winding_ends (responsive_conformed 2) sampleFramed_reachable
    (Or.inl rfl)).2

/-- With a driver that keeps the protocol a camera can always be started anew: let the reads
finish and the frames go in any order, with a `stop` somewhere in between, until nothing is
left of them. That is possible from every state reached, and whichever way it went, `start` then
succeeds with every buffer queued. -/
theorem restart_within_reach {t : CaptureType} {camera : V4L2Camera t}
    {bufs : List (BufferMemory t)} {s : System t KernelQueue}
    (h : (captureSystem (conformed bufs.length) ∅ camera bufs).Reachable s)
    (alive : s.cameraAlive = true) :
    (∃ ls s', (captureSystem (conformed bufs.length) ∅ camera bufs).Run s ls s' ∧
      (∀ l ∈ ls, l.Winds) ∧ (∃ log, Label.stop log ∈ ls) ∧
      s'.Finished (conformed bufs.length) camera) ∧
    ∀ ls s', (captureSystem (conformed bufs.length) ∅ camera bufs).Run s ls s' →
      (∀ l ∈ ls, l.Winds) → (∃ log, Label.stop log ∈ ls) →
      s'.Finished (conformed bufs.length) camera →
      (∃ log s'', System.Step (conformed bufs.length) camera s' (.start log (.ok ())) s'') ∧
      ∀ log r s'', System.Step (conformed bufs.length) camera s' (.start log r) s'' →
        r = .ok () ∧ s''.core.mem.running = true ∧ s''.core.dev = Finset.range bufs.length := by
  obtain ⟨readers, hw⟩ := System.winding_of_reachable h (Or.inl alive)
  have hD := responsive_conformed bufs.length
  constructor
  · have hstop := atMost_stopCapture s.core.mem
    obtain ⟨log, mem, dev, hx⟩ := hstop.exists_exec hD.answers s.core.dev
    have hs : System.Step (conformed bufs.length) camera s (.stop log) (s.withMem mem dev) :=
      .stop alive hx
    obtain ⟨ls, s', hr, hls, hrest⟩ := (hw.step hs trivial).1.exists_atRest hD
    refine ⟨.stop log :: ls, s', ⟨_, hs, hr⟩, ?_, ⟨log, List.mem_cons_self⟩, hrest.finished⟩
    rw [List.forall_mem_cons]
    exact ⟨trivial, fun l hl => Label.winds_of_finishes (hls l hl)⟩
  · intro ls s' hr hls hstop hend
    obtain ⟨hw', _⟩ := hw.run hr hls
    obtain ⟨halive, hoff⟩ := hw.stopped alive hr hls (Or.inr hstop)
    have hrest := hw'.atRest hD hend
    obtain ⟨p, hp⟩ := System.consistent_reachable conformed_le_faultyDriver hw'.reachable
    have hc := Core.conforming_reachable (System.core_reachable hw'.reachable)
    have hfree : ¬ s'.core.mem.Refuses := by
      rintro (hon | hbroken | hleased)
      · rw [hoff] at hon
        cases hon
      · rw [hc.notBroken] at hbroken
        cases hbroken
      · exact hleased hrest.outstanding
    constructor
    · obtain ⟨log, mem, dev, hx⟩ := hc.exec_start_exists hp hfree
      exact ⟨log, _, .start halive hx⟩
    · intro log r s'' hs
      cases hs with
      | start _ hx =>
          obtain ⟨rfl, rfl, rfl⟩ := hc.start_succeeds hp hfree hx
          exact ⟨rfl, rfl, rfl⟩

theorem restart_within_reach_sample : ∃ ls s', sampleSystem.Run sampleFramed ls s' ∧
    (∀ l ∈ ls, l.Winds) ∧ (∃ log, Label.stop log ∈ ls) ∧ s'.Finished (conformed 2) sampleCamera :=
  (restart_within_reach sampleFramed_reachable rfl).1

end CameraCore
