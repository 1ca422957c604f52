import CameraCore.ScopedConstruction
import CameraCore.StreamBalance

/-!
# From construction to the last owner

The descriptor and the mappings a constructor leaves behind belong to the shared state. They are
given back when its last owner goes, which is the camera, a frame or a read in flight. Over the
whole life of a camera, from `open` to that point, each of them is given back once and not before.
-/

namespace CameraCore

open DeviceProgram FloatingPoint LabelledSystem ScopedResources

variable {t : CaptureType} {σ : Type}

section Sections

variable {P : Request → Prop} (hioctl : ∀ request, P (.ioctl request))
include hioctl

theorem issues_ioctl (request : Ioctl) : Issues P (ioctl request) :=
  issues_request (I := linux) (r := .ioctl request) (hioctl request)

theorem issues_queueLocked (s : V4L2State t) (index : ℕ) : Issues P (s.queueLocked index) := by
  unfold V4L2State.queueLocked
  split_ifs
  · exact issues_pure _
  · exact issues_ioctl hioctl _

theorem issues_giveBack (s : V4L2State t) (index : ℕ) : Issues P (s.giveBack index) := by
  apply (issues_queueLocked hioctl s index).bind
  intro x
  cases x <;> exact issues_pure _

theorem issues_queueEach (s : V4L2State t) (is : List ℕ) : Issues P (s.queueEach is) := by
  induction is with
  | nil => exact issues_pure _
  | cons index rest ih =>
      apply (issues_queueLocked hioctl s index).bind
      intro x
      cases x with
      | ok u => exact ih
      | error e => exact issues_pure _

theorem issues_start (s : V4L2State t) : Issues P s.start := by
  unfold V4L2State.start
  split_ifs
  · exact issues_pure _
  · exact issues_pure _
  · exact issues_pure _
  · apply (issues_queueEach hioctl s _).bind
    intro x
    cases x with
    | error e => exact issues_pure _
    | ok u =>
        apply (issues_ioctl hioctl _).bind
        intro y
        cases y <;> exact issues_pure _

theorem issues_dequeue (ha : P .allocate) (s : V4L2State t) : Issues P s.dequeue := by
  unfold V4L2State.dequeue
  split_ifs
  · exact issues_pure _
  · apply (issues_ioctl hioctl _).bind
    intro x
    cases x with
    | error e =>
        dsimp only
        split_ifs <;> exact issues_pure _
    | ok buffer =>
        dsimp only
        split_ifs
        · exact issues_pure _
        · apply (issues_request (I := linux) (r := .allocate) ha).bind
          intro ok
          cases ok with
          | true => exact issues_pure _
          | false => exact (issues_giveBack hioctl _ _).bind fun _ => issues_pure _

theorem issues_release (s : V4L2State t) (index : ℕ) : Issues P (s.release index) := by
  unfold V4L2State.release
  dsimp only
  split_ifs
  all_goals first | exact issues_giveBack hioctl _ _ | exact issues_pure _

theorem issues_stopCapture (s : V4L2State t) : Issues P s.stopCapture := by
  unfold V4L2State.stopCapture
  split_ifs
  · exact issues_pure _
  · exact (issues_ioctl hioctl _).bind fun _ => issues_pure _

theorem Core.Step.issues {D : Device linux σ} {c c' : Core t σ} {l : Section}
    (hout : ∀ r : Request, r.Outside → P r) (h : Core.Step D c l c') : ∀ e ∈ l.log, P e.1 := by
  cases h with
  | start hx => exact hx.issues (issues_start hioctl _)
  | leased hx => exact hx.issues (issues_dequeue hioctl (hout .allocate trivial) _)
  | dequeueFailed hx => exact hx.issues (issues_dequeue hioctl (hout .allocate trivial) _)
  | release hl hx => exact hx.issues (issues_release hioctl _ _)
  | stop hx => exact hx.issues (issues_stopCapture hioctl _)
  | outside hx hlog => exact fun e he => hout _ (hlog e he)

theorem sections_issue {D : Device linux σ} {d₀ : σ} {bufs : List (BufferMemory t)}
    {c c' : Core t σ} {ls : List Section} (hout : ∀ r : Request, r.Outside → P r)
    (h : (captureCore D d₀ bufs).Run c ls c') : ∀ e ∈ ls.flatMap Section.log, P e.1 := by
  have hstep : ∀ c l c', True → (captureCore D d₀ bufs).step c l c' →
      (∀ e ∈ l.log, P e.1) ∧ True :=
    fun _ _ _ _ hs => ⟨Core.Step.issues hioctl hout hs, trivial⟩
  have hrun := h.invariant hstep trivial
  intro e he
  obtain ⟨l, hl, he⟩ := List.mem_flatMap.mp he
  exact hrun.2 l hl e he

end Sections

namespace System

variable {D : Device linux σ} {d₀ : σ} {camera : V4L2Camera t} {bufs : List (BufferMemory t)}
  {s s' : System t σ} {l : Label}

/-- The calls of a step, and what the members of the shared state give back when the step takes
its last owner away. -/
def lifeLog (s s' : System t σ) (l : Label) : List (Event (owning linux Resource)) :=
  l.log.map (fun e => ⟨.call e.1, e.2⟩) ++
    if s.stateUses ≠ 0 ∧ s'.stateUses = 0 then releaseEvents s.core.mem.resources else []

theorem step_acquires (h : s.OwnedBy bufs 0) (hs : Step D camera s l s') :
    ∀ e ∈ l.log, acquired e = none := by
  obtain ⟨ls, hr, hlog⟩ := project s.core.dev h hs
  rw [hlog]
  have hissues := sections_issue (P := fun r => ∀ x, acquired ⟨r, x⟩ = none)
    (fun _ _ => rfl) (fun r hr x => by cases r <;> first | rfl | exact hr.elim) hr
  exact fun e he => hissues e he e.2

/-- Without an owner of the shared state nobody can do anything with the camera. -/
theorem OwnedBy.ended (h : s.OwnedBy bufs 0) (hu : s.stateUses = 0) : ¬ Step D camera s l s' := by
  obtain ⟨hdead, hframes⟩ := h.state_destroyed hu
  have hcount := h.stateUses
  have hleases : s.core.leases = ∅ := Finset.card_eq_zero.mp (by omega)
  have halive : s.cameraAlive ≠ true := by
    rw [hdead]
    exact Bool.false_ne_true
  have hheld : ∀ r lease buffer, s.reads r ≠ .holding lease buffer := by
    intro r lease buffer hr
    have hl := (h.holding r lease buffer hr).1
    rw [hleases] at hl
    exact Finset.notMem_empty _ hl
  have hnone : ∀ id, id ∉ s.frames := by
    intro id hid
    rw [hframes] at hid
    exact Multiset.notMem_zero _ hid
  intro hs
  cases hs with
  | start alive => exact halive alive
  | enter alive => exact halive alive
  | await held => exact held hu
  | leased held => exact held hu
  | dequeueFailed held => exact held hu
  | returnFrame phase => exact hheld _ _ _ phase
  | unwind phase => exact hheld _ _ _ phase
  | stop alive => exact halive alive
  | copyFrame hid => exact hnone _ hid
  | dropShared hid => exact hnone _ hid
  | dropLast hid => exact hnone _ hid
  | destroyCamera alive => exact halive alive

theorem OwnedBy.stateUses_eq_zero (h : s.OwnedBy bufs 0) :
    s.stateUses = 0 ↔ s.cameraAlive = false ∧ s.core.leases = ∅ := by
  have hcount := h.stateUses
  constructor
  · intro hu
    exact ⟨(h.state_destroyed hu).1, Finset.card_eq_zero.mp (by omega)⟩
  · rintro ⟨hdead, hleases⟩
    rw [hcount, hleases, hdead]
    rfl

end System

/-- The steps of a camera with what they show to the ledger. -/
def lifeSystem (D : Device linux σ) (d₀ : σ) (camera : V4L2Camera t)
    (bufs : List (BufferMemory t)) :
    LabelledSystem (System t σ) (List (Event (owning linux Resource))) where
  init s := s = { core := { mem := { buffers := bufs }, dev := d₀ } }
  step s e s' := ∃ l, System.Step D camera s l s' ∧ e = System.lifeLog s s' l

section Life

variable {D : Device linux σ} {d d₀ : σ} {camera : V4L2Camera t} {bufs : List (BufferMemory t)}
  {s s' : System t σ}

def System.held (bufs : List (BufferMemory t)) (s : System t σ) : Multiset Resource :=
  if s.stateUses = 0 then 0 else ({ buffers := bufs } : V4L2State t).resources

theorem lifeStep_balance {e : List (Event (owning linux Resource))} (h : s.OwnedBy bufs 0)
    (hs : (lifeSystem D d₀ camera bufs).step s e s') :
    balance acquired (s.held bufs) e = some (s'.held bufs) := by
  obtain ⟨l, hl, rfl⟩ := hs
  have hu : s.stateUses ≠ 0 := fun hu => h.ended hu hl
  have hresources : s.core.mem.resources = ({ buffers := bufs } : V4L2State t).resources := by
    unfold V4L2State.resources
    rw [h.counted.buffers]
  rw [System.lifeLog, ← flatMap_called_false, balance_append,
    balance_called (System.step_acquires h hl), Option.bind_some, System.held, if_neg hu,
    System.held, hresources]
  by_cases hend : s'.stateUses = 0
  · have hall : balance acquired
        (0 + (({ buffers := bufs } : V4L2State t).resources : Multiset Resource))
        (releaseEvents ({ buffers := bufs } : V4L2State t).resources) = some 0 :=
      balance_releases _ 0
    rw [zero_add] at hall
    rw [if_pos ⟨hu, hend⟩, if_pos hend]
    exact hall
  · rw [if_neg (fun hx => hend hx.2), if_neg hend]
    rfl

theorem life_balance {logs : List (List (Event (owning linux Resource)))}
    (h : (lifeSystem D d₀ camera bufs).Trace logs s) :
    s.OwnedBy bufs 0 ∧
      balance acquired (({ buffers := bufs } : V4L2State t).resources : Multiset Resource)
        logs.flatten = some (s.held bufs) := by
  apply h.induction (P := fun logs s => s.OwnedBy bufs 0 ∧
    balance acquired (({ buffers := bufs } : V4L2State t).resources : Multiset Resource)
      logs.flatten = some (s.held bufs))
  · intro s hs
    obtain rfl := hs
    exact ⟨System.owned_init d₀, rfl⟩
  · intro logs s e s' _ ih hs
    obtain ⟨ho, hb⟩ := ih
    have hlast := lifeStep_balance ho hs
    obtain ⟨l, hl, _⟩ := hs
    refine ⟨System.owned_step ho hl, ?_⟩
    rw [List.flatten_append, balance_append, hb, Option.bind_some, List.flatten_singleton]
    exact hlast

end Life

/-- From `open` on, whatever the device answers and in every order of reads, starts, stops,
releases and the end of the camera: what the constructor got is all held as long as the camera, a
frame or a read holds a share of it, everything has been given back once when none is left, and
that is the end. -/
theorem resources_released_once {D : Device linux σ} {fl : Rounding} {fuel : ℕ}
    {requested : CaptureConfig} {d d' : σ} {log : List (Event (owning linux Resource))}
    {c : Constructed} {logs : List (List (Event (owning linux Resource)))} {s : System c.type σ}
    (hc : Exec (device D) (V4L2Camera.scopedConstruct fl fuel requested).run d log (.ok c) d')
    (hr : (lifeSystem D d' c.camera c.state.buffers).Trace logs s) :
    balance acquired 0 (log ++ logs.flatten) =
        some (if s.cameraAlive = false ∧ s.core.leases = ∅ then 0
          else (c.resources : Multiset Resource)) ∧
      (s.cameraAlive = false ∧ s.core.leases = ∅ →
        ∀ e s', ¬ (lifeSystem D d' c.camera c.state.buffers).step s e s') := by
  obtain ⟨ho, hlife⟩ := life_balance hr
  have hbegin := uses_construct fl fuel requested σ D d log _ d' hc 0
  rw [zero_add, zero_add] at hbegin
  have hiff := ho.stateUses_eq_zero
  constructor
  · have hstate : ({ buffers := c.state.buffers } : V4L2State c.type).resources = c.resources := rfl
    rw [hstate] at hlife
    rw [balance_append, hbegin, Option.bind_some, ofResult, hlife, System.held, hstate]
    by_cases hu : s.stateUses = 0
    · rw [if_pos hu, if_pos (hiff.mp hu)]
    · rw [if_neg hu, if_neg (fun hx => hu (hiff.mpr hx))]
  · rintro hgone e s' ⟨l, hl, _⟩
    exact ho.ended (hiff.mpr hgone) hl

/-- A camera with two buffers that is destroyed while the frame it has read is still there, and
the end of that frame. -/
theorem life_outlived (camera : V4L2Camera .videoCapture) (m n : Mapping) :
    let life := lifeSystem (fixed (servingAnswer bufferedAnswer)) () camera [⟨[m], rfl⟩, ⟨[n], rfl⟩]
    ∃ logs s, life.Trace logs s ∧ s.cameraAlive = false ∧ s.core.leases ≠ ∅ ∧
      ∃ e s', life.step s e s' ∧ s'.cameraAlive = false ∧ s'.core.leases = ∅ := by
  intro life
  have hpoll : Exec (fixed (servingAnswer bufferedAnswer))
      (V4L2State.awaitFrame .videoCapture 100 1) () _ (.ok ()) () := exec_fixed rfl
  have hstarted : life.Reachable _ :=
    (Reachable.init rfl).step ⟨_, .start rfl (exec_fixed rfl), rfl⟩
  have hentered : life.Reachable _ := hstarted.step ⟨.enter 0 100 _, .enter rfl rfl, rfl⟩
  have hready : life.Reachable _ := hentered.step
    ⟨_, .await Nat.one_ne_zero (Function.update_self _ _ _) hpoll, rfl⟩
  have hleased : life.Reachable _ := hready.step
    ⟨_, .leased Nat.one_ne_zero (Function.update_self _ _ _) (exec_fixed rfl), rfl⟩
  have hframed : life.Reachable _ := hleased.step
    ⟨_, .returnFrame (Function.update_self _ _ _) rfl (exec_fixed rfl), rfl⟩
  have hgone : life.Reachable _ := hframed.step
    ⟨_, .destroyCamera rfl (exec_fixed rfl) (.shared Nat.one_ne_zero), rfl⟩
  obtain ⟨logs, htrace⟩ := hgone
  refine ⟨logs, _, htrace, rfl, Finset.singleton_ne_empty _, ?_⟩
  exact ⟨_, _, ⟨_, .dropLast (Multiset.mem_cons_self 0 0) rfl rfl
    (.intro (exec_fixed rfl) (.last rfl (exec_fixed rfl))), rfl⟩, rfl, rfl⟩

theorem resources_released_once_sample : ∃ log c,
    Exec (device (fixed (servingAnswer bufferedAnswer)))
      (V4L2Camera.scopedConstruct .exact 2 { pixelFormat := .grey }).run () log (.ok c) () ∧
    c.resources.length = 3 ∧
    ∃ logs s e s', (lifeSystem (fixed (servingAnswer bufferedAnswer)) () c.camera
        c.state.buffers).Trace logs s ∧
      s.cameraAlive = false ∧
      balance acquired 0 (log ++ logs.flatten) = some (c.resources : Multiset Resource) ∧
      (lifeSystem (fixed (servingAnswer bufferedAnswer)) () c.camera c.state.buffers).step s e s' ∧
      balance acquired 0 (log ++ (logs ++ [e]).flatten) = some 0 := by
  have hrun : Exec (fixed (servingAnswer bufferedAnswer))
      (V4L2Camera.construct .exact 2 { pixelFormat := .grey }).run () _ (.ok _) () :=
    exec_fixed rfl
  obtain ⟨log, hlog, _⟩ := (extends_construct _ _ _).complete _ _ _ _ _ _ hrun
  obtain ⟨logs, s, htrace, hdead, hlive, e, s', hstep, hdead', hnone⟩ :=
    life_outlived _ ⟨4096, 4096⟩ ⟨4096, 4096⟩
  obtain ⟨hheld, _⟩ := resources_released_once hlog htrace
  obtain ⟨hreleased, _⟩ := resources_released_once hlog (htrace.snoc hstep)
  rw [if_neg fun h => hlive h.2] at hheld
  rw [if_pos ⟨hdead', hnone⟩] at hreleased
  exact ⟨log, _, hlog, rfl, logs, s, e, s', htrace, hdead, hheld, hstep, hreleased⟩

end CameraCore
