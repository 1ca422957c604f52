import CameraCore.FrameMemory
import CameraCore.InspectTool
import CameraCore.ResourceLifetime

/-!
# The inspection tool as a client of the V4L2 camera

A run of the tool on a V4L2 camera is a run of the capture system, between whose steps the process
writes its output and reads the bytes of its frame. So the guarantees of the camera hold of the
tool: it leaves no frame behind, it closes and unmaps what it was given once and never before, and
it ends with the stream switched off.
-/

namespace CameraCore

open DeviceProgram FloatingPoint LabelledSystem ScopedResources

variable {t : CaptureType} {σ τ : Type}

/-- A step of the camera, or a request of the process to its own device. -/
inductive ToolStep (H : HostParts σ) (camera : V4L2Camera t) :
    System t σ → Label ⊕ Event process → System t σ → Prop
  | camera {s s' : System t σ} {l : Label} (h : System.Step H.system camera s l s') :
      ToolStep H camera s (.inl l) s'
  | own {s : System t σ} {e : Event process} {dev : σ} (h : H.process s.core.dev e.1 e.2 dev) :
      ToolStep H camera s (.inr e) (s.withMem s.core.mem dev)

def toolSystem (H : HostParts σ) (d₀ : σ) (camera : V4L2Camera t) (bufs : List (BufferMemory t)) :
    LabelledSystem (System t σ) (Label ⊕ Event process) where
  init s := s = { core := { mem := { buffers := bufs }, dev := d₀ } }
  step := ToolStep H camera

/-- The calls of a camera in the log of the tool, with the arrays of planes they fill. -/
def cameraLog (log : Log) : List (Event host) :=
  (log.flatMap (called Request.fillsPlanes)).map systemEvent

theorem cameraLog_append (log log' : Log) :
    cameraLog (log ++ log') = cameraLog log ++ cameraLog log' := by
  unfold cameraLog
  rw [List.flatMap_append, List.map_append]

/-- What a step adds to the log of the tool. -/
def hostLog : Label ⊕ Event process → List (Event host)
  | .inl l => cameraLog l.log
  | .inr e => [e.right]

theorem systemLog_cameraLog (log : Log) :
    systemLog (cameraLog log) = log.flatMap (called Request.fillsPlanes) :=
  systemLog_map _

theorem systemLog_flatMap (ls : List (Label ⊕ Event process)) :
    systemLog (ls.flatMap hostLog) =
      ((ls.filterMap Sum.getLeft?).flatMap Label.log).flatMap (called Request.fillsPlanes) := by
  induction ls with
  | nil => rfl
  | cons l ls ih =>
      rw [List.flatMap_cons, systemLog_append, ih]
      cases l with
      | inl l =>
          have hfirst : (Sum.inl l :: ls).filterMap Sum.getLeft? =
              l :: ls.filterMap Sum.getLeft? := rfl
          rw [hostLog, systemLog_cameraLog, hfirst, List.flatMap_cons, List.flatMap_append]
      | inr e => rfl

section Executions

variable {H : HostParts σ} {s s' : σ} {log : List (Event host)} {α : Type} {a : α}

theorem exec_system {p : Syscalls α}
    (h : Exec H.device (Program.left (Program.left (guarded Request.fillsPlanes p))) s log a s') :
    ∃ log', Exec H.system p s log' a s' ∧ log = cameraLog log' := by
  obtain ⟨log₁, h₁, rfl⟩ := exec_systemProgram h
  obtain ⟨log₂, h₂, rfl⟩ := exec_guarded.mp h₁
  exact ⟨log₂, h₂, rfl⟩

end Executions

namespace System

variable {H : HostParts σ} {d₀ d' : σ} {camera : V4L2Camera t} {bufs : List (BufferMemory t)}
  {s s' : System t σ} {o' : V4L2Object t} {log : List (Event host)} {held : Option V4L2Frame}
  {frame : V4L2Frame}

def anyAnswer : Device linux Unit := fun _ _ _ _ => True

/-- To the camera only its own steps count, and the device may do anything. -/
theorem trace_camera {ls : List (Label ⊕ Event process)}
    (h : (toolSystem H d₀ camera bufs).Trace ls s) :
    (captureSystem anyAnswer () camera bufs).Trace (ls.filterMap Sum.getLeft?)
      (s.mapDev fun _ => ()) := by
  apply h.induction (P := fun ls s => (captureSystem anyAnswer () camera bufs).Trace
    (ls.filterMap Sum.getLeft?) (s.mapDev fun _ => ()))
  · intro s hs
    obtain rfl := hs
    exact .nil rfl
  · intro ls s l s' _ ht hs
    cases hs with
    | @camera _ l hs =>
        have hsnoc : (ls ++ [Sum.inl l]).filterMap Sum.getLeft? =
            ls.filterMap Sum.getLeft? ++ [l] := by simp
        rw [hsnoc]
        exact ht.snoc (hs.map fun _ _ _ _ _ => trivial)
    | @own e dev hs =>
        have hsame : (ls ++ [Sum.inr e]).filterMap Sum.getLeft? =
            ls.filterMap Sum.getLeft? := by simp
        rw [hsame]
        exact ht

theorem owned_tool (h : (toolSystem H d₀ camera bufs).Reachable s) : s.OwnedBy bufs 0 := by
  obtain ⟨ls, ht⟩ := h
  exact (owned_reachable (trace_camera ht).reachable).of_mapDev

def toolHands : Label ⊕ Event process → System t σ → Option (V4L2Frame × σ)
  | .inl l, s => handedOut l s
  | .inr _, _ => none

/-- The tool has brought the system here with these calls, has been handed these frames, and keeps
this one. -/
structure Stands (H : HostParts σ) (d₀ : σ) (camera : V4L2Camera t) (bufs : List (BufferMemory t))
    (log : List (Event host)) (handed : List (V4L2Frame × σ)) (held : Option V4L2Frame)
    (s : System t σ) : Prop where
  rests : s.Rests held
  trace : ∃ s₀ ls, (toolSystem H d₀ camera bufs).init s₀ ∧
    (toolSystem H d₀ camera bufs).Observed toolHands s₀ ls handed s ∧ ls.flatMap hostLog = log

theorem stands_init (H : HostParts σ) (d₀ : σ) (camera : V4L2Camera t)
    (bufs : List (BufferMemory t)) :
    Stands H d₀ camera bufs [] [] none { core := { mem := { buffers := bufs }, dev := d₀ } } :=
  ⟨rests_init d₀, _, [], rfl, .nil _, rfl⟩

variable {handed : List (V4L2Frame × σ)}

theorem Stands.reachable (h : Stands H d₀ camera bufs log handed held s) :
    (toolSystem H d₀ camera bufs).Reachable s := by
  obtain ⟨s₀, ls, hs₀, hobs, _⟩ := h.trace
  exact ⟨ls, s₀, hs₀, hobs.run⟩

theorem Stands.owned (h : Stands H d₀ camera bufs log handed held s) : s.OwnedBy bufs 0 :=
  owned_tool h.reachable

theorem observed_camera {ls : List Label}
    (h : (captureSystem H.system d₀ camera bufs).Observed handedOut s ls handed s') :
    (toolSystem H d₀ camera bufs).Observed toolHands s (ls.map Sum.inl) handed s' := by
  induction ls generalizing s handed with
  | nil => exact h
  | cons l ls ih =>
      obtain ⟨s₁, handed', hs, hrest, rfl⟩ := h
      exact ⟨s₁, handed', .camera hs, ih hrest, rfl⟩

theorem hostLog_camera (ls : List Label) :
    (ls.map Sum.inl).flatMap hostLog = cameraLog (ls.flatMap Label.log) := by
  induction ls with
  | nil => rfl
  | cons l ls ih =>
      rw [List.map_cons, List.flatMap_cons, ih, List.flatMap_cons, cameraLog_append]
      rfl

theorem Stands.performs {held' : Option V4L2Frame} {log' : Log} {more : List (V4L2Frame × σ)}
    (h : Stands H d₀ camera bufs log handed held s)
    (hp : Performs H.system camera d₀ bufs s log' more o' d' held') :
    ∃ s', Stands H d₀ camera bufs (log ++ cameraLog log') (handed ++ more)
        held' s' ∧ s'.object = o' ∧ s'.core.dev = d' := by
  obtain ⟨s₀, ls, hs₀, hobs, rfl⟩ := h.trace
  obtain ⟨ms, s', hrun, rfl, ho, hd, hrests⟩ := hp
  refine ⟨s', ⟨hrests, s₀, _, hs₀, hobs.trans (observed_camera hrun), ?_⟩, ho, hd⟩
  rw [List.flatMap_append, hostLog_camera]

theorem Stands.own {α : Type} {p : Program process α} {log' : List (Event host)} {a : α}
    (h : Stands H d₀ camera bufs log handed held s)
    (hx : Exec H.device p.right s.core.dev log' a d') :
    ∃ s', Stands H d₀ camera bufs (log ++ log') handed held s' ∧ s'.object = s.object ∧
      s'.core.dev = d' := by
  obtain ⟨log₀, hown, rfl⟩ := exec_right.mp hx
  clear hx
  induction p generalizing s log log₀ with
  | pure b =>
      obtain ⟨rfl, _, rfl⟩ := hown
      rw [List.map_nil, List.append_nil]
      exact ⟨s, h, rfl, rfl⟩
  | call r next ih =>
      obtain ⟨x, d₁, log₁, hD, hnext, rfl⟩ := hown
      obtain ⟨s₀, ls, hs₀, hobs, rfl⟩ := h.trace
      have hstep : (toolSystem H d₀ camera bufs).step s (.inr ⟨r, x⟩)
        (s.withMem s.core.mem d₁) := .own hD
      have hnow : Stands H d₀ camera bufs (ls.flatMap hostLog ++ [Event.right ⟨r, x⟩]) handed held
          (s.withMem s.core.mem d₁) := by
        have hstepped := hobs.trans (.single hstep)
        change (toolSystem H d₀ camera bufs).Observed toolHands s₀ _ (handed ++ []) _ at hstepped
        rw [List.append_nil] at hstepped
        refine ⟨h.rests.withMem _ _, s₀, _, hs₀, hstepped, ?_⟩
        rw [List.flatMap_append, List.flatMap_singleton]
        rfl
      obtain ⟨s', hs', ho, hd⟩ := ih x hnow log₁ hnext
      rw [List.append_assoc] at hs'
      exact ⟨s', hs', ho, hd⟩
  | outOfFuel => exact hown.elim

section Calls

variable {fuel : ℕ} {timeoutMs : UInt32} {log' : List (Event host)}

/-- A call that hands out no frame. -/
theorem Stands.silently {held' : Option V4L2Frame} {log' : Log}
    (h : Stands H d₀ camera bufs log handed held s)
    (hp : Performs H.system camera d₀ bufs s log' [] o' d' held') :
    ∃ s', Stands H d₀ camera bufs (log ++ cameraLog log') handed held' s' ∧
      s'.object = o' ∧ s'.core.dev = d' := by
  have hall := h.performs hp
  rw [List.append_nil] at hall
  exact hall

theorem Stands.start {r : Except Exception Unit} (h : Stands H d₀ camera bufs log handed held s)
    (hx : Exec H.device ((v4l2Class camera fuel).start s.object).left s.core.dev log' (r, o') d') :
    ∃ s', Stands H d₀ camera bufs (log ++ log') handed held s' ∧ s'.object = o' ∧
      s'.core.dev = d' := by
  obtain ⟨log₀, hstart, rfl⟩ := exec_system hx
  exact h.silently (performs_start h.rests hstart)

theorem Stands.read {r : Except Exception V4L2Frame}
    (h : Stands H d₀ camera bufs log handed none s)
    (hx : Exec H.device ((v4l2Class camera fuel).read s.object timeoutMs).left s.core.dev log'
      (r, o') d') :
    ∃ s', Stands H d₀ camera bufs (log ++ log') (handed ++ handedBy r d') (returned r) s' ∧
      s'.object = o' ∧ s'.core.dev = d' := by
  obtain ⟨log₀, hread, rfl⟩ := exec_system hx
  exact h.performs (performs_read h.rests h.owned hread)

theorem Stands.release (h : Stands H d₀ camera bufs log handed (some frame) s)
    (hx : Exec H.device ((v4l2Class camera fuel).release s.object frame).left s.core.dev log'
      o' d') :
    ∃ s', Stands H d₀ camera bufs (log ++ log') handed none s' ∧ s'.object = o' ∧
      s'.core.dev = d' := by
  obtain ⟨log₀, hrelease, rfl⟩ := exec_system hx
  exact h.silently (performs_release h.rests h.owned hrelease)

theorem Stands.stop (h : Stands H d₀ camera bufs log handed held s)
    (hx : Exec H.device ((v4l2Class camera fuel).stop s.object).left s.core.dev log' o' d') :
    ∃ s', Stands H d₀ camera bufs (log ++ log') handed held s' ∧ s'.object = o' ∧
      s'.core.dev = d' := by
  obtain ⟨log₀, hstop, rfl⟩ := exec_system hx
  exact h.silently (performs_stop h.rests hstop)

/-- What the tool prints for a frame it keeps is related by `T` to the frame and to the device as it
was when the frame was handed out. -/
def PrintsAs (H : HostParts σ) (d₀ : σ) (camera : V4L2Camera t) (bufs : List (BufferMemory t))
    (fuel : ℕ) (T : V4L2Frame × σ → String → Prop) : Prop :=
  ∀ (s : System t σ) log handed frame log' a d',
    Stands H d₀ camera bufs log handed (some frame) s →
    Exec H.device ((v4l2Class camera fuel).printFrame frame).right s.core.dev log' a d' →
    ∃ text, printed .out log' = [text] ∧ T (frame, s.core.dev) text

variable {T : V4L2Frame × σ → String → Prop}

/-- A pass of the loop takes a frame, prints it and gives it back. -/
theorem Stands.captureFrames {count : ℕ} {r : Except Exception Unit}
    (hT : PrintsAs H d₀ camera bufs fuel T) (h : Stands H d₀ camera bufs log handed none s)
    (hx : Exec H.device ((v4l2Class camera fuel).captureFrames timeoutMs count s.object)
      s.core.dev log' (r, o') d') :
    ∃ more s', Stands H d₀ camera bufs (log ++ log') (handed ++ more) none s' ∧
      s'.object = o' ∧ s'.core.dev = d' ∧ List.Forall₂ T more (printed .out log') := by
  induction count generalizing s log handed log' with
  | zero =>
      obtain ⟨rfl, he, rfl⟩ := exec_pure.mp hx
      cases he
      rw [List.append_nil]
      exact ⟨[], s, (List.append_nil handed).symm ▸ h, rfl, rfl, .nil⟩
  | succ count ih =>
      obtain ⟨⟨x, o₁⟩, d₁, log₁, log₂, hread, hpass, rfl⟩ := exec_bind.mp hx
      obtain ⟨s₁, h₁, rfl, rfl⟩ := h.read hread
      rw [← List.append_assoc, printed_append, exec_driver hread, List.nil_append]
      cases x with
      | error e =>
          obtain ⟨rfl, he, rfl⟩ := exec_pure.mp hpass
          cases he
          rw [List.append_nil]
          exact ⟨[], s₁, h₁, rfl, rfl, .nil⟩
      | ok frame =>
          obtain ⟨_, d₂, log₃, log₄, hprint, hrelease, rfl⟩ := exec_bind.mp hpass
          obtain ⟨o₃, d₃, log₅, log₆, hreleased, hmore, rfl⟩ := exec_bind.mp hrelease
          obtain ⟨text, htext, hshown⟩ := hT _ _ _ _ _ _ _ h₁ hprint
          obtain ⟨s₂, h₂, ho₂, rfl⟩ := h₁.own hprint
          rw [← ho₂] at hreleased
          obtain ⟨s₃, h₃, rfl, rfl⟩ := h₂.release hreleased
          obtain ⟨more, s', h', ho', hd', hlines⟩ := ih h₃ hmore
          rw [← List.append_assoc, ← List.append_assoc, printed_append, printed_append, htext,
            exec_driver hreleased, List.nil_append]
          rw [List.append_assoc handed] at h'
          exact ⟨_, s', h', ho', hd', .cons hshown hlines⟩

/-- A run of the system that hands out these frames, ends the camera and leaves no lease, with its
calls, and then what the shared state owned given back. -/
def Ends (H : HostParts σ) (d₀ : σ) (camera : V4L2Camera t) (bufs : List (BufferMemory t))
    (log : List (Event host)) (handed : List (V4L2Frame × σ)) : Prop :=
  ∃ s₀ ls s, (toolSystem H d₀ camera bufs).init s₀ ∧
    (toolSystem H d₀ camera bufs).Observed toolHands s₀ ls handed s ∧ s.cameraAlive = false ∧
    s.core.leases = ∅ ∧ log = ls.flatMap hostLog ++
      (releaseEvents ({ buffers := bufs } : V4L2State t).resources).map systemEvent

theorem Stands.destroy {a : Unit} (h : Stands H d₀ camera bufs log handed none s)
    (hx : Exec H.device ((v4l2Class camera fuel).destroy s.object).left s.core.dev log' a d') :
    Ends H d₀ camera bufs (log ++ log') handed := by
  obtain ⟨log₁, hdestroy, rfl⟩ := exec_systemProgram hx
  obtain ⟨o', d₁, log₂, log₃, hobject, hreleases, rfl⟩ := exec_bind.mp hdestroy
  obtain ⟨log₄, hcalls, rfl⟩ := exec_guarded.mp hobject
  obtain ⟨s₀, ls, hs₀, hobs, rfl⟩ := h.trace
  have hstep : ∃ s', (captureSystem H.system d₀ camera bufs).step s (.destroyCamera log₄) s' ∧ _ :=
    exec_destroy h.rests h.owned hcalls
  obtain ⟨s', hs, rfl, _, hcamera, hleases⟩ := hstep
  have hs' : (toolSystem H d₀ camera bufs).step s (.inl (.destroyCamera log₄)) s' := .camera hs
  have hbuffers : s'.object.state.buffers = bufs :=
    (owned_tool (h.reachable.step hs')).counted.buffers
  have hresources : s'.object.state.resources = ({ buffers := bufs } : V4L2State t).resources := by
    unfold V4L2State.resources
    rw [hbuffers]
  have hend := hobs.trans (.single hs')
  change (toolSystem H d₀ camera bufs).Observed toolHands s₀ _ (handed ++ []) _ at hend
  rw [List.append_nil] at hend
  refine ⟨s₀, _, s', hs₀, hend, hcamera, hleases, ?_⟩
  rw [exec_releaseAll hreleases, hresources, List.map_append, List.flatMap_append,
    List.flatMap_singleton, List.append_assoc]
  rfl

/-- With a V4L2 camera the tool makes a run of the system that ends it, and after the capabilities
it prints a line for each frame of the run. -/
theorem Stands.inspect {fl : Rounding} {options : Options} {capabilities : Capabilities}
    {r : Except Exception Unit} (hT : PrintsAs H d₀ camera bufs fuel T)
    (h : Stands H d₀ camera bufs log [] none s)
    (hx : Exec H.device ((v4l2Class camera fuel).inspect fl options capabilities s.object)
      s.core.dev log' r d') :
    ∃ handed lines, Ends H d₀ camera bufs (log ++ log') handed ∧
      printed .out log' = capabilitiesText fl capabilities :: lines ∧
      List.Forall₂ T handed lines := by
  obtain ⟨_, d₁, log₁, log₂, hprint, hbody, rfl⟩ := exec_bind.mp hx
  obtain ⟨s₁, h₁, ho₁, rfl⟩ := h.own hprint
  rw [← ho₁] at hbody
  rw [← List.append_assoc, printed_append, exec_print hprint, if_pos rfl, List.singleton_append]
  split_ifs at hbody
  · obtain ⟨_, d₂, log₃, log₄, hdestroy, hend, rfl⟩ := exec_bind.mp hbody
    obtain ⟨rfl, _, _⟩ := exec_pure.mp hend
    rw [List.append_nil, exec_driver hdestroy]
    exact ⟨[], [], h₁.destroy hdestroy, rfl, .nil⟩
  · obtain ⟨⟨x, o₂⟩, d₂, log₃, log₄, hstart, hstarted, rfl⟩ := exec_bind.mp hbody
    obtain ⟨s₂, h₂, rfl, rfl⟩ := h₁.start hstart
    rw [← List.append_assoc, printed_append, exec_driver hstart, List.nil_append]
    cases x with
    | error e =>
        obtain ⟨_, d₃, log₅, log₆, hdestroy, hend, rfl⟩ := exec_bind.mp hstarted
        obtain ⟨rfl, _, _⟩ := exec_pure.mp hend
        rw [List.append_nil, exec_driver hdestroy]
        exact ⟨[], [], h₂.destroy hdestroy, rfl, .nil⟩
    | ok u =>
        obtain ⟨⟨y, o₃⟩, d₃, log₅, log₆, hframes, hcaptured, rfl⟩ := exec_bind.mp hstarted
        obtain ⟨handed, s₃, h₃, rfl, rfl, hlines⟩ := h₂.captureFrames hT hframes
        rw [← List.append_assoc, printed_append]
        cases y with
        | error e =>
            obtain ⟨_, d₄, log₇, log₈, hdestroy, hend, rfl⟩ := exec_bind.mp hcaptured
            obtain ⟨rfl, _, _⟩ := exec_pure.mp hend
            rw [List.append_nil, exec_driver hdestroy, List.append_nil]
            exact ⟨handed, _, h₃.destroy hdestroy, rfl, hlines⟩
        | ok u' =>
            obtain ⟨o₄, d₄, log₇, log₈, hstop, hstopped, rfl⟩ := exec_bind.mp hcaptured
            obtain ⟨_, d₅, log₉, log₁₀, hdestroy, hend, rfl⟩ := exec_bind.mp hstopped
            obtain ⟨rfl, _, _⟩ := exec_pure.mp hend
            obtain ⟨s₄, h₄, rfl, rfl⟩ := h₃.stop hstop
            rw [← List.append_assoc, List.append_nil, printed_append, exec_driver hstop,
              exec_driver hdestroy, List.append_nil, List.append_nil]
            exact ⟨handed, _, h₄.destroy hdestroy, rfl, hlines⟩

end Calls

theorem trace_acquires {D : Device linux σ} {ls : List Label}
    (h : (captureSystem D d₀ camera bufs).Trace ls s) :
    ∀ e ∈ ls.flatMap Label.log, acquired e = none := by
  apply h.induction (P := fun ls _ => ∀ e ∈ ls.flatMap Label.log, acquired e = none)
  · intro s _ e he
    cases he
  · intro ls s l s' ht ih hs e he
    rw [List.flatMap_append, List.flatMap_singleton, List.mem_append] at he
    rcases he with he | he
    · exact ih e he
    · exact step_acquires (owned_reachable ht.reachable) hs e he

theorem Ends.settled (h : Ends H d₀ camera bufs log handed) :
    balance acquired (({ buffers := bufs } : V4L2State t).resources : Multiset Resource)
        (systemLog log) = some 0 ∧
      Balanced (streamCalls (calls (systemLog log))) false := by
  obtain ⟨s₀, ls, s, hs₀, hobs, hdead, _, rfl⟩ := h
  have ht : (toolSystem H d₀ camera bufs).Trace ls s := ⟨s₀, hs₀, hobs.run⟩
  have hcamera := trace_camera ht
  have hoff : s.core.mem.streaming = false := (owned_tool ht.reachable).off hdead
  rw [systemLog_append, systemLog_flatMap, systemLog_map]
  constructor
  · have hcalled : balance acquired
        (({ buffers := bufs } : V4L2State t).resources : Multiset Resource)
        (((ls.filterMap Sum.getLeft?).flatMap Label.log).flatMap (called Request.fillsPlanes)) =
          some _ :=
      balance_called (trace_acquires hcamera) _
    have hall : balance acquired
        (0 + (({ buffers := bufs } : V4L2State t).resources : Multiset Resource))
        (releaseEvents ({ buffers := bufs } : V4L2State t).resources) = some 0 :=
      balance_releases _ 0
    rw [zero_add] at hall
    rw [balance_append, hcalled, Option.bind_some, hall]
  · have hstream := stream_balanced hcamera
    change Balanced _ s.core.mem.streaming at hstream
    rw [hoff] at hstream
    rw [calls_append, calls_called, calls_releaseEvents, List.append_nil]
    exact hstream

end System

/-- Requests that leave the stream alone. -/
abbrev Silent : (owning linux Resource).Request → Prop := Request.Asks Request.Quiet

def Request.SetsUp : Request → Prop
  | .ioctl (.qbuf _ _ _) => False
  | .ioctl (.dqbuf _) => False
  | .ioctl (.streamon _) => False
  | .ioctl (.streamoff _) => False
  | .poll _ => False
  | .allocate => False
  | _ => True

theorem Request.SetsUp.quiet {r : Request} (h : r.SetsUp) : r.Quiet := by
  cases r with
  | ioctl request => cases request <;> trivial
  | _ => trivial

/-- Requests that only set the device up. -/
abbrev Configures : (owning linux Resource).Request → Prop := Request.Asks Request.SetsUp

theorem silent_of_configures {r : (owning linux Resource).Request} (h : Configures r) :
    Silent r := by
  cases r with
  | call r => exact Request.SetsUp.quiet h
  | _ => trivial

theorem issues_scopedPushRegion (length : UInt64) (offset : UInt32) :
    Issues Configures (scopedPushRegion length offset).run := by
  have hmap : Issues Configures (scopedMapRegion length offset).run :=
    issues_call (issues_mapRegion (fun _ _ => trivial) length offset)
  apply hmap.except_bind
  intro mapping
  have hpush := issues_onThrow (P := Request.SetsUp) (I := linux)
    (issues_allocation Exception.badAlloc) [Resource.region mapping]
  exact hpush.except_bind fun _ => trivial

theorem issues_scopedMapRegions (done : List Mapping) (planes : List V4L2Plane) :
    Issues Configures (scopedMapRegions done planes).run := by
  induction planes generalizing done with
  | nil => trivial
  | cons plane rest ih =>
      apply (issues_onThrow (issues_scopedPushRegion _ _) _).except_bind
      intro mapping
      exact (ih _).except_bind fun _ => trivial

theorem issues_scopedMapBuffer (t : CaptureType) (buffer : V4L2Buffer) :
    Issues Configures (scopedMapBuffer t buffer).run := by
  cases t with
  | videoCapture => exact (issues_scopedPushRegion _ _).except_bind fun _ => trivial
  | videoCaptureMplane =>
      change Issues Configures (scopedMapMultiPlane buffer).run
      unfold scopedMapMultiPlane
      split_ifs
      · trivial
      · exact (issues_scopedMapRegions _ _).except_bind fun _ => trivial

theorem issues_scopedAllocateOne (t : CaptureType) (index : ℕ) :
    Issues Configures (scopedAllocateOne t index).run := by
  apply (issues_call (issues_tryIoctl trivial)).except_bind
  intro x
  cases x with
  | error error => trivial
  | ok buffer => exact issues_scopedMapBuffer t buffer

theorem issues_scopedAllocateEach (t : CaptureType) (done : List (BufferMemory t))
    (is : List ℕ) : Issues Configures (scopedAllocateEach t done is).run := by
  induction is generalizing done with
  | nil => trivial
  | cons index rest ih =>
      apply (issues_onThrow (issues_scopedAllocateOne t index) _).except_bind
      intro memory
      exact (ih _).except_bind fun _ => trivial

theorem issues_scopedAllocateBuffers (t : CaptureType) (config : CaptureConfig) :
    Issues Configures (scopedAllocateBuffers t config).run := by
  apply (issues_call (issues_tryIoctl trivial)).except_bind
  intro x
  cases x with
  | error error => trivial
  | ok count =>
      dsimp only
      split_ifs
      · trivial
      · exact (issues_scopedAllocateEach t _ _).except_bind fun _ => trivial

theorem Request.Enumerates.setsUp {r : Request} (h : r.Enumerates) : r.SetsUp := by
  cases r with
  | ioctl request => cases request <;> trivial
  | _ => exact h.elim

theorem issues_enumerateFd_configures (fuel : ℕ) :
    Issues Configures (call Exception.badAlloc (enumerateFd fuel)).run :=
  issues_call (Issues.mono (issues_enumerateFd fuel) fun _ hr => hr.setsUp)

theorem issues_openDevice_configures (path : String) :
    Issues Configures (call Exception.badAlloc (openDevice path)).run :=
  issues_call (issues_openDevice (fun _ => trivial) path)

theorem issues_scopedConstruct (fl : Rounding) (fuel : ℕ) (requested : CaptureConfig) :
    Issues Configures (V4L2Camera.scopedConstruct fl fuel requested).run := by
  apply (issues_openDevice_configures _).except_bind
  intro _
  apply issues_onThrow
  apply (issues_enumerateFd_configures fuel).except_bind
  intro capabilities
  have hresolve : Issues Configures (ExceptT.mk (pure (resolve requested capabilities)) :
      ScopedFallible (CaptureMode × UInt32)).run := issues_pure _
  apply hresolve.except_bind
  rintro ⟨mode, code⟩
  have hformat := issues_configureFormat (P := Request.SetsUp) (fun _ _ _ _ => trivial) mode.type
    { requested with captureMode := mode } code
  apply (issues_call hformat).except_bind
  rintro ⟨config, strides⟩
  have hrate := issues_configureFrameRate (P := Request.SetsUp) (fun _ _ => trivial) fl mode.type
    config
  apply (issues_call hrate).except_bind
  intro config'
  exact (issues_scopedAllocateBuffers _ _).except_bind fun _ => trivial

theorem issues_scopedEnumerateV4l2 (fuel : ℕ) (path : String) :
    Issues Configures (scopedEnumerateV4l2 fuel path).run := by
  apply (issues_openDevice_configures path).except_bind
  intro _
  apply (issues_onThrow (issues_enumerateFd_configures fuel) _).except_bind
  intro capabilities
  have hclose : Issues Configures (release (I := linux) Resource.descriptor) :=
    issues_request trivial
  exact (issues_lift hclose).except_bind fun _ => trivial

structure CameraClass.Asks {κ ptr lease : Type} (cls : CameraClass κ ptr lease)
    (P : drivers.Request → Prop) : Prop where
  start : ∀ device, Issues P (cls.start device)
  read : ∀ device timeoutMs, Issues P (cls.read device timeoutMs)
  release : ∀ device frame, Issues P (cls.release device frame)
  stop : ∀ device, Issues P (cls.stop device)
  destroy : ∀ device, Issues P (cls.destroy device)

def Hosts (P : drivers.Request → Prop) : host.Request → Prop
  | .inl r => P r
  | .inr _ => True

section Asks

variable {κ ptr lease : Type} {cls : CameraClass κ ptr lease} {P : drivers.Request → Prop}

theorem issues_hosts {α : Type} {p : Program drivers α} (h : Issues P p) :
    Issues (Hosts P) p.left :=
  h.through fun _ hr => issues_request (I := host) hr

theorem issues_own {α : Type} (p : Program process α) :
    Issues (Hosts P) (Program.right (I := drivers) p) :=
  issues_right fun _ => trivial

theorem CameraClass.Asks.captureFrames (h : cls.Asks P) (timeoutMs : UInt32) (count : ℕ)
    (device : κ) : Issues (Hosts P) (cls.captureFrames timeoutMs count device) := by
  induction count generalizing device with
  | zero => trivial
  | succ count ih =>
      apply (issues_hosts (h.read device timeoutMs)).bind
      rintro ⟨x, device₁⟩
      cases x with
      | error e => trivial
      | ok frame =>
          apply (issues_own _).bind
          intro _
          exact (issues_hosts (h.release device₁ frame)).bind fun device₂ => ih device₂

theorem CameraClass.Asks.inspect (h : cls.Asks P) (fl : Rounding) (options : Options)
    (capabilities : Capabilities) (device : κ) :
    Issues (Hosts P) (cls.inspect fl options capabilities device) := by
  have hend : ∀ device (r : Except Exception Unit), Issues (Hosts P) (do
      let _ ← (cls.destroy device).left
      pure r : Program host (Except Exception Unit)) :=
    fun device r => (issues_hosts (h.destroy device)).bind fun _ => issues_pure r
  apply (issues_own _).bind
  intro _
  split_ifs
  · exact hend _ _
  · apply (issues_hosts (h.start device)).bind
    rintro ⟨x, device₁⟩
    cases x with
    | error e => exact hend _ _
    | ok u =>
        apply (h.captureFrames _ _ device₁).bind
        rintro ⟨y, device₂⟩
        cases y with
        | error e => exact hend _ _
        | ok u' => exact (issues_hosts (h.stop device₂)).bind fun device₃ => hend _ _

end Asks

/-- The synthetic camera uses the clock and nothing else. -/
def Clocked : drivers.Request → Prop
  | .inl _ => False
  | .inr _ => True

theorem syntheticClass_asks (fl : Rounding) : (syntheticClass fl).Asks Clocked where
  start _ := issues_right fun _ => trivial
  read _ _ := issues_right fun _ => trivial
  release _ _ := issues_pure _
  stop _ := issues_pure _
  destroy _ := issues_pure _

theorem systemLog_clocked {log : List (Event host)} (h : ∀ e ∈ log, Hosts Clocked e.1) :
    systemLog log = [] := by
  induction log with
  | nil => rfl
  | cons e log ih =>
      rw [List.forall_mem_cons] at h
      rw [← List.singleton_append, systemLog_append, ih h.2]
      match e, h.1 with
      | ⟨.inl (.inl _), _⟩, hfalse => exact hfalse.elim
      | ⟨.inl (.inr _), _⟩, _ => rfl
      | ⟨.inr _, _⟩, _ => rfl

/-- Nothing is held any more, nothing was given back that was not held, and every `STREAMON` has
had its `STREAMOFF`. -/
structure Closed (log : List (Event (owning linux Resource))) : Prop where
  balance : balance acquired 0 log = some 0
  stream : Balanced (streamCalls (calls log)) false

theorem closed_nil : Closed [] := ⟨rfl, 0, rfl⟩

def Camera.resources : Camera → Multiset Resource
  | .v4l2 c => (c.resources : Multiset Resource)
  | .synthetic _ => 0

theorem uses_makeCamera (fl : Rounding) (fuel : ℕ) (config : CaptureConfig) :
    Uses acquired (scopedMakeCamera fl fuel config).run 0 (ofResult Camera.resources) := by
  have hpure : ∀ {α : Type} (x : Except Exception α),
      Uses acquired (ExceptT.mk (pure x) : ScopedFallible α).run 0 (ofResult fun _ => 0) := by
    intro α x
    have hx : Uses acquired (ExceptT.mk (pure x) : ScopedFallible α).run _ (ofResult fun _ => 0) :=
      uses_except x
    cases x <;> exact hx
  apply (hpure (checkConfig fl config)).except_bind
  intro _
  cases config.backend with
  | v4l2 => exact (uses_construct fl fuel config).except_bind fun c => uses_ok _ rfl
  | synthetic =>
      apply (uses_allocation Exception.badAlloc).except_bind
      intro _
      exact (hpure (SyntheticCamera.make config)).except_bind fun camera => uses_ok _ rfl

theorem issues_makeCamera (fl : Rounding) (fuel : ℕ) (config : CaptureConfig) :
    Issues Configures (scopedMakeCamera fl fuel config).run := by
  have hcheck : Issues Configures (ExceptT.mk (pure (checkConfig fl config)) :
      ScopedFallible Unit).run := issues_pure _
  apply hcheck.except_bind
  intro _
  cases config.backend with
  | v4l2 => exact (issues_scopedConstruct fl fuel config).except_bind fun _ => trivial
  | synthetic =>
      apply (issues_allocation Exception.badAlloc).except_bind
      intro _
      have hmake : Issues Configures (ExceptT.mk (pure (SyntheticCamera.make config)) :
          ScopedFallible SyntheticCamera).run := issues_pure _
      exact hmake.except_bind fun _ => trivial

section Main

variable {H : HostParts σ} {s s' : σ} {fl : Rounding} {fuel : ℕ} {log : List (Event host)}

theorem systemLog_own {α : Type} {p : Program process α} {a : α}
    (h : Exec H.device (Program.right (I := drivers) p) s log a s') : systemLog log = [] := by
  have hclocked : ∀ e ∈ log, Hosts Clocked e.1 := h.issues (issues_own p)
  exact systemLog_clocked hclocked

theorem exec_silent {α : Type} {p : ScopedFallible α} {G : α → Multiset Resource}
    {r : Except Exception α} (hu : Uses acquired p.run 0 (ofResult G))
    (hs : Issues Silent p.run) (h : Exec H.device (onSystem p) s log r s') :
    balance acquired 0 (systemLog log) = some (ofResult G r) ∧
      streamCalls (calls (systemLog log)) = [] := by
  have hx := exec_onSystem h
  have hbalance := hu _ _ _ _ _ _ hx 0
  rw [zero_add, zero_add] at hbalance
  exact ⟨hbalance, streamCalls_of_quiet (calls_issued (hx.issues hs))⟩

theorem closed_enumerated {path : String} {r : Except Exception Capabilities}
    (h : Exec H.device (onSystem (scopedEnumerateV4l2 fuel path)) s log r s') :
    Closed (systemLog log) := by
  obtain ⟨hbalance, hstream⟩ := exec_silent (uses_enumerateV4l2 fuel path)
    ((issues_scopedEnumerateV4l2 fuel path).mono fun _ => silent_of_configures) h
  have hzero : ofResult (fun _ : Capabilities => (0 : Multiset Resource)) r = 0 := by
    cases r <;> rfl
  rw [hzero] at hbalance
  exact ⟨hbalance, 0, hstream⟩

theorem exec_made {config : CaptureConfig} {r : Except Exception Camera}
    (h : Exec H.device (onSystem (scopedMakeCamera fl fuel config)) s log r s') :
    balance acquired 0 (systemLog log) = some (ofResult Camera.resources r) ∧
      streamCalls (calls (systemLog log)) = [] :=
  exec_silent (uses_makeCamera fl fuel config)
    ((issues_makeCamera fl fuel config).mono fun _ => silent_of_configures) h

theorem closed_runOptions {options : Options} {r : Except Exception Unit}
    (h : Exec H.device (runOptions fl fuel options) s log r s') : Closed (systemLog log) := by
  cases runOptions_cases h with
  | unlisted _ henumerate => exact closed_enumerated henumerate
  | listed _ henumerate hprint =>
      rw [systemLog_append, systemLog_own hprint, List.append_nil]
      exact closed_enumerated henumerate
  | unmade hmake =>
      obtain ⟨hbalance, hstream⟩ := exec_made hmake
      exact ⟨hbalance, 0, hstream⟩
  | @v4l2 _ _ c _ s₁ _ hmake hinspect =>
      obtain ⟨hbalance, hstream⟩ := exec_made hmake
      cases exec_makeCamera (exec_onSystem hmake) with
      | v4l2 _ hconstruct =>
          rw [(construct_setsUp hconstruct).1] at hinspect
          have hbegin := System.stands_init H s₁ c.camera c.state.buffers
          have hprints : System.PrintsAs H s₁ c.camera c.state.buffers fuel fun _ _ => True := by
            intro s log handed frame log' a d' _ hprint
            obtain ⟨_, _, _, _, hout, _⟩ := exec_printFrame hprint
            exact ⟨_, hout, trivial⟩
          obtain ⟨handed, lines, hrun, _, _⟩ := hbegin.inspect hprints hinspect
          obtain ⟨hends, hcalls⟩ := hrun.settled
          rw [List.nil_append] at hends hcalls
          rw [systemLog_append]
          refine ⟨?_, ?_⟩
          · rw [balance_append, hbalance, Option.bind_some]
            exact hends
          · rw [calls_append, streamCalls_append, hstream, List.nil_append]
            exact hcalls
  | @synthetic _ log₂ camera _ _ _ hmake hinspect =>
      obtain ⟨hbalance, hstream⟩ := exec_made hmake
      have hclocked : ∀ e ∈ log₂, Hosts Clocked e.1 :=
        hinspect.issues ((syntheticClass_asks fl).inspect fl options camera.capabilities camera)
      rw [systemLog_append, systemLog_clocked hclocked, List.append_nil]
      exact ⟨hbalance, 0, hstream⟩

theorem systemLog_fail {strerror : Errno → String} {e : ToolException} {status : ℕ}
    (h : Exec H.device (fail strerror e) s log status s') : systemLog log = [] := by
  obtain ⟨_, s₁, log₁, log₂, hprint, hend, rfl⟩ := exec_bind.mp h
  obtain ⟨rfl, _, _⟩ := exec_pure.mp hend
  rw [List.append_nil]
  exact systemLog_own hprint

end Main

/-- Every run of the tool that comes to its exit status, with every command line and whatever the
system answers: each descriptor it opened is closed and each region it mapped is unmapped, once and
not before it was got, and the stream is switched on and off in turns and is off at the end. -/
theorem inspectMain_closes {H : HostParts σ} {s s' : σ} {fl : Rounding} {inRange : ℚ → Bool}
    {strerror : Errno → String} {fuel : ℕ} {argv : List String} {log : List (Event host)}
    {status : ℕ}
    (h : Exec H.device (inspectMain fl inRange strerror fuel argv) s log status s') :
    balance acquired 0 (systemLog log) = some 0 ∧
      Balanced (streamCalls (calls (systemLog log))) false := by
  unfold inspectMain at h
  cases hparse : parseOptions fl inRange argv with
  | error stop =>
      rw [hparse] at h
      have hnone : systemLog log = [] := by
        cases stop with
        | exit code =>
            obtain ⟨_, s₁, log₁, log₂, hprint, hend, rfl⟩ := exec_bind.mp h
            obtain ⟨rfl, _, _⟩ := exec_pure.mp hend
            rw [List.append_nil]
            exact systemLog_own hprint
        | threw e => exact systemLog_fail h
      rw [hnone]
      exact ⟨closed_nil.balance, closed_nil.stream⟩
  | ok options =>
      rw [hparse] at h
      obtain ⟨x, s₁, log₁, log₂, hrun, hrest, rfl⟩ := exec_bind.mp h
      have hclosed := closed_runOptions hrun
      have hnone : systemLog log₂ = [] := by
        cases x with
        | error e => exact systemLog_fail hrest
        | ok u =>
            obtain ⟨rfl, _, _⟩ := exec_pure.mp hrest
            rfl
      rw [systemLog_append, hnone, List.append_nil]
      exact ⟨hclosed.balance, hclosed.stream⟩

def planarArguments : List String := ["xgc2-camera-inspect", "--format", "nv12", "--capture", "1"]

def queuesPlanes (e : Event host) : Bool :=
  match e.left? with
  | some ⟨.inl (.call r), _⟩ => r.fillsPlanes
  | _ => false

theorem inspectMain_closes_sample : ∃ log,
    Exec anyParts.device
      (inspectMain .exact (fun _ => true) (fun _ => "") 2 planarArguments) () log 0 () ∧
    log.any queuesPlanes = true ∧ balance acquired 0 (systemLog log) = some 0 ∧
    Balanced (streamCalls (calls (systemLog log))) false := by
  have hanswered : ((inspectMain .exact (fun _ => true) (fun _ => "") 2 planarArguments).evaluate
      (hostAnswer planarAnswer)).map (fun out => (out.1.any queuesPlanes, out.2)) =
        some (true, 0) := by decide +kernel
  obtain ⟨⟨log, status⟩, hout, he⟩ := Option.map_eq_some_iff.mp hanswered
  obtain ⟨hplanes, hstatus⟩ := Prod.mk.inj he
  obtain rfl : status = 0 := hstatus
  have hrun := exec_anyParts hout
  exact ⟨log, hrun, hplanes, inspectMain_closes hrun⟩

end CameraCore
