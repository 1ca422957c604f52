import CameraCore.CameraFactory
import CameraCore.InspectOutput
import CameraCore.ScopedConstruction
import CameraCore.SyntheticPayload
import CameraCore.V4L2Calls

/-!
# The inspection tool

`main` of `xgc2-camera-inspect`: it reads its options, lists the capabilities of a device or of
the camera it makes, captures the frames it was asked for, and reports an exception. The camera is
used through its virtual functions, which are one record of programs for each backend, and the
frame of a pass of the loop is destroyed at the end of that pass.

The tool runs over the interfaces of the operating system, of the clock, and of its own process:
the texts it writes to its streams and the bytes it loads through the pointers of a frame. A
stream never throws. A run has no end when the process ends inside `queue_locked`, or when the
conversion of a time stamp overflows, which leaves it without a text.
-/

namespace CameraCore

open DeviceProgram FloatingPoint ScopedResources

inductive Stream
  | out
  | err
deriving DecidableEq

inductive ProcessRequest
  | print (stream : Stream) (text : String)
  | load (address : ℕ)

abbrev ProcessRequest.Answer : ProcessRequest → Type
  | .print _ _ => Unit
  | .load _ => UInt8

abbrev process : Interface := ⟨ProcessRequest, ProcessRequest.Answer⟩

abbrev drivers : Interface := (owning linux Resource).sum timed

abbrev host : Interface := drivers.sum process

def print (stream : Stream) (text : String) : Program process Unit :=
  Program.request (I := process) (.print stream text)

/-- `make_camera` with its scopes. -/
def scopedMakeCamera (fl : Rounding) (fuel : ℕ) (config : CaptureConfig) :
    ScopedFallible Camera := do
  ExceptT.mk (pure (checkConfig fl config))
  match config.backend with
  | .v4l2 => do
      let camera ← V4L2Camera.scopedConstruct fl fuel config
      pure (.v4l2 camera)
  | .synthetic => do
      allocation .badAlloc
      let camera ← ExceptT.mk (pure (SyntheticCamera.make config))
      pure (.synthetic camera)

def ProcessRequest.Loads : ProcessRequest → Prop
  | .print _ _ => False
  | .load _ => True

/-- The virtual functions of `Camera`. A frame is released when its last copy goes, and reading a
byte of it prints nothing. -/
structure CameraClass (κ ptr lease : Type) where
  start : κ → Program drivers (Except Exception Unit × κ)
  read : κ → UInt32 → Program drivers (Except Exception (FrameImpl ptr lease) × κ)
  release : κ → FrameImpl ptr lease → Program drivers κ
  stop : κ → Program drivers κ
  destroy : κ → Program drivers Unit
  byte : ptr → ℕ → Program process UInt8
  silent : ∀ data index, Issues ProcessRequest.Loads (byte data index)

/-- The calls of `queue_locked` that fill an array of planes first. It is `noexcept`, so that the
process ends when the array cannot be allocated. -/
def Request.fillsPlanes : Request → Bool
  | .ioctl (.qbuf _ .videoCaptureMplane _) => true
  | _ => false

def v4l2Class {t : CaptureType} (camera : V4L2Camera t) (fuel : ℕ) :
    CameraClass (V4L2Object t) ℕ Lease where
  start s := (guarded Request.fillsPlanes s.start).left
  read s timeoutMs := (guarded Request.fillsPlanes (camera.read fuel s timeoutMs)).left
  release s frame := (guarded Request.fillsPlanes (s.release frame)).left
  stop s := (guarded Request.fillsPlanes s.stop).left
  destroy s := Program.left do
    let s ← guarded Request.fillsPlanes s.destroy
    releaseAll s.state.resources
  byte address index := Program.request (I := process) (.load (address + index))
  silent _ _ := issues_request (I := process) trivial

def syntheticClass (fl : Rounding) :
    CameraClass SyntheticCamera (List UInt8) SyntheticStorage where
  start s := s.start.right
  read s timeoutMs := (s.read fl timeoutMs).right
  release s _ := pure s
  stop s := pure s.stop
  destroy _ := pure ()
  byte bytes index := pure (syntheticFetch bytes index)
  silent _ _ := issues_pure _

section Camera

variable {κ ptr lease : Type} (cls : CameraClass κ ptr lease)

/-- `frame_checksum`, through the pointers of the frame. -/
def CameraClass.checksum (frame : FrameImpl ptr lease) : Program process UInt32 :=
  frame.planes.foldlM
    (fun checksum plane =>
      (List.range plane.bytesUsed.toNat).foldlM
        (fun checksum index => do return checksumStep checksum (← cls.byte plane.data index))
        checksum)
    2166136261

def CameraClass.printFrame (frame : FrameImpl ptr lease) : Program process Unit := do
  let checksum ← cls.checksum frame
  match frame.timestamp.toNanoseconds with
  | none => .outOfFuel
  | some timestampNs => print .out (frameText frame timestampNs checksum)

def CameraClass.captureFrames (timeoutMs : UInt32) :
    ℕ → κ → Program host (Except Exception Unit × κ)
  | 0, device => pure (.ok (), device)
  | count + 1, device => do
      match ← (cls.read device timeoutMs).left with
      | (.error e, device) => pure (.error e, device)
      | (.ok frame, device) =>
          let _ ← (cls.printFrame frame).right
          let device ← (cls.release device frame).left
          captureFrames timeoutMs count device

/-- `main` with the camera made. Whichever way it ends, the camera is destroyed. -/
def CameraClass.inspect (fl : Rounding) (options : Options) (capabilities : Capabilities)
    (device : κ) : Program host (Except Exception Unit) := do
  let _ ← (print .out (capabilitiesText fl capabilities)).right
  if options.captureCount = 0 then
    let _ ← (cls.destroy device).left
    pure (.ok ())
  else
    match ← (cls.start device).left with
    | (.error e, device) =>
        let _ ← (cls.destroy device).left
        pure (.error e)
    | (.ok _, device) =>
        match ← cls.captureFrames options.timeoutMs options.captureCount.toNat device with
        | (.error e, device) =>
            let _ ← (cls.destroy device).left
            pure (.error e)
        | (.ok _, device) =>
            let device ← (cls.stop device).left
            let _ ← (cls.destroy device).left
            pure (.ok ())

end Camera

/-- A call of the library that only uses the operating system. -/
def onSystem {α : Type} (p : ScopedFallible α) : Program host (Except Exception α) :=
  Program.left (Program.left p.run)

/-- `main` between the options and the exit status. -/
def runOptions (fl : Rounding) (fuel : ℕ) (options : Options) :
    Program host (Except Exception Unit) := do
  if options.config.backend = .v4l2 ∧ options.captureCount = 0 then
    match ← onSystem (scopedEnumerateV4l2 fuel options.config.device) with
    | .error e => pure (.error e)
    | .ok capabilities =>
        let _ ← (print .out (capabilitiesText fl capabilities)).right
        pure (.ok ())
  else
    match ← onSystem (scopedMakeCamera fl fuel options.config) with
    | .error e => pure (.error e)
    | .ok (.v4l2 c) =>
        (v4l2Class c.camera fuel).inspect fl options c.camera.capabilities ⟨c.state, 0⟩
    | .ok (.synthetic camera) =>
        (syntheticClass fl).inspect fl options camera.capabilities camera

/-- What the handlers of `main` write to `std::cerr`. -/
def ToolException.report (strerror : Errno → String) : ToolException → String
  | .library (.cameraError error) => "camera error: " ++ error.message.what strerror ++ "\n"
  | .library .badAlloc => "error: std::bad_alloc\n" ++ usage
  | .library .lengthError => "error: vector::_M_default_append\n" ++ usage
  | .standard (.invalidArgument what) => "error: " ++ what ++ "\n" ++ usage
  | .standard (.outOfRange what) => "error: " ++ what ++ "\n" ++ usage

def fail (strerror : Errno → String) (e : ToolException) : Program host ℕ := do
  let _ ← (print .err (e.report strerror)).right
  pure 2

def inspectMain (fl : Rounding) (inRange : ℚ → Bool) (strerror : Errno → String) (fuel : ℕ)
    (argv : List String) : Program host ℕ := do
  match parseOptions fl inRange argv with
  | .error (.exit status) =>
      let _ ← (print .out usage).right
      pure status
  | .error (.threw e) => fail strerror e
  | .ok options =>
      match ← runOptions fl fuel options with
      | .error e => fail strerror (.library e)
      | .ok _ => pure 0

def printedText (stream : Stream) : Event process → Option String
  | ⟨.print stream' text, _⟩ => if stream' = stream then some text else none
  | ⟨.load _, _⟩ => none

def printed (stream : Stream) (log : List (Event host)) : List String :=
  (rights log).filterMap (printedText stream)

theorem printed_append (stream : Stream) (log log' : List (Event host)) :
    printed stream (log ++ log') = printed stream log ++ printed stream log' := by
  unfold printed
  rw [rights_append, List.filterMap_append]

theorem printed_left (stream : Stream) (log : List (Event drivers)) :
    printed stream (log.map Event.left) = [] := by
  unfold printed
  rw [rights_map_left]
  rfl

/-- The devices of the tool; what they do to their common state is up to them. -/
structure HostParts (σ : Type) where
  system : Device linux σ
  clock : Device timed σ
  process : Device process σ

def HostParts.device {σ : Type} (H : HostParts σ) : Device host σ :=
  ((ScopedResources.device H.system).sum H.clock).sum H.process

def systemEvent (e : Event (owning linux Resource)) : Event host := e.left.left

def systemLog (log : List (Event host)) : List (Event (owning linux Resource)) := lefts (lefts log)

@[simp] theorem systemLog_append (log log' : List (Event host)) :
    systemLog (log ++ log') = systemLog log ++ systemLog log' := by
  unfold systemLog
  rw [lefts_append, lefts_append]

@[simp] theorem systemLog_map (log : List (Event (owning linux Resource))) :
    systemLog (log.map systemEvent) = log := by
  unfold systemLog systemEvent
  rw [← Function.comp_def Event.left, ← List.map_map, lefts_map_left, lefts_map_left]

section System

variable {σ : Type} {H : HostParts σ} {s s' : σ} {log : List (Event host)}

theorem exec_systemProgram {α : Type} {a : α} {p : Program (owning linux Resource) α}
    (h : Exec H.device (Program.left (Program.left p)) s log a s') :
    ∃ log', Exec (ScopedResources.device H.system) p s log' a s' ∧
      log = log'.map systemEvent := by
  obtain ⟨log₁, h₁, rfl⟩ := exec_left.mp h
  obtain ⟨log₂, h₂, rfl⟩ := exec_left.mp h₁
  exact ⟨log₂, h₂, List.map_map⟩

theorem exec_onSystem {α : Type} {p : ScopedFallible α} {r : Except Exception α}
    (h : Exec H.device (onSystem p) s log r s') :
    Exec (ScopedResources.device H.system) p.run s (systemLog log) r s' := by
  obtain ⟨log', hx, rfl⟩ := exec_systemProgram h
  rw [systemLog_map]
  exact hx

theorem exec_onSystem_of {α : Type} {p : ScopedFallible α} {r : Except Exception α}
    {log : List (Event (owning linux Resource))}
    (h : Exec (ScopedResources.device H.system) p.run s log r s') :
    Exec H.device (onSystem p) s (log.map systemEvent) r s' :=
  exec_left.mpr ⟨_, exec_left.mpr ⟨log, h, rfl⟩, List.map_map.symm⟩

/-- What a camera that `make_camera` returns was made by. -/
inductive Made (fl : Rounding) (fuel : ℕ) (config : CaptureConfig) (D : Device linux σ) (s s' : σ) :
    Camera → Prop
  | v4l2 {c : Constructed} {log : Log} (backend : config.backend = .v4l2)
      (h : Exec D (V4L2Camera.construct fl fuel config).run s log (.ok c) s') :
      Made fl fuel config D s s' (.v4l2 c)
  | synthetic {camera : SyntheticCamera} (backend : config.backend = .synthetic)
      (h : SyntheticCamera.make config = .ok camera) :
      Made fl fuel config D s s' (.synthetic camera)

theorem exec_makeCamera {D : Device linux σ} {fl : Rounding} {fuel : ℕ}
    {config : CaptureConfig} {log : List (Event (owning linux Resource))} {camera : Camera}
    (h : Exec (ScopedResources.device D) (scopedMakeCamera fl fuel config).run s log
      (.ok camera) s') : Made fl fuel config D s s' camera := by
  obtain ⟨_, s₁, log₁, log₂, hcheck, hrest, rfl⟩ := exec_bind_ok.mp h
  obtain ⟨_, _, rfl⟩ := exec_pure.mp hcheck
  cases hb : config.backend with
  | v4l2 =>
      rw [hb] at hrest
      obtain ⟨c, s₂, log₃, log₄, hconstruct, hend, rfl⟩ := exec_bind_ok.mp hrest
      obtain ⟨_, he, rfl⟩ := exec_return.mp hend
      cases he
      exact .v4l2 hb ((extends_construct fl fuel config).returns _ _ _ _ _ _ hconstruct)
  | synthetic =>
      rw [hb] at hrest
      obtain ⟨_, s₂, log₃, log₄, _, hmake, rfl⟩ := exec_bind_ok.mp hrest
      obtain ⟨made, s₃, log₅, log₆, hmade, hend, rfl⟩ := exec_bind_ok.mp hmake
      obtain ⟨_, hok, _⟩ := exec_pure.mp hmade
      obtain ⟨_, he, _⟩ := exec_return.mp hend
      cases he
      exact .synthetic hb hok.symm

end System

section Printing

variable {σ κ ptr lease : Type} {cls : CameraClass κ ptr lease} {H : HostParts σ} {s s' : σ}

theorem exec_print {stream : Stream} {text : String} {log : List (Event host)} {a : Unit}
    (h : Exec H.device (print stream text).right s log a s') (stream' : Stream) :
    printed stream' log = if stream = stream' then [text] else [] := by
  obtain ⟨log', hx, rfl⟩ := exec_right.mp h
  obtain ⟨_, rfl⟩ := exec_request.mp hx
  unfold printed
  rw [rights_map_right]
  by_cases hs : stream = stream' <;> simp [printedText, hs]

theorem CameraClass.issues_checksum (frame : FrameImpl ptr lease) :
    Issues ProcessRequest.Loads (cls.checksum frame) := by
  apply issues_foldlM
  intro checksum plane
  apply issues_foldlM
  intro checksum index
  exact (cls.silent plane.data index).bind fun _ => issues_pure _

theorem exec_printFrame {frame : FrameImpl ptr lease} {log : List (Event host)} {a : Unit}
    (h : Exec H.device (cls.printFrame frame).right s log a s') :
    ∃ timestampNs checksum, frame.timestamp.toNanoseconds = some timestampNs ∧
      (∃ log₁ s₁, Exec H.process (cls.checksum frame) s log₁ checksum s₁) ∧
      printed .out log = [frameText frame timestampNs checksum] ∧ printed .err log = [] := by
  obtain ⟨log', hx, rfl⟩ := exec_right.mp h
  obtain ⟨checksum, s₁, log₁, log₂, hloads, hrest, rfl⟩ := exec_bind.mp hx
  have hsilent : ∀ stream, log₁.filterMap (printedText stream) = [] := by
    intro stream
    apply filterMap_eq_nil_of_issued (P := ProcessRequest.Loads) _
      (hloads.issues (cls.issues_checksum frame))
    intro r x hr
    cases r with
    | print _ _ => exact hr.elim
    | load _ => rfl
  cases hns : frame.timestamp.toNanoseconds with
  | none =>
      rw [hns] at hrest
      exact hrest.elim
  | some timestampNs =>
      rw [hns] at hrest
      obtain ⟨_, rfl⟩ := exec_request.mp hrest
      unfold printed
      simp only [rights_map_right, List.filterMap_append, hsilent]
      exact ⟨timestampNs, checksum, rfl, ⟨log₁, s₁, hloads⟩, rfl, rfl⟩

theorem exec_driver {α : Type} {p : Program drivers α} {log : List (Event host)} {a : α}
    (h : Exec H.device p.left s log a s') (stream : Stream) : printed stream log = [] := by
  obtain ⟨log', _, rfl⟩ := exec_left.mp h
  exact printed_left stream log'

/-- A line the tool prints for some frame. -/
def FrameLine (text : String) : Prop :=
  ∃ (ptr lease : Type) (frame : FrameImpl ptr lease) (timestampNs : ℤ) (checksum : UInt32),
    frame.timestamp.toNanoseconds = some timestampNs ∧
      text = frameText frame timestampNs checksum

/-- The lines printed for the frames of a run: all that were asked for, or fewer when the run ended
with an exception. -/
structure FrameLines (count : ℕ) (r : Except Exception Unit) (lines : List String) : Prop where
  frames : ∀ text ∈ lines, FrameLine text
  all : r = .ok () → lines.length = count
  fewer : ∀ e, r = .error e → lines.length < count

theorem frameLines_threw {count : ℕ} (hcount : 0 < count) (e : Exception) :
    FrameLines count (.error e) [] := by
  refine ⟨?_, ?_, fun _ _ => hcount⟩
  · intro text ht
    cases ht
  · intro he
    cases he

theorem frameLines_none : FrameLines 0 (.ok ()) [] := by
  refine ⟨?_, fun _ => rfl, ?_⟩
  · intro text ht
    cases ht
  · intro e he
    cases he

theorem FrameLines.cons {count : ℕ} {r : Except Exception Unit} {lines : List String}
    {text : String} (h : FrameLines count r lines) (ht : FrameLine text) :
    FrameLines (count + 1) r (text :: lines) where
  frames := by
    simp only [List.mem_cons, forall_eq_or_imp]
    exact ⟨ht, h.frames⟩
  all hr := by rw [List.length_cons, h.all hr]
  fewer e hr := by
    have := h.fewer e hr
    rw [List.length_cons]
    omega

theorem exec_captureFrames {timeoutMs : UInt32} {count : ℕ} {device device' : κ}
    {log : List (Event host)} {r : Except Exception Unit}
    (h : Exec H.device (cls.captureFrames timeoutMs count device) s log (r, device') s') :
    printed .err log = [] ∧ FrameLines count r (printed .out log) := by
  induction count generalizing device s log with
  | zero =>
      obtain ⟨rfl, he, _⟩ := exec_pure.mp h
      cases he
      exact ⟨rfl, frameLines_none⟩
  | succ count ih =>
      obtain ⟨⟨x, device₁⟩, s₁, log₁, log₂, hread, hpass, rfl⟩ := exec_bind.mp h
      simp only [printed_append, exec_driver hread, List.nil_append]
      cases x with
      | error e =>
          obtain ⟨rfl, he, _⟩ := exec_pure.mp hpass
          cases he
          exact ⟨rfl, frameLines_threw (Nat.succ_pos count) e⟩
      | ok frame =>
          obtain ⟨_, s₂, log₃, log₄, hprint, hrelease, rfl⟩ := exec_bind.mp hpass
          obtain ⟨device₂, s₃, log₅, log₆, hreleased, hmore, rfl⟩ := exec_bind.mp hrelease
          obtain ⟨timestampNs, checksum, hns, _, hout, herr⟩ := exec_printFrame hprint
          obtain ⟨hsilent, hlines⟩ := ih hmore
          simp only [printed_append, hout, herr, exec_driver hreleased, List.nil_append,
            List.singleton_append]
          exact ⟨hsilent, hlines.cons ⟨ptr, lease, frame, timestampNs, checksum, hns, rfl⟩⟩

theorem exec_inspect {fl : Rounding} {options : Options} {capabilities : Capabilities}
    {device : κ} {log : List (Event host)} {r : Except Exception Unit}
    (h : Exec H.device (cls.inspect fl options capabilities device) s log r s') :
    printed .err log = [] ∧ ∃ lines,
      printed .out log = capabilitiesText fl capabilities :: lines ∧
      FrameLines options.captureCount.toNat r lines := by
  obtain ⟨_, s₁, log₁, log₂, hprint, hbody, rfl⟩ := exec_bind.mp h
  simp only [printed_append, exec_print hprint, if_true, reduceCtorEq, if_false, List.nil_append,
    List.singleton_append]
  split_ifs at hbody with hzero
  · obtain ⟨_, s₂, log₃, log₄, hdestroy, hend, rfl⟩ := exec_bind.mp hbody
    obtain ⟨rfl, rfl, _⟩ := exec_pure.mp hend
    simp only [printed_append, exec_driver hdestroy, hzero]
    exact ⟨rfl, [], rfl, frameLines_none⟩
  · have hpos : 0 < options.captureCount.toNat := by
      have hne : options.captureCount.toNat ≠ 0 := fun h => hzero (UInt32.toNat_inj.mp h)
      omega
    obtain ⟨⟨x, device₁⟩, s₂, log₃, log₄, hstart, hstarted, rfl⟩ := exec_bind.mp hbody
    simp only [printed_append, exec_driver hstart, List.nil_append]
    cases x with
    | error e =>
        obtain ⟨_, s₃, log₅, log₆, hdestroy, hend, rfl⟩ := exec_bind.mp hstarted
        obtain ⟨rfl, rfl, _⟩ := exec_pure.mp hend
        simp only [printed_append, exec_driver hdestroy]
        exact ⟨rfl, [], rfl, frameLines_threw hpos e⟩
    | ok u =>
        obtain ⟨⟨y, device₂⟩, s₃, log₅, log₆, hframes, hcaptured, rfl⟩ := exec_bind.mp hstarted
        obtain ⟨herr, hlines⟩ := exec_captureFrames hframes
        simp only [printed_append, herr, List.nil_append]
        cases y with
        | error e =>
            obtain ⟨_, s₄, log₇, log₈, hdestroy, hend, rfl⟩ := exec_bind.mp hcaptured
            obtain ⟨rfl, rfl, _⟩ := exec_pure.mp hend
            simp only [printed_append, exec_driver hdestroy]
            exact ⟨rfl, _, List.append_nil _ ▸ rfl, hlines⟩
        | ok u' =>
            obtain ⟨device₃, s₄, log₇, log₈, hstop, hstopped, rfl⟩ := exec_bind.mp hcaptured
            obtain ⟨_, s₅, log₉, log₁₀, hdestroy, hend, rfl⟩ := exec_bind.mp hstopped
            obtain ⟨rfl, rfl, _⟩ := exec_pure.mp hend
            simp only [printed_append, exec_driver hstop, exec_driver hdestroy]
            exact ⟨rfl, _, List.append_nil _ ▸ rfl, hlines⟩

end Printing

section Main

variable {σ : Type} {H : HostParts σ} {s s' : σ} {fl : Rounding} {inRange : ℚ → Bool}
  {strerror : Errno → String} {fuel : ℕ} {log : List (Event host)}

theorem parseArguments_exit {options : Options} {arguments : List String} {status : ℕ}
    (h : parseArguments fl inRange options arguments = .error (.exit status)) : status = 0 := by
  fun_induction parseArguments fl inRange options arguments with
  | case1 => cases h
  | case2 =>
      cases h
      rfl
  | case3 _ _ _ ih => exact ih h
  | case4 => cases h
  | case5 => cases h
  | case6 _ _ _ _ _ _ _ _ ih => exact ih h

/-- What a run with these options prints: nothing, or the capabilities and the lines of frames. -/
structure OptionsPrinted (fl : Rounding) (options : Options) (r : Except Exception Unit)
    (texts : List String) : Prop where
  finished : r = .ok () → ∃ capabilities lines, texts = capabilitiesText fl capabilities :: lines ∧
    lines.length = options.captureCount.toNat ∧ ∀ text ∈ lines, FrameLine text
  threw : ∀ e, r = .error e → texts = [] ∨ ∃ capabilities lines,
    texts = capabilitiesText fl capabilities :: lines ∧
    lines.length < options.captureCount.toNat ∧ ∀ text ∈ lines, FrameLine text

theorem optionsPrinted_threw (options : Options) (e : Exception) :
    OptionsPrinted fl options (.error e) [] := by
  refine ⟨?_, fun _ _ => Or.inl rfl⟩
  intro h
  cases h

theorem FrameLines.options {options : Options} {r : Except Exception Unit} {lines : List String}
    (h : FrameLines options.captureCount.toNat r lines) (capabilities : Capabilities) :
    OptionsPrinted fl options r (capabilitiesText fl capabilities :: lines) where
  finished hr := ⟨capabilities, lines, rfl, h.all hr, h.frames⟩
  threw e hr := Or.inr ⟨capabilities, lines, rfl, h.fewer e hr, h.frames⟩

/-- How a run with these options can end: with the device listed or not, or with a camera that is
inspected or could not be made. -/
inductive RunEnds (D : Device host σ) (fl : Rounding) (fuel : ℕ) (options : Options) (s : σ) :
    List (Event host) → Except Exception Unit → σ → Prop
  | unlisted {log : List (Event host)} {e : Exception} {s' : σ}
      (lists : options.config.backend = .v4l2 ∧ options.captureCount = 0)
      (enumerated : Exec D (onSystem (scopedEnumerateV4l2 fuel options.config.device)) s log
        (.error e) s') :
      RunEnds D fl fuel options s log (.error e) s'
  | listed {log log' : List (Event host)} {capabilities : Capabilities} {s₁ s' : σ}
      (lists : options.config.backend = .v4l2 ∧ options.captureCount = 0)
      (enumerated : Exec D (onSystem (scopedEnumerateV4l2 fuel options.config.device)) s log
        (.ok capabilities) s₁)
      (prints : Exec D (print .out (capabilitiesText fl capabilities)).right s₁ log' () s') :
      RunEnds D fl fuel options s (log ++ log') (.ok ()) s'
  | unmade {log : List (Event host)} {e : Exception} {s' : σ}
      (made : Exec D (onSystem (scopedMakeCamera fl fuel options.config)) s log (.error e) s') :
      RunEnds D fl fuel options s log (.error e) s'
  | v4l2 {log log' : List (Event host)} {c : Constructed} {r : Except Exception Unit} {s₁ s' : σ}
      (made : Exec D (onSystem (scopedMakeCamera fl fuel options.config)) s log (.ok (.v4l2 c)) s₁)
      (inspected : Exec D ((v4l2Class c.camera fuel).inspect fl options c.camera.capabilities
        ⟨c.state, 0⟩) s₁ log' r s') :
      RunEnds D fl fuel options s (log ++ log') r s'
  | synthetic {log log' : List (Event host)} {camera : SyntheticCamera}
      {r : Except Exception Unit} {s₁ s' : σ}
      (made : Exec D (onSystem (scopedMakeCamera fl fuel options.config)) s log
        (.ok (.synthetic camera)) s₁)
      (inspected : Exec D ((syntheticClass fl).inspect fl options camera.capabilities camera) s₁
        log' r s') :
      RunEnds D fl fuel options s (log ++ log') r s'

theorem runOptions_cases {D : Device host σ} {options : Options} {r : Except Exception Unit}
    (h : Exec D (runOptions fl fuel options) s log r s') :
    RunEnds D fl fuel options s log r s' := by
  unfold runOptions at h
  split_ifs at h with hlist
  · obtain ⟨x, s₁, log₁, log₂, henumerate, hrest, rfl⟩ := exec_bind.mp h
    cases x with
    | error e =>
        obtain ⟨rfl, rfl, rfl⟩ := exec_pure.mp hrest
        rw [List.append_nil]
        exact .unlisted hlist henumerate
    | ok capabilities =>
        obtain ⟨_, s₂, log₃, log₄, hprint, hend, rfl⟩ := exec_bind.mp hrest
        obtain ⟨rfl, rfl, rfl⟩ := exec_pure.mp hend
        rw [List.append_nil]
        exact .listed hlist henumerate hprint
  · obtain ⟨x, s₁, log₁, log₂, hmake, hrest, rfl⟩ := exec_bind.mp h
    cases x with
    | error e =>
        obtain ⟨rfl, rfl, rfl⟩ := exec_pure.mp hrest
        rw [List.append_nil]
        exact .unmade hmake
    | ok camera =>
        cases camera with
        | v4l2 c => exact .v4l2 hmake hrest
        | synthetic camera => exact .synthetic hmake hrest

theorem exec_runOptions {options : Options} {r : Except Exception Unit}
    (h : Exec H.device (runOptions fl fuel options) s log r s') :
    printed .err log = [] ∧ OptionsPrinted fl options r (printed .out log) := by
  cases runOptions_cases h with
  | unlisted _ henumerate =>
      rw [exec_driver henumerate, exec_driver henumerate]
      exact ⟨rfl, optionsPrinted_threw options _⟩
  | listed hlist henumerate hprint =>
      have hnone : FrameLines options.captureCount.toNat (.ok ()) [] := by
        rw [hlist.2]
        exact frameLines_none
      simp only [printed_append, exec_driver henumerate, exec_print hprint, List.nil_append,
        if_true, reduceCtorEq, if_false]
      exact ⟨trivial, hnone.options _⟩
  | unmade hmake =>
      rw [exec_driver hmake, exec_driver hmake]
      exact ⟨rfl, optionsPrinted_threw options _⟩
  | v4l2 hmake hinspect =>
      obtain ⟨herr, lines, hout, hlines⟩ := exec_inspect hinspect
      rw [printed_append, printed_append, exec_driver hmake, exec_driver hmake, herr, hout]
      exact ⟨rfl, hlines.options _⟩
  | synthetic hmake hinspect =>
      obtain ⟨herr, lines, hout, hlines⟩ := exec_inspect hinspect
      rw [printed_append, printed_append, exec_driver hmake, exec_driver hmake, herr, hout]
      exact ⟨rfl, hlines.options _⟩

theorem exec_fail {e : ToolException} {status : ℕ}
    (h : Exec H.device (fail strerror e) s log status s') :
    status = 2 ∧ printed .err log = [e.report strerror] ∧ printed .out log = [] := by
  obtain ⟨_, s₁, log₁, log₂, hprint, hend, rfl⟩ := exec_bind.mp h
  obtain ⟨rfl, rfl, _⟩ := exec_pure.mp hend
  rw [printed_append, printed_append, exec_print hprint, exec_print hprint]
  exact ⟨rfl, rfl, rfl⟩

/-- `main` turns the outcome of the run into its status, and an exception into one report. -/
theorem exec_inspectMain {options : Options} {argv : List String} {status : ℕ}
    (hparse : parseOptions fl inRange argv = .ok options)
    (h : Exec H.device (inspectMain fl inRange strerror fuel argv) s log status s') :
    ∃ log₁ r s₁, Exec H.device (runOptions fl fuel options) s log₁ r s₁ ∧
      printed .out log = printed .out log₁ ∧
      (status = 0 ∧ r = .ok () ∧ printed .err log = [] ∨
        status = 2 ∧ ∃ e, r = .error e ∧
          printed .err log = [ToolException.report strerror (.library e)]) := by
  unfold inspectMain at h
  rw [hparse] at h
  obtain ⟨x, s₁, log₁, log₂, hrun, hrest, rfl⟩ := exec_bind.mp h
  refine ⟨log₁, x, s₁, hrun, ?_⟩
  rw [printed_append, printed_append, (exec_runOptions hrun).1]
  cases x with
  | error e =>
      obtain ⟨rfl, herr, hout⟩ := exec_fail hrest
      rw [hout, List.append_nil]
      exact ⟨rfl, Or.inr ⟨rfl, e, rfl, herr⟩⟩
  | ok u =>
      obtain ⟨rfl, rfl, _⟩ := exec_pure.mp hrest
      exact ⟨List.append_nil _, Or.inl ⟨rfl, rfl, rfl⟩⟩

end Main

/-- The tool ends with status 0 and an empty error stream, or with status 2 and one report there.
With status 0 it has printed the usage it was asked for, or the capabilities and one line for each
frame that was to be captured; with status 2 it stopped before the last of these lines. -/
theorem inspectMain_reports {σ : Type} {H : HostParts σ} {s s' : σ} {fl : Rounding}
    {inRange : ℚ → Bool} {strerror : Errno → String} {fuel : ℕ} {argv : List String}
    {log : List (Event host)} {status : ℕ}
    (h : Exec H.device (inspectMain fl inRange strerror fuel argv) s log status s') :
    (status = 0 ∧ printed .err log = [] ∨
      status = 2 ∧ ∃ e : ToolException, printed .err log = [e.report strerror]) ∧
    (∀ code, parseOptions fl inRange argv = .error (.exit code) →
      status = 0 ∧ printed .out log = [usage]) ∧
    (∀ e, parseOptions fl inRange argv = .error (.threw e) →
      status = 2 ∧ printed .out log = [] ∧ printed .err log = [e.report strerror]) ∧
    ∀ options, parseOptions fl inRange argv = .ok options →
      (status = 0 → ∃ capabilities lines,
        printed .out log = capabilitiesText fl capabilities :: lines ∧
        lines.length = options.captureCount.toNat ∧ ∀ text ∈ lines, FrameLine text) ∧
      (status = 2 → printed .out log = [] ∨ ∃ capabilities lines,
        printed .out log = capabilitiesText fl capabilities :: lines ∧
        lines.length < options.captureCount.toNat ∧ ∀ text ∈ lines, FrameLine text) := by
  cases hparse : parseOptions fl inRange argv with
  | error stop =>
      unfold inspectMain at h
      rw [hparse] at h
      cases stop with
      | exit code =>
          obtain ⟨_, s₁, log₁, log₂, hprint, hend, rfl⟩ := exec_bind.mp h
          obtain ⟨rfl, rfl, _⟩ := exec_pure.mp hend
          obtain rfl : status = 0 := parseArguments_exit hparse
          rw [printed_append, printed_append, exec_print hprint, exec_print hprint]
          refine ⟨Or.inl ⟨rfl, rfl⟩, fun _ _ => ⟨rfl, rfl⟩, ?_, ?_⟩
          · intro e he
            cases he
          · intro options ho
            cases ho
      | threw e =>
          obtain ⟨rfl, herr, hout⟩ := exec_fail h
          refine ⟨Or.inr ⟨rfl, e, herr⟩, ?_, ?_, ?_⟩
          · intro code hc
            cases hc
          · intro e' he
            cases he
            exact ⟨rfl, hout, herr⟩
          · intro options ho
            cases ho
  | ok options =>
      obtain ⟨log₁, r, s₁, hrun, hout, hstatus⟩ := exec_inspectMain hparse h
      obtain ⟨_, hprinted⟩ := exec_runOptions hrun
      rw [hout]
      refine ⟨?_, ?_, ?_, ?_⟩
      · rcases hstatus with ⟨hs, _, herr⟩ | ⟨hs, e, _, herr⟩
        · exact Or.inl ⟨hs, herr⟩
        · exact Or.inr ⟨hs, .library e, herr⟩
      · intro code hc
        cases hc
      · intro e he
        cases he
      · intro options' ho
        cases ho
        rcases hstatus with ⟨rfl, hr, _⟩ | ⟨rfl, e, hr, _⟩
        · exact ⟨fun _ => hprinted.finished hr, nofun⟩
        · exact ⟨nofun, fun _ => hprinted.threw e hr⟩

/-- Answers of a system with this device, on which every call succeeds, and with a clock that stands
still. -/
def hostAnswer (device : (r : Request) → r.Answer) : (r : host.Request) → host.Answer r
  | .inl (.inl (.call r)) => servingAnswer device r
  | .inl (.inl .allocate) => true
  | .inl (.inl (.release _)) => ()
  | .inl (.inr r) => stillAnswer 0 true r
  | .inr (.print _ _) => ()
  | .inr (.load _) => 0

def anyParts : HostParts Unit where
  system _ _ _ _ := True
  clock _ _ _ _ := True
  process _ _ _ _ := True

theorem exec_anyParts {α : Type} {p : Program host α} {a : α} {log : List (Event host)}
    {answer : (r : host.Request) → host.Answer r} (h : p.evaluate answer = some (log, a)) :
    Exec anyParts.device p () log a () := by
  apply exec_evaluate h
  rintro ⟨r, x⟩ _
  match r with
  | .inl (.inl (.call _)) => trivial
  | .inl (.inl .allocate) => rfl
  | .inl (.inl (.release _)) => rfl
  | .inl (.inr _) => trivial
  | .inr _ => trivial

theorem exists_exec_anyParts {α : Type} {p : Program host α} {a : α}
    {answer : (r : host.Request) → host.Answer r} (h : (p.evaluate answer).map Prod.snd = some a) :
    ∃ log, Exec anyParts.device p () log a () := by
  obtain ⟨⟨log, a⟩, hanswered, rfl⟩ := Option.map_eq_some_iff.mp h
  exact ⟨log, exec_anyParts hanswered⟩

/-- A command line that captures one frame. -/
def sampleArguments : List String := ["xgc2-camera-inspect", "--format", "grey", "--capture", "1"]

def sampleMain : Program host ℕ :=
  inspectMain .exact (fun _ => true) (fun _ => "") 2 sampleArguments

theorem inspectMain_reports_sample : ∃ log,
    Exec anyParts.device sampleMain () log 0 () ∧ printed .err log = [] := by
  have hanswered : (sampleMain.evaluate (hostAnswer bufferedAnswer)).map Prod.snd = some 0 := by
    decide +kernel
  obtain ⟨log, hrun⟩ := exists_exec_anyParts hanswered
  obtain ⟨hstatus, _⟩ := inspectMain_reports hrun
  rcases hstatus with ⟨_, herr⟩ | ⟨hs, _⟩
  · exact ⟨log, hrun, herr⟩
  · cases hs

end CameraCore
