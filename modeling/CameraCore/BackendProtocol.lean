import CameraCore.SyntheticRuns

/-!
# The state protocol of a camera

What the caller of `start`, `read` and `stop` can see of a camera, apart from its
frames, is a flag: whether it runs, and which calls it refuses with `InvalidState`. A
system of calls that follows the flag step by step follows it along every run. The
synthetic camera is nothing but that flag.
-/

namespace CameraCore

open DeviceProgram FloatingPoint LabelledSystem

inductive Call
  | start
  | read (timeoutMs : UInt32)
  | stop
deriving DecidableEq

/-- What a call shows: whether it threw `InvalidState`, and `running()` after it. -/
structure Observed where
  invalidState : Bool
  running : Bool
deriving DecidableEq

def Call.observe (running : Bool) : Call → Observed
  | .start => ⟨running, true⟩
  | .read _ => ⟨!running, running⟩
  | .stop => ⟨false, false⟩

def protocol : Bool → List Call → List Observed
  | _, [] => []
  | running, call :: calls =>
      call.observe running :: protocol (call.observe running).running calls

abbrev CallEvent := Call × Observed

def throwsInvalidState {α : Type} : Except Exception α → Bool
  | .ok _ => false
  | .error e => e.hasCode .invalidState

section Protocol

variable {σ : Type} {S : LabelledSystem σ CallEvent} {P : σ → Prop} {running : σ → Bool}

/-- The calls of the system show what the flag shows, as long as `P` holds. -/
def Follows (S : LabelledSystem σ CallEvent) (P : σ → Prop) (running : σ → Bool) : Prop :=
  ∀ s c o s', P s → S.step s (c, o) s' →
    o = c.observe (running s) ∧ running s' = o.running ∧ P s'

theorem Follows.run (h : Follows S P running) {s s' : σ} {events : List CallEvent} (hp : P s)
    (hr : S.Run s events s') :
    events.map Prod.snd = protocol (running s) (events.map Prod.fst) := by
  induction events generalizing s with
  | nil => rfl
  | cons event events ih =>
      obtain ⟨c, o⟩ := event
      obtain ⟨s₁, hs, hrest⟩ := hr
      obtain ⟨rfl, hrun, hp₁⟩ := h s c o s₁ hp hs
      have htail := ih hp₁ hrest
      rw [hrun] at htail
      rw [List.map_cons, List.map_cons, protocol, htail]

theorem run_exists (hc : ∀ s c, P s → ∃ o s', S.step s (c, o) s' ∧ P s') (calls : List Call)
    {s : σ} (hp : P s) : ∃ events s', S.Run s events s' ∧ events.map Prod.fst = calls := by
  induction calls generalizing s with
  | nil => exact ⟨[], s, rfl, rfl⟩
  | cons c calls ih =>
      obtain ⟨o, s₁, hs, hp₁⟩ := hc s c hp
      obtain ⟨events, s', hr, hcalls⟩ := ih hp₁
      exact ⟨(c, o) :: events, s', ⟨s₁, hs, hr⟩, by rw [List.map_cons, hcalls]⟩

end Protocol

def SyntheticLabel.event (running : Bool) : SyntheticLabel → CallEvent
  | .start _ r => (.start, ⟨throwsInvalidState r, running⟩)
  | .read timeoutMs _ r => (.read timeoutMs, ⟨throwsInvalidState r, running⟩)
  | .stop => (.stop, ⟨false, running⟩)

def syntheticCalls (fl : Rounding) (D : Device timed Int64) (camera : SyntheticCamera) :
    LabelledSystem SyntheticSystem CallEvent where
  init s := s.camera = camera
  step s e s' := ∃ l, SyntheticSystem.Step fl D s l s' ∧ e = l.event s'.camera.running

section Synthetic

variable {fl : Rounding} {recordsFail : Prop} {s s' : SyntheticSystem} {l : SyntheticLabel}

theorem SyntheticCamera.ReadEnds.protocol {camera camera' : SyntheticCamera}
    {r : Except Exception SyntheticFrame} {clock : Int64}
    (h : ReadEnds fl recordsFail camera r camera' clock) :
    throwsInvalidState r = !camera.running ∧ camera'.running = camera.running := by
  cases h with
  | notRunning hr => exact ⟨by rw [hr]; rfl, rfl⟩
  | failed hr he => exact ⟨by rw [hr]; exact he, rfl⟩
  | recordLost hr => exact ⟨by rw [hr]; rfl, rfl⟩
  | captured hr => exact ⟨by rw [hr]; rfl, rfl⟩

theorem synthetic_step {c : Call} {o : Observed}
    (h : SyntheticSystem.Step fl (steadyClock recordsFail) s l s')
    (he : (c, o) = l.event s'.camera.running) :
    o = c.observe s.camera.running ∧ s'.camera.running = o.running := by
  cases h with
  | start hx =>
      cases he
      rcases SyntheticCamera.exec_start hx with ⟨hr, rfl, rfl⟩ | ⟨hr, rfl, rfl, _⟩
      · rw [Call.observe, hr]
        exact ⟨rfl, rfl⟩
      · rw [Call.observe, hr]
        exact ⟨rfl, rfl⟩
  | read hx =>
      cases he
      obtain ⟨hthrows, hrun⟩ := (SyntheticCamera.exec_read hx).protocol
      rw [Call.observe, hthrows]
      exact ⟨by dsimp only; rw [hrun], rfl⟩
  | stop =>
      cases he
      exact ⟨rfl, rfl⟩

theorem synthetic_follows (camera : SyntheticCamera) :
    Follows (syntheticCalls fl (steadyClock recordsFail) camera) (fun _ => True)
      (fun s => s.camera.running) := by
  intro s c o s' _ h
  obtain ⟨l, hs, he⟩ := h
  obtain ⟨ho, hr⟩ := synthetic_step hs he
  exact ⟨ho, hr, trivial⟩

theorem exec_start_exists (camera : SyntheticCamera) (clock : Int64) :
    ∃ log r camera', Exec (steadyClock recordsFail) camera.start clock log (r, camera') clock ∧
      (camera.nextFrame ≤ clock.toInt → camera'.nextFrame ≤ clock.toInt) := by
  unfold SyntheticCamera.start
  split_ifs with hr
  · exact ⟨_, _, _, exec_pure.mpr ⟨rfl, rfl, rfl⟩, id⟩
  · refine ⟨_, _, _, exec_request_bind.mpr
      ⟨clock, clock, [], ⟨Int64.le_refl clock, rfl⟩, ⟨rfl, rfl, rfl⟩, rfl⟩, fun _ => le_rfl⟩

theorem exec_read_exists (camera : SyntheticCamera) (clock : Int64) (timeoutMs : UInt32)
    (due : camera.nextFrame ≤ clock.toInt) :
    ∃ log r, Exec (steadyClock recordsFail) (camera.read fl timeoutMs) clock log (r, camera)
      clock := by
  have hle : clock ≤ clock := Int64.le_refl clock
  have hawait := SyntheticCamera.awaitNextFrame_due recordsFail due timeoutMs
  have hstorage : Exec (steadyClock recordsFail)
      (SyntheticCamera.buildStorage camera.config camera.sequence).run clock
      [⟨.allocateStorage, false⟩] (.error .badAlloc) clock := by
    refine exec_bind_error.mpr (Or.inl ?_)
    exact exec_lift_bind.mpr ⟨false, clock, [_], [], exec_request.mpr ⟨hle, rfl⟩,
      exec_throw.mpr ⟨rfl, rfl, rfl⟩, rfl⟩
  unfold SyntheticCamera.read
  split_ifs with hr
  · exact ⟨_, _, exec_pure.mpr ⟨rfl, rfl, rfl⟩⟩
  · have hcapture : Exec (steadyClock recordsFail) (camera.capture fl) clock
        [⟨.allocateStorage, false⟩] (.error .badAlloc, camera) clock :=
      exec_bind.mpr ⟨.error .badAlloc, clock, _, [], hstorage, ⟨rfl, rfl, rfl⟩, rfl⟩
    exact ⟨_, _, exec_bind.mpr ⟨.ok (), clock, _, _, hawait, hcapture, rfl⟩⟩

theorem synthetic_returns (camera : SyntheticCamera) (s : SyntheticSystem) (c : Call)
    (due : s.camera.nextFrame ≤ s.clock.toInt) :
    ∃ o s', (syntheticCalls fl (steadyClock recordsFail) camera).step s (c, o) s' ∧
      s'.camera.nextFrame ≤ s'.clock.toInt := by
  cases c with
  | start =>
      obtain ⟨log, r, camera', hx, hdue⟩ := exec_start_exists s.camera s.clock
      exact ⟨_, _, ⟨_, .start hx, rfl⟩, hdue due⟩
  | read timeoutMs =>
      obtain ⟨log, r, hx⟩ := exec_read_exists s.camera s.clock timeoutMs due
      exact ⟨_, _, ⟨_, .read hx, rfl⟩, due⟩
  | stop => exact ⟨_, _, ⟨_, .stop, rfl⟩, due⟩

end Synthetic

end CameraCore
