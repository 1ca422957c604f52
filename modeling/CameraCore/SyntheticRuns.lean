import CameraCore.LabelledSystem
import CameraCore.SyntheticCalls
import CameraCore.TimestampConversion

/-!
# Runs of the synthetic camera

The calls made on a synthetic camera, in any order, while the clock moves on. The invariant
follows the numbers used since the latest start: the sequence counts them, each frame was built
from its number, and the clock has advanced by a period for each of them, which keeps the
number inside its type. A number is used without a frame when the record of the frame cannot be
allocated.
-/

namespace CameraCore

open DeviceProgram FloatingPoint LabelledSystem

structure SyntheticSystem where
  camera : SyntheticCamera
  clock : Int64

inductive SyntheticLabel
  | start (log : TimedLog) (result : Except Exception Unit)
  | read (timeoutMs : UInt32) (log : TimedLog) (result : Except Exception SyntheticFrame)
  | stop

inductive SyntheticSystem.Step (fl : Rounding) (D : Device timed Int64) :
    SyntheticSystem → SyntheticLabel → SyntheticSystem → Prop
  | start {s log r camera clock} (h : Exec D s.camera.start s.clock log (r, camera) clock) :
      Step fl D s (.start log r) ⟨camera, clock⟩
  | read {s timeoutMs log r camera clock}
      (h : Exec D (s.camera.read fl timeoutMs) s.clock log (r, camera) clock) :
      Step fl D s (.read timeoutMs log r) ⟨camera, clock⟩
  | stop {s} : Step fl D s .stop ⟨s.camera.stop, s.clock⟩

/-- The calls made on a camera just constructed, whatever the clock reads. -/
def syntheticSystem (fl : Rounding) (D : Device timed Int64) (camera : SyntheticCamera) :
    LabelledSystem SyntheticSystem SyntheticLabel where
  init s := s.camera = camera
  step := SyntheticSystem.Step fl D

def recordFrame (frames : List SyntheticFrame) : SyntheticLabel → List SyntheticFrame
  | .start _ (.ok _) => []
  | .read _ _ (.ok frame) => frames ++ [frame]
  | _ => frames

/-- The frames read since the latest start that succeeded. -/
def framesSinceStart (ls : List SyntheticLabel) : List SyntheticFrame := ls.foldl recordFrame []

theorem framesSinceStart_snoc (ls : List SyntheticLabel) (l : SyntheticLabel) :
    framesSinceStart (ls ++ [l]) = recordFrame (framesSinceStart ls) l :=
  List.foldl_concat recordFrame [] l ls

def recordNumber (numbers : List (Option SyntheticFrame)) :
    SyntheticLabel → List (Option SyntheticFrame)
  | .start _ (.ok _) => []
  | .read _ _ (.ok frame) => numbers ++ [some frame]
  | .read _ log (.error _) => if log.any refusedRecord then numbers ++ [none] else numbers
  | _ => numbers

/-- What became of the numbers since the latest start: each went to a frame, or was lost with the
record of one. -/
def numbersSinceStart (ls : List SyntheticLabel) : List (Option SyntheticFrame) :=
  ls.foldl recordNumber []

theorem numbersSinceStart_snoc (ls : List SyntheticLabel) (l : SyntheticLabel) :
    numbersSinceStart (ls ++ [l]) = recordNumber (numbersSinceStart ls) l :=
  List.foldl_concat recordNumber [] l ls

theorem recordNumber_thrown (numbers : List (Option SyntheticFrame)) (timeoutMs : UInt32)
    (log : TimedLog) (e : Exception) :
    recordNumber numbers (.read timeoutMs log (.error e)) =
      if log.any refusedRecord then numbers ++ [none] else numbers := rfl

/-- A read that throws uses up no number, or loses the record of one. -/
theorem SyntheticSystem.Step.thrown {fl : Rounding} {recordsFail : Prop} {s s' : SyntheticSystem}
    {timeoutMs : UInt32} {log : TimedLog} {e : Exception}
    (h : SyntheticSystem.Step fl (steadyClock recordsFail) s (.read timeoutMs log (.error e)) s')
    (numbers : List (Option SyntheticFrame)) :
    (recordNumber numbers (.read timeoutMs log (.error e)) = numbers ∧ s'.camera = s.camera) ∨
      (recordNumber numbers (.read timeoutMs log (.error e)) = numbers ++ [none] ∧ recordsFail ∧
        e = .badAlloc ∧ ∃ now : Int64, s.camera.nextFrame ≤ now.toInt ∧
          s'.camera = s.camera.advance fl now) := by
  rw [recordNumber_thrown]
  cases h with
  | read hx =>
      rcases SyntheticCamera.exec_read_error hx with ⟨hkept, rfl⟩ | ⟨hlost, hfail, he, hmoved⟩
      · rw [hkept, if_neg Bool.false_ne_true]
        exact Or.inl ⟨rfl, rfl⟩
      · rw [hlost, if_pos rfl]
        exact Or.inr ⟨rfl, hfail, he, hmoved⟩

theorem recordFrame_numbers (numbers : List (Option SyntheticFrame)) (l : SyntheticLabel) :
    recordFrame (numbers.filterMap id) l = (recordNumber numbers l).filterMap id := by
  match l with
  | .start _ (.ok _) => rfl
  | .start _ (.error _) => rfl
  | .read _ _ (.ok frame) =>
      have happend : (numbers ++ [some frame]).filterMap id = numbers.filterMap id ++ [frame] :=
        List.filterMap_append
      exact happend.symm
  | .read _ log (.error _) =>
      rw [recordNumber_thrown]
      split_ifs
      · rw [List.filterMap_append]
        exact (List.append_nil _).symm
      · rfl
  | .stop => rfl

theorem framesSinceStart_numbers (ls : List SyntheticLabel) :
    framesSinceStart ls = (numbersSinceStart ls).filterMap id := by
  induction ls using List.reverseRecOn with
  | nil => rfl
  | append_singleton ls l ih =>
      rw [framesSinceStart_snoc, numbersSinceStart_snoc, ih, recordFrame_numbers]

theorem getElem?_concat_cases {α : Type} {l : List α} {last a : α} {k : ℕ}
    (h : (l ++ [last])[k]? = some a) : l[k]? = some a ∨ (k = l.length ∧ a = last) := by
  rcases Nat.lt_trichotomy k l.length with hlt | rfl | hgt
  · rw [List.getElem?_append_left hlt] at h
    exact Or.inl h
  · rw [List.getElem?_concat_length] at h
    exact Or.inr ⟨rfl, (Option.some.inj h).symm⟩
  · rw [List.getElem?_eq_none (by simp; omega)] at h
    cases h

def NumberedFrame (fl : Rounding) (config : CaptureConfig) (k : ℕ) (f : SyntheticFrame) : Prop :=
  ∃ sizes, planeSizes config = .ok sizes ∧
    f = syntheticFrame fl config (generate config sizes (.ofNat k)) (.ofNat k)

/-- The numbers used so far are the first ones, the frames among them those of the configuration,
and the clock has advanced by a period for each number. -/
structure Paced (fl : Rounding) (config : CaptureConfig) (numbers : List (Option SyntheticFrame))
    (s : SyntheticSystem) : Prop where
  configured : s.camera.config = config
  counted : s.camera.sequence = .ofNat numbers.length
  elapsed : -2 ^ 63 + (numbers.length * (periodNs fl config).toNat : ℤ) ≤ s.camera.nextFrame
  numbered : ∀ k f, numbers[k]? = some (some f) →
    k * (periodNs fl config).toNat < 2 ^ 64 ∧ NumberedFrame fl config k f

namespace Paced

variable {fl : Rounding} {config : CaptureConfig} {numbers : List (Option SyntheticFrame)}
  {recordsFail : Prop} {s s' : SyntheticSystem} {l : SyntheticLabel}

theorem init {camera : SyntheticCamera} (hc : camera.config = config)
    (hs : camera.sequence = 0) (hn : camera.nextFrame = 0) (clock : Int64) :
    Paced fl config [] ⟨camera, clock⟩ where
  configured := hc
  counted := hs
  elapsed := by
    rw [hn]
    simp
  numbered := by simp

/-- A number was used when it was due, so the clock had room for its period. -/
theorem moves (h : Paced fl config numbers s) (ha : Accepted fl config) {now clock : Int64}
    (due : s.camera.nextFrame ≤ now.toInt) {x : Option SyntheticFrame}
    (hx : ∀ f, x = some f → NumberedFrame fl config numbers.length f) :
    Paced fl config (numbers ++ [x]) ⟨s.camera.advance fl now, clock⟩ := by
  have hnext := h.elapsed
  have hnow := Int64.toInt_lt now
  have hroom : numbers.length * (periodNs fl config).toNat < 2 ^ 64 := by
    have hcast : (numbers.length * (periodNs fl config).toNat : ℤ) < 2 ^ 64 := by omega
    exact_mod_cast hcast
  refine ⟨h.configured, ?_, ?_, ?_⟩
  · change s.camera.sequence + 1 = _
    rw [h.counted, List.length_append, List.length_singleton, UInt64.ofNat_add]
    rfl
  · change _ ≤ now.toInt + (periodNs fl s.camera.config).toInt64.toInt
    rw [h.configured, ha.periodNs_toInt, List.length_append, List.length_singleton]
    push_cast
    linarith
  · intro k f hk
    rcases getElem?_concat_cases hk with hk | ⟨rfl, he⟩
    · exact h.numbered k f hk
    · exact ⟨hroom, hx f he.symm⟩

theorem captured (h : Paced fl config numbers s) (ha : Accepted fl config) {sizes : List UInt64}
    (hs : planeSizes s.camera.config = .ok sizes) {now clock : Int64}
    (due : s.camera.nextFrame ≤ now.toInt) :
    Paced fl config
      (numbers ++ [some (syntheticFrame fl s.camera.config
        (generate s.camera.config sizes s.camera.sequence) s.camera.sequence)])
      ⟨s.camera.advance fl now, clock⟩ := by
  apply h.moves ha due
  rintro f hf
  obtain rfl := Option.some.inj hf
  rw [h.configured] at hs
  rw [h.configured, h.counted]
  exact ⟨sizes, hs, rfl⟩

theorem step (h : Paced fl config numbers s) (ha : Accepted fl config)
    (hs : SyntheticSystem.Step fl (steadyClock recordsFail) s l s') :
    Paced fl config (recordNumber numbers l) s' := by
  cases hs with
  | @start log r camera clock hx =>
      rcases SyntheticCamera.exec_start hx with ⟨_, rfl, rfl⟩ | ⟨_, rfl, rfl, _⟩
      · exact ⟨h.configured, h.counted, h.elapsed, h.numbered⟩
      · have hge := Int64.le_toInt clock
        refine ⟨h.configured, rfl, ?_, by simp [recordNumber]⟩
        change -2 ^ 63 + ((0 : ℕ) * _ : ℤ) ≤ clock.toInt
        omega
  | @read timeoutMs log r camera clock hx =>
      cases r with
      | ok frame =>
          cases SyntheticCamera.exec_read hx with
          | captured hr hsizes due after => exact h.captured ha hsizes due
      | error e =>
          rcases (SyntheticSystem.Step.read hx).thrown numbers with
            ⟨hkept, rfl⟩ | ⟨hlost, _, _, now, due, rfl⟩
          · rw [hkept]
            exact ⟨h.configured, h.counted, h.elapsed, h.numbered⟩
          · rw [hlost]
            exact h.moves ha due nofun
  | stop => exact ⟨h.configured, h.counted, h.elapsed, h.numbered⟩

end Paced

namespace NumberedFrame

variable {fl : Rounding} {config : CaptureConfig} {k : ℕ} {f f' : SyntheticFrame}

theorem sequence (h : NumberedFrame fl config k f) (hk : k < 2 ^ 64) : f.sequence.toNat = k := by
  obtain ⟨sizes, _, rfl⟩ := h
  exact UInt64.toNat_ofNat_of_lt' hk

theorem timestamp (h : NumberedFrame fl config k f) (hk : k < 2 ^ 64)
    (hp : k * (periodNs fl config).toNat < 2 ^ 63) :
    ∃ ns : UInt64, f.timestamp = syntheticTimestamp ns ∧
      ns.toNat = k * (periodNs fl config).toNat := by
  obtain ⟨sizes, _, rfl⟩ := h
  refine ⟨_, rfl, ?_⟩
  rw [UInt64.toNat_mul, UInt64.toNat_ofNat_of_lt' hk, Nat.mod_eq_of_lt (by omega)]

theorem planes (h : NumberedFrame fl config k f) (h' : NumberedFrame fl config k f') :
    f.planes = f'.planes := by
  obtain ⟨sizes, hs, rfl⟩ := h
  obtain ⟨sizes', hs', rfl⟩ := h'
  obtain rfl : sizes = sizes' := Except.ok.inj (hs.symm.trans hs')
  rfl

end NumberedFrame

section Runs

variable {fl : Rounding} {config : CaptureConfig} {camera : SyntheticCamera} {recordsFail : Prop}
  {ls : List SyntheticLabel} {s s' : SyntheticSystem} {k : ℕ} {f : SyntheticFrame}

theorem paced_trace (ha : Accepted fl config) (hm : SyntheticCamera.make config = .ok camera)
    (h : (syntheticSystem fl (steadyClock recordsFail) camera).Trace ls s) :
    Paced fl camera.config (numbersSinceStart ls) s := by
  apply h.induction (P := fun ls s => Paced fl camera.config (numbersSinceStart ls) s)
  · rintro ⟨camera', clock⟩ hinit
    obtain rfl : camera' = camera := hinit
    obtain ⟨_, _, hs, hn⟩ := SyntheticCamera.make_ok hm
    exact .init rfl hs hn clock
  · intro ls s l s' _ hp hs
    rw [numbersSinceStart_snoc]
    exact hp.step (SyntheticCamera.accepted ha hm) hs

/-- Where every record can be allocated, a read that throws leaves the camera alone. -/
theorem read_error_unchanged {timeoutMs : UInt32} {log : TimedLog} {e : Exception}
    (h : SyntheticSystem.Step fl (steadyClock False) s (.read timeoutMs log (.error e)) s') :
    s'.camera = s.camera := by
  rcases h.thrown [] with ⟨_, hkept⟩ | ⟨_, hfalse, _⟩
  · exact hkept
  · exact hfalse.elim

theorem recordNumber_kept {frames : List SyntheticFrame} {l : SyntheticLabel}
    (h : SyntheticSystem.Step fl (steadyClock False) s l s') :
    recordNumber (frames.map some) l = (recordFrame frames l).map some := by
  cases h with
  | @start log r camera clock hx => cases r <;> rfl
  | @read timeoutMs log r camera clock hx =>
      cases r with
      | ok frame =>
          have happend : (frames ++ [frame]).map some = frames.map some ++ [some frame] :=
            List.map_append
          exact happend.symm
      | error e =>
          rcases (SyntheticSystem.Step.read hx).thrown (frames.map some) with
            ⟨hkept, _⟩ | ⟨_, hfalse, _⟩
          · exact hkept
          · exact hfalse.elim
  | stop => rfl

theorem numbersSinceStart_kept (h : (syntheticSystem fl (steadyClock False) camera).Trace ls s) :
    numbersSinceStart ls = (framesSinceStart ls).map some := by
  apply h.induction (P := fun ls _ => numbersSinceStart ls = (framesSinceStart ls).map some)
  · intro s _
    rfl
  · intro ls s l s' _ ih hs
    rw [numbersSinceStart_snoc, framesSinceStart_snoc, ih, recordNumber_kept hs]

theorem number_of_frame (h : (syntheticSystem fl (steadyClock False) camera).Trace ls s)
    (hk : (framesSinceStart ls)[k]? = some f) : (numbersSinceStart ls)[k]? = some (some f) := by
  rw [numbersSinceStart_kept h, List.getElem?_map, hk]
  rfl

/-- The numbers stay inside the type of the sequence. -/
theorem Paced.number_lt {numbers : List (Option SyntheticFrame)} (h : Paced fl config numbers s)
    (ha : Accepted fl config) (hk : numbers[k]? = some (some f)) : k < 2 ^ 64 := by
  obtain ⟨hlt, _⟩ := h.numbered k f hk
  obtain ⟨hge, _⟩ := ha.periodNs_toNat
  have hmul : k * 1 ≤ k * (periodNs fl config).toNat := Nat.mul_le_mul_left k (by omega)
  omega

theorem Paced.timestampNs {numbers : List (Option SyntheticFrame)}
    (h : Paced fl config numbers s) (ha : Accepted fl config)
    (hk : numbers[k]? = some (some f)) (hp : k * (periodNs fl config).toNat < 2 ^ 63) :
    f.timestamp.nanoseconds.toNat < 10 ^ 9 ∧
      f.timestamp.seconds.toInt * 10 ^ 9 + f.timestamp.nanoseconds.toNat =
        (k * (periodNs fl config).toNat : ℕ) ∧
      f.timestampNs = some ((k * (periodNs fl config).toNat : ℕ) : ℤ) := by
  obtain ⟨ns, hts, hns⟩ := (h.numbered k f hk).2.timestamp (h.number_lt ha hk) hp
  obtain ⟨hnanos, hsecs⟩ := syntheticTimestamp_parts ns
  rw [FrameImpl.timestampNs, hts, hnanos, hsecs, ← hns]
  refine ⟨by omega, by omega, ?_⟩
  exact syntheticTimestamp_toNanoseconds (by omega)

end Runs

section Sample

def syntheticSampleConfig : CaptureConfig :=
  { backend := .synthetic, width := 2, height := 1, pixelFormat := .grey }

def syntheticSample : SyntheticCamera where
  config := { syntheticSampleConfig with captureMode := .singlePlane }
  capabilities := makeCapabilities
  modeResolved := by decide
  multiPlaneNv12 := by decide

theorem syntheticSample_made {d : Unit} :
    Exec (fixed sampleAnswer) (makeCamera .exact 0 syntheticSampleConfig).run d []
      (.ok (.synthetic syntheticSample)) d := by
  have ha : Accepted .exact syntheticSampleConfig :=
    accepted_of_rate rfl (by decide) (by decide) (by decide) (by decide)
  exact makeCamera_synthetic.mpr ⟨ha, rfl, rfl, rfl, rfl⟩

/-- A clock that stands still at `time`, and memory but for records if they are not `kept`. -/
def stillAnswer (time : Int64) (kept : Bool) : (r : TimedRequest) → r.Answer
  | .now => time
  | .sleepUntil _ => ()
  | .allocateStorage => true
  | .allocateRecord => kept

def syntheticSampleDue (number : UInt64) (nextFrame : ℤ) : SyntheticCamera :=
  { syntheticSample with sequence := number, nextFrame := nextFrame, running := true }

theorem syntheticSample_period : periodNs .exact syntheticSample.config = 33333333 := by
  decide +kernel

theorem syntheticSampleDue_advance (number : UInt64) (nextFrame : ℤ) (now : Int64) :
    (syntheticSampleDue number nextFrame).advance .exact now =
      syntheticSampleDue (number + 1) (now.toInt + 33333333) := by
  have hperiod : periodNs .exact (syntheticSampleDue number nextFrame).config = 33333333 :=
    syntheticSample_period
  unfold SyntheticCamera.advance
  rw [hperiod]
  rfl

def syntheticSampleFrame (number : UInt64) : SyntheticFrame :=
  syntheticFrame .exact syntheticSample.config (generate syntheticSample.config [2] number) number

def syntheticSampleLog (time : Int64) (kept : Bool) : TimedLog :=
  [⟨.now, time⟩, ⟨.allocateStorage, true⟩, ⟨.allocateStorage, true⟩,
    ⟨.allocateStorage, true⟩, ⟨.allocateStorage, true⟩, ⟨.now, time⟩,
    ⟨.allocateRecord, kept⟩]

def syntheticSampleStart (origin : Int64) : SyntheticLabel := .start [⟨.now, origin⟩] (.ok ())

def syntheticSampleRead (time : Int64) (number : UInt64) : SyntheticLabel :=
  .read 0 (syntheticSampleLog time true) (.ok (syntheticSampleFrame number))

def syntheticSampleEarly (time : Int64) : SyntheticLabel :=
  .read 0 [⟨.now, time⟩, ⟨.sleepUntil time.toInt, ()⟩]
    (.error (.camera .timeout "timed out waiting for a synthetic capture frame"))

variable {recordsFail : Prop}

theorem exec_still {α : Type} {p : Timed α} {clock time : Int64} {log : TimedLog} {a : α}
    (kept : Bool) (hclock : clock ≤ time) (hkept : kept = false → recordsFail)
    (h : p.evaluate (stillAnswer time kept) = some (⟨.now, time⟩ :: log, a))
    (hsleep : ∀ target, (⟨.sleepUntil target, ()⟩ : Event timed) ∈ log → target ≤ time.toInt) :
    Exec (steadyClock recordsFail) p clock (⟨.now, time⟩ :: log) a time := by
  apply exec_evaluate_moved h ⟨hclock, rfl⟩
  rintro ⟨r, x⟩ he
  cases r with
  | now => exact ⟨Int64.le_refl _, rfl⟩
  | sleepUntil target => exact ⟨Int64.le_refl _, hsleep target he⟩
  | allocateStorage => exact Int64.le_refl _
  | allocateRecord => exact ⟨Int64.le_refl _, hkept⟩

def syntheticSampleBefore : List SyntheticLabel :=
  [syntheticSampleStart 0, syntheticSampleRead 0 0, .stop]

def syntheticSampleStopped : SyntheticSystem := ⟨(syntheticSampleDue 1 33333333).stop, 0⟩

theorem syntheticSample_before :
    (syntheticSystem .exact (steadyClock recordsFail) syntheticSample).Trace syntheticSampleBefore
      syntheticSampleStopped := by
  have hstart : Exec (steadyClock recordsFail) syntheticSample.start 0 [⟨.now, (0 : Int64)⟩]
      (.ok (), syntheticSampleDue 0 0) 0 :=
    exec_still true (by decide) nofun rfl (by simp)
  have hread : Exec (steadyClock recordsFail) ((syntheticSampleDue 0 0).read .exact 0) 0
      (syntheticSampleLog 0 true)
      (.ok (syntheticSampleFrame 0), (syntheticSampleDue 0 0).advance .exact 0) 0 :=
    exec_still true (by decide) nofun rfl (by simp)
  rw [syntheticSampleDue_advance] at hread
  exact ⟨⟨syntheticSample, 0⟩, rfl, _, .start hstart, _, .read hread, _, .stop, rfl⟩

theorem syntheticSample_restart :
    SyntheticSystem.Step .exact (steadyClock recordsFail) syntheticSampleStopped
      (syntheticSampleStart 10) ⟨syntheticSampleDue 0 10, 10⟩ := by
  have hstart : Exec (steadyClock recordsFail) syntheticSampleStopped.camera.start 0
      [⟨.now, (10 : Int64)⟩] (.ok (), syntheticSampleDue 0 10) 10 :=
    exec_still true (by decide) nofun rfl (by simp)
  exact .start hstart

/-- After the restart a frame, an early read, and the next frame. -/
def syntheticSampleReads : List SyntheticLabel :=
  [syntheticSampleRead 10 0, syntheticSampleEarly 10, syntheticSampleRead 40000000 1]

def syntheticSampleLast : SyntheticSystem := ⟨syntheticSampleDue 2 73333333, 40000000⟩

theorem syntheticSample_first :
    SyntheticSystem.Step .exact (steadyClock recordsFail) ⟨syntheticSampleDue 0 10, 10⟩
      (syntheticSampleRead 10 0) ⟨syntheticSampleDue 1 33333343, 10⟩ := by
  have hread : Exec (steadyClock recordsFail) ((syntheticSampleDue 0 10).read .exact 0) 10
      (syntheticSampleLog 10 true)
      (.ok (syntheticSampleFrame 0), (syntheticSampleDue 0 10).advance .exact 10) 10 :=
    exec_still true (by decide) nofun rfl (by simp)
  rw [syntheticSampleDue_advance] at hread
  exact .read hread

theorem syntheticSample_reads :
    (syntheticSystem .exact (steadyClock recordsFail) syntheticSample).Run
      ⟨syntheticSampleDue 0 10, 10⟩ syntheticSampleReads syntheticSampleLast := by
  have hearly : Exec (steadyClock recordsFail) ((syntheticSampleDue 1 33333343).read .exact 0) 10
      [⟨.now, (10 : Int64)⟩, ⟨.sleepUntil (10 : Int64).toInt, ()⟩]
      (.error (.camera .timeout "timed out waiting for a synthetic capture frame"),
        syntheticSampleDue 1 33333343) 10 :=
    exec_still true (by decide) nofun rfl (by simp)
  have hsecond : Exec (steadyClock recordsFail) ((syntheticSampleDue 1 33333343).read .exact 0) 10
      (syntheticSampleLog 40000000 true)
      (.ok (syntheticSampleFrame 1), (syntheticSampleDue 1 33333343).advance .exact 40000000)
      40000000 :=
    exec_still true (by decide) nofun rfl (by simp)
  rw [syntheticSampleDue_advance] at hsecond
  exact ⟨_, syntheticSample_first, _, .read hearly, _, .read hsecond, rfl⟩

def syntheticSampleLabels : List SyntheticLabel :=
  syntheticSampleBefore ++ syntheticSampleStart 10 :: syntheticSampleReads

theorem syntheticSample_trace :
    (syntheticSystem .exact (steadyClock recordsFail) syntheticSample).Trace syntheticSampleLabels
      syntheticSampleLast :=
  syntheticSample_before.append ⟨_, syntheticSample_restart, syntheticSample_reads⟩

end Sample

/-- In every run of a synthetic camera the frame read at position `k` since the latest start
carries the number `k` and the time of `k` periods, with a payload fixed by the
configuration and `k`; a read that throws leaves no trace. -/
theorem synthetic_deterministic {fl : Rounding} {fuel : ℕ} {config : CaptureConfig} {σ : Type}
    {D : Device linux σ} {d d' : σ} {log : Log} {camera : SyntheticCamera}
    (h : Exec D (makeCamera fl fuel config).run d log (.ok (.synthetic camera)) d') :
    let period := (periodNs fl camera.config).toNat
    1 ≤ period ∧
    (∀ ls s, (syntheticSystem fl (steadyClock False) camera).Trace ls s →
      (∀ (k : ℕ) (f : SyntheticFrame), (framesSinceStart ls)[k]? = some f →
        f.sequence.toNat = k ∧
        (k * period < 2 ^ 63 →
          f.timestamp.nanoseconds.toNat < 10 ^ 9 ∧
          f.timestamp.seconds.toInt * 10 ^ 9 + f.timestamp.nanoseconds.toNat =
            ((k * period : ℕ) : ℤ) ∧
          f.timestampNs = some ((k * period : ℕ) : ℤ))) ∧
      (∀ (j k : ℕ) (f g : SyntheticFrame), j < k → k * period < 2 ^ 63 →
        (framesSinceStart ls)[j]? = some f → (framesSinceStart ls)[k]? = some g →
        ∃ x y, f.timestampNs = some x ∧ g.timestampNs = some y ∧ x < y) ∧
      (∀ timeoutMs log e s', SyntheticSystem.Step fl (steadyClock False) s
        (.read timeoutMs log (.error e)) s' → s'.camera = s.camera)) ∧
    (∀ d log camera' d',
      Exec D (makeCamera fl fuel config).run d log (.ok (.synthetic camera')) d' →
      ∀ ls s ls' s', (syntheticSystem fl (steadyClock False) camera).Trace ls s →
        (syntheticSystem fl (steadyClock False) camera').Trace ls' s' →
        ∀ (k : ℕ) (f f' : SyntheticFrame), (framesSinceStart ls)[k]? = some f →
          (framesSinceStart ls')[k]? = some f' → f.planes = f'.planes) := by
  obtain ⟨hconfig, _, hm, _⟩ := makeCamera_synthetic.mp h
  have ha := SyntheticCamera.accepted hconfig hm
  obtain ⟨hpos, _⟩ := ha.periodNs_toNat
  dsimp only
  refine ⟨by omega, ?_, ?_⟩
  · intro ls s htr
    have hp := paced_trace hconfig hm htr
    refine ⟨?_, ?_, fun timeoutMs log e s' hs => read_error_unchanged hs⟩
    · intro k f hk
      have hk := number_of_frame htr hk
      exact ⟨(hp.numbered k f hk).2.sequence (hp.number_lt ha hk), hp.timestampNs ha hk⟩
    · intro j k f g hjk hk hf hg
      have hlt : j * (periodNs fl camera.config).toNat < k * (periodNs fl camera.config).toNat :=
        Nat.mul_lt_mul_of_pos_right hjk (by omega)
      obtain ⟨_, _, hfns⟩ := hp.timestampNs ha (number_of_frame htr hf) (hlt.trans hk)
      obtain ⟨_, _, hgns⟩ := hp.timestampNs ha (number_of_frame htr hg) hk
      exact ⟨_, _, hfns, hgns, by exact_mod_cast hlt⟩
  · intro d₁ log₁ camera' d₁' h' ls s ls' s' htr htr' k f f' hf hf'
    obtain ⟨_, _, hm', _⟩ := makeCamera_synthetic.mp h'
    obtain rfl : camera = camera' := Except.ok.inj (hm.symm.trans hm')
    have hp := paced_trace hconfig hm htr
    have hp' := paced_trace hconfig hm htr'
    exact (hp.numbered k f (number_of_frame htr hf)).2.planes
      (hp'.numbered k f' (number_of_frame htr' hf')).2

theorem synthetic_deterministic_sample :
    (syntheticSystem .exact (steadyClock False) syntheticSample).Trace syntheticSampleLabels
      syntheticSampleLast ∧
    framesSinceStart syntheticSampleLabels = [syntheticSampleFrame 0, syntheticSampleFrame 1] ∧
    (syntheticSampleFrame 1).sequence.toNat = 1 ∧
    (syntheticSampleFrame 1).timestampNs = some 33333333 ∧
    (∃ x y, (syntheticSampleFrame 0).timestampNs = some x ∧
      (syntheticSampleFrame 1).timestampNs = some y ∧ x < y) ∧
    ∀ f, (framesSinceStart syntheticSampleBefore)[0]? = some f →
      f.planes = (syntheticSampleFrame 0).planes := by
  have htrace : (syntheticSystem .exact (steadyClock False) syntheticSample).Trace
      syntheticSampleLabels syntheticSampleLast := syntheticSample_trace
  have hfirst : (framesSinceStart syntheticSampleLabels)[0]? = some (syntheticSampleFrame 0) := rfl
  have hsecond : (framesSinceStart syntheticSampleLabels)[1]? = some (syntheticSampleFrame 1) := rfl
  have hperiod : (periodNs .exact syntheticSample.config).toNat = 33333333 := by
    rw [syntheticSample_period]
    rfl
  have hmade := syntheticSample_made (d := ())
  obtain ⟨_, hrun, htwo⟩ := synthetic_deterministic hmade
  rw [hperiod] at hrun
  obtain ⟨hframe, horder, _⟩ := hrun _ _ htrace
  obtain ⟨hseq, htime⟩ := hframe 1 _ hsecond
  obtain ⟨_, _, hns⟩ := htime (by norm_num)
  refine ⟨htrace, rfl, hseq, hns, ?_, ?_⟩
  · exact horder 0 1 _ _ Nat.zero_lt_one (by norm_num) hfirst hsecond
  · intro f hf
    exact htwo _ _ _ _ hmade _ _ _ _ syntheticSample_before htrace 0 f _ hf hfirst

/-- Also where the record of a frame may not be allocated: the numbers since the latest start are
used up in turn, each by a frame or by a record that was lost, and a frame is the one its number
gives, whatever was lost before it. -/
theorem lost_records_skip_numbers {fl : Rounding} {fuel : ℕ} {config : CaptureConfig} {σ : Type}
    {D : Device linux σ} {d d' : σ} {log : Log} {camera : SyntheticCamera}
    (h : Exec D (makeCamera fl fuel config).run d log (.ok (.synthetic camera)) d')
    {recordsFail : Prop} {ls : List SyntheticLabel} {s : SyntheticSystem}
    (htr : (syntheticSystem fl (steadyClock recordsFail) camera).Trace ls s) :
    let period := (periodNs fl camera.config).toNat
    framesSinceStart ls = (numbersSinceStart ls).filterMap id ∧
    s.camera.sequence = .ofNat (numbersSinceStart ls).length ∧
    (∀ (k : ℕ) (f : SyntheticFrame), (numbersSinceStart ls)[k]? = some (some f) →
      NumberedFrame fl camera.config k f ∧ f.sequence.toNat = k ∧
        (k * period < 2 ^ 63 → f.timestampNs = some ((k * period : ℕ) : ℤ))) ∧
    (∀ timeoutMs log e s', SyntheticSystem.Step fl (steadyClock recordsFail) s
      (.read timeoutMs log (.error e)) s' →
        (s'.camera = s.camera ∧
          numbersSinceStart (ls ++ [.read timeoutMs log (.error e)]) = numbersSinceStart ls) ∨
        (e = .badAlloc ∧ s'.camera.sequence = s.camera.sequence + 1 ∧
          numbersSinceStart (ls ++ [.read timeoutMs log (.error e)]) =
            numbersSinceStart ls ++ [none])) := by
  obtain ⟨hconfig, _, hm, _⟩ := makeCamera_synthetic.mp h
  have ha := SyntheticCamera.accepted hconfig hm
  have hp := paced_trace hconfig hm htr
  refine ⟨framesSinceStart_numbers ls, hp.counted, ?_, ?_⟩
  · intro k f hk
    have hnumbered := (hp.numbered k f hk).2
    refine ⟨hnumbered, hnumbered.sequence (hp.number_lt ha hk), fun hlt => ?_⟩
    exact (hp.timestampNs ha hk hlt).2.2
  · intro timeoutMs log e s' hs
    rw [numbersSinceStart_snoc]
    rcases hs.thrown (numbersSinceStart ls) with ⟨hkept, hs⟩ | ⟨hlost, _, he, now, _, hs⟩
    · exact Or.inl ⟨hs, hkept⟩
    · rw [hs]
      exact Or.inr ⟨he, rfl, hlost⟩

def syntheticSampleLost : SyntheticLabel :=
  .read 0 (syntheticSampleLog 40000000 false) (.error .badAlloc)

/-- The record of the second frame is lost, and the next one has the number after it. -/
theorem lost_records_skip_numbers_sample : ∃ s,
    (syntheticSystem .exact (steadyClock True) syntheticSample).Trace
      (syntheticSampleBefore ++
        [syntheticSampleStart 10, syntheticSampleRead 10 0, syntheticSampleLost]) s ∧
    s.camera.sequence = 2 ∧
    ∀ log f s', SyntheticSystem.Step .exact (steadyClock True) s (.read 0 log (.ok f)) s' →
      f.sequence.toNat = 2 := by
  have hlost : Exec (steadyClock True) ((syntheticSampleDue 1 33333343).read .exact 0) 10
      (syntheticSampleLog 40000000 false)
      (.error .badAlloc, (syntheticSampleDue 1 33333343).advance .exact 40000000) 40000000 :=
    exec_still false (by decide) (fun _ => trivial) rfl (by simp)
  have htrace : (syntheticSystem .exact (steadyClock True) syntheticSample).Trace
      (syntheticSampleBefore ++
        [syntheticSampleStart 10, syntheticSampleRead 10 0, syntheticSampleLost]) _ :=
    syntheticSample_before.append
      ⟨_, syntheticSample_restart, _, syntheticSample_first, _, .read hlost, rfl⟩
  have hmade := syntheticSample_made (d := ())
  obtain ⟨_, hsequence, _⟩ := lost_records_skip_numbers hmade htrace
  refine ⟨_, htrace, hsequence, fun log f s' hs => ?_⟩
  obtain ⟨_, _, hframes, _⟩ := lost_records_skip_numbers hmade (htrace.snoc hs)
  exact (hframes 2 f rfl).2.1

end CameraCore
