import CameraCore.SyntheticRuns

/-!
# The pace of the synthetic camera

A frame is produced when the clock has reached the time scheduled for it, and the next one is
scheduled a period after a second reading of the clock. The schedule therefore never falls
behind a period for each frame, whatever the readings, and a read that times out leaves it
where it is.
-/

namespace CameraCore

open DeviceProgram FloatingPoint LabelledSystem

/-- A frame that was produced, and the reading from which the next one was scheduled. -/
def SyntheticLabel.produced : SyntheticLabel → Option (Int64 × SyntheticFrame)
  | .read _ log (.ok frame) => (clockReadings log).getLast?.map fun reading => (reading, frame)
  | _ => none

theorem produced_read {timeoutMs : UInt32} {log : TimedLog} {frame : SyntheticFrame}
    {entry now : Int64} (h : clockReadings log = [entry, now]) :
    (SyntheticLabel.read timeoutMs log (.ok frame)).produced = some (now, frame) := by
  simp [SyntheticLabel.produced, h]

def producedFrames (ls : List SyntheticLabel) : List (Int64 × SyntheticFrame) :=
  ls.filterMap SyntheticLabel.produced

def SyntheticLabel.IsRead : SyntheticLabel → Prop
  | .read _ _ _ => True
  | _ => False

def SyntheticLabel.TimedOut : SyntheticLabel → Prop
  | .read _ _ (.error e) => e.hasCode .timeout
  | _ => False

/-- The schedule is ahead of the start, at `origin`, by a period for each frame counted, and each
frame produced was due by it. -/
structure OnSchedule (fl : Rounding) (config : CaptureConfig) (origin : Int64)
    (produced : List (Int64 × SyntheticFrame)) (s : SyntheticCamera) : Prop where
  configured : s.config = config
  running : s.running = true
  counted : ∃ count : ℕ, s.sequence = .ofNat count ∧ produced.length ≤ count ∧
    origin.toInt + count * (periodNs fl config).toNat ≤ s.nextFrame
  due : ∀ (k : ℕ) (reading : Int64) (frame : SyntheticFrame), produced[k]? = some (reading, frame) →
    origin.toInt + k * (periodNs fl config).toNat ≤ reading.toInt ∧
      reading.toInt + (periodNs fl config).toNat ≤ s.nextFrame ∧
      frame.timestamp.exact ≤ reading.toInt - origin.toInt
  apart : ∀ (k : ℕ) (reading reading' : Int64) (frame frame' : SyntheticFrame),
    produced[k]? = some (reading, frame) → produced[k + 1]? = some (reading', frame') →
    reading.toInt + (periodNs fl config).toNat ≤ reading'.toInt

namespace OnSchedule

variable {fl : Rounding} {config : CaptureConfig} {origin : Int64}
  {produced : List (Int64 × SyntheticFrame)} {s s' : SyntheticCamera} {now : Int64}

theorem start (hconfig : s.config = config) (now : Int64) :
    OnSchedule fl config now []
      { s with sequence := 0, nextFrame := now.toInt, running := true } where
  configured := hconfig
  running := rfl
  counted := ⟨0, rfl, le_rfl, by simp⟩
  due := by simp
  apart := by simp

theorem advance_nextFrame (h : OnSchedule fl config origin produced s) (ha : Accepted fl config)
    (now : Int64) :
    (s.advance fl now).nextFrame = now.toInt + (periodNs fl config).toNat := by
  change now.toInt + (periodNs fl s.config).toInt64.toInt = _
  rw [h.configured, ha.periodNs_toInt]

/-- The count moves on with the schedule, whether or not the frame is handed out. -/
theorem advance_counted (h : OnSchedule fl config origin produced s) (ha : Accepted fl config)
    (due : s.nextFrame ≤ now.toInt) :
    ∃ count : ℕ, (s.advance fl now).sequence = .ofNat count ∧ produced.length + 1 ≤ count ∧
      origin.toInt + count * (periodNs fl config).toNat ≤ (s.advance fl now).nextFrame := by
  obtain ⟨count, hsequence, hlen, hnext⟩ := h.counted
  refine ⟨count + 1, ?_, by omega, ?_⟩
  · change s.sequence + 1 = _
    rw [hsequence, UInt64.ofNat_add]
    rfl
  · rw [h.advance_nextFrame ha]
    push_cast
    linarith

/-- The time of a frame is its number of periods, which the clock has left behind. -/
theorem timestamp_le (h : OnSchedule fl config origin produced s) (ha : Accepted fl config)
    (due : s.nextFrame ≤ now.toInt) (storage : SyntheticStorage) :
    (syntheticFrame fl s.config storage s.sequence).timestamp.exact ≤
      now.toInt - origin.toInt := by
  obtain ⟨count, hsequence, _, hnext⟩ := h.counted
  have hnow := Int64.toInt_lt now
  have horigin := Int64.le_toInt origin
  obtain ⟨hpos, _⟩ := ha.periodNs_toNat
  have hroom : count * (periodNs fl config).toNat < 2 ^ 64 := by
    have hcast : (count * (periodNs fl config).toNat : ℤ) < 2 ^ 64 := by omega
    exact_mod_cast hcast
  have hcount : count < 2 ^ 64 := by
    have hmul : count * 1 ≤ count * (periodNs fl config).toNat :=
      Nat.mul_le_mul_left count (by omega)
    omega
  have hvalue : (s.sequence * periodNs fl s.config).toNat = count * (periodNs fl config).toNat := by
    rw [hsequence, h.configured, UInt64.toNat_mul, UInt64.toNat_ofNat_of_lt' hcount,
      Nat.mod_eq_of_lt hroom]
  change (syntheticTimestamp (s.sequence * periodNs fl s.config)).exact ≤ _
  rw [syntheticTimestamp_exact, hvalue]
  push_cast
  linarith

theorem due_advance (h : OnSchedule fl config origin produced s) (ha : Accepted fl config)
    (due : s.nextFrame ≤ now.toInt) {k : ℕ} {reading : Int64} {frame : SyntheticFrame}
    (hk : produced[k]? = some (reading, frame)) :
    origin.toInt + k * (periodNs fl config).toNat ≤ reading.toInt ∧
      reading.toInt + (periodNs fl config).toNat ≤ (s.advance fl now).nextFrame ∧
      frame.timestamp.exact ≤ reading.toInt - origin.toInt := by
  obtain ⟨hlow, hhigh, hstamp⟩ := h.due k reading frame hk
  rw [h.advance_nextFrame ha]
  exact ⟨hlow, by omega, hstamp⟩

theorem recordLost (h : OnSchedule fl config origin produced s) (ha : Accepted fl config)
    (due : s.nextFrame ≤ now.toInt) : OnSchedule fl config origin produced (s.advance fl now) := by
  obtain ⟨count, hsequence, hlen, hnext⟩ := h.advance_counted ha due
  exact ⟨h.configured, h.running, ⟨count, hsequence, by omega, hnext⟩,
    fun k reading frame hk => h.due_advance ha due hk, h.apart⟩

theorem captured (h : OnSchedule fl config origin produced s) (ha : Accepted fl config)
    (due : s.nextFrame ≤ now.toInt) (storage : SyntheticStorage) :
    OnSchedule fl config origin
      (produced ++ [(now, syntheticFrame fl s.config storage s.sequence)])
      (s.advance fl now) := by
  have hcounted := h.advance_counted ha due
  refine ⟨h.configured, h.running, ?_, ?_, ?_⟩
  · rw [List.length_append, List.length_singleton]
    exact hcounted
  · intro k reading frame hk
    rcases getElem?_concat_cases hk with hk | ⟨rfl, he⟩
    · exact h.due_advance ha due hk
    · cases he
      obtain ⟨count, _, hlen, hnext⟩ := h.counted
      have hmul : produced.length * (periodNs fl config).toNat ≤
          count * (periodNs fl config).toNat := Nat.mul_le_mul_right _ hlen
      have hmul' : (produced.length * (periodNs fl config).toNat : ℤ) ≤
          count * (periodNs fl config).toNat := by exact_mod_cast hmul
      refine ⟨by linarith, ?_, h.timestamp_le ha due storage⟩
      rw [h.advance_nextFrame ha]
  · intro k reading reading' frame frame' hk hk'
    have hold : k < produced.length → produced[k]? = some (reading, frame) := by
      intro hlt
      rwa [List.getElem?_append_left hlt] at hk
    rcases getElem?_concat_cases hk' with hk' | ⟨hlen, he⟩
    · obtain ⟨hlt, _⟩ := List.getElem?_eq_some_iff.mp hk'
      exact h.apart k reading reading' frame frame' (hold (by omega)) hk'
    · cases he
      obtain ⟨_, hhigh, _⟩ := h.due k reading frame (hold (by omega))
      omega

end OnSchedule

section Runs

variable {fl : Rounding} {recordsFail : Prop} {config : CaptureConfig} {camera : SyntheticCamera}
  {s s' : SyntheticSystem} {ls : List SyntheticLabel} {l : SyntheticLabel} {origin : Int64}
  {produced : List (Int64 × SyntheticFrame)}

theorem step_config (hs : SyntheticSystem.Step fl (steadyClock recordsFail) s l s') :
    s'.camera.config = s.camera.config := by
  cases hs with
  | @start log r camera clock hx =>
      rcases SyntheticCamera.exec_start hx with ⟨_, rfl, _⟩ | ⟨_, _, rfl, _⟩ <;> rfl
  | read hx => cases SyntheticCamera.exec_read hx <;> rfl
  | stop => rfl

theorem reachable_config
    (h : (syntheticSystem fl (steadyClock recordsFail) camera).Reachable s) :
    s.camera.config = camera.config := by
  apply h.induction (P := fun s => s.camera.config = camera.config)
  · intro s hs
    exact congrArg SyntheticCamera.config hs
  · intro s l s' _ hs hstep
    exact (step_config hstep).trans hs

theorem OnSchedule.step (h : OnSchedule fl config origin produced s.camera)
    (ha : Accepted fl config) (hl : l.IsRead)
    (hs : SyntheticSystem.Step fl (steadyClock recordsFail) s l s') :
    OnSchedule fl config origin (produced ++ l.produced.toList) s'.camera := by
  cases hs with
  | start => exact hl.elim
  | stop => exact hl.elim
  | @read timeoutMs log r camera clock hx =>
      have hpaced := SyntheticCamera.exec_read_paced hx
      generalize hr : clockReadings log = readings at hpaced
      cases hpaced with
      | notRunning => simpa [SyntheticLabel.produced] using h
      | timedOut => simpa [SyntheticLabel.produced] using h
      | failed => simpa [SyntheticLabel.produced] using h
      | recordLost _ _ _ due => simpa [SyntheticLabel.produced] using h.recordLost ha due
      | captured _ _ _ due =>
          rw [produced_read hr]
          exact h.captured ha due _

/-- The induction is on the reads, each of which adds what it produced. -/
theorem OnSchedule.run (h : OnSchedule fl config origin produced s.camera)
    (ha : Accepted fl config) (hls : ∀ l ∈ ls, l.IsRead)
    (hrun : (syntheticSystem fl (steadyClock recordsFail) camera).Run s ls s') :
    OnSchedule fl config origin (produced ++ producedFrames ls) s'.camera := by
  induction ls generalizing s produced with
  | nil =>
      obtain rfl := hrun
      simpa [producedFrames] using h
  | cons l ls ih =>
      obtain ⟨s₁, hstep, hrest⟩ := hrun
      have h₁ := h.step ha (hls l List.mem_cons_self) hstep
      have h₂ := ih h₁ (fun l hm => hls l (List.mem_cons_of_mem _ hm)) hrest
      have hcons : producedFrames (l :: ls) = l.produced.toList ++ producedFrames ls := by
        unfold producedFrames
        cases hl : l.produced <;> simp [hl]
      rw [hcons, ← List.append_assoc]
      exact h₂

theorem timedOut_unchanged (hl : l.TimedOut)
    (hs : SyntheticSystem.Step fl (steadyClock recordsFail) s l s') : s'.camera = s.camera := by
  cases hs with
  | start => exact hl.elim
  | stop => exact hl.elim
  | read hx =>
      cases SyntheticCamera.exec_read hx with
      | notRunning => rfl
      | failed => rfl
      | recordLost => simp [SyntheticLabel.TimedOut] at hl
      | captured => exact hl.elim

theorem timedOut_run (hls : ∀ l ∈ ls, l.TimedOut)
    (hrun : (syntheticSystem fl (steadyClock recordsFail) camera).Run s ls s') :
    s'.camera = s.camera := by
  induction ls generalizing s with
  | nil =>
      obtain rfl := hrun
      rfl
  | cons l ls ih =>
      obtain ⟨s₁, hstep, hrest⟩ := hrun
      have h₁ := timedOut_unchanged (hls l List.mem_cons_self) hstep
      exact (ih (fun l hm => hls l (List.mem_cons_of_mem _ hm)) hrest).trans h₁

/-- What the next read does with the schedule: it times out just when its timeout ends before the
scheduled time, and a frame is followed by the next a period after its reading. -/
structure FollowsSchedule (fl : Rounding) (s : SyntheticSystem) (timeoutMs : UInt32)
    (log : TimedLog) (r : Except Exception SyntheticFrame) (s' : SyntheticSystem) : Prop where
  timeout_iff : ∃ entry, (clockReadings log).head? = some entry ∧
    ((∃ e, r = .error e ∧ e.hasCode .timeout) ↔
      entry.toInt + timeoutMs.toNat * 1000000 < s.camera.nextFrame)
  schedules : ∀ frame, r = .ok frame → ∃ reading,
    (SyntheticLabel.read timeoutMs log r).produced = some (reading, frame) ∧
      s'.camera.nextFrame = reading.toInt + (periodNs fl s.camera.config).toNat

theorem OnSchedule.follows (h : OnSchedule fl config origin produced s.camera)
    (ha : Accepted fl config) {timeoutMs : UInt32} {log : TimedLog}
    {r : Except Exception SyntheticFrame}
    (hs : SyntheticSystem.Step fl (steadyClock recordsFail) s (.read timeoutMs log r) s') :
    FollowsSchedule fl s timeoutMs log r s' := by
  cases hs with
  | @read timeoutMs log r camera clock hx =>
      have hpaced := SyntheticCamera.exec_read_paced hx
      refine ⟨hpaced.timeout_iff h.running, ?_⟩
      rintro frame rfl
      generalize hr : clockReadings log = readings at hpaced
      cases hpaced with
      | @captured entry now =>
          refine ⟨now, produced_read hr, ?_⟩
          rw [h.configured]
          exact h.advance_nextFrame ha now

theorem OnSchedule.begin {log : TimedLog} (hconfig : s.camera.config = config)
    (hs : SyntheticSystem.Step fl (steadyClock recordsFail) s (.start log (.ok ())) s') :
    ∃ origin, clockReadings log = [origin] ∧ s'.camera.nextFrame = origin.toInt ∧
      OnSchedule fl config origin [] s'.camera := by
  cases hs with
  | @start log r camera clock hx =>
      rcases SyntheticCamera.exec_start hx with ⟨_, _, he⟩ | ⟨_, _, rfl, hreadings⟩
      · cases he
      · exact ⟨clock, hreadings, rfl, .start hconfig clock⟩

end Runs

/-- In every run of reads after a start at `origin`, the frame at position `k` is produced no
earlier than `k` periods after it and a period after the frame before, its timestamp has passed on
the clock, every read times out just when its timeout falls short of the schedule, and reads that
time out leave the schedule alone. -/
theorem synthetic_paced {fl : Rounding} {fuel : ℕ} {config : CaptureConfig} {σ : Type}
    {D : Device linux σ} {d d' : σ} {log : Log} {camera : SyntheticCamera}
    (h : Exec D (makeCamera fl fuel config).run d log (.ok (.synthetic camera)) d')
    {recordsFail : Prop} {s₀ s₁ : SyntheticSystem} {log₀ : TimedLog}
    (h₀ : (syntheticSystem fl (steadyClock recordsFail) camera).Reachable s₀)
    (h₁ : SyntheticSystem.Step fl (steadyClock recordsFail) s₀ (.start log₀ (.ok ())) s₁) :
    let period := (periodNs fl camera.config).toNat
    ∃ origin : Int64, clockReadings log₀ = [origin] ∧ s₁.camera.nextFrame = origin.toInt ∧
      ∀ ls s, (∀ l ∈ ls, l.IsRead) →
        (syntheticSystem fl (steadyClock recordsFail) camera).Run s₁ ls s →
        (∀ (k : ℕ) (reading : Int64) (frame : SyntheticFrame),
          (producedFrames ls)[k]? = some (reading, frame) →
          origin.toInt + k * period ≤ reading.toInt ∧
            frame.timestamp.exact ≤ reading.toInt - origin.toInt) ∧
        (∀ (k : ℕ) (reading reading' : Int64) (frame frame' : SyntheticFrame),
          (producedFrames ls)[k]? = some (reading, frame) →
          (producedFrames ls)[k + 1]? = some (reading', frame') →
          reading.toInt + period ≤ reading'.toInt) ∧
        (∀ timeoutMs log r s', SyntheticSystem.Step fl (steadyClock recordsFail) s
          (.read timeoutMs log r) s' → FollowsSchedule fl s timeoutMs log r s') ∧
        (∀ ls' s', (∀ l ∈ ls', l.TimedOut) →
          (syntheticSystem fl (steadyClock recordsFail) camera).Run s ls' s' →
          s'.camera.nextFrame = s.camera.nextFrame) := by
  obtain ⟨hconfig, _, hm, _⟩ := makeCamera_synthetic.mp h
  have ha := SyntheticCamera.accepted hconfig hm
  obtain ⟨origin, hreadings, hnext, hstart⟩ := OnSchedule.begin (reachable_config h₀) h₁
  refine ⟨origin, hreadings, hnext, ?_⟩
  intro ls s hls hrun
  have hs := hstart.run ha hls hrun
  rw [List.nil_append] at hs
  refine ⟨?_, hs.apart, ?_, ?_⟩
  · intro k reading frame hk
    obtain ⟨hlow, _, hstamp⟩ := hs.due k reading frame hk
    exact ⟨hlow, hstamp⟩
  · intro timeoutMs log r s' hstep
    exact hs.follows ha hstep
  · intro ls' s' hls' hrun'
    rw [timedOut_run hls' hrun']

/-- The schedule of the camera after its restart at 10: two frames with a read that came too early
between them, and what the next read does. -/
theorem synthetic_paced_sample :
    let period := (periodNs .exact syntheticSample.config).toNat
    producedFrames syntheticSampleReads =
      [(10, syntheticSampleFrame 0), (40000000, syntheticSampleFrame 1)] ∧
    (10 : Int64).toInt + (1 : ℕ) * period ≤ (40000000 : Int64).toInt ∧
    (syntheticSampleFrame 1).timestamp.exact ≤ (40000000 : Int64).toInt - (10 : Int64).toInt ∧
    (10 : Int64).toInt + period ≤ (40000000 : Int64).toInt ∧
    ∀ timeoutMs log r s', SyntheticSystem.Step .exact (steadyClock False) syntheticSampleLast
      (.read timeoutMs log r) s' →
        FollowsSchedule .exact syntheticSampleLast timeoutMs log r s' := by
  have hreachable : (syntheticSystem .exact (steadyClock False) syntheticSample).Reachable
      syntheticSampleStopped := syntheticSample_before.reachable
  obtain ⟨origin, hreadings, _, hruns⟩ := synthetic_paced (syntheticSample_made (d := ()))
    hreachable syntheticSample_restart
  obtain rfl : 10 = origin := List.head_eq_of_cons_eq hreadings
  have hreads : ∀ l ∈ syntheticSampleReads, l.IsRead := by
    intro l hl
    simp only [syntheticSampleReads, List.mem_cons, List.not_mem_nil, or_false] at hl
    rcases hl with rfl | rfl | rfl <;> trivial
  obtain ⟨hdue, hapart, hnext, _⟩ := hruns _ _ hreads syntheticSample_reads
  obtain ⟨hlow, hstamp⟩ := hdue 1 40000000 (syntheticSampleFrame 1) rfl
  exact ⟨rfl, hlow, hstamp, hapart 0 10 40000000 _ _ rfl rfl, hnext⟩

end CameraCore
