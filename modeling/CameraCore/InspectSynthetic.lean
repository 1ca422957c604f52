import CameraCore.InspectTool

/-!
# The tool on the synthetic camera

The synthetic camera is there for tests, whose output has to be the same every time. What the tool
prints with it depends on the command line alone: not on the clock, not on how long the reads
wait, not on the system. Two runs can differ only in how far they come.
-/

namespace CameraCore

open DeviceProgram FloatingPoint ScopedResources

section Calls

variable {σ : Type} {D : Device timed σ} {d d' : σ} {fl : Rounding} {s s' : SyntheticCamera}
  {log : TimedLog}

theorem buildStorage_ok {config : CaptureConfig} {sequence : UInt64} {storage : SyntheticStorage}
    (h : Exec D (SyntheticCamera.buildStorage config sequence).run d log (.ok storage) d') :
    ∃ sizes, planeSizes config = .ok sizes ∧ storage = generate config sizes sequence := by
  obtain ⟨_, d₁, _, log₁, _, h₁, _⟩ := exec_bind_ok.mp h
  obtain ⟨sizes, d₂, _, log₂, hsizes, h₂, _⟩ := exec_bind_ok.mp h₁
  obtain ⟨_, hok, _⟩ := exec_pure.mp hsizes
  obtain ⟨_, d₃, _, log₃, _, h₃, _⟩ := exec_bind_ok.mp h₂
  obtain ⟨_, d₄, _, log₄, _, h₄, _⟩ := exec_bind_ok.mp h₃
  obtain ⟨_, he, _⟩ := exec_return.mp h₄
  cases he
  exact ⟨sizes, hok.symm, rfl⟩

theorem read_frame {timeoutMs : UInt32} {frame : SyntheticFrame}
    (h : Exec D (s.read fl timeoutMs) d log (.ok frame, s') d') :
    s'.config = s.config ∧ s'.sequence = s.sequence + 1 ∧ ∃ sizes,
      planeSizes s.config = .ok sizes ∧
      frame = syntheticFrame fl s.config (generate s.config sizes s.sequence) s.sequence := by
  unfold SyntheticCamera.read at h
  split_ifs at h
  · obtain ⟨_, he, _⟩ := exec_pure.mp h
    cases he
  · obtain ⟨x, d₁, log₁, log₂, _, hcapture, rfl⟩ := exec_bind.mp h
    cases x with
    | error e =>
        obtain ⟨_, he, _⟩ := exec_pure.mp hcapture
        cases he
    | ok u =>
        obtain ⟨y, d₂, log₃, log₄, hstorage, hrest, rfl⟩ := exec_bind.mp hcapture
        cases y with
        | error e =>
            obtain ⟨_, he, _⟩ := exec_pure.mp hrest
            cases he
        | ok storage =>
            obtain ⟨sizes, hsizes, rfl⟩ := buildStorage_ok hstorage
            obtain ⟨now, d₃, log₅, _, hrecord, rfl⟩ := exec_request_bind.mp hrest
            obtain ⟨ok, d₄, log₆, _, hend, rfl⟩ := exec_request_bind.mp hrecord
            cases ok with
            | false =>
                obtain ⟨_, he, _⟩ := exec_pure.mp hend
                cases he
            | true =>
                obtain ⟨_, he, _⟩ := exec_pure.mp hend
                cases he
                exact ⟨rfl, rfl, sizes, hsizes, rfl⟩

theorem start_numbers {u : Unit} (h : Exec D s.start d log (.ok u, s') d') :
    s'.config = s.config ∧ s'.sequence = 0 := by
  unfold SyntheticCamera.start at h
  split_ifs at h
  · obtain ⟨_, he, _⟩ := exec_pure.mp h
    cases he
  · obtain ⟨now, d₁, log₁, _, hend, rfl⟩ := exec_request_bind.mp h
    obtain ⟨_, he, _⟩ := exec_pure.mp hend
    cases he
    exact ⟨rfl, rfl⟩

end Calls

def syntheticLine (fl : Rounding) (config : CaptureConfig) (number : ℕ) : Option String :=
  match planeSizes config with
  | .error _ => none
  | .ok sizes =>
      let frame := syntheticFrame fl config (generate config sizes (.ofNat number)) (.ofNat number)
      frame.timestamp.toNanoseconds.map fun timestampNs =>
        frameText frame timestampNs (frameChecksum syntheticFetch frame)

section Tool

variable {σ : Type} {H : HostParts σ} {s s' : σ} {fl : Rounding} {log : List (Event host)}
  {camera camera' : SyntheticCamera}

theorem exec_checksum_synthetic {frame : SyntheticFrame} {checksum : UInt32}
    {log : List (Event process)}
    (h : Exec H.process ((syntheticClass fl).checksum frame) s log checksum s') :
    checksum = frameChecksum syntheticFetch frame := by
  refine (exec_foldlM (P := fun _ => True) ?_ trivial h).1
  intro plane _ b d₁ log₁ b₁ d₂ _ hplane
  refine exec_foldlM (P := fun _ => True) ?_ trivial hplane
  intro index _ b₂ d₃ log₃ b₃ d₄ _ hstep
  obtain ⟨byte, d₅, log₄, log₅, hbyte, hend, rfl⟩ := exec_bind.mp hstep
  obtain ⟨_, rfl, _⟩ := exec_pure.mp hbyte
  obtain ⟨_, rfl, _⟩ := exec_pure.mp hend
  exact ⟨rfl, trivial⟩

theorem captureFrames_numbered {timeoutMs : UInt32} {count number : ℕ}
    {r : Except Exception Unit} (hnumber : camera.sequence = .ofNat number)
    (h : Exec H.device ((syntheticClass fl).captureFrames timeoutMs count camera) s log
      (r, camera') s') :
    (printed .out log).map some =
      (List.range' number (printed .out log).length).map (syntheticLine fl camera.config) := by
  induction count generalizing camera number s log with
  | zero =>
      obtain ⟨rfl, _, _⟩ := exec_pure.mp h
      rfl
  | succ count ih =>
      obtain ⟨⟨x, camera₁⟩, s₁, log₁, log₂, hread, hpass, rfl⟩ := exec_bind.mp h
      rw [printed_append, exec_driver hread, List.nil_append]
      cases x with
      | error e =>
          obtain ⟨rfl, _, _⟩ := exec_pure.mp hpass
          rfl
      | ok frame =>
          obtain ⟨_, s₂, log₃, log₄, hprint, hrelease, rfl⟩ := exec_bind.mp hpass
          obtain ⟨camera₂, s₃, log₅, log₆, hreleased, hmore, rfl⟩ := exec_bind.mp hrelease
          obtain ⟨timestampNs, checksum, hns, ⟨_, _, hsum⟩, hout, _⟩ := exec_printFrame hprint
          obtain ⟨logRead, hframe, _⟩ := exec_left.mp hread
          obtain ⟨logTimed, hframe, _⟩ := exec_right.mp hframe
          obtain ⟨hconfig, hnext, sizes, hsizes, rfl⟩ := read_frame hframe
          obtain ⟨logNone, hsame, _⟩ := exec_left.mp hreleased
          obtain ⟨_, rfl, _⟩ := exec_pure.mp hsame
          have hline : syntheticLine fl camera.config number =
              some (frameText (syntheticFrame fl camera.config
                (generate camera.config sizes camera.sequence) camera.sequence) timestampNs
                checksum) := by
            unfold syntheticLine
            rw [hsizes, ← hnumber, exec_checksum_synthetic hsum]
            dsimp only
            rw [hns]
            rfl
          have hfollows : camera₂.sequence = .ofNat (number + 1) := by
            rw [hnext, hnumber, UInt64.ofNat_add]
            rfl
          have hrest := ih hfollows hmore
          rw [hconfig] at hrest
          simp only [printed_append, hout, exec_driver hreleased, List.nil_append,
            List.singleton_append, List.map_cons, List.length_cons, List.range'_succ, hrest, hline]

theorem inspect_numbered {options : Options} {capabilities : Capabilities}
    {r : Except Exception Unit}
    (h : Exec H.device ((syntheticClass fl).inspect fl options capabilities camera) s log r s') :
    ∃ lines, printed .out log = capabilitiesText fl capabilities :: lines ∧
      lines.map some = (List.range lines.length).map (syntheticLine fl camera.config) := by
  obtain ⟨_, s₁, log₁, log₂, hprint, hbody, rfl⟩ := exec_bind.mp h
  rw [printed_append, exec_print hprint, if_pos rfl, List.singleton_append]
  refine ⟨_, rfl, ?_⟩
  split_ifs at hbody
  · obtain ⟨_, s₂, log₃, log₄, hdestroy, hend, rfl⟩ := exec_bind.mp hbody
    obtain ⟨rfl, _, _⟩ := exec_pure.mp hend
    rw [List.append_nil, exec_driver hdestroy]
    rfl
  · obtain ⟨⟨x, camera₁⟩, s₂, log₃, log₄, hstart, hstarted, rfl⟩ := exec_bind.mp hbody
    rw [printed_append, exec_driver hstart, List.nil_append]
    cases x with
    | error e =>
        obtain ⟨_, s₃, log₅, log₆, hdestroy, hend, rfl⟩ := exec_bind.mp hstarted
        obtain ⟨rfl, _, _⟩ := exec_pure.mp hend
        rw [List.append_nil, exec_driver hdestroy]
        rfl
    | ok u =>
        obtain ⟨logStart, hbegin, _⟩ := exec_left.mp hstart
        obtain ⟨logTimed, hbegin, _⟩ := exec_right.mp hbegin
        obtain ⟨hconfig, hzero⟩ := start_numbers hbegin
        have hfirst : camera₁.sequence = .ofNat 0 := hzero
        obtain ⟨⟨y, camera₂⟩, s₃, log₅, log₆, hframes, hcaptured, rfl⟩ := exec_bind.mp hstarted
        have hnumbered := captureFrames_numbered hfirst hframes
        rw [← List.range_eq_range', hconfig] at hnumbered
        have hnone : printed .out log₆ = [] := by
          cases y with
          | error e =>
              obtain ⟨_, s₄, log₇, log₈, hdestroy, hend, rfl⟩ := exec_bind.mp hcaptured
              obtain ⟨rfl, _, _⟩ := exec_pure.mp hend
              rw [List.append_nil, exec_driver hdestroy]
          | ok u' =>
              obtain ⟨camera₃, s₄, log₇, log₈, hstop, hstopped, rfl⟩ := exec_bind.mp hcaptured
              obtain ⟨_, s₅, log₉, log₁₀, hdestroy, hend, rfl⟩ := exec_bind.mp hstopped
              obtain ⟨rfl, _, _⟩ := exec_pure.mp hend
              rw [List.append_nil, printed_append, exec_driver hstop, exec_driver hdestroy]
              rfl
        rw [printed_append, hnone, List.append_nil]
        exact hnumbered

theorem make_capabilities {config : CaptureConfig} (h : SyntheticCamera.make config = .ok camera) :
    camera.capabilities = makeCapabilities := by
  unfold SyntheticCamera.make at h
  split_ifs at h
  cases h
  rfl

theorem makeCamera_made {fuel : ℕ} {config : CaptureConfig} {made : Camera}
    (hbackend : config.backend = .synthetic)
    (h : Exec H.device (onSystem (scopedMakeCamera fl fuel config)) s log (.ok made) s') :
    ∃ camera, made = .synthetic camera ∧ SyntheticCamera.make config = .ok camera := by
  cases exec_makeCamera (exec_onSystem h) with
  | v4l2 backend _ =>
      rw [hbackend] at backend
      cases backend
  | synthetic _ hmade => exact ⟨_, rfl, hmade⟩

/-- The configuration of the synthetic camera made from these options. -/
def Options.syntheticConfig (options : Options) : CaptureConfig :=
  { options.config with captureMode := options.config.captureMode.orSingle }

/-- What a run prints to the standard output: nothing, or the capabilities and then the lines of
the first numbers. -/
def Numbered (fl : Rounding) (options : Options) (texts : List String) : Prop :=
  texts = [] ∨ ∃ lines, texts = capabilitiesText fl makeCapabilities :: lines ∧
    lines.map some =
      (List.range lines.length).map (syntheticLine fl options.syntheticConfig)

theorem runOptions_numbered {fuel : ℕ} {options : Options} {r : Except Exception Unit}
    (hbackend : options.config.backend = .synthetic)
    (h : Exec H.device (runOptions fl fuel options) s log r s') :
    Numbered fl options (printed .out log) := by
  have hsynthetic : options.config.backend ≠ .v4l2 := by
    rw [hbackend]
    nofun
  cases runOptions_cases h with
  | unlisted hlist _ => exact absurd hlist.1 hsynthetic
  | listed hlist _ _ => exact absurd hlist.1 hsynthetic
  | unmade hmake => exact Or.inl (exec_driver hmake .out)
  | v4l2 hmake _ =>
      obtain ⟨_, he, _⟩ := makeCamera_made hbackend hmake
      cases he
  | synthetic hmake hinspect =>
      obtain ⟨camera, he, hcamera⟩ := makeCamera_made hbackend hmake
      cases he
      obtain ⟨lines, hout, hlines⟩ := inspect_numbered hinspect
      rw [make_capabilities hcamera] at hout
      rw [(SyntheticCamera.make_ok hcamera).1] at hlines
      rw [printed_append, exec_driver hmake]
      exact Or.inr ⟨lines, hout, hlines⟩

theorem prefix_of_numbered {line : ℕ → Option String} {lines lines' : List String}
    (h : lines.map some = (List.range lines.length).map line)
    (h' : lines'.map some = (List.range lines'.length).map line)
    (hle : lines.length ≤ lines'.length) : lines <+: lines' := by
  have htake : (lines'.take lines.length).map some = lines.map some := by
    rw [List.map_take, h', h, ← List.map_take, List.take_range, min_eq_left hle]
  rw [← List.map_injective_iff.mpr (Option.some_injective String) htake]
  exact List.take_prefix _ _

theorem Numbered.comparable {options : Options} {texts texts' : List String}
    (h : Numbered fl options texts) (h' : Numbered fl options texts')
    (hle : texts.length ≤ texts'.length) : texts <+: texts' := by
  rcases h with rfl | ⟨lines, rfl, hlines⟩
  · exact List.nil_prefix
  · rcases h' with rfl | ⟨lines', rfl, hlines'⟩
    · cases hle
    · rw [List.length_cons, List.length_cons] at hle
      rw [List.prefix_cons_inj]
      exact prefix_of_numbered hlines hlines' (by omega)

theorem OptionsPrinted.length {options : Options} {r : Except Exception Unit}
    {texts : List String} (h : OptionsPrinted fl options r texts) :
    texts.length ≤ options.captureCount.toNat + 1 ∧
      (r = .ok () → texts.length = options.captureCount.toNat + 1) := by
  cases r with
  | ok u =>
      obtain ⟨capabilities, lines, rfl, hcount, _⟩ := h.finished rfl
      rw [List.length_cons, hcount]
      exact ⟨le_rfl, fun _ => rfl⟩
  | error e =>
      refine ⟨?_, fun hr => by cases hr⟩
      rcases h.threw e rfl with rfl | ⟨capabilities, lines, rfl, hcount, _⟩
      · exact Nat.zero_le _
      · rw [List.length_cons]
        omega

/-- What a run of the tool prints, and how far it comes. -/
structure NumberedRun (fl : Rounding) (options : Options) (status : ℕ) (texts : List String) :
    Prop where
  numbered : Numbered fl options texts
  length_le : texts.length ≤ options.captureCount.toNat + 1
  finished : status = 0 → texts.length = options.captureCount.toNat + 1

theorem inspectMain_numbered {inRange : ℚ → Bool} {strerror : Errno → String} {fuel : ℕ}
    {argv : List String} {options : Options} {status : ℕ}
    (hparse : parseOptions fl inRange argv = .ok options)
    (hbackend : options.config.backend = .synthetic)
    (h : Exec H.device (inspectMain fl inRange strerror fuel argv) s log status s') :
    NumberedRun fl options status (printed .out log) := by
  obtain ⟨log₁, r, s₁, hrun, hout, hstatus⟩ := exec_inspectMain hparse h
  obtain ⟨hle, hfinished⟩ := (exec_runOptions hrun).2.length
  rw [hout]
  refine ⟨runOptions_numbered hbackend hrun, hle, fun hzero => ?_⟩
  rcases hstatus with ⟨_, hr, _⟩ | ⟨htwo, _⟩
  · exact hfinished hr
  · rw [hzero] at htwo
    cases htwo

end Tool

/-- With the synthetic camera the command line decides what the tool prints. Of two runs with the
same one, on any two systems and clocks, one prints a first part of what the other prints, and a
run that succeeds prints all there is to print. -/
theorem inspectMain_reproducible {σ τ : Type} {H : HostParts σ} {H' : HostParts τ} {s s' : σ}
    {u u' : τ} {fl : Rounding} {inRange : ℚ → Bool} {strerror : Errno → String} {fuel : ℕ}
    {argv : List String} {options : Options} {log log' : List (Event host)} {status status' : ℕ}
    (hparse : parseOptions fl inRange argv = .ok options)
    (hbackend : options.config.backend = .synthetic)
    (h : Exec H.device (inspectMain fl inRange strerror fuel argv) s log status s')
    (h' : Exec H'.device (inspectMain fl inRange strerror fuel argv) u log' status' u') :
    (printed .out log <+: printed .out log' ∨ printed .out log' <+: printed .out log) ∧
      (status = 0 → printed .out log' <+: printed .out log) := by
  have hrun := inspectMain_numbered hparse hbackend h
  have hrun' := inspectMain_numbered hparse hbackend h'
  constructor
  · rcases Nat.le_total (printed .out log).length (printed .out log').length with hle | hle
    · exact Or.inl (hrun.numbered.comparable hrun'.numbered hle)
    · exact Or.inr (hrun'.numbered.comparable hrun.numbered hle)
  · intro hstatus
    apply hrun'.numbered.comparable hrun.numbered
    rw [hrun.finished hstatus]
    exact hrun'.length_le

def syntheticArguments : List String :=
  ["xgc2-camera-inspect", "--synthetic", "--format", "grey", "--width", "2", "--height", "1",
    "--capture", "1"]

def syntheticMain : Program host ℕ :=
  inspectMain .exact (fun _ => true) (fun _ => "") 2 syntheticArguments

def starvedAnswer : (r : host.Request) → host.Answer r
  | .inl (.inr .allocateStorage) => false
  | r => hostAnswer bufferedAnswer r

theorem inspectMain_reproducible_sample : ∃ log log',
    Exec anyParts.device syntheticMain () log 0 () ∧
    Exec anyParts.device syntheticMain () log' 2 () ∧ printed .out log' <+: printed .out log := by
  have hcaptured : (syntheticMain.evaluate (hostAnswer bufferedAnswer)).map Prod.snd = some 0 := by
    decide +kernel
  have hstarved : (syntheticMain.evaluate starvedAnswer).map Prod.snd = some 2 := by
    decide +kernel
  obtain ⟨log, h⟩ := exists_exec_anyParts hcaptured
  obtain ⟨log', h'⟩ := exists_exec_anyParts hstarved
  have hparse : parseOptions .exact (fun _ => true) syntheticArguments = .ok _ := rfl
  obtain ⟨_, hall⟩ := inspectMain_reproducible hparse rfl h h'
  exact ⟨log, log', h, h', hall rfl⟩

end CameraCore
