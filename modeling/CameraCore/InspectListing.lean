import CameraCore.EnumerationTables
import CameraCore.InspectTool

/-!
# The list of a device

With a V4L2 device the tool prints its capabilities first, whether it only lists them or captures
frames as well. Of a driver that answers from finite tables it prints what these advertise, once
the enumeration has walked them to their ends.
-/

namespace CameraCore

open DeviceProgram FloatingPoint ScopedResources

variable {σ : Type}

section Listing

variable {tables : DriverTables} {D : Device linux σ} {H : HostParts σ} {fl : Rounding} {fuel : ℕ}
  {s s' : σ} {log : List (Event host)}

/-- A device with these tables is listed as they are, before a frame of it is captured as well. -/
theorem exec_runOptions_listed {options : Options} {r : Except Exception Unit}
    (hans : tables.Answers D) (hH : H.system = retryIoctl D)
    (hbackend : options.config.backend = .v4l2)
    (h : Exec H.device (runOptions fl fuel options) s log r s') :
    ((∃ e, r = .error e) ∧ printed .out log = []) ∨ ∃ lines,
      printed .out log = capabilitiesText fl tables.advertised :: lines ∧
      FrameLines options.captureCount.toNat r lines := by
  cases runOptions_cases h with
  | unlisted _ henumerate => exact Or.inl ⟨⟨_, rfl⟩, exec_driver henumerate .out⟩
  | listed hlist henumerate hprint =>
      obtain ⟨_, hplain⟩ := enumeration_closes (exec_onSystem henumerate)
      have hwalk := hplain _ rfl
      rw [hH] at hwalk
      obtain ⟨_, s₁, log₁, log₂, _, henum, _⟩ := exec_bind_ok.mp hwalk
      obtain rfl := Except.ok.inj (hans.fd henum)
      rw [printed_append, exec_driver henumerate, exec_print hprint, if_pos rfl, hlist.2]
      exact Or.inr ⟨[], rfl, frameLines_none⟩
  | unmade hmake => exact Or.inl ⟨⟨_, rfl⟩, exec_driver hmake .out⟩
  | v4l2 hmake hinspect =>
      cases exec_makeCamera (exec_onSystem hmake) with
      | v4l2 _ hconstruct =>
          rw [hH] at hconstruct
          cases construct_stages hconstruct with
          | stages hopen henum =>
              obtain rfl := Except.ok.inj (hans.fd henum)
              obtain ⟨_, lines, hout, hlines⟩ := exec_inspect hinspect
              rw [printed_append, exec_driver hmake]
              exact Or.inr ⟨lines, hout, hlines⟩
  | synthetic hmake _ =>
      cases exec_makeCamera (exec_onSystem hmake) with
      | synthetic backend =>
          rw [hbackend] at backend
          cases backend

/-- Where the device can be opened and written text goes out, a run that only lists succeeds. -/
theorem exists_runOptions_listing {options : Options} (hans : tables.Answers D)
    (hH : H.system = retryIoctl D) (hfuel : 2 ^ 32 ≤ fuel)
    (hlist : options.config.backend = .v4l2 ∧ options.captureCount = 0)
    (hpath : options.config.device.isEmpty = false) {s₁ : σ}
    (hopen : D s (.openFile options.config.device) (.ok ()) s₁)
    (hout : ∀ s text, ∃ s', H.process s (.print .out text) () s') :
    ∃ log s', Exec H.device (runOptions fl fuel options) s log (.ok ()) s' := by
  obtain ⟨log₁, s₂, henum⟩ := hans.exists_fd hfuel s₁
  have hopened : Exec (retryIoctl D) (openDevice options.config.device).run s
      [⟨.openFile options.config.device, .ok ()⟩] (.ok ()) s₁ := by
    unfold openDevice
    rw [if_neg (by simp [hpath])]
    exact exec_lift_bind.mpr ⟨.ok (), s₁, _, [], exec_request.mpr ⟨.done hopen id, rfl⟩,
      exec_return.mpr ⟨rfl, rfl, rfl⟩, rfl⟩
  have hwalk : Exec (retryIoctl D) (enumerateV4l2 fuel options.config.device).run s _
      (.ok tables.advertised) s₂ := exec_bind_ok.mpr ⟨(), s₁, _, log₁, hopened, henum, rfl⟩
  rw [← hH] at hwalk
  obtain ⟨log₂, hscoped, _⟩ :=
    (extends_enumerateV4l2 fuel options.config.device).complete _ _ _ _ _ _ hwalk
  obtain ⟨s', hprint⟩ := hout s₂ (capabilitiesText fl tables.advertised)
  unfold runOptions
  rw [if_pos hlist]
  exact ⟨_, s', exec_bind.mpr ⟨_, s₂, _, _, exec_onSystem_of hscoped,
    exec_bind.mpr ⟨(), s', _, [], exec_right.mpr ⟨_, exec_request.mpr ⟨hprint, rfl⟩, rfl⟩,
      exec_pure.mpr ⟨rfl, rfl, rfl⟩, rfl⟩, rfl⟩⟩

end Listing

/-- What the tool prints for a device that answers from its tables begins with the list of what the
tables advertise, or the run ends with status 2 and prints nothing there. Where the device can be
opened and written text goes out, a tool that only lists has a run that succeeds, with the list
alone. -/
theorem tool_lists_tables {tables : DriverTables} {D : Device linux σ} (hans : tables.Answers D)
    {H : HostParts σ} (hH : H.system = retryIoctl D) {fl : Rounding} {inRange : ℚ → Bool}
    {strerror : Errno → String} {fuel : ℕ} {argv : List String} {options : Options}
    (hparse : parseOptions fl inRange argv = .ok options)
    (hbackend : options.config.backend = .v4l2) (s : σ) :
    (∀ log status s', Exec H.device (inspectMain fl inRange strerror fuel argv) s log status s' →
      (status = 2 ∧ printed .out log = []) ∨ ∃ lines,
        printed .out log = capabilitiesText fl tables.advertised :: lines ∧
        (status = 0 → lines.length = options.captureCount.toNat)) ∧
      (2 ^ 32 ≤ fuel → options.captureCount = 0 → options.config.device.isEmpty = false →
        (∃ s₁, D s (.openFile options.config.device) (.ok ()) s₁) →
        (∀ s text, ∃ s', H.process s (.print .out text) () s') →
        ∃ log s', Exec H.device (inspectMain fl inRange strerror fuel argv) s log 0 s' ∧
          printed .out log = [capabilitiesText fl tables.advertised]) := by
  have hlisted : ∀ log status s',
      Exec H.device (inspectMain fl inRange strerror fuel argv) s log status s' →
      (status = 2 ∧ printed .out log = []) ∨ ∃ lines,
        printed .out log = capabilitiesText fl tables.advertised :: lines ∧
        (status = 0 → lines.length = options.captureCount.toNat) := by
    intro log status s' h
    obtain ⟨log₁, r, s₁, hrun, hout, hstatus⟩ := exec_inspectMain hparse h
    rw [hout]
    rcases exec_runOptions_listed hans hH hbackend hrun with
      ⟨⟨e, rfl⟩, hnone⟩ | ⟨lines, hlines, hall⟩
    · rcases hstatus with ⟨_, he, _⟩ | ⟨htwo, _⟩
      · cases he
      · exact Or.inl ⟨htwo, hnone⟩
    · refine Or.inr ⟨lines, hlines, fun hzero => ?_⟩
      rcases hstatus with ⟨_, hr, _⟩ | ⟨htwo, _⟩
      · exact hall.all hr
      · rw [hzero] at htwo
        cases htwo
  refine ⟨hlisted, ?_⟩
  rintro hfuel hcount hpath ⟨s₁, hopen⟩ hout
  have hlisting : ∃ log s', Exec H.device (runOptions fl fuel options) s log (.ok ()) s' :=
    exists_runOptions_listing hans hH hfuel ⟨hbackend, hcount⟩ hpath hopen hout
  obtain ⟨log, s', hrun⟩ := hlisting
  have hmain : Exec H.device (inspectMain fl inRange strerror fuel argv) s (log ++ []) 0 s' := by
    unfold inspectMain
    rw [hparse]
    exact exec_bind.mpr ⟨.ok (), s', log, [], hrun, exec_pure.mpr ⟨rfl, rfl, rfl⟩, rfl⟩
  rcases hlisted _ _ _ hmain with ⟨htwo, _⟩ | ⟨lines, hlines, hall⟩
  · cases htwo
  · have hlength := hall rfl
    rw [hcount] at hlength
    obtain rfl := List.eq_nil_of_length_eq_zero hlength
    exact ⟨_, s', hmain, hlines⟩

/-- The process may write anything, and the device answers from the sample tables. -/
def tabledParts : HostParts Unit where
  system := retryIoctl (fixed sampleTables.driver)
  clock _ _ _ _ := True
  process _ _ _ _ := True

theorem tool_lists_tables_sample : ∃ log s',
    Exec tabledParts.device
      (inspectMain .exact (fun _ => true) (fun _ => "") (2 ^ 32) ["xgc2-camera-inspect"]) () log 0
      s' ∧
    printed .out log = [capabilitiesText .exact sampleTables.advertised] := by
  have hparse : parseOptions .exact (fun _ => true) ["xgc2-camera-inspect"] = .ok {} := rfl
  have hsystem : tabledParts.system = retryIoctl (fixed sampleTables.driver) := rfl
  exact (tool_lists_tables sampleTables.answers_driver hsystem hparse rfl ()).2 (le_refl (2 ^ 32))
    rfl (by decide) ⟨(), rfl, rfl⟩ fun _ _ => ⟨(), trivial⟩

end CameraCore
