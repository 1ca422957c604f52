import CameraCore.ConstructedShape
import CameraCore.ScopedResources

/-!
# Construction and its unwinding

A constructor that throws has to give back what it got from the system: the descriptor of the
device and every mapping made so far. In the source the owners do that, a `UniqueFd` and a vector
of `Mapping` objects for each buffer, destroyed by the exception in whichever scope they live.

Here the construction of `CameraConstruction` is written with its scopes. An allocation may fail
before any call, and when a mapping is moved into its vector. What a scope has built is destroyed
after what is under construction in it, and a vector destroys its first element first.
-/

namespace CameraCore

open DeviceProgram FloatingPoint ScopedResources

/-- What has to be closed or unmapped. -/
inductive Resource
  | descriptor
  | region (mapping : Mapping)
deriving DecidableEq

/-- The resource an answered call hands out. -/
def acquired : Event linux → Option Resource
  | ⟨.openFile _, .ok _⟩ => some .descriptor
  | ⟨.mmap length _, .ok address⟩ => some (.region ⟨address, length⟩)
  | _ => none

abbrev ScopedFallible (α : Type) := Scoped linux Resource Exception α

variable {t : CaptureType} {σ : Type}

def BufferMemory.regions (memory : BufferMemory t) : List Resource :=
  memory.planes.map Resource.region

/-- What the members of the state give back: the buffers, then the descriptor. -/
def V4L2State.resources (s : V4L2State t) : List Resource :=
  s.buffers.flatMap BufferMemory.regions ++ [.descriptor]

def Constructed.resources (c : Constructed) : List Resource := c.state.resources

def scopedMapRegion (length : UInt64) (offset : UInt32) : ScopedFallible Mapping :=
  call .badAlloc (mapRegion length offset)

/-- A region pushed into a vector; it is still a temporary when the vector cannot grow. -/
def scopedPushRegion (length : UInt64) (offset : UInt32) : ScopedFallible Mapping := do
  let mapping ← scopedMapRegion length offset
  onThrow (allocation .badAlloc) (releaseAll [.region mapping])
  pure mapping

def scopedMapRegions (done : List Mapping) : (planes : List V4L2Plane) →
    ScopedFallible { mappings : List Mapping // mappings.length = planes.length }
  | [] => pure ⟨[], rfl⟩
  | plane :: rest => do
      let mapping ← onThrow (scopedPushRegion plane.length.toUInt64 plane.memOffset)
        (releaseAll (done.map Resource.region))
      let mappings ← scopedMapRegions (done ++ [mapping]) rest
      pure ⟨mapping :: mappings.val, congrArg Nat.succ mappings.property⟩

def scopedMapSinglePlane (buffer : V4L2Buffer) : ScopedFallible (BufferMemory .videoCapture) := do
  let mapping ← scopedPushRegion buffer.length.toUInt64 buffer.offset
  pure ⟨[mapping], planeCount_single mapping⟩

theorem planeCount_mapped {buffer : V4L2Buffer}
    (h : ¬(buffer.length.toNat = 0 ∨ videoMaxPlanes < buffer.length.toNat))
    (mappings : { mappings : List Mapping //
      mappings.length = ((List.ofFn buffer.planes).take buffer.length.toNat).length }) :
    PlaneCount .videoCaptureMplane mappings.val.length := by
  rw [mappings.property]
  exact planeCount_take h

def scopedMapMultiPlane (buffer : V4L2Buffer) :
    ScopedFallible (BufferMemory .videoCaptureMplane) :=
  if h : buffer.length.toNat = 0 ∨ videoMaxPlanes < buffer.length.toNat then
    throw (.camera .systemError "V4L2 query returned an invalid plane count")
  else do
    let mappings ← scopedMapRegions [] ((List.ofFn buffer.planes).take buffer.length.toNat)
    pure ⟨mappings.val, planeCount_mapped h mappings⟩

def scopedMapBuffer : (t : CaptureType) → V4L2Buffer → ScopedFallible (BufferMemory t)
  | .videoCapture, buffer => scopedMapSinglePlane buffer
  | .videoCaptureMplane, buffer => scopedMapMultiPlane buffer

def scopedAllocateOne (t : CaptureType) (index : ℕ) : ScopedFallible (BufferMemory t) := do
  match ← call .badAlloc (tryIoctl (.querybuf index t)) with
  | .error error => throw (.throwSystemError "VIDIOC_QUERYBUF" error)
  | .ok buffer => scopedMapBuffer t buffer

/-- The buffers from some index on, with those before it in the state. -/
def scopedAllocateEach (t : CaptureType) (done : List (BufferMemory t)) :
    List ℕ → ScopedFallible (List (BufferMemory t))
  | [] => pure []
  | index :: rest => do
      let memory ← onThrow (scopedAllocateOne t index)
        (releaseAll (done.flatMap BufferMemory.regions))
      let buffers ← scopedAllocateEach t (done ++ [memory]) rest
      pure (memory :: buffers)

def scopedAllocateBuffers (t : CaptureType) (config : CaptureConfig) :
    ScopedFallible (CaptureConfig × List (BufferMemory t)) := do
  match ← call .badAlloc (tryIoctl (.reqbufs config.bufferCount t)) with
  | .error error => throw (.throwSystemError "VIDIOC_REQBUFS" error)
  | .ok count =>
      if count < 2 then
        throw (.camera .unsupported "V4L2 driver allocated fewer than two buffers")
      else do
        let buffers ← scopedAllocateEach t [] (List.range count.toNat)
        pure ({ config with bufferCount := count }, buffers)

theorem strides_count {mode : CaptureMode} (strides : Strides mode.type) :
    PlaneCount mode.type strides.val.length :=
  strides.property

/-- The constructor past `open_device`, which owns the descriptor. -/
def scopedConfigure (fl : Rounding) (fuel : ℕ) (requested : CaptureConfig) :
    ScopedFallible Constructed := do
  let capabilities ← call .badAlloc (enumerateFd fuel)
  let (mode, selectedFourcc) ← ExceptT.mk (pure (resolve requested capabilities))
  let config := { requested with captureMode := mode }
  let (config, strides) ← call .badAlloc (configureFormat mode.type config selectedFourcc)
  let config ← call .badAlloc (configureFrameRate fl mode.type config)
  let (config, buffers) ← scopedAllocateBuffers mode.type config
  pure
    { type := mode.type
      camera :=
        { config := config
          capabilities := capabilities
          strides := strides.val
          selectedFourcc := selectedFourcc
          strideCount := strides_count strides }
      state := { buffers := buffers } }

def V4L2Camera.scopedConstruct (fl : Rounding) (fuel : ℕ) (requested : CaptureConfig) :
    ScopedFallible Constructed := do
  call .badAlloc (openDevice requested.device)
  onThrow (scopedConfigure fl fuel requested) (releaseAll [.descriptor])

def enumerateV4l2 (fuel : ℕ) (path : String) : Fallible Capabilities := do
  openDevice path
  enumerateFd fuel

def scopedEnumerateV4l2 (fuel : ℕ) (path : String) : ScopedFallible Capabilities := do
  call .badAlloc (openDevice path)
  let capabilities ← onThrow (call .badAlloc (enumerateFd fuel)) (releaseAll [.descriptor])
  ExceptT.lift (release .descriptor)
  pure capabilities

theorem extends_pushRegion (length : UInt64) (offset : UInt32) :
    Extends (scopedPushRegion length offset) (mapRegion length offset) := by
  have hpushed := (extends_call (ρ := Resource) Exception.badAlloc (mapRegion length offset)).bind
    fun mapping => (extends_except (.ok mapping)).after
      ((extends_allocation Exception.badAlloc).onThrow [Resource.region mapping])
  have hid : (mapRegion length offset >>= fun mapping => ExceptT.mk (pure (.ok mapping))) =
      mapRegion length offset := bind_pure _
  rwa [hid] at hpushed

theorem extends_mapRegions (done : List Mapping) (planes : List V4L2Plane) :
    Extends (scopedMapRegions done planes) (mapRegions planes) := by
  induction planes generalizing done with
  | nil => exact extends_except (.ok _)
  | cons plane rest ih =>
      apply ((extends_pushRegion _ _).onThrow _).bind
      intro mapping
      exact (ih _).bind fun mappings => extends_except (.ok _)

theorem extends_mapBuffer (t : CaptureType) (buffer : V4L2Buffer) :
    Extends (scopedMapBuffer t buffer) (mapBuffer t buffer) := by
  cases t with
  | videoCapture => exact (extends_pushRegion _ _).bind fun mapping => extends_except (.ok _)
  | videoCaptureMplane =>
      change Extends (scopedMapMultiPlane buffer) (mapMultiPlane buffer)
      unfold scopedMapMultiPlane mapMultiPlane
      split_ifs
      · exact extends_except (.error _)
      · exact (extends_mapRegions _ _).bind fun mappings => extends_except (.ok _)

theorem extends_allocateOne (t : CaptureType) (index : ℕ) :
    Extends (scopedAllocateOne t index) (tryIoctl (.querybuf index t) >>= fun x => match x with
      | .error error => throw (.throwSystemError "VIDIOC_QUERYBUF" error)
      | .ok buffer => mapBuffer t buffer) := by
  apply (extends_call _ _).bind
  intro x
  cases x with
  | error error => exact extends_except (.error _)
  | ok buffer => exact extends_mapBuffer t buffer

theorem extends_allocateEach (t : CaptureType) (done : List (BufferMemory t)) (is : List ℕ) :
    Extends (scopedAllocateEach t done is) (allocateEach t is) := by
  induction is generalizing done with
  | nil => exact extends_except (.ok _)
  | cons index rest ih =>
      have hround := ((extends_allocateOne t index).onThrow
        (done.flatMap BufferMemory.regions)).bind fun memory =>
          (ih (done ++ [memory])).bind fun buffers => extends_except (.ok (memory :: buffers))
      rw [bind_assoc] at hround
      refine (congrArg (Extends _) (bind_congr fun x => ?_)).mp hround
      cases x <;> rfl

theorem extends_allocateBuffers (t : CaptureType) (config : CaptureConfig) :
    Extends (scopedAllocateBuffers t config) (allocateBuffers t config) := by
  apply (extends_call _ _).bind
  intro x
  cases x with
  | error error => exact extends_except (.error _)
  | ok count =>
      dsimp only
      split_ifs
      · exact extends_except (.error _)
      · exact (extends_allocateEach t _ _).bind fun buffers => extends_except (.ok _)

theorem extends_construct (fl : Rounding) (fuel : ℕ) (requested : CaptureConfig) :
    Extends (V4L2Camera.scopedConstruct fl fuel requested)
      (V4L2Camera.construct fl fuel requested) := by
  apply (extends_call _ _).bind
  intro _
  have hconfigure : Extends (scopedConfigure fl fuel requested) (do
      let capabilities ← enumerateFd fuel
      let (mode, selectedFourcc) ← ExceptT.mk (pure (resolve requested capabilities))
      let config := { requested with captureMode := mode }
      let (config, strides) ← configureFormat mode.type config selectedFourcc
      let config ← configureFrameRate fl mode.type config
      let (config, buffers) ← allocateBuffers mode.type config
      pure
        { type := mode.type
          camera :=
            { config := config
              capabilities := capabilities
              strides := strides.val
              selectedFourcc := selectedFourcc
              strideCount := strides.property }
          state := { buffers := buffers } }) := by
    apply (extends_call _ _).bind
    intro capabilities
    apply (extends_except _).bind
    rintro ⟨mode, code⟩
    apply (extends_call _ _).bind
    rintro ⟨config, strides⟩
    apply (extends_call _ _).bind
    intro config'
    apply (extends_allocateBuffers _ _).bind
    rintro ⟨config'', buffers⟩
    exact extends_except (.ok _)
  exact hconfigure.onThrow [.descriptor]

theorem uses_mapRegion (length : UInt64) (offset : UInt32) :
    Uses acquired (scopedMapRegion length offset).run 0 (ofResult fun mapping =>
      {Resource.region mapping}) := by
  apply uses_call_request
  intro x
  cases x with
  | ok address => exact ⟨_, rfl, rfl⟩
  | error error => exact ⟨_, rfl, rfl⟩

theorem uses_pushRegion (length : UInt64) (offset : UInt32) :
    Uses acquired (scopedPushRegion length offset).run 0 (ofResult fun mapping =>
      {Resource.region mapping}) := by
  apply (uses_mapRegion _ _).except_bind
  intro mapping
  have hallocate : Uses acquired (allocation (I := linux) Exception.badAlloc).run 0
      (ofResult fun _ => 0) := uses_allocation Exception.badAlloc
  have hpush := hallocate.onThrow (uses_releaseAll [Resource.region mapping])
  exact hpush.except_bind fun _ => uses_ok _ rfl

theorem uses_mapRegions (done : List Mapping) (planes : List V4L2Plane) :
    Uses acquired (scopedMapRegions done planes).run (done.map Resource.region)
      (ofResult fun mappings =>
        ((done ++ mappings.val).map Resource.region : Multiset Resource)) := by
  induction planes generalizing done with
  | nil =>
      apply uses_ok
      rw [List.append_nil]
  | cons plane rest ih =>
      have hpush := (uses_pushRegion plane.length.toUInt64 plane.memOffset).onThrow
        (uses_releaseAll (done.map Resource.region))
      apply hpush.except_bind
      intro mapping
      have hrest := ih (done ++ [mapping])
      rw [List.map_append, ← Multiset.coe_add] at hrest
      apply hrest.except_bind
      intro mappings
      apply uses_ok
      rw [List.append_assoc]
      rfl

theorem uses_mapBuffer (t : CaptureType) (buffer : V4L2Buffer) :
    Uses acquired (scopedMapBuffer t buffer).run 0 (ofResult fun memory =>
      (memory.regions : Multiset Resource)) := by
  cases t with
  | videoCapture => exact (uses_pushRegion _ _).except_bind fun mapping => uses_ok _ rfl
  | videoCaptureMplane =>
      change Uses acquired (scopedMapMultiPlane buffer).run 0 _
      unfold scopedMapMultiPlane
      split_ifs
      · exact uses_throw _
      · exact (uses_mapRegions [] _).except_bind fun mappings => uses_ok _ rfl

theorem uses_allocateOne (t : CaptureType) (index : ℕ) :
    Uses acquired (scopedAllocateOne t index).run 0 (ofResult fun memory =>
      (memory.regions : Multiset Resource)) := by
  have hquery : Issues (fun r => ∀ x, acquired ⟨r, x⟩ = none)
      (tryIoctl (.querybuf index t)).run := issues_tryIoctl fun _ => rfl
  apply (uses_call hquery).except_bind
  intro x
  cases x with
  | error error => exact uses_throw _
  | ok buffer => exact uses_mapBuffer t buffer

theorem uses_allocateEach (t : CaptureType) (done : List (BufferMemory t)) (is : List ℕ) :
    Uses acquired (scopedAllocateEach t done is).run
      (done.flatMap BufferMemory.regions : List Resource) (ofResult fun buffers =>
        ((done ++ buffers).flatMap BufferMemory.regions : Multiset Resource)) := by
  induction is generalizing done with
  | nil =>
      apply uses_ok
      rw [List.append_nil]
  | cons index rest ih =>
      have hround := (uses_allocateOne t index).onThrow
        (uses_releaseAll (done.flatMap BufferMemory.regions))
      apply hround.except_bind
      intro memory
      have hrest := ih (done ++ [memory])
      rw [List.flatMap_append, ← Multiset.coe_add, List.flatMap_singleton] at hrest
      apply hrest.except_bind
      intro buffers
      apply uses_ok
      rw [List.append_assoc]
      rfl

theorem uses_allocateBuffers (t : CaptureType) (config : CaptureConfig) :
    Uses acquired (scopedAllocateBuffers t config).run 0 (ofResult fun x =>
      (x.2.flatMap BufferMemory.regions : Multiset Resource)) := by
  have hrequest : Issues (fun r => ∀ x, acquired ⟨r, x⟩ = none)
      (tryIoctl (.reqbufs config.bufferCount t)).run := issues_tryIoctl fun _ => rfl
  apply (uses_call hrequest).except_bind
  intro x
  cases x with
  | error error => exact uses_throw _
  | ok count =>
      dsimp only
      split_ifs
      · exact uses_throw _
      · exact (uses_allocateEach t [] _).except_bind fun buffers => uses_ok _ rfl

theorem uses_openDevice (path : String) :
    Uses acquired (call Exception.badAlloc (openDevice path)).run 0 (ofResult fun _ =>
      {Resource.descriptor}) := by
  unfold openDevice
  split_ifs
  · exact uses_throw _
  · apply uses_call_request
    intro x
    cases x with
    | ok u => exact ⟨_, rfl, rfl⟩
    | error error => exact ⟨_, rfl, rfl⟩

theorem acquired_of_enumerates {r : Request} (h : r.Enumerates) (x : r.Answer) :
    acquired ⟨r, x⟩ = none := by
  cases r with
  | ioctl request => rfl
  | _ => exact h.elim

theorem uses_enumerateFd (fuel : ℕ) :
    Uses acquired (call Exception.badAlloc (enumerateFd fuel)).run 0 (ofResult fun _ => 0) := by
  apply uses_call
  exact Issues.mono (issues_enumerateFd fuel) fun r hr x => acquired_of_enumerates hr x

theorem uses_configure (fl : Rounding) (fuel : ℕ) (requested : CaptureConfig) :
    Uses acquired (scopedConfigure fl fuel requested).run 0 (ofResult fun c =>
      (c.state.buffers.flatMap BufferMemory.regions : Multiset Resource)) := by
  apply (uses_enumerateFd fuel).except_bind
  intro capabilities
  have hresolve : Uses acquired (ExceptT.mk (pure (resolve requested capabilities)) :
      ScopedFallible (CaptureMode × UInt32)).run 0 (ofResult fun _ => 0) := by
    have hpure : Uses acquired (ExceptT.mk (pure (resolve requested capabilities)) :
        ScopedFallible (CaptureMode × UInt32)).run _ (ofResult fun _ => 0) := uses_except _
    cases hr : resolve requested capabilities <;> rw [hr] at hpure <;> exact hpure
  apply hresolve.except_bind
  rintro ⟨mode, code⟩
  have hformat : Uses acquired (call Exception.badAlloc (configureFormat mode.type
      { requested with captureMode := mode } code)).run 0 (ofResult fun _ => 0) :=
    uses_call (issues_configureFormat (fun _ _ _ _ _ => rfl) _ _ _)
  apply hformat.except_bind
  rintro ⟨config, strides⟩
  have hrate : Uses acquired (call Exception.badAlloc (configureFrameRate fl mode.type
      config)).run 0 (ofResult fun _ => 0) :=
    uses_call (issues_configureFrameRate (fun _ _ _ => rfl) _ _ _)
  apply hrate.except_bind
  intro config'
  apply (uses_allocateBuffers _ _).except_bind
  rintro ⟨config'', buffers⟩
  exact uses_ok _ rfl

theorem uses_construct (fl : Rounding) (fuel : ℕ) (requested : CaptureConfig) :
    Uses acquired (V4L2Camera.scopedConstruct fl fuel requested).run 0 (ofResult fun c =>
      (c.resources : Multiset Resource)) := by
  apply (uses_openDevice _).except_bind
  intro _
  have hscope := (uses_configure fl fuel requested).onThrow
    (uses_releaseAll [Resource.descriptor])
  have hsum : (fun c : Constructed =>
      (([Resource.descriptor] : List Resource) : Multiset Resource) +
        (c.state.buffers.flatMap BufferMemory.regions : Multiset Resource)) =
        fun c => (c.resources : Multiset Resource) := by
    funext c
    rw [add_comm]
    exact Multiset.coe_add _ _
  rw [hsum] at hscope
  exact hscope

variable {D : Device linux σ} {fl : Rounding} {fuel : ℕ} {requested : CaptureConfig} {d d' : σ}

/-- Whatever the device answers and wherever an exception is thrown, a constructor that throws has
given back all it got, each thing once; one that returns owns the descriptor and the mappings of
its buffers and nothing else, and has made the calls of the construction without scopes, which
loses no outcome by them. -/
theorem construction_releases {log : List (Event (owning linux Resource))}
    {r : Except Exception Constructed}
    (h : Exec (device D) (V4L2Camera.scopedConstruct fl fuel requested).run d log r d') :
    balance acquired 0 log = some (ofResult (fun c => (c.resources : Multiset Resource)) r) ∧
      (∀ c, r = .ok c →
        Exec D (V4L2Camera.construct fl fuel requested).run d (calls log) (.ok c) d') ∧
      ∀ log' r' d₁, Exec D (V4L2Camera.construct fl fuel requested).run d log' r' d₁ →
        ∃ log₁, Exec (device D) (V4L2Camera.scopedConstruct fl fuel requested).run d log₁ r' d₁ ∧
          calls log₁ = log' := by
  have hextends := extends_construct fl fuel requested
  have hbalance := uses_construct fl fuel requested σ D d log r d' h 0
  rw [zero_add, zero_add] at hbalance
  refine ⟨hbalance, ?_, fun log' r' d₁ hx => hextends.complete _ _ _ _ _ _ hx⟩
  rintro c rfl
  exact hextends.returns _ _ _ _ _ _ h

/-- The sample device, which maps the first buffer only. -/
def tornAnswer : (r : Request) → r.Answer
  | .ioctl (.querybuf index _) =>
      .ok { index := index, length := 4096, offset := .ofNat (4096 * index) }
  | .mmap _ offset => if offset = 0 then .ok 4096 else .error 12
  | r => bufferedAnswer r

theorem construction_releases_sample : ∃ log,
    Exec (device (fixed tornAnswer))
      (V4L2Camera.scopedConstruct .exact 2 { pixelFormat := .grey }).run () log
      (.error (.throwSystemError "mmap V4L2 buffer" 12)) () ∧
    balance acquired 0 log = some 0 := by
  have hrun : Exec (fixed tornAnswer)
      (V4L2Camera.construct .exact 2 { pixelFormat := .grey }).run () _
      (.error (.throwSystemError "mmap V4L2 buffer" 12)) () := exec_fixed rfl
  obtain ⟨log, hlog, _⟩ := (extends_construct _ _ _).complete _ _ _ _ _ _ hrun
  obtain ⟨hbalance, _⟩ := construction_releases hlog
  exact ⟨log, hlog, hbalance⟩

theorem uses_enumerateV4l2 (fuel : ℕ) (path : String) :
    Uses acquired (scopedEnumerateV4l2 fuel path).run 0 (ofResult fun _ => 0) := by
  apply (uses_openDevice _).except_bind
  intro _
  have hscope := (uses_enumerateFd fuel).onThrow (uses_releaseAll [Resource.descriptor])
  apply hscope.except_bind
  intro capabilities
  have hclose : Uses acquired (ExceptT.lift (release (I := linux) Resource.descriptor) :
      ScopedFallible Unit).run {Resource.descriptor} (ofResult fun _ => 0) :=
    (uses_release Resource.descriptor).bind fun _ => uses_ok _ rfl
  exact hclose.except_bind fun _ => uses_ok _ rfl

theorem extends_enumerateV4l2 (fuel : ℕ) (path : String) :
    Extends (scopedEnumerateV4l2 fuel path) (enumerateV4l2 fuel path) := by
  apply (extends_call _ _).bind
  intro _
  have hlist := (extends_call (ρ := Resource) Exception.badAlloc (enumerateFd fuel)).onThrow
    [Resource.descriptor]
  have hclosed := hlist.bind fun capabilities =>
    (extends_except (.ok capabilities)).after (extends_release Resource.descriptor)
  have hid : (enumerateFd fuel >>= fun capabilities => ExceptT.mk (pure (.ok capabilities))) =
      enumerateFd fuel := bind_pure _
  rwa [hid] at hclosed

theorem enumeration_closes {log : List (Event (owning linux Resource))} {path : String}
    {r : Except Exception Capabilities}
    (h : Exec (device D) (scopedEnumerateV4l2 fuel path).run d log r d') :
    balance acquired 0 log = some 0 ∧ ∀ capabilities, r = .ok capabilities →
      Exec D (enumerateV4l2 fuel path).run d (calls log) (.ok capabilities) d' := by
  have hbalance := uses_enumerateV4l2 fuel path σ D d log r d' h 0
  have hzero : ofResult (fun _ : Capabilities => (0 : Multiset Resource)) r = 0 := by
    cases r <;> rfl
  rw [zero_add, hzero] at hbalance
  refine ⟨hbalance, ?_⟩
  rintro capabilities rfl
  exact (extends_enumerateV4l2 fuel path).returns _ _ _ _ _ _ h

end CameraCore
