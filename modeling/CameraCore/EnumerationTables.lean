import Mathlib.Data.Nat.Bitwise
import CameraCore.DeviceEnumeration

/-!
# Enumeration of a driver's tables

The three loops of the enumeration walk one table each: an index is counted up until the
driver answers `EINVAL`, and an entry may be the last one. `walkTable` is that walk. Over a
finite table it comes to an end and finds the entries up to the last one, in order, and over
any driver it throws just when a query failed.
-/

namespace CameraCore

open DeviceProgram

/-- The entries of a table up to the first one that is the last. -/
def throughLast {α : Type} (last : α → Bool) : List α → List α
  | [] => []
  | entry :: rest => if last entry then [entry] else entry :: throughLast last rest

/-- What a driver answers to an index into a table. -/
def lookUp {α : Type} (table : List α) (index : UInt32) : Except Errno α :=
  match table[index.toNat]? with
  | some entry => .ok entry
  | none => .error Errno.einval

def walkTable {α β : Type} (query : UInt32 → Fallible (Except Errno α)) (operation : String)
    (visit : α → Fallible (List β)) (last : α → Bool) : ℕ → UInt32 → List β → Fallible (List β)
  | 0, _, _ => cutOff
  | fuel + 1, index, output => do
      match ← query index with
      | .error error =>
          if error = Errno.einval then pure output else throw (.throwSystemError operation error)
      | .ok entry => do
          let found ← visit entry
          if last entry then pure (output ++ found)
          else walkTable query operation visit last fuel (index + 1) (output ++ found)

theorem throughLast_of_never {α : Type} (table : List α) :
    throughLast (fun _ => false) table = table := by
  induction table with
  | nil => rfl
  | cons entry rest ih => simp [throughLast, ih]

theorem lookUp_cases {α : Type} (table : List α) (index : UInt32) (h : index.toNat ≤ table.length) :
    (index.toNat = table.length ∧ lookUp table index = .error Errno.einval ∧
      table.drop index.toNat = []) ∨
    ∃ entry, index.toNat < table.length ∧ lookUp table index = .ok entry ∧
      table.drop index.toNat = entry :: table.drop (index.toNat + 1) := by
  unfold lookUp
  rcases Nat.lt_or_eq_of_le h with hlt | heq
  · rw [List.getElem?_eq_getElem hlt]
    exact Or.inr ⟨table[index.toNat], hlt, rfl, List.drop_eq_getElem_cons hlt⟩
  · rw [List.getElem?_eq_none heq.ge]
    exact Or.inl ⟨heq, rfl, List.drop_eq_nil_of_le heq.ge⟩

theorem toNat_succ {index : UInt32} {n : ℕ} (h : index.toNat < n) (hn : n < 2 ^ 32) :
    (index + 1).toNat = index.toNat + 1 := by
  have hone : (1 : UInt32).toNat = 1 := rfl
  rw [UInt32.toNat_add, hone]
  exact Nat.mod_eq_of_lt (by omega)

section Walk

variable {σ α β : Type} {D : Device linux σ} {d d' : σ} {log : Log}
  {query : UInt32 → Fallible (Except Errno α)} {operation : String}
  {visit : α → Fallible (List β)} {last : α → Bool} {table : List α} {fuel : ℕ} {index : UInt32}
  {output : List β} {x : Except Exception (List β)}

/-- A walk finds what the visits find, up to the last entry. -/
theorem walkTable_exact (found : α → List β) (hlen : table.length < 2 ^ 32)
    (hquery : ∀ i d log a d', Exec D (query i).run d log a d' → a = .ok (lookUp table i))
    (hvisit : ∀ entry d log a d', Exec D (visit entry).run d log a d' → a = .ok (found entry))
    (hi : index.toNat ≤ table.length)
    (h : Exec D (walkTable query operation visit last fuel index output).run d log x d') :
    x = .ok (output ++ (throughLast last (table.drop index.toNat)).flatMap found) := by
  induction fuel generalizing index output d log with
  | zero => exact h.elim
  | succ fuel ih =>
      rcases exec_except_bind.mp h with ⟨_, _, hq⟩ | ⟨answer, d₁, log₁, log₂, hq, hrest, _⟩
      · cases hquery _ _ _ _ _ hq
      · obtain rfl : answer = lookUp table index := Except.ok.inj (hquery _ _ _ _ _ hq)
        rcases lookUp_cases table index hi with ⟨_, hnone, hdrop⟩ | ⟨entry, hlt, hsome, hdrop⟩
        · rw [hnone] at hrest
          obtain ⟨_, rfl, _⟩ := exec_return.mp hrest
          rw [hdrop]
          simp [throughLast]
        · rw [hsome] at hrest
          rcases exec_except_bind.mp hrest with ⟨_, _, hv⟩ | ⟨items, d₂, _, _, hv, hnext, _⟩
          · cases hvisit _ _ _ _ _ hv
          · obtain rfl : items = found entry := Except.ok.inj (hvisit _ _ _ _ _ hv)
            rw [hdrop, throughLast]
            by_cases hlast : last entry = true
            · rw [if_pos hlast] at hnext ⊢
              obtain ⟨_, rfl, _⟩ := exec_return.mp hnext
              simp
            · rw [if_neg hlast] at hnext ⊢
              have hsucc := toNat_succ hlt hlen
              rw [ih (by omega) hnext, hsucc, List.flatMap_cons, List.append_assoc]

/-- With more queries than entries a walk comes to an end. -/
theorem walkTable_halts (hlen : table.length < 2 ^ 32)
    (hquery : ∀ i d, Halts D (query i).run d)
    (hanswer : ∀ i d log a d', Exec D (query i).run d log (.ok a) d' →
      a = lookUp table i ∨ ∃ error, a = .error error)
    (hvisit : ∀ entry d, Halts D (visit entry).run d)
    (hfuel : table.length < fuel + index.toNat) (hi : index.toNat ≤ table.length) :
    Halts D (walkTable query operation visit last fuel index output).run d := by
  induction fuel generalizing index output d with
  | zero => omega
  | succ fuel ih =>
      refine (hquery index d).except_bind ?_
      intro log answer d₁ hq
      cases answer with
      | error error =>
          dsimp only
          split_ifs
          · exact halts_pure _
          · exact halts_pure _
      | ok entry =>
          have hlook : lookUp table index = .ok entry := by
            rcases hanswer _ _ _ _ _ hq with h | ⟨_, h⟩
            · exact h.symm
            · cases h
          refine (hvisit entry d₁).except_bind ?_
          intro log' items d₂ _
          split_ifs
          · exact halts_pure _
          · rcases lookUp_cases table index hi with ⟨_, hnone, _⟩ | ⟨_, hlt, _, _⟩
            · rw [hnone] at hlook
              cases hlook
            · have hsucc := toNat_succ hlt hlen
              apply ih
              · omega
              · omega

end Walk

/-- A query that ends the enumeration with an exception. -/
def Failed : Event linux → Prop
  | ⟨.ioctl .querycap, .error _⟩ => True
  | ⟨.ioctl _, .error error⟩ => error ≠ Errno.einval
  | _ => False

/-- The program throws a system error just when one of its queries failed. -/
def Reports {α : Type} (p : Fallible α) : Prop :=
  ∀ ⦃σ : Type⦄ ⦃D : Device linux σ⦄ ⦃d d' : σ⦄ ⦃log : Log⦄ ⦃x : Except Exception α⦄,
    Exec D p.run d log x d' →
      ((∃ event ∈ log, Failed event) ↔ ∃ e, x = .error e) ∧
      ∀ e, x = .error e → e.hasCode .systemError

section Reports

variable {α β : Type}

theorem reports_pure (a : α) : Reports (pure a) := by
  intro σ D d d' log x h
  obtain ⟨rfl, rfl, _⟩ := exec_return.mp h
  simp

theorem failed_append {log log' : Log} :
    (∃ event ∈ log ++ log', Failed event) ↔
      (∃ event ∈ log, Failed event) ∨ ∃ event ∈ log', Failed event := by
  simp only [List.mem_append, or_and_right, exists_or]

theorem Reports.bind {p : Fallible α} {f : α → Fallible β} (hp : Reports p)
    (hf : ∀ a, Reports (f a)) : Reports (p >>= f) := by
  intro σ D d d' log x h
  rcases exec_except_bind.mp h with ⟨e, rfl, he⟩ | ⟨a, d₁, log₁, log₂, ha, hrest, rfl⟩
  · obtain ⟨hiff, hcode⟩ := hp he
    refine ⟨⟨fun _ => ⟨e, rfl⟩, fun _ => hiff.mpr ⟨e, rfl⟩⟩, ?_⟩
    intro e' he'
    cases he'
    exact hcode e rfl
  · have hnone : ¬ ∃ event ∈ log₁, Failed event := by
      rw [(hp ha).1]
      simp
    obtain ⟨hiff, hcode⟩ := hf a hrest
    rw [failed_append, or_iff_right hnone]
    exact ⟨hiff, hcode⟩

theorem exec_tryIoctl {σ : Type} {D : Device linux σ} {d d' : σ} {log : Log} {request : Ioctl}
    {x : Except Exception (Except Errno request.Payload)} :
    Exec D (tryIoctl request).run d log x d' ↔
      ∃ answer, x = .ok answer ∧ D d (.ioctl request) answer d' ∧
        log = [⟨.ioctl request, answer⟩] := by
  rw [← bind_pure (tryIoctl request), exec_tryIoctl_bind]
  constructor
  · rintro ⟨answer, d₁, log', hD, hlast, rfl⟩
    obtain ⟨rfl, rfl, rfl⟩ := exec_return.mp hlast
    exact ⟨answer, rfl, hD, rfl⟩
  · rintro ⟨answer, rfl, hD, rfl⟩
    exact ⟨answer, d', [], hD, exec_return.mpr ⟨rfl, rfl, rfl⟩, rfl⟩

/-- A query whose caller is to throw on every failure but `EINVAL`. -/
def Asks (query : Fallible (Except Errno α)) : Prop :=
  ∀ ⦃σ : Type⦄ ⦃D : Device linux σ⦄ ⦃d d' : σ⦄ ⦃log : Log⦄
    ⦃x : Except Exception (Except Errno α)⦄, Exec D query.run d log x d' →
      ∃ answer, x = .ok answer ∧
        ((∃ event ∈ log, Failed event) ↔ ∃ error, answer = .error error ∧ error ≠ Errno.einval)

theorem asks_tryIoctl {request : Ioctl} (h : request ≠ .querycap) : Asks (tryIoctl request) := by
  intro σ D d d' log x hx
  obtain ⟨answer, rfl, _, rfl⟩ := exec_tryIoctl.mp hx
  refine ⟨answer, rfl, ?_⟩
  cases answer with
  | error error =>
      have hfailed : Failed ⟨.ioctl request, .error error⟩ ↔ error ≠ Errno.einval := by
        cases request <;> first | exact Iff.rfl | exact absurd rfl h
      simp [hfailed]
  | ok entry =>
      have hfailed : ¬ Failed ⟨.ioctl request, .ok entry⟩ := by cases request <;> exact id
      simp [hfailed]

theorem Asks.bind {query : Fallible (Except Errno α)} {f : Except Errno α → Fallible β}
    (hquery : Asks query) (hend : Reports (f (.error Errno.einval)))
    (hthrow : ∀ error, error ≠ Errno.einval →
      ∃ operation, f (.error error) = throw (.throwSystemError operation error))
    (hok : ∀ entry, Reports (f (.ok entry))) : Reports (query >>= f) := by
  intro σ D d d' log x h
  rcases exec_except_bind.mp h with ⟨_, _, hq⟩ | ⟨answer, d₁, log₁, log₂, hq, hrest, rfl⟩
  · obtain ⟨_, he, _⟩ := hquery hq
    cases he
  · obtain ⟨answer', he, hfailed⟩ := hquery hq
    obtain rfl : answer = answer' := Except.ok.inj he
    rw [failed_append, hfailed]
    cases answer with
    | ok entry => simpa using hok entry hrest
    | error error =>
        by_cases heinval : error = Errno.einval
        · subst heinval
          simpa using hend hrest
        · obtain ⟨operation, hf⟩ := hthrow error heinval
          rw [hf] at hrest
          obtain ⟨rfl, rfl, _⟩ := exec_throw.mp hrest
          simp [heinval]

theorem reports_walkTable {query : UInt32 → Fallible (Except Errno α)} {operation : String}
    {visit : α → Fallible (List β)} {last : α → Bool} (hquery : ∀ i, Asks (query i))
    (hvisit : ∀ entry, Reports (visit entry)) (fuel : ℕ) (index : UInt32) (output : List β) :
    Reports (walkTable query operation visit last fuel index output) := by
  induction fuel generalizing index output with
  | zero =>
      intro σ D d d' log x h
      exact h.elim
  | succ fuel ih =>
      apply (hquery index).bind
      · exact reports_pure output
      · intro error herror
        exact ⟨operation, if_neg herror⟩
      · intro entry
        apply (hvisit entry).bind
        intro found
        split_ifs
        · exact reports_pure _
        · exact ih _ _

end Reports

def V4L2Frmival.isLast : V4L2Frmival → Bool
  | .discrete _ => false
  | .stepwise _ _ => true

/-- The intervals an entry contributes: a range its two ends, if they differ. -/
def V4L2Frmival.frameIntervals : V4L2Frmival → List FrameInterval
  | .discrete interval => [⟨interval.numerator, interval.denominator⟩]
  | .stepwise min max =>
      ⟨min.numerator, min.denominator⟩ ::
        if max = min then [] else [⟨max.numerator, max.denominator⟩]

namespace V4L2Frmsize

def isLast : V4L2Frmsize → Bool
  | .discrete _ _ => false
  | .stepwise _ _ _ _ _ _ => true

def minWidth : V4L2Frmsize → UInt32
  | .discrete width _ => width
  | .stepwise minWidth _ _ _ _ _ => minWidth

def minHeight : V4L2Frmsize → UInt32
  | .discrete _ height => height
  | .stepwise _ _ _ minHeight _ _ => minHeight

def frameSize (intervals : List FrameInterval) : V4L2Frmsize → FrameSize
  | .discrete width height =>
      { minWidth := width
        maxWidth := width
        widthStep := 0
        minHeight := height
        maxHeight := height
        heightStep := 0
        discrete := true
        frameIntervals := intervals }
  | .stepwise minWidth maxWidth stepWidth minHeight maxHeight stepHeight =>
      { minWidth := minWidth
        maxWidth := maxWidth
        widthStep := stepWidth
        minHeight := minHeight
        maxHeight := maxHeight
        heightStep := stepHeight
        discrete := false
        frameIntervals := intervals }

end V4L2Frmsize

def V4L2Fmtdesc.formatCapability (type : CaptureType) (sizes : List FrameSize)
    (format : V4L2Fmtdesc) : FormatCapability where
  pixelFormat := pixelFormatFromV4l2 format.pixelformat
  fourcc := format.pixelformat
  captureMode := type.mode
  description := fixedString format.description
  frameSizes := sizes

theorem enumerateIntervals_eq_walk (code width height : UInt32) (fuel : ℕ) (index : UInt32)
    (output : List FrameInterval) :
    enumerateIntervals code width height fuel index output =
      walkTable (fun i => tryIoctl (.enumFrameintervals i code width height))
        "VIDIOC_ENUM_FRAMEINTERVALS" (fun entry => pure entry.frameIntervals) V4L2Frmival.isLast
        fuel index output := by
  induction fuel generalizing index output with
  | zero => rfl
  | succ fuel ih =>
      apply bind_congr
      intro answer
      cases answer with
      | error error => rfl
      | ok entry =>
          cases entry with
          | discrete interval => exact ih _ _
          | stepwise min max =>
              have hdiffer : (max.numerator ≠ min.numerator ∨ max.denominator ≠ min.denominator) ↔
                  ¬ max = min := by
                rw [V4L2Fract.mk.injEq, not_and_or]
              change (if max.numerator ≠ min.numerator ∨ max.denominator ≠ min.denominator then
                  pure (output ++ [_] ++ [_]) else pure (output ++ [_])) =
                (pure (output ++ (_ :: if max = min then [] else [_])) : Fallible _)
              by_cases heq : max = min
              · rw [if_pos heq, if_neg (mt hdiffer.mp (not_not.mpr heq))]
              · rw [if_neg heq, if_pos (hdiffer.mpr heq), List.append_assoc]
                rfl

theorem enumerateSizes_eq_walk (code : UInt32) (fuel rest : ℕ) (index : UInt32)
    (output : List FrameSize) :
    enumerateSizes code fuel rest index output =
      walkTable (fun i => tryIoctl (.enumFramesizes i code)) "VIDIOC_ENUM_FRAMESIZES"
        (fun entry => do
          let intervals ← enumerateIntervals code entry.minWidth entry.minHeight fuel 0 []
          pure [entry.frameSize intervals])
        V4L2Frmsize.isLast rest index output := by
  induction rest generalizing index output with
  | zero => rfl
  | succ rest ih =>
      apply bind_congr
      intro answer
      cases answer with
      | error error => rfl
      | ok entry =>
          dsimp only
          rw [bind_assoc]
          cases entry with
          | discrete width height =>
              apply bind_congr
              intro intervals
              exact ih _ _
          | stepwise =>
              apply bind_congr
              intro intervals
              rfl

theorem enumerateFormats_eq_walk (type : CaptureType) (fuel rest : ℕ) (index : UInt32)
    (output : List FormatCapability) :
    enumerateFormats type fuel rest index output =
      walkTable (fun i => tryIoctl (.enumFmt i type)) "VIDIOC_ENUM_FMT"
        (fun entry => do
          let sizes ← enumerateSizes entry.pixelformat fuel fuel 0 []
          pure [entry.formatCapability type sizes])
        (fun _ => false) rest index output := by
  induction rest generalizing index output with
  | zero => rfl
  | succ rest ih =>
      apply bind_congr
      intro answer
      cases answer with
      | error error => rfl
      | ok entry =>
          dsimp only
          rw [bind_assoc]
          apply bind_congr
          intro sizes
          exact ih _ _

/-- The codes of a format are those it is requested with, and that of JPEG besides. -/
def PixelFormat.codes (format : PixelFormat) : List UInt32 :=
  [pixelFormatToV4l2 format .singlePlane, pixelFormatToV4l2 format .multiPlane] ++
    if format = .mjpeg then [pixFmtJpeg] else []

def namedFormats : List PixelFormat := [.mjpeg, .h264, .yuyv, .uyvy, .rgb24, .bgr24, .nv12, .grey]

def formatOfCode (code : UInt32) : PixelFormat :=
  (namedFormats.find? fun format => code ∈ format.codes).getD .unknown

theorem pixelFormatFromV4l2_eq (code : UInt32) : pixelFormatFromV4l2 code = formatOfCode code := by
  have hcodes : ∀ format : PixelFormat, format ≠ .unknown →
      (code ∈ format.codes ↔ pixelFormatFromV4l2 code = format) := by
    intro format hf
    rw [pixelFormatFromV4l2_eq_iff hf]
    by_cases hjpeg : format = .mjpeg
    · simp [PixelFormat.codes, hjpeg]
    · simp [PixelFormat.codes, hjpeg]
  have hnamed : ∀ format : PixelFormat, format ∈ namedFormats ↔ format ≠ .unknown := by
    intro format
    cases format <;> simp [namedFormats]
  unfold formatOfCode
  cases hfind : namedFormats.find? fun format => code ∈ format.codes with
  | some format =>
      have hmem := (hnamed format).mp (List.mem_of_find?_eq_some hfind)
      have hcode := List.find?_some hfind
      exact (hcodes format hmem).mp (of_decide_eq_true hcode)
  | none =>
      rw [List.find?_eq_none] at hfind
      by_contra hne
      have hcode := (hcodes _ hne).mpr rfl
      exact hfind _ ((hnamed _).mpr hne) (decide_eq_true hcode)

/-- The text of a field ends before its first NUL. -/
def fieldText (value : List Char) : String := String.ofList (value.take (value.idxOf '\x00'))

theorem fixedString_eq (value : List Char) : fixedString value = fieldText value := by
  have htake : value.takeWhile (fun character => character ≠ '\x00') =
      value.take (value.idxOf '\x00') := by
    induction value with
    | nil => rfl
    | cons character rest ih =>
        by_cases hnul : character = '\x00'
        · simp [hnul]
        · have hkeep : decide (character ≠ '\x00') = true := decide_eq_true hnul
          rw [List.takeWhile_cons_of_pos (p := fun character => decide (character ≠ '\x00')) hkeep,
            List.idxOf_cons_ne _ hnul, List.take_succ_cons, ih]
  unfold fixedString fieldText
  rw [htake]

theorem and_ne_zero_iff {flags flag : UInt32} {bit : ℕ} (h : flag.toNat = 2 ^ bit) :
    flags &&& flag ≠ 0 ↔ flags.toNat.testBit bit = true := by
  have hzero : flags &&& flag = 0 ↔ (flags &&& flag).toNat = 0 := UInt32.toNat_inj.symm
  rw [Ne, hzero, UInt32.toNat_and, h, Nat.and_two_pow]
  cases flags.toNat.testBit bit <;> simp

/-- A driver's tables, each short enough for its index. -/
structure DriverTables where
  capability : V4L2Capability
  formats : CaptureType → List V4L2Fmtdesc
  sizes : UInt32 → List V4L2Frmsize
  intervals : UInt32 → UInt32 → UInt32 → List V4L2Frmival
  formats_length : ∀ type, (formats type).length < 2 ^ 32
  sizes_length : ∀ code, (sizes code).length < 2 ^ 32
  intervals_length : ∀ code width height, (intervals code width height).length < 2 ^ 32

namespace DriverTables

def answer (tables : DriverTables) : (request : Ioctl) → Except Errno request.Payload
  | .querycap => .ok tables.capability
  | .enumFmt index type => lookUp (tables.formats type) index
  | .enumFramesizes index code => lookUp (tables.sizes code) index
  | .enumFrameintervals index code width height =>
      lookUp (tables.intervals code width height) index
  | _ => .error Errno.enotty

def frameIntervals (tables : DriverTables) (code width height : UInt32) : List FrameInterval :=
  (throughLast V4L2Frmival.isLast (tables.intervals code width height)).flatMap
    V4L2Frmival.frameIntervals

def frameSizes (tables : DriverTables) (code : UInt32) : List FrameSize :=
  (throughLast V4L2Frmsize.isLast (tables.sizes code)).map fun entry =>
    entry.frameSize (tables.frameIntervals code entry.minWidth entry.minHeight)

/-- What the loop over a table appends. -/
def formatCapabilities (tables : DriverTables) (type : CaptureType) : List FormatCapability :=
  (tables.formats type).map fun entry =>
    entry.formatCapability type (tables.frameSizes entry.pixelformat)

/-- The entry of the list for a format of a table, in the mode of that table. -/
def formatEntry (tables : DriverTables) (mode : CaptureMode) (format : V4L2Fmtdesc) :
    FormatCapability where
  pixelFormat := formatOfCode format.pixelformat
  fourcc := format.pixelformat
  captureMode := mode
  description := fieldText format.description
  frameSizes := tables.frameSizes format.pixelformat

/-- The bit of a flag in the capabilities of the device, or in those of the driver where the
device has none of its own. -/
def hasFlag (tables : DriverTables) (bit : ℕ) : Bool :=
  if tables.capability.capabilities.toNat.testBit 31 then
    tables.capability.deviceCaps.toNat.testBit bit
  else tables.capability.capabilities.toNat.testBit bit

/-- What the tables advertise: the formats of the single-plane table, then those of the multi-plane
table, each table only with its flag. -/
def advertised (tables : DriverTables) : Capabilities where
  driver := fieldText tables.capability.driver
  card := fieldText tables.capability.card
  busInfo := fieldText tables.capability.busInfo
  streaming := tables.hasFlag 26
  singlePlane := tables.hasFlag 0
  multiPlane := tables.hasFlag 12
  formats :=
    (if tables.hasFlag 0 then
      (tables.formats .videoCapture).map (tables.formatEntry .singlePlane) else []) ++
    if tables.hasFlag 12 then
      (tables.formats .videoCaptureMplane).map (tables.formatEntry .multiPlane) else []

theorem formatCapabilities_eq (tables : DriverTables) {type : CaptureType} {mode : CaptureMode}
    (h : type.mode = mode) :
    tables.formatCapabilities type = (tables.formats type).map (tables.formatEntry mode) := by
  apply List.map_congr_left
  intro format _
  unfold V4L2Fmtdesc.formatCapability formatEntry
  rw [pixelFormatFromV4l2_eq, fixedString_eq, h]

theorem hasFlag_eq (tables : DriverTables) (flag : UInt32) (bit : ℕ) (h : flag.toNat = 2 ^ bit) :
    decide (effectiveDeviceCaps tables.capability &&& flag ≠ 0) = tables.hasFlag bit := by
  have hown : tables.capability.capabilities &&& capDeviceCaps ≠ 0 ↔
      tables.capability.capabilities.toNat.testBit 31 = true := and_ne_zero_iff rfl
  rw [Bool.eq_iff_iff, decide_eq_true_iff, effectiveDeviceCaps, hasFlag]
  by_cases hbit : tables.capability.capabilities.toNat.testBit 31 = true
  · rw [if_pos (hown.mpr hbit), if_pos hbit]
    exact and_ne_zero_iff h
  · rw [if_neg (mt hown.mp hbit), if_neg hbit]
    exact and_ne_zero_iff h

/-- The driver answers the queries of the enumeration from the tables, perhaps after
interruptions. -/
structure Answers {σ : Type} (tables : DriverTables) (D : Device linux σ) : Prop where
  ready : ∀ s request, Request.Enumerates (.ioctl request) →
    ∃ s', D s (.ioctl request) (tables.answer request) s'
  only : ∀ s request x s', Request.Enumerates (.ioctl request) → D s (.ioctl request) x s' →
    x = tables.answer request ∨ x = .error Errno.eintr

/-- The driver answers from the tables or fails. -/
def MayFail {σ : Type} (tables : DriverTables) (D : Device linux σ) : Prop :=
  ∀ s request x s', Request.Enumerates (.ioctl request) → D s (.ioctl request) x s' →
    x = tables.answer request ∨ ∃ error, x = .error error

section

variable {tables : DriverTables} {σ : Type} {D : Device linux σ} {d d' : σ} {log : Log}

theorem lookUp_not_interrupted {α : Type} (table : List α) (index : UInt32) :
    lookUp table index ≠ .error Errno.eintr := by
  unfold lookUp
  split
  · intro h
    cases h
  · intro h
    exact absurd (Except.error.inj h) (by decide)

theorem answer_not_interrupted (tables : DriverTables) (request : Ioctl) :
    ¬ interrupted (.ioctl request) (tables.answer request) := by
  intro h
  have hanswer : tables.answer request = .error Errno.eintr := by
    cases hx : tables.answer request with
    | ok payload =>
        rw [hx] at h
        exact h.elim
    | error error =>
        rw [hx] at h
        exact congrArg Except.error h
  cases request with
  | querycap => cases hanswer
  | enumFmt => exact lookUp_not_interrupted _ _ hanswer
  | enumFramesizes => exact lookUp_not_interrupted _ _ hanswer
  | enumFrameintervals => exact lookUp_not_interrupted _ _ hanswer
  | _ => exact absurd (Except.error.inj hanswer) (by decide)

theorem Answers.retried (h : tables.Answers D) (request : Ioctl)
    (hr : Request.Enumerates (.ioctl request)) {x : Except Errno request.Payload}
    (hx : retryIoctl D d (.ioctl request) x d') : x = tables.answer request := by
  obtain ⟨s, hD⟩ := Retried.last hx
  rcases h.only _ _ _ _ hr hD with heq | rfl
  · exact heq
  · exact absurd rfl (Retried.not_again hx)

theorem Answers.retried_ready (h : tables.Answers D) {request : Ioctl}
    (hr : Request.Enumerates (.ioctl request)) (d : σ) :
    ∃ d', retryIoctl D d (.ioctl request) (tables.answer request) d' := by
  obtain ⟨d', hD⟩ := h.ready d request hr
  exact ⟨d', .done hD (tables.answer_not_interrupted request)⟩

theorem Answers.mayFail (h : tables.Answers D) : tables.MayFail D := by
  intro s request x s' hr hx
  rcases h.only s request x s' hr hx with heq | heq
  · exact Or.inl heq
  · exact Or.inr ⟨_, heq⟩

theorem MayFail.retried (h : tables.MayFail D) : tables.MayFail (retryIoctl D) := by
  intro s request x s' hr hx
  obtain ⟨s₁, hD⟩ := Retried.last hx
  exact h s₁ request x s' hr hD

theorem Answers.query (h : tables.Answers D) (request : Ioctl)
    (hr : Request.Enumerates (.ioctl request))
    {x : Except Exception (Except Errno request.Payload)}
    (hx : Exec (retryIoctl D) (tryIoctl request).run d log x d') :
    x = .ok (tables.answer request) := by
  obtain ⟨answer, rfl, hD, _⟩ := exec_tryIoctl.mp hx
  rw [h.retried request hr hD]

theorem Answers.intervals (h : tables.Answers D) {code width height : UInt32} {fuel : ℕ}
    {x : Except Exception (List FrameInterval)}
    (hx : Exec (retryIoctl D) (enumerateIntervals code width height fuel 0 []).run d log x d') :
    x = .ok (tables.frameIntervals code width height) := by
  rw [enumerateIntervals_eq_walk] at hx
  refine walkTable_exact _ (tables.intervals_length code width height) ?_ ?_ (Nat.zero_le _) hx
  · intro i d log a d' hq
    exact h.query (.enumFrameintervals i code width height) trivial hq
  · intro entry d log a d' hv
    exact (exec_return.mp hv).2.1

theorem Answers.sizes (h : tables.Answers D) {code : UInt32} {fuel rest : ℕ}
    {x : Except Exception (List FrameSize)}
    (hx : Exec (retryIoctl D) (enumerateSizes code fuel rest 0 []).run d log x d') :
    x = .ok (tables.frameSizes code) := by
  rw [enumerateSizes_eq_walk] at hx
  unfold frameSizes
  rw [List.map_eq_flatMap]
  refine walkTable_exact _ (tables.sizes_length code) ?_ ?_ (Nat.zero_le _) hx
  · intro i d log a d' hq
    exact h.query (.enumFramesizes i code) trivial hq
  · intro entry d log a d' hv
    rcases exec_except_bind.mp hv with ⟨_, _, hi⟩ | ⟨intervals, d₁, _, _, hi, hlast, _⟩
    · cases h.intervals hi
    · cases h.intervals hi
      exact (exec_return.mp hlast).2.1

theorem Answers.formats (h : tables.Answers D) {type : CaptureType} {fuel rest : ℕ}
    {output : List FormatCapability} {x : Except Exception (List FormatCapability)}
    (hx : Exec (retryIoctl D) (enumerateFormats type fuel rest 0 output).run d log x d') :
    x = .ok (output ++ tables.formatCapabilities type) := by
  rw [enumerateFormats_eq_walk] at hx
  unfold formatCapabilities
  rw [List.map_eq_flatMap]
  rw [← throughLast_of_never (tables.formats type)]
  refine walkTable_exact _ (tables.formats_length type) ?_ ?_ (Nat.zero_le _) hx
  · intro i d log a d' hq
    exact h.query (.enumFmt i type) trivial hq
  · intro entry d log a d' hv
    rcases exec_except_bind.mp hv with ⟨_, _, hs⟩ | ⟨sizes, d₁, _, _, hs, hlast, _⟩
    · cases h.sizes hs
    · cases h.sizes hs
      exact (exec_return.mp hlast).2.1

theorem Answers.type (h : tables.Answers D) {supported : Bool} {type : CaptureType} {fuel : ℕ}
    {output : List FormatCapability} {x : Except Exception (List FormatCapability)}
    (hx : Exec (retryIoctl D) (enumerateType supported type fuel output).run d log x d') :
    x = .ok (output ++ if supported then tables.formatCapabilities type else []) := by
  cases supported with
  | true => exact h.formats hx
  | false =>
      obtain ⟨_, rfl, _⟩ := exec_return.mp hx
      simp

theorem Answers.fd (h : tables.Answers D) {fuel : ℕ} {x : Except Exception Capabilities}
    (hx : Exec (retryIoctl D) (enumerateFd fuel).run d log x d') : x = .ok tables.advertised := by
  obtain ⟨answer, d₁, _, hD, hrest, _⟩ := exec_tryIoctl_bind.mp hx
  obtain rfl : answer = tables.answer .querycap := h.retried .querycap trivial hD
  rcases exec_except_bind.mp hrest with ⟨_, _, hs⟩ | ⟨single, d₂, _, _, hs, hnext, _⟩
  · cases h.type hs
  · cases h.type hs
    rcases exec_except_bind.mp hnext with ⟨_, _, hm⟩ | ⟨both, d₃, _, _, hm, hlast, _⟩
    · cases h.type hm
    · cases h.type hm
      obtain ⟨_, rfl, _⟩ := exec_return.mp hlast
      rw [tables.hasFlag_eq capStreaming 26 rfl, tables.hasFlag_eq capVideoCapture 0 rfl,
        tables.hasFlag_eq capVideoCaptureMplane 12 rfl, tables.formatCapabilities_eq rfl,
        tables.formatCapabilities_eq rfl, fixedString_eq, fixedString_eq, fixedString_eq]
      rfl

theorem halts_tryIoctl (request : Ioctl) : Halts D (tryIoctl request).run d :=
  halts_lift (halts_request (I := linux) (.ioctl request))

theorem MayFail.query (h : tables.MayFail D) (request : Ioctl)
    (hr : Request.Enumerates (.ioctl request)) {answer : Except Errno request.Payload}
    (hx : Exec (retryIoctl D) (tryIoctl request).run d log (.ok answer) d') :
    answer = tables.answer request ∨ ∃ error, answer = .error error := by
  obtain ⟨_, he, hD, _⟩ := exec_tryIoctl.mp hx
  cases he
  exact h.retried _ _ _ _ hr hD

theorem MayFail.intervals_halt (h : tables.MayFail D) {code width height : UInt32} {fuel : ℕ}
    (hfuel : 2 ^ 32 ≤ fuel) :
    Halts (retryIoctl D) (enumerateIntervals code width height fuel 0 []).run d := by
  have hlen := tables.intervals_length code width height
  rw [enumerateIntervals_eq_walk]
  refine walkTable_halts hlen (fun _ _ => halts_tryIoctl _) ?_ (fun _ _ => halts_pure _)
    (by omega) (Nat.zero_le _)
  intro i d log a d' hq
  exact h.query (.enumFrameintervals i code width height) trivial hq

theorem MayFail.sizes_halt (h : tables.MayFail D) {code : UInt32} {fuel : ℕ}
    (hfuel : 2 ^ 32 ≤ fuel) :
    Halts (retryIoctl D) (enumerateSizes code fuel fuel 0 []).run d := by
  have hlen := tables.sizes_length code
  rw [enumerateSizes_eq_walk]
  refine walkTable_halts hlen (fun _ _ => halts_tryIoctl _) ?_ ?_ (by omega) (Nat.zero_le _)
  · intro i d log a d' hq
    exact h.query (.enumFramesizes i code) trivial hq
  · intro entry d
    exact (h.intervals_halt hfuel).except_bind fun _ _ _ _ => halts_pure _

theorem MayFail.formats_halt (h : tables.MayFail D) {type : CaptureType} {fuel : ℕ}
    {output : List FormatCapability} (hfuel : 2 ^ 32 ≤ fuel) :
    Halts (retryIoctl D) (enumerateFormats type fuel fuel 0 output).run d := by
  have hlen := tables.formats_length type
  rw [enumerateFormats_eq_walk]
  refine walkTable_halts hlen (fun _ _ => halts_tryIoctl _) ?_ ?_ (by omega) (Nat.zero_le _)
  · intro i d log a d' hq
    exact h.query (.enumFmt i type) trivial hq
  · intro entry d
    exact (h.sizes_halt hfuel).except_bind fun _ _ _ _ => halts_pure _

theorem MayFail.fd_halts (h : tables.MayFail D) {fuel : ℕ} (hfuel : 2 ^ 32 ≤ fuel) :
    Halts (retryIoctl D) (enumerateFd fuel).run d := by
  have htype : ∀ (supported : Bool) (type : CaptureType) (output : List FormatCapability) (d : σ),
      Halts (retryIoctl D) (enumerateType supported type fuel output).run d := by
    intro supported type output d
    cases supported with
    | true => exact h.formats_halt hfuel
    | false => exact halts_pure _
  apply (halts_tryIoctl _).except_bind
  intro log answer d₁ _
  cases answer with
  | error error => exact halts_pure _
  | ok capability =>
      apply (htype _ _ _ _).except_bind
      intro log single d₂ _
      apply (htype _ _ _ _).except_bind
      intro log both d₃ _
      exact halts_pure _

end

end DriverTables

theorem reports_enumerateIntervals (code width height : UInt32) (fuel : ℕ) (index : UInt32)
    (output : List FrameInterval) :
    Reports (enumerateIntervals code width height fuel index output) := by
  rw [enumerateIntervals_eq_walk]
  apply reports_walkTable
  · intro i
    exact asks_tryIoctl (by simp)
  · intro entry
    exact reports_pure _

theorem reports_enumerateSizes (code : UInt32) (fuel rest : ℕ) (index : UInt32)
    (output : List FrameSize) : Reports (enumerateSizes code fuel rest index output) := by
  rw [enumerateSizes_eq_walk]
  apply reports_walkTable
  · intro i
    exact asks_tryIoctl (by simp)
  · intro entry
    exact (reports_enumerateIntervals _ _ _ _ _ _).bind fun _ => reports_pure _

theorem reports_enumerateType (supported : Bool) (type : CaptureType) (fuel : ℕ)
    (output : List FormatCapability) : Reports (enumerateType supported type fuel output) := by
  cases supported with
  | false => exact reports_pure output
  | true =>
      change Reports (enumerateFormats type fuel fuel 0 output)
      rw [enumerateFormats_eq_walk]
      apply reports_walkTable
      · intro i
        exact asks_tryIoctl (by simp)
      · intro entry
        exact (reports_enumerateSizes _ _ _ _ _).bind fun _ => reports_pure _

theorem reports_enumerateFd (fuel : ℕ) : Reports (enumerateFd fuel) := by
  intro σ D d d' log x h
  obtain ⟨answer, d₁, log₁, _, hrest, rfl⟩ := exec_tryIoctl_bind.mp h
  cases answer with
  | error error =>
      obtain ⟨rfl, rfl, _⟩ := exec_throw.mp hrest
      simp [Failed]
  | ok capability =>
      have hwalks := ((reports_enumerateType _ .videoCapture fuel []).bind fun formats =>
        (reports_enumerateType _ .videoCaptureMplane fuel formats).bind fun _ =>
          reports_pure _) hrest
      simpa [Failed] using hwalks

theorem DriverTables.Answers.exists_fd {tables : DriverTables} {σ : Type} {D : Device linux σ}
    (h : tables.Answers D) {fuel : ℕ} (hfuel : 2 ^ 32 ≤ fuel) (d : σ) :
    ∃ log d', Exec (retryIoctl D) (enumerateFd fuel).run d log (.ok tables.advertised) d' := by
  have hready : ∀ s r, r.Enumerates → ∃ x s', retryIoctl D s r x s' := by
    intro s r hr
    cases r with
    | ioctl request =>
        obtain ⟨s', hs⟩ := h.retried_ready hr s
        exact ⟨_, s', hs⟩
    | _ => exact hr.elim
  have hhalts : Halts (retryIoctl D) (enumerateFd fuel).run d := h.mayFail.fd_halts hfuel
  obtain ⟨log, x, d', hx⟩ := hhalts.exists_exec (issues_enumerateFd fuel) hready
  obtain rfl := h.fd hx
  exact ⟨log, d', hx⟩

/-- With as many queries as an index has values, the enumeration of a driver with finite tables
comes to an end; if no query fails it returns what the tables advertise, and on any driver it
throws a system error just when a query failed. -/
theorem enumeration_exact (tables : DriverTables) {σ : Type} (D : Device linux σ) (d : σ) {fuel : ℕ}
    (hfuel : 2 ^ 32 ≤ fuel) :
    (tables.Answers D → Halts (retryIoctl D) (enumerateFd fuel).run d ∧
      (∃ log d', Exec (retryIoctl D) (enumerateFd fuel).run d log (.ok tables.advertised) d') ∧
      ∀ log x d', Exec (retryIoctl D) (enumerateFd fuel).run d log x d' →
        x = .ok tables.advertised) ∧
    (tables.MayFail D → Halts (retryIoctl D) (enumerateFd fuel).run d) ∧
    ∀ log x d', Exec (retryIoctl D) (enumerateFd fuel).run d log x d' →
      ((∃ e, x = .error e ∧ e.hasCode .systemError) ↔ ∃ event ∈ log, Failed event) := by
  refine ⟨?_, fun h => h.fd_halts hfuel, ?_⟩
  · intro h
    exact ⟨h.mayFail.fd_halts hfuel, h.exists_fd hfuel d, fun log x d' hx => h.fd hx⟩
  · intro log x d' hx
    obtain ⟨hiff, hcode⟩ := reports_enumerateFd fuel hx
    rw [hiff]
    constructor
    · rintro ⟨e, he, _⟩
      exact ⟨e, he⟩
    · rintro ⟨e, he⟩
      exact ⟨e, he, hcode e he⟩

/-- Formats of both kinds, of a discrete size and a range of sizes behind which the driver has
more. -/
def sampleTables : DriverTables where
  capability :=
    { driver := ['s', 'a', 'm', 'p', 'l', 'e', '\x00']
      card := []
      busInfo := []
      capabilities := 0x80000000
      deviceCaps := 0x04001001 }
  formats
    | .videoCapture => [⟨['G', 'r', 'e', 'y', '\x00', 'y'], pixFmtGrey⟩]
    | .videoCaptureMplane => [⟨['J'], pixFmtJpeg⟩, ⟨['N', '\x00'], pixFmtNv12m⟩]
  sizes _ := [.discrete 640 480, .stepwise 16 4096 16 16 2160 8, .discrete 320 240]
  intervals _ _ _ := [.discrete ⟨1, 30⟩, .stepwise ⟨1, 25⟩ ⟨1, 5⟩]
  formats_length type := by cases type <;> simp
  sizes_length _ := by simp
  intervals_length _ _ _ := by simp

def DriverTables.driver (tables : DriverTables) : (r : Request) → r.Answer
  | .ioctl request => tables.answer request
  | .openFile _ => .ok ()
  | .mmap _ _ => .ok 4096
  | .poll _ => ⟨0, .ok 1⟩
  | .allocate => true

theorem DriverTables.answers_driver (tables : DriverTables) :
    tables.Answers (fixed tables.driver : Device linux Unit) where
  ready _ _ _ := ⟨(), rfl, rfl⟩
  only _ _ _ _ _ h := Or.inl h.1

theorem enumeration_exact_sample : ∃ log caps d',
    Exec (retryIoctl (fixed sampleTables.driver)) (enumerateFd (2 ^ 32)).run () log (.ok caps) d' ∧
    (caps.formats.map fun entry => (entry.pixelFormat, entry.captureMode, entry.description)) =
      [(.grey, .singlePlane, "Grey"), (.mjpeg, .multiPlane, "J"), (.nv12, .multiPlane, "N")] ∧
    (caps.formats.map fun entry =>
      entry.frameSizes.map fun size => (size.minWidth, size.frameIntervals.length)) =
        [[(640, 3), (16, 3)], [(640, 3), (16, 3)], [(640, 3), (16, 3)]] := by
  obtain ⟨hexact, _, _⟩ :=
    enumeration_exact sampleTables (fixed sampleTables.driver) () (le_refl (2 ^ 32))
  obtain ⟨_, ⟨log, d', hx⟩, _⟩ := hexact sampleTables.answers_driver
  exact ⟨log, _, d', hx, by decide, by decide⟩

end CameraCore
