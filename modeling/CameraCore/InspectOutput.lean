import CameraCore.DelimitedText
import CameraCore.FrameChecksum
import CameraCore.InspectOptions

/-!
# The output of the inspection tool

The texts `xgc2-camera-inspect` writes: its usage, the list of capabilities, one line for each
frame, and the report of an error. A stream shows an unsigned number in decimal digits, and the
checksum in hexadecimal ones. The frame rates of a size are doubles, shown with three places,
rounded to the nearest thousandth and to an even one from half way.
-/

namespace CameraCore

open DelimitedText FloatingPoint

def TimestampClock.toString : TimestampClock → String
  | .unknown => "unknown"
  | .realtime => "realtime"
  | .monotonic => "monotonic"

def versionString : String := "0.1.0"

def usage : String :=
  "xgc2-camera-inspect " ++ versionString ++ "\n" ++
  "Usage: xgc2-camera-inspect [options]\n" ++
  "  --device PATH            V4L2 device (default /dev/video0)\n" ++
  "  --synthetic              use deterministic CI backend\n" ++
  "  --format FORMAT          mjpeg,h264,yuyv,uyvy,rgb24,bgr24,nv12,grey\n" ++
  "  --mode MODE              auto,single,multi\n" ++
  "  --width PIXELS           requested width\n" ++
  "  --height PIXELS          requested height\n" ++
  "  --fps RATE               requested frame rate\n" ++
  "  --buffers COUNT          mmap buffer count\n" ++
  "  --capture COUNT          capture and summarize COUNT frames\n" ++
  "  --timeout-ms MS          per-frame timeout\n" ++
  "  --help                    show this help\n"

def fourccString (fourcc : UInt32) : String :=
  if fourcc = 0 then "----"
  else String.ofList ((List.range 4).map fun index =>
    Char.ofNat ((fourcc >>> (index * 8).toUInt32) &&& 0xff).toNat)

def FrameInterval.framesPerSecond (fl : Rounding) (interval : FrameInterval) : ℚ :=
  if interval.numerator = 0 then 0
  else fl.div interval.denominator.toNat interval.numerator.toNat

def roundHalfEven (x : ℚ) : ℤ :=
  let whole := ⌊x⌋
  if x - whole < 1 / 2 then whole
  else if 1 / 2 < x - whole then whole + 1
  else if whole % 2 = 0 then whole
  else whole + 1

/-- `std::fixed` with `std::setprecision(3)`, of a value that is not negative. -/
def fixedThree (x : ℚ) : String :=
  let thousandths := (roundHalfEven (x * 1000)).toNat
  let places := toString (thousandths % 1000)
  toString (thousandths / 1000) ++ "." ++
    String.ofList (List.replicate (3 - places.length) '0') ++ places

def yesNo (b : Bool) : String := if b then "yes" else "no"

def sizeText (fl : Rounding) (size : FrameSize) : String :=
  (if size.discrete then
    "  size=" ++ toString size.minWidth.toNat ++ "x" ++ toString size.minHeight.toNat
  else
    "  size=" ++ toString size.minWidth.toNat ++ "x" ++ toString size.minHeight.toNat ++ ".." ++
      toString size.maxWidth.toNat ++ "x" ++ toString size.maxHeight.toNat ++
      " step=" ++ toString size.widthStep.toNat ++ "x" ++ toString size.heightStep.toNat) ++
  (if size.frameIntervals = [] then ""
  else " fps=" ++ String.intercalate "," (size.frameIntervals.map fun interval =>
    fixedThree (interval.framesPerSecond fl))) ++ "\n"

def formatText (fl : Rounding) (format : FormatCapability) : String :=
  "format=" ++ format.pixelFormat.toString ++ " fourcc=" ++ fourccString format.fourcc ++
    " mode=" ++ format.captureMode.toString ++ " description=\"" ++ format.description ++ "\"\n" ++
    String.join (format.frameSizes.map (sizeText fl))

def capabilitiesText (fl : Rounding) (capabilities : Capabilities) : String :=
  "driver=" ++ capabilities.driver ++ " card=" ++ capabilities.card ++
    " bus=" ++ capabilities.busInfo ++ "\n" ++
    "streaming=" ++ yesNo capabilities.streaming ++
    " single_plane=" ++ yesNo capabilities.singlePlane ++
    " multi_plane=" ++ yesNo capabilities.multiPlane ++ "\n" ++
    String.join (capabilities.formats.map (formatText fl))

def hexadecimal (n : ℕ) : String := String.ofList (Nat.toDigits 16 n)

variable {ptr lease : Type}

/-- The sum of the payload sizes, in the 64 bits of a `std::size_t`. -/
def totalBytes (frame : FrameImpl ptr lease) : UInt64 :=
  frame.planes.foldl (fun total plane => total + plane.bytesUsed) 0

def frameText (frame : FrameImpl ptr lease) (timestampNs : ℤ) (checksum : UInt32) : String :=
  "frame sequence=" ++ toString frame.sequence.toNat ++
    " timestamp_ns=" ++ toString timestampNs ++
    " clock=" ++ frame.timestamp.clock.toString ++
    " size=" ++ toString frame.width.toNat ++ "x" ++ toString frame.height.toNat ++
    " format=" ++ frame.pixelFormat.toString ++
    " planes=" ++ toString frame.planes.length ++
    " bytes=" ++ toString (totalBytes frame).toNat ++
    " checksum=0x" ++ hexadecimal checksum.toNat ++ "\n"

theorem TimestampClock.toString_injective {c c' : TimestampClock}
    (h : c.toString = c'.toString) : c = c' := by
  cases c <;> cases c' <;> first | rfl | exact absurd h (by decide)

theorem PixelFormat.toString_injective {p p' : PixelFormat} (h : p.toString = p'.toString) :
    p = p' := by
  cases p <;> cases p' <;> first | rfl | exact absurd h (by decide)

theorem TimestampClock.ends_toString (c : TimestampClock) : Ends " size=" c.toString :=
  ⟨' ', "size=".toList, rfl, by cases c <;> decide⟩

theorem PixelFormat.ends_toString (p : PixelFormat) : Ends " planes=" p.toString :=
  ⟨' ', "planes=".toList, rfl, by cases p <;> decide⟩

theorem ends_nat {delimiter : String} {c : Char} {tail : List Char}
    (h : delimiter.toList = c :: tail) (hc : ∀ d < 10, c ≠ d.digitChar) (n : ℕ) :
    Ends delimiter (toString n) := ⟨c, tail, h, notMem_toString_nat hc⟩

theorem ends_int {delimiter : String} {c : Char} {tail : List Char}
    (h : delimiter.toList = c :: tail) (hc : ∀ d < 10, c ≠ d.digitChar) (hminus : c ≠ '-')
    (z : ℤ) : Ends delimiter (toString z) := ⟨c, tail, h, notMem_toString_int hminus hc⟩

theorem ends_hexadecimal (n : ℕ) : Ends "\n" (hexadecimal n) := by
  refine ⟨'\n', [], rfl, ?_⟩
  unfold hexadecimal
  rw [String.toList_ofList]
  intro h
  obtain ⟨d, hd, hc⟩ := mem_toDigits (by omega) h
  have hall : ∀ d : Fin 16, '\n' ≠ d.val.digitChar := by decide
  exact hall ⟨d, hd⟩ hc

theorem hexadecimal_injective {m n : ℕ} (h : hexadecimal m = hexadecimal n) : m = n := by
  unfold hexadecimal at h
  rw [String.ofList_inj] at h
  exact toDigits_injective (by omega) (by omega) h

/-- Two frames get the same line just when all the line shows agrees. -/
theorem frameText_eq_iff {ptr' lease' : Type} {f : FrameImpl ptr lease}
    {g : FrameImpl ptr' lease'} {m n : ℤ} {x y : UInt32} :
    frameText f m x = frameText g n y ↔
      f.sequence = g.sequence ∧ m = n ∧ f.timestamp.clock = g.timestamp.clock ∧
      f.width = g.width ∧ f.height = g.height ∧ f.pixelFormat = g.pixelFormat ∧
      f.planes.length = g.planes.length ∧ totalBytes f = totalBytes g ∧ x = y := by
  constructor
  · intro h
    unfold frameText at h
    simp only [String.append_assoc] at h
    have hafter : ∀ n : ℕ, Ends " timestamp_ns=" (toString n) := ends_nat rfl (by decide)
    obtain ⟨hsequence, h⟩ := delimited_cancel (hafter _) (hafter _) (prefix_cancel h)
    have hafter : ∀ z : ℤ, Ends " clock=" (toString z) := ends_int rfl (by decide) (by decide)
    obtain ⟨htimestamp, h⟩ := delimited_cancel (hafter _) (hafter _) h
    obtain ⟨hclock, h⟩ := delimited_cancel f.timestamp.clock.ends_toString
      g.timestamp.clock.ends_toString h
    have hafter : ∀ n : ℕ, Ends "x" (toString n) := ends_nat rfl (by decide)
    obtain ⟨hwidth, h⟩ := delimited_cancel (hafter _) (hafter _) h
    have hafter : ∀ n : ℕ, Ends " format=" (toString n) := ends_nat rfl (by decide)
    obtain ⟨hheight, h⟩ := delimited_cancel (hafter _) (hafter _) h
    obtain ⟨hformat, h⟩ := delimited_cancel f.pixelFormat.ends_toString
      g.pixelFormat.ends_toString h
    have hafter : ∀ n : ℕ, Ends " bytes=" (toString n) := ends_nat rfl (by decide)
    obtain ⟨hplanes, h⟩ := delimited_cancel (hafter _) (hafter _) h
    have hafter : ∀ n : ℕ, Ends " checksum=0x" (toString n) := ends_nat rfl (by decide)
    obtain ⟨hbytes, h⟩ := delimited_cancel (hafter _) (hafter _) h
    rw [← String.append_empty (s := "\n")] at h
    obtain ⟨hchecksum, _⟩ := delimited_cancel (ends_hexadecimal _) (ends_hexadecimal _) h
    exact ⟨UInt64.toNat_inj.mp (toString_nat_injective hsequence),
      toString_int_injective htimestamp, TimestampClock.toString_injective hclock,
      UInt32.toNat_inj.mp (toString_nat_injective hwidth),
      UInt32.toNat_inj.mp (toString_nat_injective hheight),
      PixelFormat.toString_injective hformat, toString_nat_injective hplanes,
      UInt64.toNat_inj.mp (toString_nat_injective hbytes),
      UInt32.toNat_inj.mp (hexadecimal_injective hchecksum)⟩
  · rintro ⟨hsequence, rfl, hclock, hwidth, hheight, hformat, hplanes, hbytes, rfl⟩
    unfold frameText
    rw [hsequence, hclock, hwidth, hheight, hformat, hplanes, hbytes]

/-- `what()` of an error of the library; `strerror` is that of the C library. -/
def ErrorText.what (strerror : Errno → String) : ErrorText → String
  | .literal text => text
  | .systemErrorMessage operation error =>
      operation ++ ": " ++ strerror error ++ " (errno " ++ toString error ++ ")"

end CameraCore
