import CameraCore.SequentialHash
import CameraCore.Types

/-!
# The checksum of a frame

What a client reads through the pointers of a frame, and the checksum the inspection tool
prints for it. The memory behind a pointer is a parameter: `fetch p i` is the byte at
`p[i]`. The checksum runs over the planes in order and sees their payload only as one
sequence of bytes. Its step can be undone, since the prime has an inverse modulo `2 ^ 32`, so
one byte that changes always shows.
-/

namespace CameraCore

open SequentialHash

variable {ptr lease : Type} (fetch : ptr → ℕ → UInt8)

def Plane.payload (plane : Plane ptr) : List UInt8 :=
  (List.range plane.bytesUsed.toNat).map (fetch plane.data)

namespace FrameImpl

def payloads (frame : FrameImpl ptr lease) : List (List UInt8) :=
  frame.planes.map (Plane.payload fetch)

def payload (frame : FrameImpl ptr lease) : List UInt8 := (frame.payloads fetch).flatten

end FrameImpl

/-- The body of the inner loop of `frame_checksum`. -/
def checksumStep (checksum : UInt32) (byte : UInt8) : UInt32 :=
  (checksum ^^^ byte.toUInt32) * 16777619

def frameChecksum (frame : FrameImpl ptr lease) : UInt32 :=
  frame.planes.foldl
    (fun checksum plane =>
      (List.range plane.bytesUsed.toNat).foldl
        (fun checksum index => checksumStep checksum (fetch plane.data index)) checksum)
    2166136261

/-- The two loops are one pass over the payload. -/
theorem frameChecksum_eq_foldl (frame : FrameImpl ptr lease) :
    frameChecksum fetch frame = (frame.payload fetch).foldl checksumStep 2166136261 := by
  unfold frameChecksum FrameImpl.payload FrameImpl.payloads Plane.payload
  rw [List.foldl_flatten, List.foldl_map]
  simp only [List.foldl_map]

/-- How the payload is split into planes does not matter. -/
theorem frameChecksum_congr {ptr' lease' : Type} {fetch' : ptr' → ℕ → UInt8}
    {frame : FrameImpl ptr lease} {frame' : FrameImpl ptr' lease'}
    (h : frame.payload fetch = frame'.payload fetch') :
    frameChecksum fetch frame = frameChecksum fetch' frame' := by
  rw [frameChecksum_eq_foldl, frameChecksum_eq_foldl, h]

/-- The inverse of the prime, by which a product with it is undone. -/
theorem prime_mul_inverse (x : UInt32) : x * 16777619 * 899433627 = x := by
  rw [UInt32.mul_assoc]
  exact UInt32.mul_one x

theorem checksumStep_lossless : Lossless checksumStep := by
  have hprime : ∀ x y : UInt32, x * 16777619 = y * 16777619 → x = y := by
    intro x y h
    rw [← prime_mul_inverse x, h, prime_mul_inverse]
  constructor
  · intro byte checksum checksum' h
    exact (UInt32.xor_left_inj byte.toUInt32).mp (hprime _ _ h)
  · intro checksum byte byte' h
    exact UInt8.toUInt32_inj.mp ((UInt32.xor_right_inj checksum).mp (hprime _ _ h))

/-- Frames that differ in one byte of one plane have different checksums, and frames with the
same bytes in a row have the same one, however the row is split into planes. -/
theorem checksum_detects_change {ptr' lease' : Type} {fetch' : ptr' → ℕ → UInt8}
    (frame : FrameImpl ptr lease) (frame' : FrameImpl ptr' lease') :
    (SingleChange (frame.payloads fetch) (frame'.payloads fetch') →
      frameChecksum fetch frame ≠ frameChecksum fetch' frame') ∧
    (frame.payload fetch = frame'.payload fetch' →
      frameChecksum fetch frame = frameChecksum fetch' frame') := by
  refine ⟨?_, frameChecksum_congr fetch⟩
  intro h
  rw [frameChecksum_eq_foldl, frameChecksum_eq_foldl]
  exact checksumStep_lossless.foldl_ne h.flatten _

def frameOfBytes (payloads : List (List UInt8)) : FrameImpl (List UInt8) Unit where
  planes := payloads.map fun bytes =>
    { data := bytes, bytesUsed := .ofNat bytes.length, length := 0, stride := 0 }
  width := 0
  height := 0
  pixelFormat := .grey
  captureMode := .singlePlane
  sequence := 0
  timestamp := {}
  lease := ()

theorem checksum_detects_change_sample :
    frameChecksum (fun bytes i => bytes.getD i 0) (frameOfBytes [[1, 2], [3]]) ≠
      frameChecksum (fun bytes i => bytes.getD i 0) (frameOfBytes [[1, 7], [3]]) ∧
    frameChecksum (fun bytes i => bytes.getD i 0) (frameOfBytes [[1, 2], [3]]) =
      frameChecksum (fun bytes i => bytes.getD i 0) (frameOfBytes [[1, 2, 3]]) := by
  constructor
  · apply (checksum_detects_change _ (frameOfBytes [[1, 2], [3]]) (frameOfBytes [[1, 7], [3]])).1
    refine ⟨rfl, 0, 1, by decide, ?_⟩
    intro i j hij
    match i, j with
    | 0, 0 => rfl
    | 0, 1 => exact absurd rfl hij
    | 0, _ + 2 => rfl
    | 1, _ => rfl
    | _ + 2, _ => rfl
  · apply (checksum_detects_change _ (frameOfBytes [[1, 2], [3]]) (frameOfBytes [[1, 2, 3]])).2
    rfl

end CameraCore
