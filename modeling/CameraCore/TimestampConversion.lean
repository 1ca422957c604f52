import CameraCore.CameraFactory

/-!
# Timestamps in nanoseconds

`Timestamp::to_nanoseconds` guards a signed multiplication and a signed addition by the
seconds alone. The result is compared with the saturated value of the exact integer, for
the timestamps whose nanoseconds are below a second, as both backends make them. In one
second at each end of the range the guards decide wrongly.
-/

namespace CameraCore

namespace Timestamp

def exact (t : Timestamp) : ℤ := t.seconds.toInt * 10 ^ 9 + t.nanoseconds.toNat

def Normalized (t : Timestamp) : Prop := t.nanoseconds.toNat < 10 ^ 9

end Timestamp

/-- The nearest value of a signed 64-bit integer. -/
def saturate (x : ℤ) : ℤ :=
  if 2 ^ 63 - 1 < x then 2 ^ 63 - 1 else if x < -2 ^ 63 then -2 ^ 63 else x

theorem int64?_eq_some {x y : ℤ} : int64? x = some y ↔ y = x ∧ -2 ^ 63 ≤ x ∧ x < 2 ^ 63 := by
  unfold int64?
  split_ifs with h
  · rw [Option.some_inj]
    exact ⟨fun he => ⟨he.symm, h⟩, fun he => he.1.symm⟩
  · constructor
    · intro he
      cases he
    · rintro ⟨_, hx⟩
      exact absurd hx h

namespace Timestamp

variable {t u : Timestamp}

/-- The signed arithmetic does not overflow, and the result is the saturated one. -/
def Saturates (t : Timestamp) : Prop := t.toNanoseconds = some (saturate t.exact)

/-- In the last whole second the sum still fits; in the second the lower guard gives up
it does not. -/
def InRange (t : Timestamp) : Prop :=
  (t.seconds.toInt = 9223372036 → t.nanoseconds.toNat ≤ 854775807) ∧
    (t.seconds.toInt = -9223372037 → t.nanoseconds.toNat ≤ 145224192)

theorem toNanoseconds_above (h : 9223372036 < t.seconds.toInt) :
    t.toNanoseconds = some (2 ^ 63 - 1) := by
  have hmax : (2 ^ 63 - 1 : ℤ).tdiv 1000000000 = 9223372036 := by decide
  unfold toNanoseconds
  dsimp only
  rw [hmax, if_pos h]

theorem toNanoseconds_below (h : t.seconds.toInt < -9223372036) :
    t.toNanoseconds = some (-2 ^ 63) := by
  have hmax : (2 ^ 63 - 1 : ℤ).tdiv 1000000000 = 9223372036 := by decide
  have hmin : (-2 ^ 63 : ℤ).tdiv 1000000000 = -9223372036 := by decide
  unfold toNanoseconds
  dsimp only
  rw [hmax, hmin, if_neg (by omega), if_pos h]

/-- Between the guards only the addition can overflow. -/
theorem toNanoseconds_between (h : -9223372036 ≤ t.seconds.toInt)
    (h' : t.seconds.toInt ≤ 9223372036) : t.toNanoseconds = int64? t.exact := by
  have hmax : (2 ^ 63 - 1 : ℤ).tdiv 1000000000 = 9223372036 := by decide
  have hmin : (-2 ^ 63 : ℤ).tdiv 1000000000 = -9223372036 := by decide
  have hwhole : int64? (t.seconds.toInt * 1000000000) = some (t.seconds.toInt * 1000000000) :=
    int64?_eq_some.mpr ⟨rfl, by omega, by omega⟩
  unfold toNanoseconds
  dsimp only
  rw [hmax, hmin, if_neg (by omega), if_neg (by omega), hwhole]
  rfl

theorem toNanoseconds_exact (hn : t.Normalized) (h : -9223372036 * 10 ^ 9 ≤ t.exact)
    (h' : t.exact < 2 ^ 63) : t.toNanoseconds = some t.exact := by
  unfold Normalized at hn
  unfold exact at h h'
  rw [toNanoseconds_between (by omega) (by omega)]
  exact int64?_eq_some.mpr ⟨rfl, by unfold exact; omega, by unfold exact; omega⟩

theorem saturates_iff (hn : t.Normalized) : t.Saturates ↔ t.InRange := by
  unfold Normalized at hn
  unfold Saturates InRange
  by_cases habove : 9223372036 < t.seconds.toInt
  · have hs : saturate t.exact = 2 ^ 63 - 1 := by
      unfold saturate exact
      rw [if_pos (by omega)]
    rw [toNanoseconds_above habove, hs]
    exact ⟨fun _ => ⟨by omega, by omega⟩, fun _ => rfl⟩
  · by_cases hbelow : t.seconds.toInt < -9223372036
    · rw [toNanoseconds_below hbelow, Option.some_inj]
      unfold saturate exact
      constructor
      · intro h
        refine ⟨by omega, ?_⟩
        intro hs
        split_ifs at h <;> omega
      · rintro ⟨_, h⟩
        rw [if_neg (by omega)]
        split_ifs <;> omega
    · rw [toNanoseconds_between (by omega) (by omega), int64?_eq_some]
      unfold saturate exact
      constructor
      · rintro ⟨_, h⟩
        exact ⟨by omega, by omega⟩
      · rintro ⟨h, _⟩
        rw [if_neg (by omega), if_neg (by omega)]
        exact ⟨rfl, by omega, by omega⟩

def Before (t u : Timestamp) : Prop :=
  t.seconds.toInt < u.seconds.toInt ∨
    (t.seconds.toInt = u.seconds.toInt ∧ t.nanoseconds.toNat ≤ u.nanoseconds.toNat)

theorem Before.exact_le (h : t.Before u) (hn : t.Normalized) : t.exact ≤ u.exact := by
  unfold Normalized at hn
  unfold exact
  rcases h with h | ⟨h, h'⟩ <;> omega

theorem toNanoseconds_cases {x : ℤ} (h : t.toNanoseconds = some x) :
    (9223372036 < t.seconds.toInt ∧ x = 2 ^ 63 - 1) ∨
      (t.seconds.toInt < -9223372036 ∧ x = -2 ^ 63) ∨
      (x = t.exact ∧ -9223372036 ≤ t.seconds.toInt ∧ -2 ^ 63 ≤ x ∧ x < 2 ^ 63) := by
  by_cases habove : 9223372036 < t.seconds.toInt
  · rw [toNanoseconds_above habove] at h
    exact Or.inl ⟨habove, (Option.some.inj h).symm⟩
  · by_cases hbelow : t.seconds.toInt < -9223372036
    · rw [toNanoseconds_below hbelow] at h
      exact Or.inr (Or.inl ⟨hbelow, (Option.some.inj h).symm⟩)
    · rw [toNanoseconds_between (by omega) (by omega), int64?_eq_some] at h
      obtain ⟨rfl, hlo, hhi⟩ := h
      exact Or.inr (Or.inr ⟨rfl, by omega, hlo, hhi⟩)

theorem toNanoseconds_mono {x y : ℤ} (h : t.Before u) (hn : t.Normalized)
    (ht : t.toNanoseconds = some x) (hu : u.toNanoseconds = some y) : x ≤ y := by
  have hexact := h.exact_le hn
  have hsecs : t.seconds.toInt ≤ u.seconds.toInt := by
    rcases h with h | ⟨h, _⟩ <;> omega
  rcases toNanoseconds_cases ht with ⟨hs, rfl⟩ | ⟨hs, rfl⟩ | ⟨rfl, hs, hlo, hhi⟩
  · rw [toNanoseconds_above (by omega)] at hu
    exact (Option.some.inj hu).le
  · rcases toNanoseconds_cases hu with ⟨_, rfl⟩ | ⟨_, rfl⟩ | ⟨_, _, hlo, _⟩ <;> omega
  · rcases toNanoseconds_cases hu with ⟨_, rfl⟩ | ⟨hs', rfl⟩ | ⟨rfl, _⟩
    · omega
    · omega
    · exact hexact

end Timestamp

theorem timestampFrom_parts {buffer : V4L2Buffer} (h : 0 ≤ buffer.timestamp.tvUsec.toInt)
    (h' : buffer.timestamp.tvUsec.toInt < 10 ^ 6) :
    (timestampFrom buffer).seconds = buffer.timestamp.tvSec ∧
      ((timestampFrom buffer).nanoseconds.toNat : ℤ) = buffer.timestamp.tvUsec.toInt * 1000 := by
  have hnat : buffer.timestamp.tvUsec.toUInt64.toNat = buffer.timestamp.tvUsec.toInt.toNat :=
    Int64.toNat_toUInt64_of_le (Int64.le_iff_toInt_le.mpr h)
  refine ⟨rfl, ?_⟩
  change ((buffer.timestamp.tvUsec.toUInt64.toUInt32 * 1000).toNat : ℤ) = _
  rw [UInt32.toNat_mul, UInt64.toNat_toUInt32, hnat]
  change ((buffer.timestamp.tvUsec.toInt.toNat % 2 ^ 32 * 1000 % 2 ^ 32 : ℕ) : ℤ) = _
  omega

theorem timestampFrom_normalized {buffer : V4L2Buffer} (h : 0 ≤ buffer.timestamp.tvUsec.toInt)
    (h' : buffer.timestamp.tvUsec.toInt < 10 ^ 6) : (timestampFrom buffer).Normalized := by
  have hparts := (timestampFrom_parts h h').2
  unfold Timestamp.Normalized
  omega

theorem syntheticTimestamp_parts (ns : UInt64) :
    (syntheticTimestamp ns).nanoseconds.toNat = ns.toNat % 1000000000 ∧
      (syntheticTimestamp ns).seconds.toInt = ns.toNat / 1000000000 := by
  have hlt := UInt64.toNat_lt ns
  constructor
  · change (ns % 1000000000).toUInt32.toNat = _
    rw [UInt64.toNat_toUInt32, UInt64.toNat_mod]
    change ns.toNat % 1000000000 % 2 ^ 32 = _
    omega
  · change (ns / 1000000000).toInt64.toInt = _
    have hdiv : (ns / 1000000000).toNat = ns.toNat / 1000000000 := UInt64.toNat_div _ _
    rw [toInt64_toInt (by omega), hdiv]
    rfl

theorem syntheticTimestamp_normalized (ns : UInt64) : (syntheticTimestamp ns).Normalized := by
  unfold Timestamp.Normalized
  rw [(syntheticTimestamp_parts ns).1]
  omega

theorem syntheticTimestamp_exact (ns : UInt64) : (syntheticTimestamp ns).exact = ns.toNat := by
  obtain ⟨hnanos, hsecs⟩ := syntheticTimestamp_parts ns
  unfold Timestamp.exact
  rw [hnanos, hsecs]
  omega

theorem syntheticTimestamp_toNanoseconds {ns : UInt64} (h : ns.toNat < 2 ^ 63) :
    (syntheticTimestamp ns).toNanoseconds = some (ns.toNat : ℤ) := by
  have hexact := syntheticTimestamp_exact ns
  rw [Timestamp.toNanoseconds_exact (syntheticTimestamp_normalized ns) (by omega) (by omega),
    hexact]

/-- A timestamp of either backend is converted to the saturated value exactly when it is not
in one of the two seconds the guards get wrong; the results that are defined never go down. -/
theorem toNanoseconds_saturates_iff (t : Timestamp) (hn : t.Normalized) :
    (∀ buffer : V4L2Buffer, 0 ≤ buffer.timestamp.tvUsec.toInt →
      buffer.timestamp.tvUsec.toInt < 10 ^ 6 → (timestampFrom buffer).Normalized) ∧
    (∀ ns, (syntheticTimestamp ns).Normalized) ∧
    (t.Saturates ↔ t.InRange) ∧
    ∀ (u : Timestamp) (x y : ℤ), t.Before u → t.toNanoseconds = some x →
      u.toNanoseconds = some y → x ≤ y :=
  ⟨fun _ => timestampFrom_normalized, syntheticTimestamp_normalized, Timestamp.saturates_iff hn,
    fun _ _ _ h => Timestamp.toNanoseconds_mono h hn⟩

def bufferAt (seconds microseconds : Int64) : V4L2Buffer :=
  { index := 0, timestamp := ⟨seconds, microseconds⟩ }

theorem toNanoseconds_saturates_iff_sample :
    (timestampFrom (bufferAt 9223372036 854775)).toNanoseconds = some 9223372036854775000 := by
  have hn : (timestampFrom (bufferAt 9223372036 854775)).Normalized :=
    timestampFrom_normalized (by decide) (by decide)
  obtain ⟨_, _, hiff, _⟩ := toNanoseconds_saturates_iff _ hn
  exact hiff.mpr ⟨by decide, by decide⟩

/-- A frame captured in the last second before the limit has no value, and one captured in
the second the lower guard gives up has a wrong one. -/
theorem toNanoseconds_boundary :
    (timestampFrom (bufferAt 9223372036 900000)).Normalized ∧
    (timestampFrom (bufferAt 9223372036 900000)).toNanoseconds = none ∧
    (timestampFrom (bufferAt (-9223372037) 900000)).toNanoseconds ≠
      some (-9223372036100000000) ∧
    ¬ ∀ t : Timestamp, t.Normalized → t.Saturates := by
  have hn : (timestampFrom (bufferAt 9223372036 900000)).Normalized :=
    timestampFrom_normalized (by decide) (by decide)
  refine ⟨hn, by decide, by decide, ?_⟩
  intro h
  have hrange := (Timestamp.saturates_iff hn).mp (h _ hn)
  exact absurd (hrange.1 rfl) (by decide)

end CameraCore
