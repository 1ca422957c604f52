import CameraCore.InspectOptions

/-!
# The numbers of the command line

`parse_uint` compares with its limit after a conversion to 64 bits, which wraps negative
numbers around. A text is misread exactly when the number it denotes is negative and wraps
around to one below the limit.
-/

namespace CameraCore

open FloatingPoint TextConversion

theorem except_bind_eq_ok {ε α β : Type} {x : Except ε α} {f : α → Except ε β} {b : β} :
    x >>= f = .ok b ↔ ∃ a, x = .ok a ∧ f a = .ok b := by
  cases x with
  | error e => exact ⟨nofun, fun ⟨_, h, _⟩ => nomatch h⟩
  | ok a => exact ⟨fun h => ⟨a, rfl, h⟩, fun ⟨_, h, h'⟩ => by cases h; exact h'⟩

theorem mapError_eq_ok {ε ε' α : Type} {x : Except ε α} {f : ε → ε'} {a : α} :
    x.mapError f = .ok a ↔ x = .ok a := by
  cases x with
  | error e => exact ⟨nofun, nofun⟩
  | ok b => exact ⟨fun h => by cases h; rfl, fun h => by cases h; rfl⟩

theorem toOption_eq_some {ε α : Type} {x : Except ε α} {a : α} :
    x.toOption = some a ↔ x = .ok a := by
  cases x with
  | error e => exact ⟨nofun, nofun⟩
  | ok b => exact ⟨fun h => by cases h; rfl, fun h => by cases h; rfl⟩

section Uint

variable {value option : String} {n : UInt32} {z : ℤ}

theorem parseUint_eq_stoull : parseUint value option = .ok n ↔
    ∃ result, stoull value.toList = .ok (result, value.toList.length) ∧ result ≤ 4294967295 ∧
      n = result.toUInt32 := by
  unfold parseUint
  rw [except_bind_eq_ok]
  constructor
  · rintro ⟨⟨result, parsed⟩, hread, h⟩
    rw [mapError_eq_ok] at hread
    dsimp only at h
    split_ifs at h with hbad
    · cases h
    · cases h
      obtain ⟨hparsed, hle⟩ := not_or.mp hbad
      rw [not_not, ← String.length_toList] at hparsed
      exact ⟨result, hparsed ▸ hread, UInt64.not_lt.mp hle, rfl⟩
  · rintro ⟨result, hread, hle, rfl⟩
    refine ⟨(result, value.toList.length), mapError_eq_ok.mpr hread, ?_⟩
    have hgood : ¬ (value.toList.length ≠ value.length ∨ 4294967295 < result) := by
      rw [String.length_toList]
      simpa using hle
    exact if_neg hgood

theorem parseUint_eq_ok : parseUint value option = .ok n ↔
    ∃ z, DenotesInteger value.toList z ∧ z.natAbs < 2 ^ 64 ∧ z % 2 ^ 64 = n.toNat := by
  rw [parseUint_eq_stoull]
  constructor
  · rintro ⟨result, hread, hle, rfl⟩
    obtain ⟨z, hz, hrange, rfl⟩ := stoull_whole.mp hread
    have hlt : (UInt64.ofInt z).toNat < 2 ^ 32 := by
      have hnat := UInt64.le_iff_toNat_le.mp hle
      change _ ≤ 4294967295 at hnat
      omega
    refine ⟨z, hz, hrange, ?_⟩
    rw [UInt64.toNat_toUInt32, Nat.mod_eq_of_lt hlt, uint64_ofInt_toNat]
  · rintro ⟨z, hz, hrange, hmod⟩
    have hn := UInt32.toNat_lt n
    have hnat : (UInt64.ofInt z).toNat = n.toNat := by
      have hcast := uint64_ofInt_toNat z
      rw [hmod] at hcast
      exact_mod_cast hcast
    refine ⟨.ofInt z, stoull_whole.mpr ⟨z, hz, hrange, rfl⟩, ?_, ?_⟩
    · apply UInt64.le_iff_toNat_le.mpr
      change _ ≤ 4294967295
      omega
    · apply UInt32.toNat_inj.mp
      rw [UInt64.toNat_toUInt32, hnat, Nat.mod_eq_of_lt hn]

/-- The text denotes a number that wraps around to one of 32 bits. -/
def WrapsAround (text : List Char) : Prop :=
  ∃ z, DenotesInteger text z ∧ -2 ^ 64 < z ∧ z < 2 ^ 32 - 2 ^ 64

theorem parseUint_of_denotes (h : DenotesInteger value.toList n.toNat) :
    parseUint value option = .ok n := by
  have hn := UInt32.toNat_lt n
  exact parseUint_eq_ok.mpr ⟨_, h, by omega, by omega⟩

/-- What is accepted is the number denoted, unless that wraps around. -/
theorem parseUint_denotes (h : parseUint value option = .ok n) :
    DenotesInteger value.toList n.toNat ∨ WrapsAround value.toList := by
  obtain ⟨z, hz, hrange, hmod⟩ := parseUint_eq_ok.mp h
  have hn := UInt32.toNat_lt n
  by_cases hneg : z < 0
  · exact Or.inr ⟨z, hz, by omega, by omega⟩
  · have hvalue : z = n.toNat := by omega
    exact Or.inl (hvalue ▸ hz)

theorem WrapsAround.parseUint (h : WrapsAround value.toList) (option : String) :
    ∃ n, parseUint value option = .ok n := by
  obtain ⟨z, hz, hlow, hhigh⟩ := h
  have hmod : z % 2 ^ 64 = z + 2 ^ 64 := by omega
  refine ⟨.ofNat (z + 2 ^ 64).toNat, parseUint_eq_ok.mpr ⟨z, hz, by omega, ?_⟩⟩
  rw [hmod, UInt32.toNat_ofNat', Nat.mod_eq_of_lt (by omega)]
  omega

theorem WrapsAround.not_denotes (h : WrapsAround value.toList) :
    ¬ DenotesInteger value.toList n.toNat := by
  intro hn
  obtain ⟨z, hz, _, hhigh⟩ := h
  have heq := hz.unique hn
  omega

/-- A number is returned only for a text that denotes it, texts that denote any other number are
rejected, and plain digits below the limit are read. -/
structure ReadsExactly (value : String) : Prop where
  sound : ∀ option n, parseUint value option = .ok n → DenotesInteger value.toList n.toNat
  rejects : ∀ z, DenotesInteger value.toList z → z < 0 ∨ 2 ^ 32 ≤ z →
    ∀ option, ∃ e, parseUint value option = .error e
  complete : PlainDigits value.toList → ∀ n : UInt32, digitsValue 10 value.toList = n.toNat →
    ∀ option, parseUint value option = .ok n

theorem readsExactly_of_sound
    (h : ∀ option n, parseUint value option = .ok n → DenotesInteger value.toList n.toNat) :
    ReadsExactly value := by
  refine ⟨h, ?_, ?_⟩
  · intro z hz hout option
    cases hparse : parseUint value option with
    | error e => exact ⟨e, rfl⟩
    | ok n =>
        have heq := hz.unique (h option n hparse)
        have hn := UInt32.toNat_lt n
        omega
  · intro hplain n hn option
    apply parseUint_of_denotes
    rw [← hn]
    exact .plain hplain

/-- A text is read exactly unless it denotes a number that wraps around to one of 32 bits. -/
theorem parseUint_exact_iff (value : String) :
    ReadsExactly value ↔ ¬ WrapsAround value.toList := by
  constructor
  · intro h hwraps
    obtain ⟨n, hn⟩ := hwraps.parseUint "--width"
    exact hwraps.not_denotes (h.sound _ n hn)
  · intro hwraps
    apply readsExactly_of_sound
    intro option n h
    exact (parseUint_denotes h).resolve_right hwraps

end Uint

/-- A negative number of twenty digits is accepted as 1. -/
theorem parseUint_misreads_negative :
    DenotesInteger "-18446744073709551615".toList (-18446744073709551615) ∧
    parseUint "-18446744073709551615" "--width" = .ok 1 ∧
    ¬ ReadsExactly "-18446744073709551615" := by
  have hdenotes : DenotesInteger "-18446744073709551615".toList (-18446744073709551615) :=
    integer?_eq_some.mp (by decide)
  have hok : parseUint "-18446744073709551615" "--width" = .ok 1 :=
    parseUint_eq_ok.mpr ⟨_, hdenotes, by decide, by decide⟩
  refine ⟨hdenotes, hok, ?_⟩
  intro h
  obtain ⟨e, he⟩ := h.rejects _ hdenotes (by decide) "--width"
  rw [hok] at he
  cases he

end CameraCore
