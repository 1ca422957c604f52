import CameraCore.FloatingPoint

/-!
# Numbers read from text

The conversions of the C++ standard library from a text to a number, in the "C" locale. A
conversion reads the longest prefix that is a numeral, says how much it has read, and throws
when there is no such prefix or when its value is out of range. A numeral is read exactly, as
an integer or a rational, before it is brought into its type.

`integer?` recognizes a whole text. `DenotesInteger` says independently of it which texts
denote which integers.
-/

namespace TextConversion

open FloatingPoint

section Longest

variable {α β : Type} {read : List α → Option β} {text : List α} {value : β} {n : ℕ}

def longestUpTo (read : List α → Option β) (text : List α) : ℕ → Option (β × ℕ)
  | 0 => (read []).map fun value => (value, 0)
  | n + 1 =>
      match read (text.take (n + 1)) with
      | some value => some (value, n + 1)
      | none => longestUpTo read text n

/-- The value of the longest prefix that is read, and its length. -/
def longestPrefix (read : List α → Option β) (text : List α) : Option (β × ℕ) :=
  longestUpTo read text text.length

theorem longestUpTo_le {limit : ℕ} (h : longestUpTo read text limit = some (value, n)) :
    n ≤ limit ∧ read (text.take n) = some value := by
  induction limit with
  | zero =>
      obtain ⟨x, hread, he⟩ := Option.map_eq_some_iff.mp h
      cases he
      exact ⟨le_rfl, hread⟩
  | succ limit ih =>
      unfold longestUpTo at h
      cases hread : read (text.take (limit + 1)) with
      | some x =>
          rw [hread] at h
          cases h
          exact ⟨le_rfl, hread⟩
      | none =>
          rw [hread] at h
          obtain ⟨hle, hn⟩ := ih h
          exact ⟨by omega, hn⟩

theorem longestPrefix_of_read (h : read text = some value) :
    longestPrefix read text = some (value, text.length) := by
  unfold longestPrefix
  cases text with
  | nil =>
      change (read []).map _ = _
      rw [h]
      rfl
  | cons a rest =>
      rw [List.length_cons]
      unfold longestUpTo
      rw [← List.length_cons, List.take_length, h]

theorem longestPrefix_whole :
    longestPrefix read text = some (value, text.length) ↔ read text = some value := by
  constructor
  · intro h
    have hread := (longestUpTo_le h).2
    rwa [List.take_length] at hread
  · exact longestPrefix_of_read

end Longest

def isspace (c : Char) : Bool := c = ' ' || (9 ≤ c.toNat && c.toNat ≤ 13)

def isDigitOf (base : ℕ) (c : Char) : Bool :=
  c.isDigit || (base = 16 && 'a' ≤ c && c ≤ 'f')

def digitValue (c : Char) : ℕ := if c.isDigit then c.toNat - '0'.toNat else c.toNat - 'a'.toNat + 10

def digitsValue (base : ℕ) (digits : List Char) : ℕ :=
  digits.foldl (fun value c => base * value + digitValue c) 0

def PlainDigits (text : List Char) : Prop := text ≠ [] ∧ text.all (isDigitOf 10) = true

instance (text : List Char) : Decidable (PlainDigits text) := instDecidableAnd

def decimal? (text : List Char) : Option ℕ :=
  if PlainDigits text then some (digitsValue 10 text) else none

def signed? {β : Type} (read : List Char → Option β) (negate : β → β) : List Char → Option β
  | '-' :: text => (read text).map negate
  | '+' :: text => read text
  | text => read text

def signedDecimal? : List Char → Option ℤ :=
  signed? (fun digits => (decimal? digits).map Int.ofNat) Int.neg

def integer? (text : List Char) : Option ℤ := signedDecimal? (text.dropWhile isspace)

/-- A decimal integer behind optional white space and an optional sign. -/
inductive DenotesInteger : List Char → ℤ → Prop
  | plain {digits : List Char} (h : PlainDigits digits) :
      DenotesInteger digits (digitsValue 10 digits)
  | plus {digits : List Char} (h : PlainDigits digits) :
      DenotesInteger ('+' :: digits) (digitsValue 10 digits)
  | minus {digits : List Char} (h : PlainDigits digits) :
      DenotesInteger ('-' :: digits) (-digitsValue 10 digits)
  | space {c : Char} {text : List Char} {z : ℤ} (hc : isspace c = true)
      (h : DenotesInteger text z) : DenotesInteger (c :: text) z

theorem PlainDigits.head {c : Char} {text : List Char} (h : PlainDigits (c :: text)) :
    isspace c = false ∧ c ≠ '-' ∧ c ≠ '+' := by
  have hc : isDigitOf 10 c = true := by
    have hall := h.2
    rw [List.all_cons, Bool.and_eq_true] at hall
    exact hall.1
  have hdigit : 48 ≤ c.toNat ∧ c.toNat ≤ 57 := by
    simpa [isDigitOf, Char.isDigit, UInt32.le_iff_toNat_le] using hc
  refine ⟨?_, ?_, ?_⟩
  · have hne : c ≠ ' ' := by
      rintro rfl
      simp at hdigit
    simp [isspace, hne]
    omega
  · rintro rfl
    simp at hdigit
  · rintro rfl
    simp at hdigit

theorem decimal?_eq_some {text : List Char} {n : ℕ} :
    decimal? text = some n ↔ PlainDigits text ∧ n = digitsValue 10 text := by
  unfold decimal?
  split_ifs with h
  · rw [Option.some_inj]
    exact ⟨fun he => ⟨h, he.symm⟩, fun he => he.2.symm⟩
  · exact ⟨nofun, fun he => absurd he.1 h⟩

theorem signedDecimal?_of_plain {text : List Char} (h : PlainDigits text) :
    signedDecimal? text = some (digitsValue 10 text : ℤ) := by
  have hread : decimal? text = some (digitsValue 10 text) := decimal?_eq_some.mpr ⟨h, rfl⟩
  unfold signedDecimal? signed?
  split
  · exact absurd rfl h.head.2.1
  · exact absurd rfl h.head.2.2
  · dsimp only
    rw [hread]
    rfl

theorem signedDecimal?_sound {text : List Char} {z : ℤ} (h : signedDecimal? text = some z) :
    DenotesInteger text z := by
  unfold signedDecimal? signed? at h
  split at h
  · obtain ⟨x, hx, rfl⟩ := Option.map_eq_some_iff.mp h
    obtain ⟨n, hn, rfl⟩ := Option.map_eq_some_iff.mp hx
    obtain ⟨hd, rfl⟩ := decimal?_eq_some.mp hn
    exact .minus hd
  · obtain ⟨n, hn, rfl⟩ := Option.map_eq_some_iff.mp h
    obtain ⟨hd, rfl⟩ := decimal?_eq_some.mp hn
    exact .plus hd
  · obtain ⟨n, hn, rfl⟩ := Option.map_eq_some_iff.mp h
    obtain ⟨hd, rfl⟩ := decimal?_eq_some.mp hn
    exact .plain hd

theorem integer?_sound {text : List Char} {z : ℤ} (h : integer? text = some z) :
    DenotesInteger text z := by
  induction text with
  | nil => exact signedDecimal?_sound h
  | cons c text ih =>
      unfold integer? at h
      cases hc : isspace c with
      | true =>
          rw [List.dropWhile_cons_of_pos hc] at h
          exact .space hc (ih h)
      | false =>
          rw [List.dropWhile_cons_of_neg (by simp [hc])] at h
          exact signedDecimal?_sound h

theorem integer?_complete {text : List Char} {z : ℤ} (h : DenotesInteger text z) :
    integer? text = some z := by
  induction h with
  | @plain digits h =>
      unfold integer?
      cases digits with
      | nil => exact absurd rfl h.1
      | cons c digits =>
          rw [List.dropWhile_cons_of_neg (by simp [h.head.1])]
          exact signedDecimal?_of_plain h
  | @plus digits h =>
      change (decimal? digits).map Int.ofNat = _
      rw [decimal?_eq_some.mpr ⟨h, rfl⟩]
      rfl
  | @minus digits h =>
      change ((decimal? digits).map Int.ofNat).map Int.neg = _
      rw [decimal?_eq_some.mpr ⟨h, rfl⟩]
      rfl
  | space hc _ ih =>
      unfold integer?
      rw [List.dropWhile_cons_of_pos hc]
      exact ih

theorem integer?_eq_some {text : List Char} {z : ℤ} :
    integer? text = some z ↔ DenotesInteger text z :=
  ⟨integer?_sound, integer?_complete⟩

theorem DenotesInteger.unique {text : List Char} {z z' : ℤ} (h : DenotesInteger text z)
    (h' : DenotesInteger text z') : z = z' :=
  Option.some.inj ((integer?_complete h).symm.trans (integer?_complete h'))

theorem denotesInteger_toString (n : ℕ) : DenotesInteger (toString n).toList n := by
  rw [Nat.toString_eq_repr, Nat.toList_repr]
  have hdigit : ∀ c ∈ Nat.toDigits 10 n, c.isDigit = true := fun c hc =>
    Nat.isDigit_of_mem_toDigits (by decide) (by decide) hc
  have hplain : PlainDigits (Nat.toDigits 10 n) := by
    refine ⟨Nat.toDigits_ne_nil, ?_⟩
    rw [List.all_eq_true]
    intro c hc
    rw [isDigitOf, hdigit c hc, Bool.true_or]
  have hvalue : digitsValue 10 (Nat.toDigits 10 n) = n := by
    have hfold : digitsValue 10 (Nat.toDigits 10 n) =
        Nat.ofDigitChars 10 (Nat.toDigits 10 n) 0 := by
      rw [Nat.ofDigitChars_eq_foldl]
      apply List.foldl_ext
      intro value c hc
      rw [digitValue, if_pos (hdigit c hc)]
    rw [hfold, Nat.ofDigitChars_ten_toDigits]
  have hdenotes := DenotesInteger.plain hplain
  rwa [hvalue] at hdenotes

inductive Numeral
  | finite (value : ℚ)
  | infinite (negative : Bool)
  | nan

namespace Numeral

def negate : Numeral → Numeral
  | finite value => finite (-value)
  | infinite negative => infinite !negative
  | nan => nan

/-- The value as a double, unless it is out of range. -/
def toDouble? (fl : Rounding) (inRange : ℚ → Bool) : Numeral → Option Double
  | finite value => if inRange value then some (.finite (fl.round value)) else none
  | infinite negative => some (.infinite negative)
  | nan => some .nan

end Numeral

def exponent? : List Char → Option ℤ
  | [] => some 0
  | _ :: text => signedDecimal? text

/-- Digits with a point or without one, and an exponent behind `mark`, which counts in powers
of `radix`. -/
def scaled? (base : ℕ) (mark : Char) (radix : ℕ) (text : List Char) : Option ℚ :=
  let mantissa := text.takeWhile (· ≠ mark)
  let whole := mantissa.takeWhile (· ≠ '.')
  let fraction := (mantissa.dropWhile (· ≠ '.')).tail
  let digits := whole ++ fraction
  if digits ≠ [] ∧ digits.all (isDigitOf base) then
    (exponent? (text.dropWhile (· ≠ mark))).map fun exponent =>
      digitsValue base digits * (radix : ℚ) ^ exponent / base ^ fraction.length
  else none

def isNan : List Char → Bool
  | 'n' :: 'a' :: 'n' :: [] => true
  | 'n' :: 'a' :: 'n' :: '(' :: rest =>
      rest.getLast? = some ')' && rest.dropLast.all fun c => c.isAlphanum || c = '_'
  | _ => false

def unsigned? (text : List Char) : Option Numeral :=
  if text = ['i', 'n', 'f'] ∨ text = ['i', 'n', 'f', 'i', 'n', 'i', 't', 'y'] then
    some (.infinite false)
  else if isNan text then some .nan
  else
    match text with
    | '0' :: 'x' :: text => (scaled? 16 'p' 2 text).map .finite
    | text => (scaled? 10 'e' 10 text).map .finite

def number? (text : List Char) : Option Numeral :=
  signed? (fun text => unsigned? (text.map Char.toLower)) Numeral.negate (text.dropWhile isspace)

inductive StdError
  | invalidArgument (what : String)
  | outOfRange (what : String)
deriving DecidableEq, Repr

/-- `std::stoull` to base 10: a sign is part of the numeral, and the value of a negative one is
taken modulo `2 ^ 64`. -/
def stoull (text : List Char) : Except StdError (UInt64 × ℕ) :=
  match longestPrefix integer? text with
  | none => .error (.invalidArgument "stoull")
  | some (z, parsed) =>
      if 2 ^ 64 ≤ z.natAbs then .error (.outOfRange "stoull") else .ok (.ofInt z, parsed)

/-- `std::stod`; which values are out of range is up to the implementation. -/
def stod (fl : Rounding) (inRange : ℚ → Bool) (text : List Char) : Except StdError (Double × ℕ) :=
  match longestPrefix number? text with
  | none => .error (.invalidArgument "stod")
  | some (numeral, parsed) =>
      match numeral.toDouble? fl inRange with
      | none => .error (.outOfRange "stod")
      | some value => .ok (value, parsed)

theorem stoull_whole {text : List Char} {result : UInt64} :
    stoull text = .ok (result, text.length) ↔
      ∃ z, DenotesInteger text z ∧ z.natAbs < 2 ^ 64 ∧ result = .ofInt z := by
  unfold stoull
  constructor
  · intro h
    cases hread : longestPrefix integer? text with
    | none =>
        rw [hread] at h
        cases h
    | some found =>
        obtain ⟨z, parsed⟩ := found
        rw [hread] at h
        dsimp only at h
        split_ifs at h with hrange
        cases h
        exact ⟨z, integer?_eq_some.mp (longestPrefix_whole.mp hread), not_le.mp hrange, rfl⟩
  · rintro ⟨z, hz, hrange, rfl⟩
    rw [longestPrefix_of_read (integer?_eq_some.mpr hz)]
    exact if_neg (not_le.mpr hrange)

theorem stod_eq_ok {fl : Rounding} {inRange : ℚ → Bool} {text : List Char} {value : Double}
    {parsed : ℕ} :
    stod fl inRange text = .ok (value, parsed) ↔
      ∃ numeral, longestPrefix number? text = some (numeral, parsed) ∧
        numeral.toDouble? fl inRange = some value := by
  unfold stod
  cases longestPrefix number? text with
  | none => simp
  | some found =>
      obtain ⟨numeral, n⟩ := found
      dsimp only
      cases hvalue : numeral.toDouble? fl inRange with
      | none =>
          refine ⟨nofun, ?_⟩
          rintro ⟨_, he, hx⟩
          cases he
          rw [hvalue] at hx
          cases hx
      | some x =>
          constructor
          · intro h
            cases h
            exact ⟨numeral, rfl, hvalue⟩
          · rintro ⟨_, he, hx⟩
            cases he
            rw [hvalue] at hx
            cases hx
            rfl

end TextConversion
