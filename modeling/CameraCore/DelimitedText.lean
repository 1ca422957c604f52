import Mathlib.Algebra.Order.Ring.Int

/-!
# Texts made of delimited fields

A line is often a row of fields, each followed by a text that begins with a character the field
does not contain. Such a row can be taken apart again: equal rows have equal fields, as long as
each field is written so that its value can be told from its text. Numerals are, to every base up
to 16.
-/

namespace DelimitedText

theorem field_cancel {c : Char} {a b rest rest' : List Char} (ha : c ∉ a) (hb : c ∉ b)
    (h : a ++ c :: rest = b ++ c :: rest') : a = b ∧ rest = rest' := by
  induction a generalizing b with
  | nil =>
      cases b with
      | nil =>
          simp only [List.nil_append, List.cons.injEq, true_and] at h
          exact ⟨rfl, h⟩
      | cons x b =>
          simp only [List.nil_append, List.cons_append, List.cons.injEq] at h
          exact absurd (h.1 ▸ List.mem_cons_self) hb
  | cons x a ih =>
      cases b with
      | nil =>
          simp only [List.nil_append, List.cons_append, List.cons.injEq] at h
          exact absurd (h.1 ▸ List.mem_cons_self) ha
      | cons y b =>
          simp only [List.cons_append, List.cons.injEq] at h
          simp only [List.mem_cons, not_or] at ha hb
          obtain ⟨rfl, rfl⟩ := ih ha.2 hb.2 h.2
          exact ⟨by rw [h.1], rfl⟩

/-- The character that ends a field in front of `delimiter` is not in the field. -/
def Ends (delimiter field : String) : Prop :=
  ∃ c tail, delimiter.toList = c :: tail ∧ c ∉ field.toList

theorem delimited_cancel {delimiter a b rest rest' : String} (ha : Ends delimiter a)
    (hb : Ends delimiter b) (h : a ++ (delimiter ++ rest) = b ++ (delimiter ++ rest')) :
    a = b ∧ rest = rest' := by
  obtain ⟨c, tail, hdelimiter, ha⟩ := ha
  obtain ⟨c', tail', hdelimiter', hb⟩ := hb
  rw [hdelimiter] at hdelimiter'
  cases hdelimiter'
  have hlist := congrArg String.toList h
  simp only [String.toList_append, hdelimiter, List.cons_append] at hlist
  obtain ⟨hfield, hrest⟩ := field_cancel ha hb hlist
  exact ⟨String.toList_inj.mp hfield, String.toList_inj.mp (List.append_cancel_left hrest)⟩

theorem prefix_cancel {a rest rest' : String} (h : a ++ rest = a ++ rest') : rest = rest' := by
  have hlist := congrArg String.toList h
  simp only [String.toList_append] at hlist
  exact String.toList_inj.mp (List.append_cancel_left hlist)

theorem digitChar_injective {m n : ℕ} (hm : m < 16) (hn : n < 16)
    (h : m.digitChar = n.digitChar) : m = n := by
  have hall : ∀ m : Fin 16, ∀ n : Fin 16, m.val.digitChar = n.val.digitChar → m = n := by decide
  exact congrArg Fin.val (hall ⟨m, hm⟩ ⟨n, hn⟩ h)

theorem toDigits_injective {base : ℕ} (hone : 1 < base) (hbase : base ≤ 16) {m n : ℕ}
    (h : Nat.toDigits base m = Nat.toDigits base n) : m = n := by
  induction m using Nat.strongRecOn generalizing n with
  | ind m ih =>
      by_cases hm : m < base
      · by_cases hn : n < base
        · rw [Nat.toDigits_of_lt_base hm, Nat.toDigits_of_lt_base hn, List.singleton_inj] at h
          exact digitChar_injective (by omega) (by omega) h
        · rw [Nat.toDigits_of_lt_base hm, Nat.toDigits_of_base_le hone (by omega)] at h
          have hlength := congrArg List.length h
          have hpos : 0 < (Nat.toDigits base (n / base)).length := Nat.length_toDigits_pos
          simp only [List.length_append, List.length_singleton] at hlength
          omega
      · by_cases hn : n < base
        · rw [Nat.toDigits_of_base_le hone (by omega), Nat.toDigits_of_lt_base hn] at h
          have hlength := congrArg List.length h
          have hpos : 0 < (Nat.toDigits base (m / base)).length := Nat.length_toDigits_pos
          simp only [List.length_append, List.length_singleton] at hlength
          omega
        · rw [Nat.toDigits_of_base_le hone (by omega : base ≤ m),
            Nat.toDigits_of_base_le hone (by omega : base ≤ n)] at h
          obtain ⟨hinit, hlast⟩ := List.append_inj' h rfl
          have hquotient := ih (m / base) (Nat.div_lt_self (by omega) hone) hinit
          rw [List.singleton_inj] at hlast
          have hm' := Nat.mod_lt m (by omega : 0 < base)
          have hn' := Nat.mod_lt n (by omega : 0 < base)
          have hremainder := digitChar_injective (by omega) (by omega) hlast
          rw [← Nat.div_add_mod m base, ← Nat.div_add_mod n base, hquotient, hremainder]

theorem mem_toDigits {base : ℕ} (hone : 1 < base) {n : ℕ} {c : Char}
    (h : c ∈ Nat.toDigits base n) : ∃ d < base, c = d.digitChar := by
  induction n using Nat.strongRecOn with
  | ind n ih =>
      by_cases hn : n < base
      · rw [Nat.toDigits_of_lt_base hn, List.mem_singleton] at h
        exact ⟨n, hn, h⟩
      · rw [Nat.toDigits_of_base_le hone (by omega), List.mem_append, List.mem_singleton] at h
        rcases h with h | rfl
        · exact ih (n / base) (Nat.div_lt_self (by omega) hone) h
        · exact ⟨n % base, Nat.mod_lt n (by omega), rfl⟩

theorem toString_nat_injective {m n : ℕ} (h : toString m = toString n) : m = n := by
  have hlist := congrArg String.toList h
  simp only [Nat.toString_eq_repr, Nat.toList_repr] at hlist
  exact toDigits_injective (by omega) (by omega) hlist

theorem notMem_toString_nat {n : ℕ} {c : Char} (h : ∀ d < 10, c ≠ d.digitChar) :
    c ∉ (toString n).toList := by
  rw [Nat.toString_eq_repr, Nat.toList_repr]
  intro hc
  obtain ⟨d, hd, hcd⟩ := mem_toDigits (by omega) hc
  exact h d hd hcd

theorem toString_int_eq (z : ℤ) :
    toString z = if 0 ≤ z then toString z.toNat else "-" ++ toString (-z).toNat := by
  rw [Int.toString_eq_repr, Int.repr_eq_if]
  rfl

theorem notMem_toString_int {z : ℤ} {c : Char} (hminus : c ≠ '-')
    (h : ∀ d < 10, c ≠ d.digitChar) : c ∉ (toString z).toList := by
  rw [toString_int_eq]
  split_ifs with hz
  · exact notMem_toString_nat h
  · rw [String.toList_append, List.mem_append, not_or]
    exact ⟨by simpa using hminus, notMem_toString_nat h⟩

theorem toString_int_injective {y z : ℤ} (h : toString y = toString z) : y = z := by
  have hminus : ∀ m n : ℕ, toString m ≠ "-" ++ toString n := by
    intro m n hmn
    have hin : '-' ∈ (toString m).toList := by
      rw [hmn]
      simp
    exact notMem_toString_nat (by decide) hin
  rw [toString_int_eq, toString_int_eq] at h
  split_ifs at h with hy hz hz
  · have hnat := toString_nat_injective h
    omega
  · exact absurd h (hminus _ _)
  · exact absurd h.symm (hminus _ _)
  · have hnat := toString_nat_injective (prefix_cancel h)
    omega

end DelimitedText
