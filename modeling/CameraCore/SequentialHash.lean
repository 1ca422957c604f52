import Mathlib.Data.List.Basic
import Mathlib.Logic.Function.Basic

/-!
# Hashes that take one entry after the other

A sequential hash folds a step over its input. When the step forgets neither the state nor the
entry, a difference once in the state is carried through all that follows, so inputs of one
shape that differ in a single place have different hashes.
-/

namespace SequentialHash

open Function

variable {σ α : Type}

inductive OneChange : List α → List α → Prop
  | here {a b : α} {l : List α} (h : a ≠ b) : OneChange (a :: l) (b :: l)
  | there {a : α} {l l' : List α} (h : OneChange l l') : OneChange (a :: l) (a :: l')

namespace OneChange

variable {l l' : List α}

theorem append_left (h : OneChange l l') (before : List α) :
    OneChange (before ++ l) (before ++ l') := by
  induction before with
  | nil => exact h
  | cons a before ih => exact .there ih

theorem append_right (h : OneChange l l') (after : List α) :
    OneChange (l ++ after) (l' ++ after) := by
  induction h with
  | here hne => exact .here hne
  | there _ ih => exact .there ih

theorem of_getElem? {j : ℕ} (hlen : l.length = l'.length) (hj : l[j]? ≠ l'[j]?)
    (hrest : ∀ k, k ≠ j → l[k]? = l'[k]?) : OneChange l l' := by
  induction l generalizing l' j with
  | nil =>
      rw [List.length_nil] at hlen
      rw [List.eq_nil_of_length_eq_zero hlen.symm] at hj
      exact absurd rfl hj
  | cons a l ih =>
      cases l' with
      | nil => cases hlen
      | cons b l' =>
          have hlen' : l.length = l'.length := Nat.succ.inj hlen
          cases j with
          | zero =>
              obtain rfl : l = l' := List.ext_getElem? fun k => hrest (k + 1) (by omega)
              exact .here fun hab => hj (congrArg some hab)
          | succ j =>
              obtain rfl : a = b := Option.some.inj (hrest 0 (by omega))
              exact .there (ih hlen' hj fun k hk => hrest (k + 1) (by omega))

end OneChange

def entryAt (xss : List (List α)) (i j : ℕ) : Option α := xss[i]?.bind fun xs => xs[j]?

/-- Lists of the same lengths, one by one, with different entries in exactly one place. -/
structure SingleChange (xss yss : List (List α)) : Prop where
  lengths : xss.map List.length = yss.map List.length
  differ : ∃ i j, entryAt xss i j ≠ entryAt yss i j ∧
    ∀ i' j', (i', j') ≠ (i, j) → entryAt xss i' j' = entryAt yss i' j'

theorem eq_of_entryAt {xss yss : List (List α)} (hlen : xss.length = yss.length)
    (h : ∀ i j, entryAt xss i j = entryAt yss i j) : xss = yss := by
  apply List.ext_getElem hlen
  intro i hi hi'
  apply List.ext_getElem?
  intro j
  have hij := h i j
  rw [entryAt, entryAt, List.getElem?_eq_getElem hi, List.getElem?_eq_getElem hi'] at hij
  exact hij

/-- How the entries are split into lists is of no account for the change. -/
theorem SingleChange.flatten {xss yss : List (List α)} (h : SingleChange xss yss) :
    OneChange xss.flatten yss.flatten := by
  obtain ⟨hlen, i, j, hne, hrest⟩ := h
  induction xss generalizing yss i with
  | nil =>
      rw [List.map_nil] at hlen
      rw [List.map_eq_nil_iff.mp hlen.symm] at hne
      exact absurd rfl hne
  | cons xs xss ih =>
      cases yss with
      | nil => cases hlen
      | cons ys yss =>
          obtain ⟨hhead, htail⟩ := List.cons.inj hlen
          rw [List.flatten_cons, List.flatten_cons]
          cases i with
          | zero =>
              have hlength : xss.length = yss.length := by
                simpa using congrArg List.length htail
              obtain rfl : xss = yss :=
                eq_of_entryAt hlength fun i' j' => hrest (i' + 1) j' (by simp)
              have hchange : OneChange xs ys :=
                .of_getElem? hhead hne fun k hk => hrest 0 k (by simpa using hk)
              exact hchange.append_right _
          | succ i =>
              obtain rfl : xs = ys := List.ext_getElem? fun k => hrest 0 k (by simp)
              have hchange := ih htail i hne fun i' j' hij =>
                hrest (i' + 1) j' (by simpa using hij)
              exact hchange.append_left _

/-- A step that is injective in the state and in the entry. -/
structure Lossless (step : σ → α → σ) : Prop where
  state : ∀ a, Injective fun s => step s a
  entry : ∀ s, Injective (step s)

namespace Lossless

variable {step : σ → α → σ}

theorem foldl_injective (h : Lossless step) (l : List α) : Injective fun s => l.foldl step s := by
  induction l with
  | nil => exact injective_id
  | cons a l ih => exact ih.comp (h.state a)

/-- The induction is on the change: what precedes it leaves both folds in one state, and what
follows it keeps their states apart. -/
theorem foldl_ne (h : Lossless step) {l l' : List α} (hl : OneChange l l') (s : σ) :
    l.foldl step s ≠ l'.foldl step s := by
  induction hl generalizing s with
  | here hne => exact fun heq => hne (h.entry s (h.foldl_injective _ heq))
  | there _ ih => exact ih _

end Lossless

end SequentialHash
