import Mathlib.Logic.Function.Basic

/-!
# Assignments in a row

Values are assigned to keys one after the other. What a key ends up with is the last value
assigned to it, or what it had before, so assignments to different keys may change places. A
record whose fields are the values of the keys is updated in the same way.
-/

namespace Assignments

open Function

variable {κ : Type} [DecidableEq κ] {β : κ → Type}

def assign (f : ∀ k, β k) (settings : List (Sigma β)) : ∀ k, β k :=
  settings.foldl (fun f s => update f s.1 s.2) f

variable {f : ∀ k, β k} {before after settings : List (Sigma β)}

theorem assign_cons (s : Sigma β) : assign f (s :: settings) = assign (update f s.1 s.2) settings :=
  rfl

theorem assign_append : assign f (before ++ after) = assign (assign f before) after :=
  List.foldl_append

theorem assign_of_absent {k : κ} (h : ∀ s ∈ settings, s.1 ≠ k) : assign f settings k = f k := by
  induction settings generalizing f with
  | nil => rfl
  | cons s settings ih =>
      have hs : s.1 ≠ k := h s List.mem_cons_self
      rw [assign_cons, ih fun s hm => h s (List.mem_cons_of_mem _ hm)]
      exact update_of_ne hs.symm _ _

theorem assign_last {s : Sigma β} (h : ∀ s' ∈ after, s'.1 ≠ s.1) :
    assign f (before ++ s :: after) s.1 = s.2 := by
  rw [assign_append, assign_cons, assign_of_absent h]
  exact update_self _ _ _

theorem assign_swap {s s' : Sigma β} (h : s.1 ≠ s'.1) :
    assign f (before ++ s :: s' :: after) = assign f (before ++ s' :: s :: after) := by
  simp only [assign_append, assign_cons]
  rw [update_comm h]

theorem assign_mem (f : ∀ k, β k) (settings : List (Sigma β)) (k : κ) :
    assign f settings k = f k ∨ ⟨k, assign f settings k⟩ ∈ settings := by
  induction settings generalizing f with
  | nil => exact Or.inl rfl
  | cons s settings ih =>
      rw [assign_cons]
      rcases ih (update f s.1 s.2) with hkept | hmem
      · rw [hkept]
        by_cases hk : k = s.1
        · subst hk
          right
          rw [update_self]
          exact List.mem_cons_self
        · exact Or.inl (update_of_ne hk _ _)
      · exact Or.inr (List.mem_cons_of_mem _ hmem)

/-- Assigning the values of `g`, in any order, gives `g` if it agrees with `f` elsewhere. -/
theorem assign_values {f g : ∀ k, β k} {keys : List κ} (h : ∀ k, k ∉ keys → f k = g k) :
    assign f (keys.map fun k => ⟨k, g k⟩) = g := by
  induction keys generalizing f with
  | nil => exact funext fun k => h k List.not_mem_nil
  | cons key keys ih =>
      rw [List.map_cons, assign_cons]
      apply ih
      intro k hk
      by_cases he : k = key
      · subst he
        exact update_self _ _ _
      · rw [update_of_ne he]
        apply h
        rw [List.mem_cons, not_or]
        exact ⟨he, hk⟩

/-- A record with a field for every key. -/
structure Fields (R : Type) (β : κ → Type) where
  get : R → ∀ k, β k
  set : R → Sigma β → R
  get_set : ∀ r s, get (set r s) = update (get r) s.1 s.2

namespace Fields

variable {R : Type} (F : Fields R β)

theorem get_foldl (r : R) (settings : List (Sigma β)) :
    F.get (settings.foldl F.set r) = assign (F.get r) settings := by
  induction settings generalizing r with
  | nil => rfl
  | cons s settings ih => rw [List.foldl_cons, ih, F.get_set, assign_cons]

end Fields

end Assignments
