import Mathlib.Data.Finset.Basic
import Mathlib.Data.Finset.Insert
import Mathlib.Data.Set.Function
import Mathlib.Logic.Function.Basic
import CameraCore.LabelledSystem

/-!
# A pool of resources, each in exactly one place

Every resource is idle, queued with the other side, or held by exactly one
holder. Since a place is a value, no resource can be queued and held at once or
held twice; the transitions only move resources between places.

`Represents` ties this picture to the bookkeeping of an implementation, a set of
queued resources and a set of holders, and each transition of the pool has its
lemma about that bookkeeping.
-/

namespace ResourcePool

inductive Place
  | idle
  | queued
  | held
deriving DecidableEq

inductive Action (ι : Type)
  | offer (i : ι)
  | take (i : ι)
  | requeue (i : ι)
  | drop (i : ι)
  | withdraw (keep : Finset ι)

variable {ι κ : Type}

section Transitions
variable [DecidableEq ι]

/-- Everything queued and not kept becomes idle. -/
def restrict (p : ι → Place) (keep : Finset ι) : ι → Place :=
  fun i => if p i = .queued ∧ i ∉ keep then .idle else p i

def step (p : ι → Place) : Action ι → (ι → Place) → Prop
  | .offer i, p' => p i = .idle ∧ p' = Function.update p i .queued
  | .take i, p' => p i = .queued ∧ p' = Function.update p i .held
  | .requeue i, p' => p i = .held ∧ p' = Function.update p i .queued
  | .drop i, p' => p i = .held ∧ p' = Function.update p i .idle
  | .withdraw keep, p' => p' = restrict p keep

def pool (ι : Type) [DecidableEq ι] : LabelledSystem (ι → Place) (Action ι) where
  init p := ∀ i, p i = .idle
  step := step

end Transitions

structure Represents (queue : Finset ι) (holders : Finset κ) (holds : κ → ι) (p : ι → Place) :
    Prop where
  queued_iff : ∀ i, p i = .queued ↔ i ∈ queue
  held_iff : ∀ i, p i = .held ↔ ∃ l ∈ holders, holds l = i
  injOn : Set.InjOn holds holders

namespace Represents

variable {queue : Finset ι} {holders : Finset κ} {holds : κ → ι} {p : ι → Place}

theorem empty (holds : κ → ι) : Represents ∅ ∅ holds (fun _ => .idle) where
  queued_iff := by simp
  held_iff := by simp
  injOn := by simp

theorem held_of_mem (h : Represents queue holders holds p) {l : κ} (hl : l ∈ holders) :
    p (holds l) = .held := (h.held_iff _).mpr ⟨l, hl, rfl⟩

theorem notMem_queue (h : Represents queue holders holds p) {l : κ} (hl : l ∈ holders) :
    holds l ∉ queue := by
  intro hq
  have hp := (h.queued_iff _).mpr hq
  rw [h.held_of_mem hl] at hp
  cases hp

theorem idle_of (h : Represents queue holders holds p) {i : ι} (hq : i ∉ queue)
    (hh : ∀ l ∈ holders, holds l ≠ i) : p i = .idle := by
  cases hp : p i with
  | idle => rfl
  | queued => exact absurd ((h.queued_iff i).mp hp) hq
  | held =>
      obtain ⟨l, hl, he⟩ := (h.held_iff i).mp hp
      exact absurd he (hh l hl)

theorem ne_idle_iff (h : Represents queue holders holds p) (i : ι) :
    p i ≠ .idle ↔ i ∈ queue ∨ ∃ l ∈ holders, holds l = i := by
  rw [← h.queued_iff, ← h.held_iff]
  cases p i <;> simp

/-- A resource that is not idle is either queued or has exactly one holder, and
not both. -/
theorem exactly_one (h : Represents queue holders holds p) {i : ι} (hi : p i ≠ .idle) :
    (i ∈ queue ∧ ∀ l ∈ holders, holds l ≠ i) ∨ (i ∉ queue ∧ ∃! l, l ∈ holders ∧ holds l = i) := by
  rcases (h.ne_idle_iff i).mp hi with hq | ⟨l, hl, rfl⟩
  · refine Or.inl ⟨hq, ?_⟩
    rintro l hl rfl
    exact h.notMem_queue hl hq
  · refine Or.inr ⟨h.notMem_queue hl, l, ⟨hl, rfl⟩, ?_⟩
    rintro m ⟨hm, he⟩
    exact h.injOn hm hl he

theorem offer [DecidableEq ι] (h : Represents queue holders holds p) {i : ι} (hi : p i = .idle) :
    Represents (insert i queue) holders holds (Function.update p i .queued) where
  queued_iff j := by
    by_cases hj : j = i
    · simp [hj]
    · simpa [Function.update_of_ne hj, hj] using h.queued_iff j
  held_iff j := by
    by_cases hj : j = i
    · subst hj
      have hn : ¬ ∃ l ∈ holders, holds l = j := by
        rw [← h.held_iff, hi]
        simp
      simpa using hn
    · simpa [Function.update_of_ne hj] using h.held_iff j
  injOn := h.injOn

theorem take [DecidableEq ι] [DecidableEq κ] (h : Represents queue holders holds p)
    {l : κ} (hq : holds l ∈ queue) :
    Represents (queue.erase (holds l)) (insert l holders) holds
      (Function.update p (holds l) .held) where
  queued_iff j := by
    by_cases hj : j = holds l
    · simp [hj]
    · simpa [Function.update_of_ne hj, hj] using h.queued_iff j
  held_iff j := by
    by_cases hj : j = holds l
    · simp [hj]
    · simpa [Function.update_of_ne hj, Ne.symm hj] using h.held_iff j
  injOn := by
    have hfree : ∀ m ∈ holders, holds m ≠ holds l := by
      intro m hm he
      exact h.notMem_queue hm (he ▸ hq)
    intro a ha b hb hab
    rw [Finset.coe_insert] at ha hb
    rcases ha with rfl | ha <;> rcases hb with rfl | hb
    · rfl
    · exact absurd hab.symm (hfree b hb)
    · exact absurd hab (hfree a ha)
    · exact h.injOn ha hb hab

theorem held_erase [DecidableEq κ] (h : Represents queue holders holds p)
    {l : κ} (hl : l ∈ holders) {j : ι} :
    (∃ m ∈ holders.erase l, holds m = j) ↔ p j = .held ∧ j ≠ holds l := by
  rw [h.held_iff]
  constructor
  · rintro ⟨m, hm, rfl⟩
    obtain ⟨hne, hm⟩ := Finset.mem_erase.mp hm
    exact ⟨⟨m, hm, rfl⟩, fun he => hne (h.injOn hm hl he)⟩
  · rintro ⟨⟨m, hm, rfl⟩, hne⟩
    refine ⟨m, Finset.mem_erase.mpr ⟨?_, hm⟩, rfl⟩
    rintro rfl
    exact hne rfl

theorem requeue [DecidableEq ι] [DecidableEq κ] (h : Represents queue holders holds p)
    {l : κ} (hl : l ∈ holders) :
    Represents (insert (holds l) queue) (holders.erase l) holds
      (Function.update p (holds l) .queued) where
  queued_iff j := by
    by_cases hj : j = holds l
    · simp [hj]
    · simpa [Function.update_of_ne hj, hj] using h.queued_iff j
  held_iff j := by
    rw [h.held_erase hl]
    by_cases hj : j = holds l
    · simp [hj]
    · simp [hj]
  injOn := h.injOn.mono (by simp)

theorem drop [DecidableEq ι] [DecidableEq κ] (h : Represents queue holders holds p)
    {l : κ} (hl : l ∈ holders) :
    Represents queue (holders.erase l) holds (Function.update p (holds l) .idle) where
  queued_iff j := by
    by_cases hj : j = holds l
    · subst hj
      simpa using h.notMem_queue hl
    · simpa [Function.update_of_ne hj] using h.queued_iff j
  held_iff j := by
    rw [h.held_erase hl]
    by_cases hj : j = holds l
    · simp [hj]
    · simp [hj]
  injOn := h.injOn.mono (by simp)

theorem withdraw [DecidableEq ι] (h : Represents queue holders holds p)
    {keep : Finset ι} (hk : keep ⊆ queue) :
    Represents keep holders holds (restrict p keep) where
  queued_iff j := by
    have hq := h.queued_iff j
    by_cases hj : j ∈ keep
    · have := hq.mpr (hk hj)
      simp [restrict, this, hj]
    · by_cases hp : p j = .queued <;> simp [restrict, hp, hj]
  held_iff j := by
    rw [← h.held_iff]
    by_cases hp : p j = .queued <;> by_cases hj : j ∈ keep <;> simp [restrict, hp, hj]
  injOn := h.injOn

end Represents

end ResourcePool
