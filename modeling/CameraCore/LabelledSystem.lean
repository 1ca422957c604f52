import Mathlib.Data.List.Induction
import Mathlib.Order.Basic

/-!
# Labelled transition systems, their runs and invariants

A run records the labels of its steps, so a property may speak of the state
reached and of the history that led there. `Simulation` matches each step of a
system by a run of a more abstract one, up to a relation between their states.
-/

structure LabelledSystem (σ ℓ : Type) where
  init : σ → Prop
  step : σ → ℓ → σ → Prop

namespace LabelledSystem

variable {σ τ ℓ κ : Type} (S : LabelledSystem σ ℓ)

def Run : σ → List ℓ → σ → Prop
  | s, [], s' => s' = s
  | s, l :: ls, s' => ∃ s₁, S.step s l s₁ ∧ Run s₁ ls s'

/-- `Trace ls s`: some run from an initial state has the history `ls` and ends in `s`. -/
def Trace (ls : List ℓ) (s : σ) : Prop := ∃ s₀, S.init s₀ ∧ S.Run s₀ ls s

def Reachable (s : σ) : Prop := ∃ ls, S.Trace ls s

variable {S}

@[simp] theorem run_nil {s s' : σ} : S.Run s [] s' ↔ s' = s := Iff.rfl

@[simp] theorem run_cons {s s' : σ} {l : ℓ} {ls : List ℓ} :
    S.Run s (l :: ls) s' ↔ ∃ s₁, S.step s l s₁ ∧ S.Run s₁ ls s' := Iff.rfl

theorem run_append {s s' : σ} {ls ms : List ℓ} :
    S.Run s (ls ++ ms) s' ↔ ∃ s₁, S.Run s ls s₁ ∧ S.Run s₁ ms s' := by
  induction ls generalizing s with
  | nil => simp
  | cons l ls ih =>
      simp only [List.cons_append, run_cons, ih]
      constructor
      · rintro ⟨s₁, hl, s₂, hls, hms⟩
        exact ⟨s₂, ⟨s₁, hl, hls⟩, hms⟩
      · rintro ⟨s₂, ⟨s₁, hl, hls⟩, hms⟩
        exact ⟨s₁, hl, s₂, hls, hms⟩

theorem run_singleton {s s' : σ} {l : ℓ} : S.Run s [l] s' ↔ S.step s l s' := by
  simp

theorem Run.trans {s s₁ s' : σ} {ls ms : List ℓ} (h : S.Run s ls s₁) (h' : S.Run s₁ ms s') :
    S.Run s (ls ++ ms) s' := run_append.mpr ⟨s₁, h, h'⟩

theorem Trace.nil {s : σ} (h : S.init s) : S.Trace [] s := ⟨s, h, rfl⟩

theorem Trace.append {s s' : σ} {ls ms : List ℓ} (h : S.Trace ls s) (hr : S.Run s ms s') :
    S.Trace (ls ++ ms) s' := by
  obtain ⟨s₀, hi, hs⟩ := h
  exact ⟨s₀, hi, hs.trans hr⟩

theorem Trace.snoc {s s' : σ} {ls : List ℓ} {l : ℓ} (h : S.Trace ls s) (hl : S.step s l s') :
    S.Trace (ls ++ [l]) s' := h.append (run_singleton.mpr hl)

theorem Trace.reachable {s : σ} {ls : List ℓ} (h : S.Trace ls s) : S.Reachable s := ⟨ls, h⟩

theorem Reachable.init {s : σ} (h : S.init s) : S.Reachable s := ⟨[], .nil h⟩

theorem Reachable.run {s s' : σ} {ls : List ℓ} (h : S.Reachable s) (hr : S.Run s ls s') :
    S.Reachable s' := by
  obtain ⟨ms, hm⟩ := h
  exact ⟨ms ++ ls, hm.append hr⟩

theorem Reachable.step {s s' : σ} {l : ℓ} (h : S.Reachable s) (hl : S.step s l s') :
    S.Reachable s' := h.run (run_singleton.mpr hl)

/-- The rule for properties of a history together with the state it leads to. -/
theorem Trace.induction {P : List ℓ → σ → Prop} (hinit : ∀ s, S.init s → P [] s)
    (hstep : ∀ ls s l s', S.Trace ls s → P ls s → S.step s l s' → P (ls ++ [l]) s')
    {ls : List ℓ} {s : σ} (h : S.Trace ls s) : P ls s := by
  induction ls using List.reverseRecOn generalizing s with
  | nil =>
      obtain ⟨s₀, hi, rfl⟩ := h
      exact hinit _ hi
  | append_singleton ls l ih =>
      obtain ⟨s₀, hi, hr⟩ := h
      obtain ⟨s₁, hls, hl⟩ := run_append.mp hr
      have ht : S.Trace ls s₁ := ⟨s₀, hi, hls⟩
      exact hstep ls s₁ l s ht (ih ht) (run_singleton.mp hl)

theorem Reachable.induction {P : σ → Prop} (hinit : ∀ s, S.init s → P s)
    (hstep : ∀ s l s', S.Reachable s → P s → S.step s l s' → P s')
    {s : σ} (h : S.Reachable s) : P s := by
  obtain ⟨ls, ht⟩ := h
  exact ht.induction (P := fun _ s => P s) hinit
    (fun ls s l s' ht hs hl => hstep s l s' ht.reachable hs hl)

theorem Reachable.mono {T : LabelledSystem σ ℓ} {s : σ} (h : S.Reachable s)
    (hinit : ∀ s, S.init s → T.init s) (hstep : ∀ s l s', S.step s l s' → T.step s l s') :
    T.Reachable s :=
  h.induction (fun s hs => .init (hinit s hs)) (fun s l s' _ ht hl => ht.step (hstep s l s' hl))

/-- A property kept by every step from it holds along a run, and every step of
the run starts where it holds. -/
theorem Run.invariant {P : σ → Prop} {Q : ℓ → Prop}
    (hstep : ∀ s l s', P s → S.step s l s' → Q l ∧ P s')
    {s s' : σ} {ls : List ℓ} (h : S.Run s ls s') (hs : P s) : P s' ∧ ∀ l ∈ ls, Q l := by
  induction ls generalizing s with
  | nil =>
      cases h
      exact ⟨hs, by simp⟩
  | cons l ls ih =>
      obtain ⟨s₁, hl, hls⟩ := h
      obtain ⟨hq, hs₁⟩ := hstep s l s₁ hs hl
      obtain ⟨hs', hQ⟩ := ih hls hs₁
      refine ⟨hs', ?_⟩
      intro m hm
      rcases List.mem_cons.mp hm with rfl | hm
      · exact hq
      · exact hQ m hm

section Observed

variable {ω : Type} (obs : ℓ → σ → Option ω)

variable (S) in
/-- A run with what its steps show. A step shows its label and the state it leads to. -/
def Observed : σ → List ℓ → List ω → σ → Prop
  | s, [], os, s' => os = [] ∧ s' = s
  | s, l :: ls, os, s' =>
      ∃ s₁ os', S.step s l s₁ ∧ Observed s₁ ls os' s' ∧ os = (obs l s₁).toList ++ os'

variable {obs} {s s₁ s' : σ} {ls ls' : List ℓ} {os os' : List ω}

theorem Observed.nil (s : σ) : S.Observed obs s [] [] s := ⟨rfl, rfl⟩

theorem Observed.single {l : ℓ} (h : S.step s l s') :
    S.Observed obs s [l] (obs l s').toList s' :=
  ⟨s', [], h, ⟨rfl, rfl⟩, (List.append_nil _).symm⟩

theorem Observed.trans (h : S.Observed obs s ls os s₁) (h' : S.Observed obs s₁ ls' os' s') :
    S.Observed obs s (ls ++ ls') (os ++ os') s' := by
  induction ls generalizing s os with
  | nil =>
      obtain ⟨rfl, rfl⟩ := h
      exact h'
  | cons l ls ih =>
      obtain ⟨s₂, os₂, hl, hls, rfl⟩ := h
      exact ⟨s₂, os₂ ++ os', hl, ih hls, List.append_assoc _ _ _⟩

theorem Observed.run (h : S.Observed obs s ls os s') : S.Run s ls s' := by
  induction ls generalizing s os with
  | nil => exact h.2
  | cons l ls ih =>
      obtain ⟨s₁, os', hl, hls, _⟩ := h
      exact ⟨s₁, hl, ih hls⟩

end Observed

section Ends

variable {P : σ → Prop} {Q : ℓ → Prop} {counts : ℓ → Bool} {rank : σ → ℕ} {s s' : σ}
  {ls : List ℓ}

/-- A rank that no step raises and every counted step lowers bounds the counted steps. -/
theorem Run.countP_add_rank_le
    (hstep : ∀ s l s', P s → Q l → S.step s l s' →
      P s' ∧ rank s' + (if counts l then 1 else 0) ≤ rank s)
    (h : S.Run s ls s') (hs : P s) (hls : ∀ l ∈ ls, Q l) :
    P s' ∧ ls.countP counts + rank s' ≤ rank s := by
  induction ls generalizing s with
  | nil =>
      obtain rfl := h
      exact ⟨hs, by simp⟩
  | cons l ls ih =>
      obtain ⟨s₁, hl, hrest⟩ := h
      obtain ⟨hs₁, hrank⟩ := hstep s l s₁ hs (hls l List.mem_cons_self) hl
      obtain ⟨hs', hle⟩ := ih hrest hs₁ fun m hm => hls m (List.mem_cons_of_mem _ hm)
      refine ⟨hs', ?_⟩
      rw [List.countP_cons]
      omega

/-- Steps that lower a rank can be taken until there is none left. -/
theorem exists_run_stuck
    (hstep : ∀ s l s', P s → Q l → S.step s l s' → P s' ∧ rank s' < rank s) (hs : P s) :
    ∃ ls s', S.Run s ls s' ∧ (∀ l ∈ ls, Q l) ∧ ∀ l s'', Q l → ¬ S.step s' l s'' := by
  induction hr : rank s using Nat.strongRecOn generalizing s with
  | ind n ih =>
      by_cases hnext : ∃ l s₁, Q l ∧ S.step s l s₁
      · obtain ⟨l, s₁, hl, hone⟩ := hnext
        obtain ⟨hs₁, hlt⟩ := hstep s l s₁ hs hl hone
        obtain ⟨ls, s', hrun, hls, hstuck⟩ := ih (rank s₁) (hr ▸ hlt) hs₁ rfl
        exact ⟨l :: ls, s', ⟨s₁, hone, hrun⟩, List.forall_mem_cons.mpr ⟨hl, hls⟩, hstuck⟩
      · exact ⟨[], s, rfl, nofun, fun l s'' hl hone => hnext ⟨l, s'', hl, hone⟩⟩

end Ends

def restrict (S : LabelledSystem σ ℓ) (C : σ → ℓ → Prop) : LabelledSystem σ ℓ where
  init := S.init
  step s l s' := S.step s l s' ∧ C s l

/-- Each step of `S` is matched by a run of `T`, up to the relation `R`. -/
structure Simulation (S : LabelledSystem σ ℓ) (T : LabelledSystem τ κ) (R : σ → τ → Prop) :
    Prop where
  init : ∀ s, S.init s → ∃ t, T.init t ∧ R s t
  step : ∀ s l s' t, R s t → S.step s l s' → ∃ ks t', T.Run t ks t' ∧ R s' t'

theorem Simulation.run {T : LabelledSystem τ κ} {R : σ → τ → Prop} (h : Simulation S T R)
    {s s' : σ} {t : τ} {ls : List ℓ} (hr : R s t) (hs : S.Run s ls s') :
    ∃ ks t', T.Run t ks t' ∧ R s' t' := by
  induction ls generalizing s t with
  | nil =>
      cases hs
      exact ⟨[], t, rfl, hr⟩
  | cons l ls ih =>
      obtain ⟨s₁, hl, hls⟩ := hs
      obtain ⟨ks, t₁, hk, hr₁⟩ := h.step _ _ _ _ hr hl
      obtain ⟨ms, t', hm, hr'⟩ := ih hr₁ hls
      exact ⟨ks ++ ms, t', hk.trans hm, hr'⟩

theorem Simulation.reachable {T : LabelledSystem τ κ} {R : σ → τ → Prop} (h : Simulation S T R)
    {s : σ} (hs : S.Reachable s) : ∃ t, T.Reachable t ∧ R s t := by
  obtain ⟨ls, s₀, hi, hr⟩ := hs
  obtain ⟨t₀, ht, hR⟩ := h.init _ hi
  obtain ⟨ks, t, hk, hR'⟩ := h.run hR hr
  exact ⟨t, (Reachable.init ht).run hk, hR'⟩

end LabelledSystem
