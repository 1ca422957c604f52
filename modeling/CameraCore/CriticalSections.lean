import Mathlib.Logic.Function.Basic
import CameraCore.DeviceProgram
import CameraCore.LabelledSystem

/-!
# Operations under a mutex

A monitor is a protected state with operations, each of them a program that runs with one
mutex held. In the atomic system an operation is a single step. In the interleaved system a
thread takes the mutex, makes its requests one by one, each as often as it is interrupted, and
releases the mutex, while the other threads make the requests that need no mutex.

Where those requests neither change the device nor depend on it, the two systems have the same
histories of operations, in the order of the releases.
-/

namespace CriticalSections

open DeviceProgram LabelledSystem

/-- Operations `ω` with results `ρ` on a state `μ`. -/
structure Monitor (I : Interface) (μ ω ρ : Type) where
  enabled : μ → ω → Prop
  body : μ → ω → Program I (ρ × μ)

inductive Act (I : Interface) (ω ρ : Type)
  | operation (op : ω) (log : List (Event I)) (result : ρ)
  | outside (e : Event I)

/-- An operation a thread is in, with what is left of its program. -/
structure Running (I : Interface) (μ ω ρ : Type) where
  op : ω
  rest : Program I (ρ × μ)
  log : List (Event I) := []

structure Interleaving (I : Interface) (μ ω ρ θ σ : Type) where
  mem : μ
  dev : σ
  lock : Option θ := none
  threads : θ → Option (Running I μ ω ρ) := fun _ => none

inductive Move (I : Interface) (ω ρ θ : Type)
  | acquire (thread : θ) (op : ω)
  | request (thread : θ) (e : Event I)
  | release (thread : θ) (op : ω) (log : List (Event I)) (result : ρ)
  | outside (thread : θ) (e : Event I)

variable {I : Interface} {μ ω ρ θ σ α : Type} [DecidableEq θ]

namespace Interleaving

def setThread (s : Interleaving I μ ω ρ θ σ) (thread : θ) (r : Option (Running I μ ω ρ)) :
    Interleaving I μ ω ρ θ σ :=
  { s with threads := Function.update s.threads thread r }

def held (m : μ) (d : σ) (thread : θ) (r : Running I μ ω ρ) : Interleaving I μ ω ρ θ σ where
  mem := m
  dev := d
  lock := some thread
  threads := Function.update (fun _ => none) thread (some r)

end Interleaving

inductive AtomicStep (M : Monitor I μ ω ρ) (D : Device I σ) (unlocked : I.Request → Prop) :
    μ × σ → Act I ω ρ → μ × σ → Prop
  | operation {m m' d d' op log result} (he : M.enabled m op)
      (h : Exec D (M.body m op) d log (result, m') d') :
      AtomicStep M D unlocked (m, d) (.operation op log result) (m', d')
  | outside {m d d' r x} (hr : unlocked r) (h : D d r x d') :
      AtomicStep M D unlocked (m, d) (.outside ⟨r, x⟩) (m, d')

def atomic (M : Monitor I μ ω ρ) (D : Device I σ) (unlocked : I.Request → Prop) (m₀ : μ)
    (d₀ : σ) : LabelledSystem (μ × σ) (Act I ω ρ) where
  init c := c = (m₀, d₀)
  step := AtomicStep M D unlocked

/-- A request is made again from the same place of the program while its answer satisfies
`again`. -/
inductive InterleavedStep (M : Monitor I μ ω ρ) (D : Device I σ)
    (again : (r : I.Request) → I.Answer r → Prop) (unlocked : I.Request → Prop) :
    Interleaving I μ ω ρ θ σ → Move I ω ρ θ → Interleaving I μ ω ρ θ σ → Prop
  | acquire {s : Interleaving I μ ω ρ θ σ} {thread op} (free : s.lock = none)
      (he : M.enabled s.mem op) :
      InterleavedStep M D again unlocked s (.acquire thread op)
        ({ s with lock := some thread }.setThread thread (some ⟨op, M.body s.mem op, []⟩))
  | request {s : Interleaving I μ ω ρ θ σ} {thread op r next log x d'}
      (h : s.threads thread = some ⟨op, .call r next, log⟩) (hD : D s.dev r x d')
      (hx : ¬ again r x) :
      InterleavedStep M D again unlocked s (.request thread ⟨r, x⟩)
        ({ s with dev := d' }.setThread thread (some ⟨op, next x, log ++ [(⟨r, x⟩ : Event I)]⟩))
  | interrupted {s : Interleaving I μ ω ρ θ σ} {thread op r next log x d'}
      (h : s.threads thread = some ⟨op, .call r next, log⟩) (hD : D s.dev r x d')
      (hx : again r x) :
      InterleavedStep M D again unlocked s (.request thread ⟨r, x⟩) { s with dev := d' }
  | release {s : Interleaving I μ ω ρ θ σ} {thread op log result m'}
      (h : s.threads thread = some ⟨op, .pure (result, m'), log⟩) :
      InterleavedStep M D again unlocked s (.release thread op log result)
        ({ s with mem := m', lock := none }.setThread thread none)
  | outside {s : Interleaving I μ ω ρ θ σ} {thread : θ} {r : I.Request} {x : I.Answer r} {d' : σ}
      (h : s.threads thread = none) (hr : unlocked r) (hD : D s.dev r x d') (hx : ¬ again r x) :
      InterleavedStep M D again unlocked s (.outside thread ⟨r, x⟩) { s with dev := d' }

def interleaved (M : Monitor I μ ω ρ) (D : Device I σ)
    (again : (r : I.Request) → I.Answer r → Prop) (unlocked : I.Request → Prop) (m₀ : μ) (d₀ : σ) :
    LabelledSystem (Interleaving I μ ω ρ θ σ) (Move I ω ρ θ) where
  init s := s = { mem := m₀, dev := d₀ }
  step := InterleavedStep M D again unlocked

/-- An operation happens when its mutex is released. -/
def Move.acts : Move I ω ρ θ → List (Act I ω ρ)
  | .acquire _ _ => []
  | .request _ _ => []
  | .release _ op log result => [.operation op log result]
  | .outside _ e => [.outside e]

/-- A program that has had the answers of `log`, and what is left of it. -/
inductive Progress (D : Device I σ) (again : (r : I.Request) → I.Answer r → Prop)
    (p : Program I α) (d : σ) : List (Event I) → Program I α → σ → Prop
  | start : Progress D again p d [] p d
  | request {log r next d₁ x d'} (h : Progress D again p d log (.call r next) d₁)
      (hD : D d₁ r x d') (hx : ¬ again r x) :
      Progress D again p d (log ++ [⟨r, x⟩]) (next x) d'
  | interrupted {log r next d₁ x d'} (h : Progress D again p d log (.call r next) d₁)
      (hD : D d₁ r x d') (hx : again r x) : Progress D again p d log (.call r next) d'

section Progress

variable {D : Device I σ} {again : (r : I.Request) → I.Answer r → Prop} {p p' : Program I α}
  {d d₁ d' : σ} {log log' : List (Event I)} {a : α}

/-- Running what is left completes the execution. -/
theorem Progress.exec (h : Progress D again p d log p' d₁)
    (hx : Exec (Retried D again) p' d₁ log' a d') :
    Exec (Retried D again) p d (log ++ log') a d' := by
  induction h generalizing log' with
  | start => exact hx
  | request h hD hagain ih =>
      have hlast := ih ⟨_, _, _, .done hD hagain, hx, rfl⟩
      rwa [List.append_assoc, List.singleton_append]
  | interrupted h hD hagain ih =>
      obtain ⟨x, d₂, log₂, hret, hrest, rfl⟩ := hx
      exact ih ⟨x, d₂, log₂, .retry hD hagain hret, hrest, rfl⟩

theorem Progress.done (h : Progress D again p d log (.pure a) d') :
    Exec (Retried D again) p d log a d' := by
  have hx := h.exec (exec_leaf.mpr ⟨rfl, rfl, rfl⟩)
  rwa [List.append_nil] at hx

end Progress

/-- `J` holds before and after every request of the program, and `Q` of its result. -/
def Keeps (D : Device I σ) (J : σ → Prop) (Q : α → σ → Prop) : Program I α → σ → Prop
  | .pure a, d => J d ∧ Q a d
  | .call r next, d => J d ∧ ∀ x d', D d r x d' → Keeps D J Q (next x) d'
  | .outOfFuel, d => J d

section Keeps

variable {D : Device I σ} {again : (r : I.Request) → I.Answer r → Prop} {J : σ → Prop}
  {β : Type} {Q : α → σ → Prop} {d d' : σ}

theorem Keeps.now {p : Program I α} (h : Keeps D J Q p d) : J d := by
  cases p with
  | pure a => exact h.1
  | call r next => exact h.1
  | outOfFuel => exact h

theorem keeps_pure {a : α} (hJ : J d) (hQ : Q a d) : Keeps D J Q (pure a) d := ⟨hJ, hQ⟩

theorem Keeps.bind {p : Program I α} {f : α → Program I β} {R : β → σ → Prop}
    (hp : Keeps D J Q p d) (hf : ∀ a d', J d' → Q a d' → Keeps D J R (f a) d') :
    Keeps D J R (p >>= f) d := by
  change Keeps D J R (p.bind f) d
  induction p generalizing d with
  | pure a => exact hf a d hp.1 hp.2
  | call r next ih => exact ⟨hp.1, fun x d' hD => ih x (hp.2 x d' hD)⟩
  | outOfFuel => exact hp

/-- A relation kept by every request that starts and ends where `J` holds is kept by the whole
program, on a device that shows less of its state to `J`. -/
theorem Keeps.preserves {τ : Type} {D' : Device I τ} {f : τ → σ} {R : τ → τ → Prop}
    {p : Program I α} {e e' : τ} {log : List (Event I)} {a : α} (hp : Keeps D J Q p (f e))
    (hrefl : ∀ e, R e e) (htrans : ∀ e₁ e₂ e₃, R e₁ e₂ → R e₂ e₃ → R e₁ e₃)
    (hD : ∀ e r x e', D' e r x e' → D (f e) r x (f e'))
    (hR : ∀ e r x e', D' e r x e' → J (f e) → J (f e') → R e e')
    (h : Exec D' p e log a e') : R e e' := by
  induction p generalizing e log with
  | pure b =>
      obtain ⟨_, _, rfl⟩ := h
      exact hrefl _
  | call r next ih =>
      obtain ⟨x, e₁, log', hx, h, rfl⟩ := h
      have hnext := hp.2 x _ (hD _ _ _ _ hx)
      exact htrans _ _ _ (hR _ _ _ _ hx hp.1 hnext.now) (ih x hnext h)
  | outOfFuel => exact h.elim

/-- Where interruptions leave the device alone, `J` holds at every point of an operation. -/
theorem Progress.keeps {p p' : Program I α} {log : List (Event I)}
    (h : Progress D again p d log p' d') (hp : Keeps D J Q p d)
    (hstay : ∀ s r x s', again r x → D s r x s' → s' = s) : Keeps D J Q p' d' := by
  induction h with
  | start => exact hp
  | request h hD hx ih => exact ih.2 _ _ hD
  | interrupted h hD hx ih =>
      obtain rfl := hstay _ _ _ _ hx hD
      exact ih

end Keeps

/-- On every path the program makes at most `n` requests, and is not cut off. -/
def AtMost : ℕ → Program I α → Prop
  | _, .pure _ => True
  | 0, .call _ _ => False
  | n + 1, .call _ next => ∀ x, AtMost n (next x)
  | _, .outOfFuel => False

section AtMost

variable {β : Type} {k n : ℕ}

theorem atMost_pure (n : ℕ) (a : α) : AtMost n (pure a : Program I α) := by
  cases n <;> trivial

theorem atMost_request (r : I.Request) : AtMost 1 (Program.request r) := fun _ => trivial

theorem AtMost.call {r : I.Request} {next : I.Answer r → Program I α}
    (h : AtMost n (.call r next)) : ∃ k, n = k + 1 ∧ ∀ x, AtMost k (next x) := by
  cases n with
  | zero => exact h.elim
  | succ k => exact ⟨k, rfl, h⟩

theorem AtMost.mono {p : Program I α} (h : AtMost k p) (hk : k ≤ n) : AtMost n p := by
  induction p generalizing k n with
  | pure a => exact atMost_pure n a
  | call r next ih =>
      obtain ⟨k, rfl, hnext⟩ := h.call
      obtain ⟨n, rfl⟩ := Nat.exists_eq_add_of_lt hk
      exact fun x => ih x (hnext x) (by omega)
  | outOfFuel => cases k <;> exact h.elim

theorem AtMost.bind {p : Program I α} {f : α → Program I β} (hp : AtMost k p)
    (hf : ∀ a, AtMost n (f a)) : AtMost (k + n) (p >>= f) := by
  change AtMost (k + n) (p.bind f)
  induction p generalizing k with
  | pure a => exact (hf a).mono (by omega)
  | call r next ih =>
      obtain ⟨k, rfl, hnext⟩ := hp.call
      rw [Nat.add_right_comm]
      exact fun x => ih x (hnext x)
  | outOfFuel => cases k <;> exact hp.elim

theorem AtMost.exists_exec {D : Device I σ} {p : Program I α} (hp : AtMost n p)
    (hD : ∀ s r, ∃ x s', D s r x s') (s : σ) : ∃ log a s', Exec D p s log a s' := by
  induction p generalizing n s with
  | pure a => exact ⟨[], a, s, rfl, rfl, rfl⟩
  | call r next ih =>
      obtain ⟨k, rfl, hnext⟩ := hp.call
      obtain ⟨x, s₁, hx⟩ := hD s r
      obtain ⟨log, a, s', h⟩ := ih x (hnext x) s₁
      exact ⟨⟨r, x⟩ :: log, a, s', x, s₁, log, hx, h, rfl⟩
  | outOfFuel => cases n <;> exact hp.elim

/-- What a program has asked for counts against its bound. -/
theorem Progress.atMost {D : Device I σ} {again : (r : I.Request) → I.Answer r → Prop}
    {p p' : Program I α} {d d' : σ} {log : List (Event I)} (h : Progress D again p d log p' d')
    (hp : AtMost n p) : log.length ≤ n ∧ AtMost (n - log.length) p' := by
  induction h with
  | start => exact ⟨Nat.zero_le n, hp⟩
  | request h hD hx ih =>
      obtain ⟨hle, hrest⟩ := ih
      obtain ⟨k, hk, hnext⟩ := hrest.call
      rw [List.length_append, List.length_singleton, Nat.sub_add_eq, hk, Nat.add_sub_cancel]
      exact ⟨by omega, hnext _⟩
  | interrupted h hD hx ih => exact ih

end AtMost

/-- Requests that neither change the device nor depend on its state. -/
structure Inert (D : Device I σ) (unlocked : I.Request → Prop) : Prop where
  stays : ∀ d r x d', unlocked r → D d r x d' → d' = d
  anywhere : ∀ d d₁ r x, unlocked r → D d r x d → D d₁ r x d₁

/-- The atomic state stands where the mutex was taken last. -/
inductive Behind (M : Monitor I μ ω ρ) (D : Device I σ)
    (again : (r : I.Request) → I.Answer r → Prop) :
    Interleaving I μ ω ρ θ σ → μ × σ → Prop
  | free {m d} : Behind M D again { mem := m, dev := d } (m, d)
  | held {m d d₀ thread op rest log} (he : M.enabled m op)
      (h : Progress D again (M.body m op) d₀ log rest d) :
      Behind M D again (.held m d thread ⟨op, rest, log⟩) (m, d₀)

section Reduction

variable {M : Monitor I μ ω ρ} {D : Device I σ} {again : (r : I.Request) → I.Answer r → Prop}
  {unlocked : I.Request → Prop} {m₀ : μ} {d₀ : σ} {s s' : Interleaving I μ ω ρ θ σ}
  {c : μ × σ} {move : Move I ω ρ θ}

theorem threads_none (thread : θ) :
    Function.update (fun _ => (none : Option (Running I μ ω ρ))) thread none = fun _ => none :=
  Function.update_eq_self thread (fun _ => none)

theorem Behind.running {thread : θ} {r : Running I μ ω ρ} (h : Behind M D again s c)
    (hr : s.threads thread = some r) : s.lock = some thread ∧
      M.enabled c.1 r.op ∧ Progress D again (M.body c.1 r.op) c.2 r.log r.rest s.dev ∧
      s = .held c.1 s.dev thread r := by
  cases h with
  | free => cases hr
  | @held _ _ _ holder _ _ _ he h =>
      unfold Interleaving.held at hr
      dsimp only at hr
      by_cases hne : thread = holder
      · subst hne
        rw [Function.update_self] at hr
        cases hr
        exact ⟨rfl, he, h, rfl⟩
      · rw [Function.update_of_ne hne] at hr
        cases hr

theorem Behind.step (hinert : Inert D unlocked) (h : Behind M D again s c)
    (hs : InterleavedStep M D again unlocked s move s') :
    ∃ c', (atomic M (Retried D again) unlocked m₀ d₀).Run c move.acts c' ∧
      Behind M D again s' c' := by
  cases hs with
  | acquire free he =>
      cases h with
      | free => exact ⟨_, rfl, .held he .start⟩
      | held => cases free
  | request hr hD hx =>
      obtain ⟨_, he, hp, hs⟩ := h.running hr
      refine ⟨c, rfl, ?_⟩
      rw [hs]
      simp only [Interleaving.held, Interleaving.setThread, Function.update_idem]
      exact .held he (hp.request hD hx)
  | interrupted hr hD hx =>
      obtain ⟨_, he, hp, hs⟩ := h.running hr
      refine ⟨c, rfl, ?_⟩
      rw [hs]
      exact .held he (hp.interrupted hD hx)
  | release hr =>
      obtain ⟨_, he, hp, hs⟩ := h.running hr
      refine ⟨_, run_singleton.mpr (.operation he hp.done), ?_⟩
      rw [hs]
      simp only [Interleaving.held, Interleaving.setThread, Function.update_idem]
      rw [threads_none]
      exact .free
  | outside hnone hr hD hx =>
      obtain rfl := hinert.stays _ _ _ _ hr hD
      refine ⟨c, run_singleton.mpr ?_, h⟩
      obtain ⟨m, d⟩ := c
      exact .outside hr (.done (hinert.anywhere _ d _ _ hr hD) hx)

/-- What a run of the interleaved system has completed is a run of the atomic one. -/
theorem interleaved_atomic (hinert : Inert D unlocked) {moves : List (Move I ω ρ θ)}
    (h : (interleaved M D again unlocked m₀ d₀).Trace moves s) :
    ∃ c, (atomic M (Retried D again) unlocked m₀ d₀).Trace (moves.flatMap Move.acts) c ∧
      Behind M D again s c := by
  apply h.induction (P := fun moves s =>
    ∃ c, (atomic M (Retried D again) unlocked m₀ d₀).Trace (moves.flatMap Move.acts) c ∧
      Behind M D again s c)
  · intro s hs
    obtain rfl := hs
    exact ⟨(m₀, d₀), .nil rfl, .free⟩
  · intro moves s move s' _ ih hs
    obtain ⟨c, ht, hb⟩ := ih
    obtain ⟨c', hr, hb'⟩ : ∃ c', (atomic M (Retried D again) unlocked m₀ d₀).Run c move.acts c' ∧
      Behind M D again s' c' := hb.step hinert hs
    refine ⟨c', ?_, hb'⟩
    rw [List.flatMap_append, List.flatMap_singleton]
    exact ht.append hr

theorem held_threads (m : μ) (d : σ) (thread : θ) (r : Running I μ ω ρ) :
    (Interleaving.held m d thread r : Interleaving I μ ω ρ θ σ).threads thread = some r := by
  simp only [Interleaving.held, Function.update_self]

theorem held_request {m : μ} {d d' : σ} {thread : θ} {op : ω} {r : I.Request} {x : I.Answer r}
    {next : I.Answer r → Program I (ρ × μ)} {log : List (Event I)} (hD : D d r x d')
    (hx : ¬ again r x) :
    InterleavedStep M D again unlocked (.held m d thread ⟨op, .call r next, log⟩)
      (.request thread ⟨r, x⟩) (.held m d' thread ⟨op, next x, log ++ [⟨r, x⟩]⟩) := by
  have hto : ({ Interleaving.held m d thread ⟨op, .call r next, log⟩ with dev := d' }.setThread
      thread (some ⟨op, next x, log ++ [(⟨r, x⟩ : Event I)]⟩)) =
        Interleaving.held m d' thread ⟨op, next x, log ++ [(⟨r, x⟩ : Event I)]⟩ := by
    simp only [Interleaving.held, Interleaving.setThread, Function.update_idem]
  rw [← hto]
  exact .request (held_threads m d thread ⟨op, .call r next, log⟩) hD hx

theorem held_release {m m' : μ} {d : σ} {thread : θ} {op : ω} {log : List (Event I)} {result : ρ} :
    InterleavedStep M D again unlocked (.held m d thread ⟨op, .pure (result, m'), log⟩)
      (.release thread op log result) { mem := m', dev := d } := by
  have hto : ({ Interleaving.held m d thread ⟨op, .pure (result, m'), log⟩ with
      mem := m', lock := none }.setThread thread none) =
        ({ mem := m', dev := d } : Interleaving I μ ω ρ θ σ) := by
    simp only [Interleaving.held, Interleaving.setThread, Function.update_idem, threads_none]
  rw [← hto]
  exact .release (held_threads m d thread ⟨op, .pure (result, m'), log⟩)

theorem run_retried {m : μ} {d d' : σ} {thread : θ} {op : ω} {r : I.Request} {x : I.Answer r}
    {next : I.Answer r → Program I (ρ × μ)} {log : List (Event I)} (h : Retried D again d r x d') :
    ∃ moves, (interleaved M D again unlocked m₀ d₀).Run
        (.held m d thread ⟨op, .call r next, log⟩) moves
        (.held m d' thread ⟨op, next x, log ++ [⟨r, x⟩]⟩) ∧ moves.flatMap Move.acts = [] := by
  induction h with
  | @done d r x d' hD hx =>
      have hstep : (interleaved M D again unlocked m₀ d₀).step
          (.held m d thread ⟨op, .call r next, log⟩) (.request thread ⟨r, x⟩)
          (.held m d' thread ⟨op, next x, log ++ [⟨r, x⟩]⟩) := held_request hD hx
      exact ⟨[.request thread ⟨r, x⟩], run_singleton.mpr hstep, rfl⟩
  | @retry d r x d₁ y d' hD hx _ ih =>
      obtain ⟨moves, hrun, hacts⟩ := ih
      have hstep : (interleaved M D again unlocked m₀ d₀).step
          (.held m d thread ⟨op, .call r next, log⟩) (.request thread ⟨r, x⟩)
          (.held m d₁ thread ⟨op, .call r next, log⟩) := .interrupted (held_threads _ _ _ _) hD hx
      exact ⟨.request thread ⟨r, x⟩ :: moves, ⟨_, hstep, hrun⟩, hacts⟩

theorem run_held {m : μ} {d d' : σ} {thread : θ} {op : ω} {p : Program I (ρ × μ)} {a : ρ × μ}
    {log log₀ : List (Event I)} (h : Exec (Retried D again) p d log a d') :
    ∃ moves, (interleaved M D again unlocked m₀ d₀).Run (.held m d thread ⟨op, p, log₀⟩) moves
        (.held m d' thread ⟨op, .pure a, log₀ ++ log⟩) ∧ moves.flatMap Move.acts = [] := by
  induction p generalizing d log log₀ with
  | pure b =>
      obtain ⟨rfl, rfl, rfl⟩ := exec_leaf.mp h
      rw [List.append_nil]
      exact ⟨[], rfl, rfl⟩
  | call r next ih =>
      obtain ⟨x, d₁, log₁, hret, hrest, rfl⟩ := h
      obtain ⟨moves, hrun, hacts⟩ : ∃ moves, (interleaved M D again unlocked m₀ d₀).Run
          (.held m d thread ⟨op, .call r next, log₀⟩) moves
          (.held m d₁ thread ⟨op, next x, log₀ ++ [⟨r, x⟩]⟩) ∧ moves.flatMap Move.acts = [] :=
        run_retried hret
      obtain ⟨moves', hrun', hacts'⟩ : ∃ moves, (interleaved M D again unlocked m₀ d₀).Run
          (.held m d₁ thread ⟨op, next x, log₀ ++ [⟨r, x⟩]⟩) moves
          (.held m d' thread ⟨op, .pure a, log₀ ++ [⟨r, x⟩] ++ log₁⟩) ∧
            moves.flatMap Move.acts = [] := ih x hrest
      rw [List.append_assoc, List.singleton_append] at hrun'
      refine ⟨moves ++ moves', hrun.trans hrun', ?_⟩
      rw [List.flatMap_append, hacts, hacts']
      rfl
  | outOfFuel => exact h.elim

theorem run_operation {m m' : μ} {d d' : σ} (thread : θ) {op : ω} {log : List (Event I)}
    {result : ρ} (he : M.enabled m op)
    (h : Exec (Retried D again) (M.body m op) d log (result, m') d') :
    ∃ moves, (interleaved (θ := θ) M D again unlocked m₀ d₀).Run { mem := m, dev := d } moves
        { mem := m', dev := d' } ∧ moves.flatMap Move.acts = [.operation op log result] := by
  obtain ⟨moves, hrun, hacts⟩ : ∃ moves, (interleaved M D again unlocked m₀ d₀).Run
      (.held m d thread ⟨op, M.body m op, []⟩) moves
      (.held m d' thread ⟨op, .pure (result, m'), [] ++ log⟩) ∧ moves.flatMap Move.acts = [] :=
    run_held h
  rw [List.nil_append] at hrun
  have hrelease : (interleaved M D again unlocked m₀ d₀).step
      (.held m d' thread ⟨op, .pure (result, m'), log⟩) (.release thread op log result)
      { mem := m', dev := d' } := held_release
  have hacquire : InterleavedStep M D again unlocked { mem := m, dev := d } (.acquire thread op)
      (.held m d thread ⟨op, M.body m op, []⟩) := .acquire rfl he
  refine ⟨.acquire thread op :: (moves ++ [.release thread op log result]),
    ⟨_, hacquire, hrun.trans (run_singleton.mpr hrelease)⟩, ?_⟩
  rw [List.flatMap_cons, List.flatMap_append, hacts]
  rfl

/-- An inert request leaves the device alone however often it is made. -/
theorem Inert.retried (hinert : Inert D unlocked) {r : I.Request} {x : I.Answer r} {d d' : σ}
    (hr : unlocked r) (h : Retried D again d r x d') : D d r x d ∧ d' = d ∧ ¬ again r x := by
  induction h with
  | done hD hx =>
      obtain rfl := hinert.stays _ _ _ _ hr hD
      exact ⟨hD, rfl, hx⟩
  | retry hD _ _ ih =>
      obtain rfl := hinert.stays _ _ _ _ hr hD
      exact ih hr

theorem atomic_interleaved (hinert : Inert D unlocked) (thread : θ) {acts : List (Act I ω ρ)}
    {m : μ} {d : σ} (h : (atomic M (Retried D again) unlocked m₀ d₀).Trace acts (m, d)) :
    ∃ moves, (interleaved (θ := θ) M D again unlocked m₀ d₀).Trace moves { mem := m, dev := d } ∧
      moves.flatMap Move.acts = acts := by
  apply h.induction (P := fun acts c => ∃ moves,
    (interleaved (θ := θ) M D again unlocked m₀ d₀).Trace moves { mem := c.1, dev := c.2 } ∧
      moves.flatMap Move.acts = acts)
  · intro c hc
    obtain rfl := hc
    exact ⟨[], .nil rfl, rfl⟩
  · intro acts c act c' _ ih hs
    obtain ⟨moves, ht, hacts⟩ := ih
    cases hs with
    | operation he hx =>
        obtain ⟨moves', hrun, hacts'⟩ := run_operation thread he hx
        refine ⟨moves ++ moves', ht.append hrun, ?_⟩
        rw [List.flatMap_append, hacts, hacts']
    | @outside m d d' r x hr hx =>
        obtain ⟨hD, rfl, hagain⟩ := hinert.retried hr hx
        have hstep : (interleaved M D again unlocked m₀ d₀).step { mem := m, dev := d' }
          (.outside thread ⟨r, x⟩) { mem := m, dev := d' } := .outside rfl hr hD hagain
        refine ⟨moves ++ [.outside thread ⟨_, _⟩], ht.snoc hstep, ?_⟩
        rw [List.flatMap_append, hacts]
        rfl

/-- With the mutex free, the interleaved system is where the atomic one is after the same
operations. -/
theorem histories_agree [Inhabited θ] (hinert : Inert D unlocked) {acts : List (Act I ω ρ)} {m : μ}
    {d : σ} : (atomic M (Retried D again) unlocked m₀ d₀).Trace acts (m, d) ↔
      ∃ moves, (interleaved (θ := θ) M D again unlocked m₀ d₀).Trace moves
        { mem := m, dev := d } ∧ moves.flatMap Move.acts = acts := by
  constructor
  · exact atomic_interleaved hinert default
  · rintro ⟨moves, ht, rfl⟩
    obtain ⟨c, hc, hb⟩ := interleaved_atomic hinert ht
    cases hb
    exact hc

end Reduction

end CriticalSections
