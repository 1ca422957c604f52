import Mathlib.Algebra.Order.Group.Multiset
import CameraCore.InterfaceSum

/-!
# Programs that own what they acquire

Some answers of a device hand out a resource. A scoped program makes the requests of the device,
gives resources back, and may run out of memory before any of its requests; an exception that
passes a scope runs the clean-up of that scope first.

A ledger follows the resources held through a log, and fails when one is given back that is not
held. `Uses p T G` says that `p` turns the resources `T` into those of its result `G` and leaves
all others alone. The rules follow the program, so that a program is accounted for part by part.
`Extends` compares a scoped program with the same program without its clean-up.
-/

namespace ScopedResources

open DeviceProgram

inductive Request (I : Interface) (ρ : Type)
  | call (r : I.Request)
  | allocate
  | release (resource : ρ)

abbrev Request.Answer {I : Interface} {ρ : Type} : Request I ρ → Type
  | .call r => I.Answer r
  | .allocate => Bool
  | .release _ => Unit

abbrev owning (I : Interface) (ρ : Type) : Interface := ⟨Request I ρ, Request.Answer⟩

abbrev Scoped (I : Interface) (ρ ε α : Type) := ExceptT ε (Program (owning I ρ)) α

variable {I : Interface} {ρ ε α β σ : Type}

/-- The device does not notice an allocation or a resource given back. -/
def device (D : Device I σ) : Device (owning I ρ) σ
  | s, .call r, x, s' => D s r x s'
  | s, .allocate, _, s' => s' = s
  | s, .release _, _, s' => s' = s

/-- An allocation that throws `e` when it fails. -/
def allocation (e : ε) : Scoped I ρ ε Unit := do
  let ok ← (ExceptT.lift (Program.request (I := owning I ρ) .allocate) : Scoped I ρ ε Bool)
  if ok then pure () else throw e

def callProgram (e : ε) : Program I (Except ε α) → Program (owning I ρ) (Except ε α)
  | .pure x => .pure x
  | .call r next =>
      .call .allocate fun ok =>
        if ok then .call (.call r) fun x => callProgram e (next x) else .pure (.error e)
  | .outOfFuel => .outOfFuel

/-- A program of the device, in which an allocation may fail before any request. -/
def call (e : ε) (p : ExceptT ε (Program I) α) : Scoped I ρ ε α :=
  ExceptT.mk (callProgram e p.run)

def release (resource : ρ) : Program (owning I ρ) Unit :=
  Program.request (I := owning I ρ) (.release resource)

def releaseAll : List ρ → Program (owning I ρ) Unit
  | [] => pure ()
  | resource :: rest => do
      release resource
      releaseAll rest

/-- What an exception runs on its way out. -/
def onThrow (p : Scoped I ρ ε α) (cleanup : Program (owning I ρ) Unit) : Scoped I ρ ε α :=
  ExceptT.mk do
    match ← p.run with
    | .ok a => pure (.ok a)
    | .error e =>
        cleanup
        pure (.error e)

def releaseEvents (resources : List ρ) : List (Event (owning I ρ)) :=
  resources.map fun resource => ⟨.release resource, ()⟩

theorem exec_releaseAll {D : Device I σ} {s s' : σ} {resources : List ρ}
    {log : List (Event (owning I ρ))} {a : Unit}
    (h : Exec (device D) (releaseAll (I := I) resources) s log a s') :
    log = releaseEvents resources := by
  induction resources generalizing s log with
  | nil =>
      obtain ⟨rfl, _, _⟩ := exec_pure.mp h
      rfl
  | cons resource rest ih =>
      obtain ⟨_, s₁, log₁, _, hrest, rfl⟩ := exec_request_bind.mp h
      rw [ih hrest]
      rfl

/-- A request, for which memory may be needed. Without it the process ends here, so that no
execution goes on. -/
def guardedCall (needs : I.Request → Bool) (r : I.Request) :
    Program (owning I ρ) (I.Answer r) :=
  if needs r then .call .allocate fun ok => if ok then .call (.call r) .pure else .outOfFuel
  else .call (.call r) .pure

/-- A program of the device that handles all its other failed allocations itself. -/
def guarded (needs : I.Request → Bool) (p : Program I α) : Program (owning I ρ) α :=
  p.through (guardedCall needs)

def called (needs : I.Request → Bool) (e : Event I) : List (Event (owning I ρ)) :=
  if needs e.1 then [⟨.allocate, true⟩, ⟨.call e.1, e.2⟩] else [⟨.call e.1, e.2⟩]

theorem flatMap_called_false (log : List (Event I)) :
    log.flatMap (called (ρ := ρ) fun _ => false) = log.map fun e => ⟨.call e.1, e.2⟩ :=
  List.map_eq_flatMap.symm

theorem exec_guardedCall {needs : I.Request → Bool} {D : Device I σ} {s s' : σ} {r : I.Request}
    {log : List (Event (owning I ρ))} {x : I.Answer r} :
    Exec (device D) (guardedCall needs r) s log x s' ↔ D s r x s' ∧ log = called needs ⟨r, x⟩ := by
  unfold guardedCall called
  cases needs r with
  | false => exact exec_request
  | true =>
      constructor
      · rintro ⟨ok, s₁, log₁, hstay, hrest, rfl⟩
        obtain rfl : s₁ = s := hstay
        cases ok with
        | false => exact hrest.elim
        | true =>
            obtain ⟨hD, rfl⟩ := exec_request.mp hrest
            exact ⟨hD, rfl⟩
      · rintro ⟨hD, rfl⟩
        exact ⟨true, s, _, rfl, exec_request.mpr ⟨hD, rfl⟩, rfl⟩

theorem exec_guarded {needs : I.Request → Bool} {D : Device I σ} {p : Program I α} {s s' : σ}
    {log : List (Event (owning I ρ))} {a : α} :
    Exec (device D) (guarded needs p) s log a s' ↔
      ∃ log', Exec D p s log' a s' ∧ log = log'.flatMap (called needs) :=
  exec_through fun _ _ _ _ _ => exec_guardedCall

section Ledger

variable [DecidableEq ρ] (acquires : Event I → Option ρ)

def entry (held : Multiset ρ) : Event (owning I ρ) → Option (Multiset ρ)
  | ⟨.call r, x⟩ => some (held + (acquires ⟨r, x⟩).elim 0 fun resource => {resource})
  | ⟨.allocate, _⟩ => some held
  | ⟨.release resource, _⟩ => if resource ∈ held then some (held.erase resource) else none

def balance (held : Multiset ρ) : List (Event (owning I ρ)) → Option (Multiset ρ)
  | [] => some held
  | e :: log => (entry acquires held e).bind fun held => balance held log

variable {acquires}

theorem balance_append {held : Multiset ρ} {log log' : List (Event (owning I ρ))} :
    balance acquires held (log ++ log') =
      (balance acquires held log).bind fun held => balance acquires held log' := by
  induction log generalizing held with
  | nil => rfl
  | cons e log ih =>
      rw [List.cons_append, balance, balance, Option.bind_assoc]
      congr 1
      funext held
      exact ih

variable (acquires)

/-- The program turns the resources `T` into those of its result, whatever else is held. -/
def Uses (p : Program (owning I ρ) α) (T : Multiset ρ) (G : α → Multiset ρ) : Prop :=
  ∀ (σ : Type) (D : Device I σ) (s : σ) (log : List (Event (owning I ρ))) (a : α) (s' : σ),
    Exec (device D) p s log a s' → ∀ held, balance acquires (held + T) log = some (held + G a)

/-- The resources of an outcome: an exception owns nothing. -/
def ofResult (G : α → Multiset ρ) : Except ε α → Multiset ρ
  | .ok a => G a
  | .error _ => 0

variable {acquires} {T : Multiset ρ} {G : α → Multiset ρ}

theorem uses_pure (a : α) : Uses acquires (pure a) (G a) G := by
  intro σ D s log b s' h held
  obtain ⟨rfl, rfl, rfl⟩ := exec_pure.mp h
  rfl

theorem Uses.bind {p : Program (owning I ρ) α} {f : α → Program (owning I ρ) β}
    {H : β → Multiset ρ} (hp : Uses acquires p T G) (hf : ∀ a, Uses acquires (f a) (G a) H) :
    Uses acquires (p >>= f) T H := by
  intro σ D s log b s' h held
  obtain ⟨a, s₁, log₁, log₂, h₁, h₂, rfl⟩ := exec_bind.mp h
  rw [balance_append, hp σ D s log₁ a s₁ h₁ held]
  exact hf a σ D s₁ log₂ b s' h₂ held

/-- What a program does not use it keeps. -/
theorem Uses.frame {p : Program (owning I ρ) α} (h : Uses acquires p T G) (R : Multiset ρ) :
    Uses acquires p (R + T) fun a => R + G a := by
  intro σ D s log a s' hx held
  rw [← add_assoc, ← add_assoc]
  exact h σ D s log a s' hx (held + R)

theorem balance_releases (resources : List ρ) (held : Multiset ρ) :
    balance acquires (held + resources) (releaseEvents resources) = some held := by
  induction resources with
  | nil => rw [Multiset.coe_nil, add_zero, releaseEvents, List.map_nil, balance]
  | cons resource rest ih =>
      have hmem : resource ∈ held + (resource :: rest : List ρ) :=
        Multiset.mem_add.mpr (Or.inr (Multiset.mem_coe.mpr List.mem_cons_self))
      rw [releaseEvents, List.map_cons, balance, entry, if_pos hmem, Option.bind_some,
        ← Multiset.cons_coe, Multiset.add_cons, Multiset.erase_cons_head]
      exact ih

/-- Calls that hand nothing out change nothing. -/
theorem balance_called {needs : I.Request → Bool} {log : List (Event I)}
    (h : ∀ e ∈ log, acquires e = none) (held : Multiset ρ) :
    balance acquires held (log.flatMap (called needs)) = some held := by
  induction log with
  | nil => rfl
  | cons e log ih =>
      rw [List.forall_mem_cons] at h
      have hcall : balance acquires held (called needs e) = some held := by
        unfold called
        cases needs e.1 <;> simp [balance, entry, h.1]
      rw [List.flatMap_cons, balance_append, hcall, Option.bind_some]
      exact ih h.2

theorem uses_releaseAll (resources : List ρ) :
    Uses acquires (releaseAll (I := I) resources) (resources : Multiset ρ) fun _ => 0 := by
  intro σ D s log a s' h held
  rw [exec_releaseAll h, balance_releases, add_zero]

theorem uses_release (resource : ρ) :
    Uses acquires (release (I := I) resource) {resource} fun _ => 0 := by
  intro σ D s log a s' h held
  obtain ⟨_, rfl⟩ := exec_request.mp h
  have hone : balance acquires (held + ([resource] : List ρ)) (releaseEvents [resource]) =
      some held :=
    balance_releases [resource] held
  rw [add_zero]
  exact hone

theorem uses_ok (a : α) (h : T = G a) :
    Uses acquires (pure a : Scoped I ρ ε α).run T (ofResult G) := by
  rw [h]
  exact uses_pure (G := ofResult G) (Except.ok a)

theorem uses_throw (e : ε) :
    Uses acquires (throw e : Scoped I ρ ε α).run 0 (ofResult G) :=
  uses_pure (G := ofResult G) (Except.error e)

theorem uses_except (x : Except ε α) :
    Uses acquires (ExceptT.mk (pure x) : Scoped I ρ ε α).run (ofResult G x) (ofResult G) :=
  uses_pure x

/-- A part that throws must not have held anything; `onThrow` sees to that. -/
theorem Uses.except_bind {p : Scoped I ρ ε α} {f : α → Scoped I ρ ε β} {H : β → Multiset ρ}
    (hp : Uses acquires p.run T (ofResult G))
    (hf : ∀ a, Uses acquires (f a).run (G a) (ofResult H)) :
    Uses acquires (p >>= f).run T (ofResult H) := by
  rw [ExceptT.run_bind]
  apply hp.bind
  intro x
  cases x with
  | ok a => exact hf a
  | error e => exact uses_throw e

/-- In a scope that owns `R`, an exception gives `R` back. -/
theorem Uses.onThrow {p : Scoped I ρ ε α} {cleanup : Program (owning I ρ) Unit} {R : Multiset ρ}
    (hp : Uses acquires p.run 0 (ofResult G)) (hc : Uses acquires cleanup R fun _ => 0) :
    Uses acquires (onThrow p cleanup).run R (ofResult fun a => R + G a) := by
  have hframe := hp.frame R
  rw [add_zero] at hframe
  apply hframe.bind
  intro x
  cases x with
  | ok a => exact uses_pure (G := ofResult fun a => R + G a) (Except.ok a)
  | error e =>
      have hclean : Uses acquires cleanup (R + 0) fun _ => 0 := by
        rw [add_zero]
        exact hc
      exact hclean.bind fun _ => uses_pure (G := ofResult fun a => R + G a) (Except.error e)

theorem uses_allocation (e : ε) :
    Uses acquires (allocation (I := I) e).run (0 : Multiset ρ) (ofResult fun _ => 0) := by
  intro σ D s log x s' h held
  obtain ⟨ok, s₁, log₁, hD, hrest, rfl⟩ := h
  cases ok with
  | true =>
      obtain ⟨rfl, rfl, rfl⟩ := exec_leaf.mp hrest
      rfl
  | false =>
      obtain ⟨rfl, rfl, rfl⟩ := exec_leaf.mp hrest
      rfl

theorem uses_call {e : ε} {p : ExceptT ε (Program I) α}
    (hp : Issues (fun r => ∀ x, acquires ⟨r, x⟩ = none) p.run) :
    Uses acquires (call (ρ := ρ) e p).run 0 (ofResult fun _ => 0) := by
  intro σ D s log x s' h held
  have hx : Exec (device D) (callProgram (ρ := ρ) e p.run) s log x s' := h
  have hzero : ofResult (fun _ : α => (0 : Multiset ρ)) x = 0 := by cases x <;> rfl
  rw [hzero, add_zero]
  generalize p.run = q at hp hx
  clear h hzero
  induction q generalizing s log with
  | pure y =>
      obtain ⟨rfl, _, _⟩ := exec_leaf.mp hx
      rfl
  | call r next ih =>
      obtain ⟨ok, s₁, log₁, _, hrest, rfl⟩ := hx
      cases ok with
      | false =>
          obtain ⟨rfl, _, _⟩ := exec_leaf.mp hrest
          rfl
      | true =>
          obtain ⟨y, s₂, log₂, _, hlast, rfl⟩ := hrest
          have hnone := hp.1 y
          have htail := ih y s₂ log₂ (hp.2 y) hlast
          rw [balance, entry, Option.bind_some, balance, entry, hnone, Option.elim_none, add_zero,
            Option.bind_some]
          exact htail
  | outOfFuel => exact hx.elim

theorem uses_call_request {e : ε} {r : I.Request} {next : I.Answer r → Program I (Except ε α)}
    (hnext : ∀ x, ∃ y, next x = .pure y ∧
      ofResult G y = (acquires ⟨r, x⟩).elim 0 fun resource => {resource}) :
    Uses acquires (call (ρ := ρ) e (ExceptT.mk (.call r next))).run 0 (ofResult G) := by
  intro σ D s log y s' h held
  obtain ⟨ok, s₁, log₁, _, hrest, rfl⟩ := h
  cases ok with
  | false =>
      obtain ⟨rfl, rfl, _⟩ := exec_leaf.mp hrest
      rfl
  | true =>
      obtain ⟨x, s₂, log₂, _, hlast, rfl⟩ := hrest
      obtain ⟨y', hy, hG⟩ := hnext x
      dsimp only at hlast
      rw [hy] at hlast
      obtain ⟨rfl, rfl, _⟩ := exec_leaf.mp hlast
      rw [hG, balance, entry, Option.bind_some, balance, entry, Option.bind_some, balance,
        add_zero]

end Ledger

section Asks

variable {P : I.Request → Prop}

def Request.Asks (P : I.Request → Prop) : Request I ρ → Prop
  | .call r => P r
  | .allocate => True
  | .release _ => True

theorem issues_call {e : ε} {p : ExceptT ε (Program I) α} (h : Issues P p.run) :
    Issues (Request.Asks P) (call (ρ := ρ) e p).run := by
  change Issues (Request.Asks P) (callProgram e p.run)
  generalize p.run = q at h
  induction q with
  | pure x => trivial
  | call r next ih =>
      refine ⟨trivial, fun ok => ?_⟩
      cases ok with
      | true => exact ⟨h.1, fun x => ih x (h.2 x)⟩
      | false => trivial
  | outOfFuel => trivial

theorem issues_allocation (e : ε) :
    Issues (Request.Asks P) (allocation (I := I) (ρ := ρ) e).run := by
  refine ⟨trivial, fun ok => ?_⟩
  cases ok <;> trivial

theorem issues_releaseAll (resources : List ρ) :
    Issues (Request.Asks P) (releaseAll (I := I) resources) := by
  induction resources with
  | nil => trivial
  | cons resource rest ih => exact ⟨trivial, fun _ => ih⟩

theorem issues_onThrow {p : Scoped I ρ ε α} (h : Issues (Request.Asks P) p.run)
    (resources : List ρ) : Issues (Request.Asks P) (onThrow p (releaseAll resources)).run := by
  apply h.bind
  intro x
  cases x with
  | ok a => trivial
  | error e => exact (issues_releaseAll resources).bind fun _ => trivial

end Asks

def callOf : Event (owning I ρ) → Option (Event I)
  | ⟨.call r, x⟩ => some ⟨r, x⟩
  | _ => none

def calls (log : List (Event (owning I ρ))) : List (Event I) := log.filterMap callOf

theorem calls_append (log log' : List (Event (owning I ρ))) :
    calls (log ++ log') = calls log ++ calls log' := List.filterMap_append

theorem calls_called (needs : I.Request → Bool) (log : List (Event I)) :
    calls (log.flatMap (called (ρ := ρ) needs)) = log := by
  induction log with
  | nil => rfl
  | cons e log ih =>
      have hcall : calls (called (ρ := ρ) needs e) = [e] := by
        unfold called
        cases needs e.1 <;> rfl
      rw [List.flatMap_cons, calls_append, hcall, ih]
      rfl

theorem calls_releaseEvents (resources : List ρ) :
    calls (releaseEvents (I := I) resources) = [] := by
  induction resources with
  | nil => rfl
  | cons resource rest ih => exact ih

theorem calls_issued {P : I.Request → Prop} {log : List (Event (owning I ρ))}
    (h : ∀ e ∈ log, Request.Asks P e.1) : ∀ e ∈ calls log, P e.1 := by
  intro e he
  obtain ⟨⟨r, x⟩, hm, hcall⟩ := List.mem_filterMap.mp he
  have hP := h _ hm
  cases r with
  | call r =>
      cases hcall
      exact hP
  | allocate => cases hcall
  | release resource => cases hcall

/-- The scoped program returns what the plain one returns after the same calls, and with enough
memory it does all the plain one does. -/
structure Extends (q : Scoped I ρ ε α) (p : ExceptT ε (Program I) α) : Prop where
  returns : ∀ (σ : Type) (D : Device I σ) (s : σ) (log : List (Event (owning I ρ))) (a : α)
    (s' : σ), Exec (device D) q.run s log (.ok a) s' → Exec D p.run s (calls log) (.ok a) s'
  complete : ∀ (σ : Type) (D : Device I σ) (s : σ) (log : List (Event I)) (x : Except ε α)
    (s' : σ), Exec D p.run s log x s' →
      ∃ log', Exec (device D) q.run s log' x s' ∧ calls log' = log

section Extends

theorem exec_callProgram_ok {e : ε} {D : Device I σ} {s s' : σ} {q : Program I (Except ε α)}
    {log : List (Event (owning I ρ))} {a : α}
    (h : Exec (device D) (callProgram (ρ := ρ) e q) s log (.ok a) s') :
    Exec D q s (calls log) (.ok a) s' := by
  induction q generalizing s log with
  | pure y =>
      obtain ⟨rfl, hy, rfl⟩ := exec_leaf.mp h
      exact ⟨rfl, hy, rfl⟩
  | call r next ih =>
      obtain ⟨ok, s₁, log₁, hstay, hrest, rfl⟩ := h
      cases ok with
      | false =>
          obtain ⟨_, he, _⟩ := exec_leaf.mp hrest
          cases he
      | true =>
          obtain ⟨x, s₂, log₂, hD, hlast, rfl⟩ := hrest
          obtain rfl : s₁ = s := hstay
          exact ⟨x, s₂, calls log₂, hD, ih x hlast, rfl⟩
  | outOfFuel => exact h.elim

theorem exec_callProgram {e : ε} {D : Device I σ} {s s' : σ} {q : Program I (Except ε α)}
    {log : List (Event I)} {x : Except ε α} (h : Exec D q s log x s') :
    ∃ log', Exec (device D) (callProgram (ρ := ρ) e q) s log' x s' ∧ calls log' = log := by
  induction q generalizing s log with
  | pure y =>
      obtain ⟨rfl, hy, rfl⟩ := exec_leaf.mp h
      exact ⟨[], exec_leaf.mpr ⟨rfl, hy, rfl⟩, rfl⟩
  | call r next ih =>
      obtain ⟨y, s₁, log₁, hD, hrest, rfl⟩ := h
      obtain ⟨log₂, hlast, rfl⟩ := ih y hrest
      exact ⟨⟨.allocate, true⟩ :: ⟨.call r, y⟩ :: log₂,
        ⟨true, s, ⟨.call r, y⟩ :: log₂, rfl, ⟨y, s₁, log₂, hD, hlast, rfl⟩, rfl⟩, rfl⟩
  | outOfFuel => exact h.elim

theorem extends_call (e : ε) (p : ExceptT ε (Program I) α) :
    Extends (call (ρ := ρ) e p) p where
  returns _ _ _ _ _ _ h := exec_callProgram_ok h
  complete _ _ _ _ _ _ h := exec_callProgram h

theorem extends_except (x : Except ε α) :
    Extends (ExceptT.mk (pure x) : Scoped I ρ ε α) (ExceptT.mk (pure x)) where
  returns σ D s log a s' h := by
    obtain ⟨rfl, ha, rfl⟩ := exec_pure.mp h
    exact exec_pure.mpr ⟨rfl, ha, rfl⟩
  complete σ D s log y s' h := by
    obtain ⟨rfl, hy, rfl⟩ := exec_pure.mp h
    exact ⟨[], exec_pure.mpr ⟨rfl, hy, rfl⟩, rfl⟩

theorem Extends.bind {q : Scoped I ρ ε α} {p : ExceptT ε (Program I) α}
    {g : α → Scoped I ρ ε β} {f : α → ExceptT ε (Program I) β} (h : Extends q p)
    (hg : ∀ a, Extends (g a) (f a)) : Extends (q >>= g) (p >>= f) where
  returns σ D s log b s' hx := by
    obtain ⟨a, s₁, log₁, log₂, h₁, h₂, rfl⟩ := exec_bind_ok.mp hx
    rw [calls_append]
    exact exec_bind_ok.mpr ⟨a, s₁, _, _, h.returns _ _ _ _ _ _ h₁,
      (hg a).returns _ _ _ _ _ _ h₂, rfl⟩
  complete σ D s log x s' hx := by
    rw [ExceptT.run_bind] at hx ⊢
    obtain ⟨y, s₁, log₁, log₂, h₁, h₂, rfl⟩ := exec_bind.mp hx
    obtain ⟨log₁', hq, hlog₁⟩ := h.complete _ _ _ _ _ _ h₁
    cases y with
    | ok a =>
        obtain ⟨log₂', hg', hlog₂⟩ := (hg a).complete _ _ _ _ _ _ h₂
        refine ⟨log₁' ++ log₂', exec_bind.mpr ⟨_, s₁, log₁', log₂', hq, hg', rfl⟩, ?_⟩
        rw [calls_append, hlog₁, hlog₂]
    | error e =>
        obtain ⟨rfl, rfl, rfl⟩ := exec_pure.mp h₂
        refine ⟨log₁' ++ [], exec_bind.mpr ⟨_, s', log₁', [], hq, ⟨rfl, rfl, rfl⟩, rfl⟩, ?_⟩
        rw [calls_append, hlog₁]
        rfl

theorem exec_release (D : Device I σ) (s : σ) (resources : List ρ) :
    ∃ log, Exec (device D) (releaseAll (I := I) resources) s log () s ∧ calls log = [] := by
  induction resources with
  | nil => exact ⟨[], exec_pure.mpr ⟨rfl, rfl, rfl⟩, rfl⟩
  | cons resource rest ih =>
      obtain ⟨log, h, hlog⟩ := ih
      exact ⟨⟨.release resource, ()⟩ :: log, exec_request_bind.mpr ⟨(), s, log, rfl, h, rfl⟩, hlog⟩

theorem exec_onThrow_ok {p : Scoped I ρ ε α} {resources : List ρ} {D : Device I σ} {s s' : σ}
    {log : List (Event (owning I ρ))} {a : α} :
    Exec (device D) (onThrow p (releaseAll resources)).run s log (.ok a) s' ↔
      Exec (device D) p.run s log (.ok a) s' := by
  constructor
  · intro h
    obtain ⟨y, s₁, log₁, log₂, h₁, h₂, rfl⟩ := exec_bind.mp h
    cases y with
    | ok b =>
        obtain ⟨rfl, he, rfl⟩ := exec_pure.mp h₂
        cases he
        rwa [List.append_nil]
    | error e =>
        obtain ⟨_, _, _, _, _, hend, _⟩ := exec_bind.mp h₂
        obtain ⟨_, he, _⟩ := exec_pure.mp hend
        cases he
  · intro h
    exact exec_bind.mpr ⟨.ok a, s', log, [], h, exec_pure.mpr ⟨rfl, rfl, rfl⟩,
      (List.append_nil log).symm⟩

theorem Extends.onThrow {q : Scoped I ρ ε α} {p : ExceptT ε (Program I) α} (h : Extends q p)
    (resources : List ρ) : Extends (onThrow q (releaseAll resources)) p where
  returns _ _ _ _ _ _ hx := h.returns _ _ _ _ _ _ (exec_onThrow_ok.mp hx)
  complete σ D s log x s' hx := by
    obtain ⟨log₁, hq, hlog⟩ := h.complete _ _ _ _ _ _ hx
    cases x with
    | ok a => exact ⟨log₁, exec_onThrow_ok.mpr hq, hlog⟩
    | error e =>
        obtain ⟨log₂, hrel, hnone⟩ := exec_release D s' resources
        have hend : Exec (device D) (releaseAll resources >>= fun _ =>
            (pure (.error e) : Program (owning I ρ) (Except ε α))) s' log₂ (.error e) s' :=
          exec_bind.mpr ⟨(), s', log₂, [], hrel, ⟨rfl, rfl, rfl⟩, (List.append_nil _).symm⟩
        refine ⟨log₁ ++ log₂, exec_bind.mpr ⟨_, s', log₁, log₂, hq, hend, rfl⟩, ?_⟩
        rw [calls_append, hlog, hnone, List.append_nil]

theorem extends_allocation (e : ε) : Extends (allocation (I := I) (ρ := ρ) e) (pure ()) where
  returns σ D s log a s' h := by
    obtain ⟨ok, s₁, log₁, hstay, hrest, rfl⟩ := h
    cases ok with
    | false =>
        obtain ⟨_, he, _⟩ := exec_leaf.mp hrest
        cases he
    | true =>
        obtain ⟨rfl, _, rfl⟩ := exec_leaf.mp hrest
        exact exec_return.mpr ⟨rfl, rfl, hstay⟩
  complete σ D s log x s' h := by
    obtain ⟨rfl, rfl, rfl⟩ := exec_return.mp h
    exact ⟨[⟨.allocate, true⟩], ⟨true, s', [], rfl, ⟨rfl, rfl, rfl⟩, rfl⟩, rfl⟩

theorem extends_release (resource : ρ) :
    Extends (ExceptT.lift (release resource) : Scoped I ρ ε Unit) (pure ()) where
  returns σ D s log a s' h := by
    obtain ⟨_, s₁, log₁, hstay, hrest, rfl⟩ := h
    obtain ⟨rfl, _, rfl⟩ := exec_leaf.mp hrest
    exact exec_return.mpr ⟨rfl, rfl, hstay⟩
  complete σ D s log x s' h := by
    obtain ⟨rfl, rfl, rfl⟩ := exec_return.mp h
    exact ⟨[⟨.release resource, ()⟩], ⟨(), s', [], rfl, ⟨rfl, rfl, rfl⟩, rfl⟩, rfl⟩

/-- A part that makes no call is none of the plain program's. -/
theorem Extends.after {a : Scoped I ρ ε Unit} {q : Scoped I ρ ε α} {p : ExceptT ε (Program I) α}
    (h : Extends q p) (ha : Extends a (pure ())) : Extends (do a; q) p := by
  have hboth := ha.bind fun _ => h
  rw [pure_bind] at hboth
  exact hboth

end Extends

end ScopedResources
