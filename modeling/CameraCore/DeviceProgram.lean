import Mathlib.Order.Basic
import Mathlib.Order.Notation

/-!
# Programs that issue requests to a nondeterministic device

An `Interface` lists requests and the type of the answers to each. A `Program`
is a tree of requests whose continuation is chosen by the answer; the leaf
`outOfFuel` marks a loop that was cut off and has no execution. A `Device` is the
relation of answers and successor states it admits, ordered by inclusion, so one
program is run against several devices and an execution transfers along `≤`.

`Exec` keeps the requests issued and their answers. Everything is determined by
the equations below; no proof about a program unfolds it.
-/

namespace DeviceProgram

structure Interface where
  Request : Type
  Answer : Request → Type

abbrev Event (I : Interface) := (r : I.Request) × I.Answer r

/-- `D s r x s'`: in state `s` the request `r` may be answered by `x`, leaving `s'`. -/
abbrev Device (I : Interface) (σ : Type) :=
  σ → (r : I.Request) → I.Answer r → σ → Prop

inductive Program (I : Interface) (α : Type) : Type
  | pure (a : α)
  | call (r : I.Request) (next : I.Answer r → Program I α)
  | outOfFuel

variable {I : Interface} {α β γ ε σ τ : Type}

namespace Program

def bind : Program I α → (α → Program I β) → Program I β
  | .pure a, f => f a
  | .call r next, f => .call r fun x => bind (next x) f
  | .outOfFuel, _ => .outOfFuel

instance : Monad (Program I) where
  pure := Program.pure
  bind := Program.bind

theorem bind_assoc (p : Program I α) (f : α → Program I β) (g : β → Program I γ) :
    (p.bind f).bind g = p.bind fun a => (f a).bind g := by
  induction p with
  | pure a => rfl
  | call r next ih => exact congrArg (Program.call r) (funext ih)
  | outOfFuel => rfl

instance : LawfulMonad (Program I) := LawfulMonad.mk' (Program I)
  (fun p => by
    change p.bind (Program.pure ∘ id) = p
    induction p with
    | pure a => rfl
    | call r next ih => exact congrArg (Program.call r) (funext ih)
    | outOfFuel => rfl)
  (fun _ _ => rfl)
  (fun p f g => bind_assoc p f g)

def request (r : I.Request) : Program I (I.Answer r) := .call r .pure

end Program

def Exec (D : Device I σ) : Program I α → σ → List (Event I) → α → σ → Prop
  | .pure a, s, log, b, s' => log = [] ∧ b = a ∧ s' = s
  | .call r next, s, log, b, s' =>
      ∃ x s₁ log', D s r x s₁ ∧ Exec D (next x) s₁ log' b s' ∧ log = ⟨r, x⟩ :: log'
  | .outOfFuel, _, _, _, _ => False

section Exec
variable {D D' : Device I σ} {s s' : σ} {log : List (Event I)} {b : β}

@[simp] theorem exec_pure {a : β} :
    Exec D (pure a : Program I β) s log b s' ↔ log = [] ∧ b = a ∧ s' = s := Iff.rfl

@[simp] theorem exec_leaf {a : β} :
    Exec D (.pure a) s log b s' ↔ log = [] ∧ b = a ∧ s' = s := Iff.rfl

@[simp] theorem exec_request {r : I.Request} {x : I.Answer r} :
    Exec D (Program.request r) s log x s' ↔ D s r x s' ∧ log = [⟨r, x⟩] := by
  constructor
  · rintro ⟨y, s₁, log', hD, ⟨rfl, rfl, rfl⟩, rfl⟩
    exact ⟨hD, rfl⟩
  · rintro ⟨hD, rfl⟩
    exact ⟨x, s', [], hD, ⟨rfl, rfl, rfl⟩, rfl⟩

/-- Sequencing splits the execution and its log at one intermediate state. -/
theorem exec_bind {p : Program I α} {f : α → Program I β} :
    Exec D (p >>= f) s log b s' ↔
      ∃ a s₁ log₁ log₂, Exec D p s log₁ a s₁ ∧ Exec D (f a) s₁ log₂ b s' ∧
        log = log₁ ++ log₂ := by
  change Exec D (p.bind f) s log b s' ↔ _
  induction p generalizing s log with
  | pure a =>
      constructor
      · intro h
        exact ⟨a, s, [], log, ⟨rfl, rfl, rfl⟩, h, rfl⟩
      · rintro ⟨a', s₁, log₁, log₂, ⟨rfl, rfl, rfl⟩, h, rfl⟩
        exact h
  | call r next ih =>
      constructor
      · rintro ⟨x, s₁, log', hD, h, rfl⟩
        obtain ⟨a, s₂, log₁, log₂, h₁, h₂, rfl⟩ := (ih x).mp h
        exact ⟨a, s₂, ⟨r, x⟩ :: log₁, log₂, ⟨x, s₁, log₁, hD, h₁, rfl⟩, h₂, rfl⟩
      · rintro ⟨a, s₂, log₁, log₂, ⟨x, s₁, log', hD, h₁, rfl⟩, h₂, rfl⟩
        exact ⟨x, s₁, log' ++ log₂, hD, (ih x).mpr ⟨a, s₂, log', log₂, h₁, h₂, rfl⟩, rfl⟩
  | outOfFuel =>
      constructor
      · intro h
        exact h.elim
      · rintro ⟨_, _, _, _, h, _⟩
        exact h.elim

theorem exec_request_bind {r : I.Request} {f : I.Answer r → Program I β} :
    Exec D (Program.request r >>= f) s log b s' ↔
      ∃ x s₁ log', D s r x s₁ ∧ Exec D (f x) s₁ log' b s' ∧ log = ⟨r, x⟩ :: log' := Iff.rfl

theorem exec_bind_ok {p : ExceptT ε (Program I) α} {f : α → ExceptT ε (Program I) β} :
    Exec D (p >>= f).run s log (.ok b) s' ↔
      ∃ a s₁ log₁ log₂, Exec D p.run s log₁ (.ok a) s₁ ∧ Exec D (f a).run s₁ log₂ (.ok b) s' ∧
        log = log₁ ++ log₂ := by
  rw [ExceptT.run_bind, exec_bind]
  constructor
  · rintro ⟨a | a, s₁, log₁, log₂, h₁, h₂, rfl⟩
    · simp at h₂
    · exact ⟨a, s₁, log₁, log₂, h₁, h₂, rfl⟩
  · rintro ⟨a, s₁, log₁, log₂, h₁, h₂, rfl⟩
    exact ⟨.ok a, s₁, log₁, log₂, h₁, h₂, rfl⟩

/-- An execution that throws threw in the first program or in the second. -/
theorem exec_bind_error {p : ExceptT ε (Program I) α} {f : α → ExceptT ε (Program I) β} {e : ε} :
    Exec D (p >>= f).run s log (.error e) s' ↔
      Exec D p.run s log (.error e) s' ∨
      ∃ a s₁ log₁ log₂, Exec D p.run s log₁ (.ok a) s₁ ∧
        Exec D (f a).run s₁ log₂ (.error e) s' ∧ log = log₁ ++ log₂ := by
  rw [ExceptT.run_bind, exec_bind]
  constructor
  · rintro ⟨a | a, s₁, log₁, log₂, h₁, h₂, rfl⟩
    · obtain ⟨rfl, he, rfl⟩ := h₂
      cases he
      rw [List.append_nil]
      exact Or.inl h₁
    · exact Or.inr ⟨a, s₁, log₁, log₂, h₁, h₂, rfl⟩
  · rintro (h | ⟨a, s₁, log₁, log₂, h₁, h₂, rfl⟩)
    · exact ⟨.error e, s', log, [], h, ⟨rfl, rfl, rfl⟩, (List.append_nil log).symm⟩
    · exact ⟨.ok a, s₁, log₁, log₂, h₁, h₂, rfl⟩

/-- However it ends, an execution threw in the first program or reached the second. -/
theorem exec_except_bind {p : ExceptT ε (Program I) α} {f : α → ExceptT ε (Program I) β}
    {x : Except ε β} :
    Exec D (p >>= f).run s log x s' ↔
      (∃ e, x = .error e ∧ Exec D p.run s log (.error e) s') ∨
      ∃ a s₁ log₁ log₂, Exec D p.run s log₁ (.ok a) s₁ ∧ Exec D (f a).run s₁ log₂ x s' ∧
        log = log₁ ++ log₂ := by
  cases x with
  | ok b =>
      rw [exec_bind_ok]
      constructor
      · exact Or.inr
      · rintro (⟨_, he, _⟩ | h)
        · cases he
        · exact h
  | error e =>
      rw [exec_bind_error]
      constructor
      · rintro (h | h)
        · exact Or.inl ⟨e, rfl, h⟩
        · exact Or.inr h
      · rintro (⟨_, he, h⟩ | h)
        · cases he
          exact Or.inl h
        · exact Or.inr h

theorem exec_lift_bind {p : Program I α} {f : α → ExceptT ε (Program I) β} {x : Except ε β} :
    Exec D ((ExceptT.lift p : ExceptT ε (Program I) α) >>= f).run s log x s' ↔
      ∃ a s₁ log₁ log₂, Exec D p s log₁ a s₁ ∧ Exec D (f a).run s₁ log₂ x s' ∧
        log = log₁ ++ log₂ := by
  change Exec D ((p >>= fun a => pure (.ok a)) >>= ExceptT.bindCont f) s log x s' ↔ _
  rw [exec_bind]
  constructor
  · rintro ⟨y, s₁, log₁, log₂, h₁, h₂, rfl⟩
    obtain ⟨a, s₂, log₃, log₄, hp, ⟨rfl, rfl, rfl⟩, rfl⟩ := exec_bind.mp h₁
    exact ⟨a, s₁, log₃, log₂, hp, h₂, by rw [List.append_nil]⟩
  · rintro ⟨a, s₁, log₁, log₂, h₁, h₂, rfl⟩
    exact ⟨.ok a, s₁, log₁, log₂, exec_bind.mpr ⟨a, s₁, log₁, [], h₁, ⟨rfl, rfl, rfl⟩, by simp⟩,
      h₂, rfl⟩

theorem exec_throw {e : ε} {x : Except ε β} :
    Exec D (throw e : ExceptT ε (Program I) β).run s log x s' ↔
      log = [] ∧ x = .error e ∧ s' = s := Iff.rfl

theorem exec_return {b' : β} {x : Except ε β} :
    Exec D (pure b' : ExceptT ε (Program I) β).run s log x s' ↔
      log = [] ∧ x = .ok b' ∧ s' = s := Iff.rfl

theorem Exec.mono {p : Program I β} (hD : D ≤ D') (h : Exec D p s log b s') :
    Exec D' p s log b s' := by
  induction p generalizing s log with
  | pure a => exact h
  | call r next ih =>
      obtain ⟨x, s₁, log', hx, h, rfl⟩ := h
      exact ⟨x, s₁, log', hD _ _ _ _ hx, ih x h, rfl⟩
  | outOfFuel => exact h

theorem Exec.map {τ : Type} {D' : Device I τ} {f : σ → τ} {p : Program I β}
    (hD : ∀ s r x s', D s r x s' → D' (f s) r x (f s')) (h : Exec D p s log b s') :
    Exec D' p (f s) log b (f s') := by
  induction p generalizing s log with
  | pure a =>
      obtain ⟨hlog, ha, rfl⟩ := h
      exact ⟨hlog, ha, rfl⟩
  | call r next ih =>
      obtain ⟨x, s₁, log', hx, h, rfl⟩ := h
      exact ⟨x, f s₁, log', hD _ _ _ _ hx, ih x h, rfl⟩
  | outOfFuel => exact h

/-- A relation between states kept by every answer is kept by every execution. -/
theorem Exec.preserves {p : Program I β} {R : σ → σ → Prop} (hrefl : ∀ s, R s s)
    (htrans : ∀ s₁ s₂ s₃, R s₁ s₂ → R s₂ s₃ → R s₁ s₃)
    (hD : ∀ s r x s', D s r x s' → (⟨r, x⟩ : Event I) ∈ log → R s s')
    (h : Exec D p s log b s') : R s s' := by
  induction p generalizing s log with
  | pure a =>
      obtain ⟨_, _, rfl⟩ := h
      exact hrefl _
  | call r next ih =>
      obtain ⟨x, s₁, log', hx, h, rfl⟩ := h
      have hrest := ih x (fun s r x s' h hm => hD s r x s' h (List.mem_cons_of_mem _ hm)) h
      exact htrans _ _ _ (hD _ _ _ _ hx List.mem_cons_self) hrest
  | outOfFuel => exact h.elim

/-- A loop whose body computes `g` as long as `P` holds of the device. -/
theorem exec_foldlM {f : β → α → Program I β} {g : β → α → β} {P : σ → Prop} {as : List α}
    {b' : β}
    (hf : ∀ a ∈ as, ∀ b s log b' s', P s → Exec D (f b a) s log b' s' → b' = g b a ∧ P s')
    (hs : P s) (h : Exec D (as.foldlM f b) s log b' s') : b' = as.foldl g b ∧ P s' := by
  induction as generalizing b s log with
  | nil =>
      obtain ⟨_, rfl, rfl⟩ := exec_pure.mp h
      exact ⟨rfl, hs⟩
  | cons a as ih =>
      rw [List.foldlM_cons] at h
      obtain ⟨b₁, s₁, log₁, log₂, hfirst, hrest, rfl⟩ := exec_bind.mp h
      obtain ⟨rfl, hs₁⟩ := hf a List.mem_cons_self _ _ _ _ _ hs hfirst
      exact ih (fun a' ha => hf a' (List.mem_cons_of_mem _ ha)) hs₁ hrest

theorem exists_exec_bind {p : Program I α} {f : α → Program I β} {a : α} {s₁ : σ}
    (hp : ∃ log, Exec D p s log a s₁) (hf : ∃ log, Exec D (f a) s₁ log b s') :
    ∃ log, Exec D (p >>= f) s log b s' := by
  obtain ⟨log₁, h₁⟩ := hp
  obtain ⟨log₂, h₂⟩ := hf
  exact ⟨log₁ ++ log₂, exec_bind.mpr ⟨a, s₁, log₁, log₂, h₁, h₂, rfl⟩⟩

theorem exists_exec_foldlM {f : β → α → Program I β}
    (hf : ∀ b a, ∃ b' log, Exec D (f b a) s log b' s) (as : List α) (b : β) :
    ∃ b' log, Exec D (as.foldlM f b) s log b' s := by
  induction as generalizing b with
  | nil => exact ⟨b, [], rfl, rfl, rfl⟩
  | cons a as ih =>
      obtain ⟨b₁, hfirst⟩ := hf b a
      obtain ⟨b₂, hrest⟩ := ih b₁
      rw [List.foldlM_cons]
      exact ⟨b₂, exists_exec_bind hfirst hrest⟩

end Exec

/-- Every request of the program satisfies `P`, whatever the answers. -/
def Issues (P : I.Request → Prop) : Program I α → Prop
  | .pure _ => True
  | .call r next => P r ∧ ∀ x, Issues P (next x)
  | .outOfFuel => True

section Issues
variable {P : I.Request → Prop}

theorem issues_pure (a : α) : Issues P (pure a : Program I α) := trivial

theorem issues_request {r : I.Request} (h : P r) : Issues P (Program.request r) :=
  ⟨h, fun _ => trivial⟩

theorem Issues.bind {p : Program I α} {f : α → Program I β} (hp : Issues P p)
    (hf : ∀ a, Issues P (f a)) : Issues P (p >>= f) := by
  change Issues P (p.bind f)
  induction p with
  | pure a => exact hf a
  | call r next ih => exact ⟨hp.1, fun x => ih x (hp.2 x)⟩
  | outOfFuel => trivial

theorem Issues.except_bind {p : ExceptT ε (Program I) α} {f : α → ExceptT ε (Program I) β}
    (hp : Issues P p.run) (hf : ∀ a, Issues P (f a).run) : Issues P (p >>= f).run := by
  rw [ExceptT.run_bind]
  apply hp.bind
  intro x
  cases x with
  | ok a => exact hf a
  | error e => exact issues_pure _

theorem issues_lift {p : Program I α} (hp : Issues P p) :
    Issues P (ExceptT.lift p : ExceptT ε (Program I) α).run :=
  hp.bind fun _ => issues_pure _

theorem Issues.mono {Q : I.Request → Prop} {p : Program I α} (h : Issues P p)
    (hPQ : ∀ r, P r → Q r) : Issues Q p := by
  induction p with
  | pure a => trivial
  | call r next ih => exact ⟨hPQ r h.1, fun x => ih x (h.2 x)⟩
  | outOfFuel => trivial

theorem issues_foldlM {f : β → α → Program I β} (hf : ∀ b a, Issues P (f b a)) (as : List α)
    (b : β) : Issues P (as.foldlM f b) := by
  induction as generalizing b with
  | nil => exact issues_pure b
  | cons a as ih =>
      rw [List.foldlM_cons]
      exact (hf b a).bind ih

theorem Exec.issues {D : Device I σ} {p : Program I α} {s s' : σ} {log : List (Event I)} {a : α}
    (hp : Issues P p) (h : Exec D p s log a s') : ∀ e ∈ log, P e.1 := by
  induction p generalizing s log with
  | pure b =>
      obtain ⟨rfl, _, _⟩ := h
      simp
  | call r next ih =>
      obtain ⟨x, s₁, log', _, h, rfl⟩ := h
      intro e he
      rcases List.mem_cons.mp he with rfl | he
      · exact hp.1
      · exact ih x (hp.2 x) h e he
  | outOfFuel => exact h.elim

theorem filterMap_eq_nil_of_issued {f : Event I → Option α} (hf : ∀ r x, P r → f ⟨r, x⟩ = none)
    {log : List (Event I)} (h : ∀ e ∈ log, P e.1) : log.filterMap f = [] := by
  rw [List.filterMap_eq_nil_iff]
  intro e he
  exact hf e.1 e.2 (h e he)

end Issues

/-- Run a program against given answers; `none` when it is cut off. -/
def Program.evaluate (answer : (r : I.Request) → I.Answer r) :
    Program I α → Option (List (Event I) × α)
  | .pure a => some ([], a)
  | .call r next =>
      (evaluate answer (next (answer r))).map fun x => (⟨r, answer r⟩ :: x.1, x.2)
  | .outOfFuel => none

/-- The device that gives these answers and keeps its state. -/
def fixed (answer : (r : I.Request) → I.Answer r) : Device I σ :=
  fun s r x s' => x = answer r ∧ s' = s

theorem exec_evaluate {D : Device I σ} {answer : (r : I.Request) → I.Answer r} {p : Program I α}
    {s : σ} {log : List (Event I)} {a : α} (h : p.evaluate answer = some (log, a))
    (hD : ∀ e ∈ log, D s e.1 (answer e.1) s) : Exec D p s log a s := by
  induction p generalizing log with
  | pure b =>
      cases h
      exact ⟨rfl, rfl, rfl⟩
  | call r next ih =>
      obtain ⟨⟨log', b⟩, hx, he⟩ := Option.map_eq_some_iff.mp h
      cases he
      have hfirst := hD _ List.mem_cons_self
      have hrest := ih _ hx fun e he => hD e (List.mem_cons_of_mem _ he)
      exact ⟨answer r, s, log', hfirst, hrest, rfl⟩
  | outOfFuel => cases h

theorem exec_evaluate_moved {D : Device I σ} {answer : (r : I.Request) → I.Answer r}
    {p : Program I α} {s s' : σ} {first : Event I} {log : List (Event I)} {a : α}
    (h : p.evaluate answer = some (first :: log, a)) (hfirst : D s first.1 first.2 s')
    (hD : ∀ e ∈ log, D s' e.1 (answer e.1) s') : Exec D p s (first :: log) a s' := by
  cases p with
  | pure b => cases h
  | call r next =>
      obtain ⟨⟨log', b⟩, hx, he⟩ := Option.map_eq_some_iff.mp h
      cases he
      exact ⟨answer r, s', log', hfirst, exec_evaluate hx hD, rfl⟩
  | outOfFuel => cases h

theorem exec_fixed {answer : (r : I.Request) → I.Answer r} {p : Program I α} {s : σ}
    {log : List (Event I)} {a : α} (h : p.evaluate answer = some (log, a)) :
    Exec (fixed answer) p s log a s := exec_evaluate h fun _ _ => ⟨rfl, rfl⟩

def Program.evaluateFrom (answer : σ → (r : I.Request) → I.Answer r × σ) :
    Program I α → σ → Option (List (Event I) × α × σ)
  | .pure a, s => some ([], a, s)
  | .call r next, s =>
      (evaluateFrom answer (next (answer s r).1) (answer s r).2).map fun out =>
        (⟨r, (answer s r).1⟩ :: out.1, out.2)
  | .outOfFuel, _ => none

theorem exec_evaluateFrom {D : Device I σ} {answer : σ → (r : I.Request) → I.Answer r × σ}
    {p : Program I α} {s : σ} {out : List (Event I) × α × σ}
    (hD : ∀ s r, D s r (answer s r).1 (answer s r).2) (h : p.evaluateFrom answer s = some out) :
    Exec D p s out.1 out.2.1 out.2.2 := by
  induction p generalizing s out with
  | pure a =>
      cases h
      exact ⟨rfl, rfl, rfl⟩
  | call r next ih =>
      obtain ⟨out', hx, rfl⟩ := Option.map_eq_some_iff.mp h
      exact ⟨_, _, out'.1, hD s r, ih _ hx, rfl⟩
  | outOfFuel => cases h

/-- No answers of the device lead to a loop that is cut off. -/
def Halts (D : Device I σ) : Program I α → σ → Prop
  | .pure _, _ => True
  | .call r next, s => ∀ x s', D s r x s' → Halts D (next x) s'
  | .outOfFuel, _ => False

section Halts
variable {D : Device I σ} {s : σ}

theorem halts_pure (a : α) : Halts D (pure a : Program I α) s := trivial

theorem halts_request (r : I.Request) : Halts D (Program.request r) s := fun _ _ _ => trivial

theorem Halts.bind {p : Program I α} {f : α → Program I β} (hp : Halts D p s)
    (hf : ∀ log a s', Exec D p s log a s' → Halts D (f a) s') : Halts D (p >>= f) s := by
  change Halts D (p.bind f) s
  induction p generalizing s with
  | pure a => exact hf [] a s ⟨rfl, rfl, rfl⟩
  | call r next ih =>
      intro x s₁ hx
      apply ih x (hp x s₁ hx)
      intro log a s' h
      exact hf (⟨r, x⟩ :: log) a s' ⟨x, s₁, log, hx, h, rfl⟩
  | outOfFuel => exact hp.elim

theorem Halts.except_bind {p : ExceptT ε (Program I) α} {f : α → ExceptT ε (Program I) β}
    (hp : Halts D p.run s)
    (hf : ∀ log a s', Exec D p.run s log (.ok a) s' → Halts D (f a).run s') :
    Halts D (p >>= f).run s := by
  rw [ExceptT.run_bind]
  apply hp.bind
  intro log x s' h
  cases x with
  | ok a => exact hf log a s' h
  | error e => exact halts_pure _

theorem halts_lift {p : Program I α} (hp : Halts D p s) :
    Halts D (ExceptT.lift p : ExceptT ε (Program I) α).run s :=
  hp.bind fun _ _ _ _ => halts_pure _

/-- A program that comes to an end has an execution on a device that answers it. -/
theorem Halts.exists_exec {P : I.Request → Prop} {p : Program I α} (hp : Halts D p s)
    (hissues : Issues P p) (hD : ∀ s r, P r → ∃ x s', D s r x s') :
    ∃ log a s', Exec D p s log a s' := by
  induction p generalizing s with
  | pure a => exact ⟨[], a, s, rfl, rfl, rfl⟩
  | call r next ih =>
      obtain ⟨x, s₁, hx⟩ := hD s r hissues.1
      obtain ⟨log, a, s', h⟩ := ih x (hp x s₁ hx) (hissues.2 x)
      exact ⟨⟨r, x⟩ :: log, a, s', x, s₁, log, hx, h, rfl⟩
  | outOfFuel => exact hp.elim

end Halts

/-- The device seen through a loop that issues a request again as long as its
answer satisfies `again`. Only the last answer is returned. -/
inductive Retried (D : Device I σ) (again : (r : I.Request) → I.Answer r → Prop) :
    σ → (r : I.Request) → I.Answer r → σ → Prop
  | done {s r x s'} (hD : D s r x s') (hx : ¬ again r x) : Retried D again s r x s'
  | retry {s r x s₁ y s'} (hD : D s r x s₁) (hx : again r x)
      (rest : Retried D again s₁ r y s') : Retried D again s r y s'

section Retried
variable {D D' : Device I σ} {again : (r : I.Request) → I.Answer r → Prop}
  {s s' : σ} {r : I.Request} {x : I.Answer r}

theorem Retried.not_again (h : Retried D again s r x s') : ¬ again r x := by
  induction h with
  | done _ hx => exact hx
  | retry _ _ _ ih => exact ih

theorem Retried.last (h : Retried D again s r x s') : ∃ s₁, D s₁ r x s' := by
  induction h with
  | done hD _ => exact ⟨_, hD⟩
  | retry _ _ _ ih => exact ih

/-- Where an interrupted request leaves the state alone, the loop is one request
whose answer is not an interruption. -/
theorem retried_iff (hstay : ∀ s r x s', again r x → D s r x s' → s' = s) :
    Retried D again s r x s' ↔ D s r x s' ∧ ¬ again r x := by
  constructor
  · intro h
    refine ⟨?_, h.not_again⟩
    induction h with
    | done hD _ => exact hD
    | retry hD hx _ ih =>
        have hs := hstay _ _ _ _ hx hD
        exact hs ▸ ih
  · rintro ⟨hD, hx⟩
    exact .done hD hx

theorem retried_le (hstay : ∀ s r x s', again r x → D s r x s' → s' = s) :
    Retried D again ≤ D := fun _ _ _ _ h => ((retried_iff hstay).mp h).1

theorem Retried.mono (hD : D ≤ D') : Retried D again ≤ Retried D' again := by
  intro s r x s' h
  induction h with
  | done h hx => exact .done (hD _ _ _ _ h) hx
  | retry h hx _ ih => exact .retry (hD _ _ _ _ h) hx ih

end Retried

end DeviceProgram
