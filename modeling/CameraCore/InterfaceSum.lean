import CameraCore.DeviceProgram

/-!
# Programs over several interfaces

A program may use several devices at once. The sum of two interfaces has the requests of both,
and a program over one of them runs unchanged over the sum. What such a program does is read off
its own part of the log; the other part stays empty.

`Program.through` is the general form: each request is carried out by a program over another
interface. When all it adds to a log is known from the answer, the executions correspond event by
event.
-/

namespace DeviceProgram

variable {I J : Interface} {α σ : Type}

namespace Program

def through (f : (r : I.Request) → Program J (I.Answer r)) : Program I α → Program J α
  | .pure a => .pure a
  | .call r next => (f r).bind fun x => through f (next x)
  | .outOfFuel => .outOfFuel

end Program

theorem exec_through {D : Device J σ} {E : Device I σ}
    {f : (r : I.Request) → Program J (I.Answer r)} {events : Event I → List (Event J)}
    (hf : ∀ s r log x s', Exec D (f r) s log x s' ↔ E s r x s' ∧ log = events ⟨r, x⟩)
    {p : Program I α} {s s' : σ} {log : List (Event J)} {a : α} :
    Exec D (p.through f) s log a s' ↔ ∃ log', Exec E p s log' a s' ∧ log = log'.flatMap events := by
  induction p generalizing s log with
  | pure b =>
      constructor
      · rintro ⟨rfl, rfl, rfl⟩
        exact ⟨[], ⟨rfl, rfl, rfl⟩, rfl⟩
      · rintro ⟨log', ⟨rfl, rfl, rfl⟩, rfl⟩
        exact ⟨rfl, rfl, rfl⟩
  | call r next ih =>
      have hbind : Exec D ((f r) >>= fun x => (next x).through f) s log a s' ↔ _ := exec_bind
      change Exec D ((f r) >>= fun x => (next x).through f) s log a s' ↔ _
      rw [hbind]
      constructor
      · rintro ⟨x, s₁, log₁, log₂, h₁, h₂, rfl⟩
        obtain ⟨hE, rfl⟩ := (hf s r log₁ x s₁).mp h₁
        obtain ⟨log', h', rfl⟩ := (ih x).mp h₂
        exact ⟨⟨r, x⟩ :: log', ⟨x, s₁, log', hE, h', rfl⟩, rfl⟩
      · rintro ⟨log', ⟨x, s₁, log'', hE, h', rfl⟩, rfl⟩
        exact ⟨x, s₁, events ⟨r, x⟩, log''.flatMap events, (hf s r _ x s₁).mpr ⟨hE, rfl⟩,
          (ih x).mpr ⟨log'', h', rfl⟩, rfl⟩
  | outOfFuel =>
      constructor
      · intro h
        exact h.elim
      · rintro ⟨_, h, _⟩
        exact h.elim

theorem Issues.through {P : I.Request → Prop} {Q : J.Request → Prop}
    {f : (r : I.Request) → Program J (I.Answer r)} {p : Program I α} (h : Issues P p)
    (hf : ∀ r, P r → Issues Q (f r)) : Issues Q (p.through f) := by
  induction p with
  | pure a => trivial
  | call r next ih => exact (hf r h.1).bind fun x => ih x (h.2 x)
  | outOfFuel => trivial

abbrev SumAnswer (I J : Interface) : I.Request ⊕ J.Request → Type
  | .inl r => I.Answer r
  | .inr r => J.Answer r

abbrev Interface.sum (I J : Interface) : Interface := ⟨I.Request ⊕ J.Request, SumAnswer I J⟩

/-- Two devices that may share their state. -/
def Device.sum (D : Device I σ) (E : Device J σ) : Device (I.sum J) σ
  | s, .inl r, x, s' => D s r x s'
  | s, .inr r, x, s' => E s r x s'

def Event.left (e : Event I) : Event (I.sum J) := ⟨.inl e.1, e.2⟩

def Event.right (e : Event J) : Event (I.sum J) := ⟨.inr e.1, e.2⟩

namespace Program

def left (p : Program I α) : Program (I.sum J) α :=
  p.through fun r => (Program.request (I := I.sum J) (.inl r) : Program (I.sum J) (I.Answer r))

def right (p : Program J α) : Program (I.sum J) α :=
  p.through fun r => (Program.request (I := I.sum J) (.inr r) : Program (I.sum J) (J.Answer r))

end Program

theorem issues_right {P : (I.sum J).Request → Prop} {p : Program J α} (hP : ∀ r, P (.inr r)) :
    Issues P (Program.right (I := I) p) := by
  induction p with
  | pure a => trivial
  | call r next ih => exact ⟨hP r, ih⟩
  | outOfFuel => trivial

section Sum

variable {D : Device I σ} {E : Device J σ} {s s' : σ} {log : List (Event (I.sum J))} {a : α}

theorem exec_left {p : Program I α} :
    Exec (D.sum E) p.left s log a s' ↔
      ∃ log', Exec D p s log' a s' ∧ log = log'.map Event.left := by
  simp only [List.map_eq_flatMap]
  exact exec_through fun _ _ _ _ _ => exec_request

theorem exec_right {p : Program J α} :
    Exec (D.sum E) p.right s log a s' ↔
      ∃ log', Exec E p s log' a s' ∧ log = log'.map Event.right := by
  simp only [List.map_eq_flatMap]
  exact exec_through fun _ _ _ _ _ => exec_request

end Sum

def Event.left? : Event (I.sum J) → Option (Event I)
  | ⟨.inl r, x⟩ => some ⟨r, x⟩
  | ⟨.inr _, _⟩ => none

def Event.right? : Event (I.sum J) → Option (Event J)
  | ⟨.inl _, _⟩ => none
  | ⟨.inr r, x⟩ => some ⟨r, x⟩

def lefts (log : List (Event (I.sum J))) : List (Event I) := log.filterMap Event.left?

def rights (log : List (Event (I.sum J))) : List (Event J) := log.filterMap Event.right?

@[simp] theorem lefts_append (log log' : List (Event (I.sum J))) :
    lefts (log ++ log') = lefts log ++ lefts log' := List.filterMap_append

@[simp] theorem rights_append (log log' : List (Event (I.sum J))) :
    rights (log ++ log') = rights log ++ rights log' := List.filterMap_append

@[simp] theorem lefts_map_left (log : List (Event I)) :
    lefts (log.map (Event.left (J := J))) = log := by
  induction log with
  | nil => rfl
  | cons e log ih => exact congrArg (List.cons e) ih

@[simp] theorem rights_map_left (log : List (Event I)) :
    rights (log.map (Event.left (J := J))) = [] := by
  induction log with
  | nil => rfl
  | cons e log ih => exact ih

@[simp] theorem rights_map_right (log : List (Event J)) :
    rights (log.map (Event.right (I := I))) = log := by
  induction log with
  | nil => rfl
  | cons e log ih => exact congrArg (List.cons e) ih

end DeviceProgram
