import Mathlib.Algebra.Order.Group.Multiset

/-!
# Objects that can be moved but not copied

An object owns things and gives them back when it is destroyed. A class of such objects is given
by its special members: the destructor, the move constructor and the move assignment, which is
told whether both sides are one object.

`Lawful` is what the members have to keep. A run then conserves what the objects own, whatever
the order of its operations: everything adopted is held by one of the objects alive, or has been
given back, and never both.
-/

namespace UniqueOwner

structure MoveOnly (η ρ : Type) where
  destroy : η → List ρ
  /-- The new object, and what the move leaves of the other. -/
  moveConstruct : η → η × η
  /-- What the target gives back, then both objects. -/
  moveAssign : (same : Bool) → η → η → List ρ × η × η

variable {η ρ : Type}

structure Lawful (C : MoveOnly η ρ) (owned : η → Multiset ρ) : Prop where
  destroy : ∀ x, (C.destroy x : Multiset ρ) = owned x
  moved : ∀ x, (C.moveConstruct x).1 = x
  emptied : ∀ x, owned (C.moveConstruct x).2 = 0
  assigned : ∀ x y, (C.moveAssign false x y).1 = C.destroy x ∧ (C.moveAssign false x y).2.1 = y
  assignedEmptied : ∀ x y, owned (C.moveAssign false x y).2.2 = 0
  selfAssigned : ∀ x, C.moveAssign true x x = ([], x, x)

/-- Every object ever made has a place, which is empty once the object is destroyed. -/
abbrev Objects (η : Type) := List (Option η)

inductive Op (η : Type)
  | construct (x : η)
  | moveConstruct (source : ℕ)
  | moveAssign (target source : ℕ)
  | destroy (target : ℕ)

/-- The objects after an operation and what was given back; an operation on an object that is not
alive has no meaning. -/
def step (C : MoveOnly η ρ) (objects : Objects η) : Op η → Option (Objects η × List ρ)
  | .construct x => some (objects ++ [some x], [])
  | .moveConstruct source =>
      match objects[source]? with
      | some (some y) =>
          let (x, rest) := C.moveConstruct y
          some (objects.set source (some rest) ++ [some x], [])
      | _ => none
  | .moveAssign target source =>
      match objects[target]?, objects[source]? with
      | some (some x), some (some y) =>
          let (released, x, y) := C.moveAssign (target == source) x y
          if target = source then some (objects.set target (some x), released)
          else some ((objects.set target (some x)).set source (some y), released)
      | _, _ => none
  | .destroy target =>
      match objects[target]? with
      | some (some x) => some (objects.set target none, C.destroy x)
      | _ => none

def run (C : MoveOnly η ρ) (objects : Objects η) : List (Op η) → Option (Objects η × List ρ)
  | [] => some (objects, [])
  | op :: ops =>
      match step C objects op with
      | none => none
      | some (objects, released) =>
          (run C objects ops).map fun result => (result.1, released ++ result.2)

theorem run_append {C : MoveOnly η ρ} {objects : Objects η} {ops ops' : List (Op η)} :
    run C objects (ops ++ ops') = (run C objects ops).bind fun result =>
      (run C result.1 ops').map fun result' => (result'.1, result.2 ++ result'.2) := by
  induction ops generalizing objects with
  | nil => simp [run]
  | cons op ops ih =>
      simp only [List.cons_append, run]
      cases step C objects op with
      | none => rfl
      | some first =>
          simp only [ih]
          cases run C first.1 ops with
          | none => rfl
          | some second => simp [List.append_assoc, Function.comp_def]

variable (owned : η → Multiset ρ)

def weight (object : Option η) : Multiset ρ := object.elim 0 owned

def held (objects : Objects η) : Multiset ρ := (objects.map (weight owned)).sum

def Op.adopts : Op η → Multiset ρ
  | .construct x => owned x
  | _ => 0

def adopted (ops : List (Op η)) : Multiset ρ := (ops.map (Op.adopts owned)).sum

variable {owned} {C : MoveOnly η ρ} {objects objects' : Objects η} {released : List ρ}

@[simp] theorem held_append {more : Objects η} :
    held owned (objects ++ more) = held owned objects + held owned more := by
  simp [held]

variable (owned) in
theorem held_set {i : ℕ} {object : Option η} (object' : Option η) (h : objects[i]? = some object) :
    held owned (objects.set i object') + weight owned object =
      held owned objects + weight owned object' := by
  induction objects generalizing i with
  | nil => simp at h
  | cons first objects ih =>
      cases i with
      | zero =>
          simp only [List.getElem?_cons_zero, Option.some.injEq] at h
          simp only [held, List.set_cons_zero, List.map_cons, List.sum_cons, h]
          rw [add_right_comm, add_comm (weight owned object'), add_right_comm]
      | succ i =>
          have hrest := ih (i := i) (by simpa using h)
          simp only [held, List.set_cons_succ, List.map_cons, List.sum_cons] at hrest ⊢
          rw [add_assoc, hrest, add_assoc]

theorem held_singleton {object : Option η} : held owned [object] = weight owned object := by
  simp [held]

theorem step_moveConstruct (hC : Lawful C owned) {source : ℕ} {y : η}
    (hy : objects[source]? = some (some y)) :
    step C objects (.moveConstruct source) =
      some (objects.set source (some (C.moveConstruct y).2) ++ [some y], []) := by
  simp [step, hy, hC.moved]

theorem step_selfAssign (hC : Lawful C owned) {target : ℕ} {x : η}
    (hx : objects[target]? = some (some x)) :
    step C objects (.moveAssign target target) = some (objects, []) := by
  have hset : objects.set target (some x) = objects := by
    obtain ⟨hlt, hx⟩ := List.getElem?_eq_some_iff.mp hx
    rw [← hx, List.set_getElem_self]
  simp [step, hx, hC.selfAssigned, hset]

theorem step_moveAssign (hC : Lawful C owned) {target source : ℕ} {x y : η}
    (hx : objects[target]? = some (some x)) (hy : objects[source]? = some (some y))
    (hne : target ≠ source) :
    step C objects (.moveAssign target source) =
      some ((objects.set target (some y)).set source (some (C.moveAssign false x y).2.2),
        C.destroy x) := by
  obtain ⟨hreleased, htaken⟩ := hC.assigned x y
  simp only [step, hx, hy, beq_eq_false_iff_ne.mpr hne, if_neg hne, hreleased, htaken]

/-- What an operation does with the things owned: it moves them, adopts them or gives them back. -/
theorem step_conserves (hC : Lawful C owned) {op : Op η}
    (h : step C objects op = some (objects', released)) :
    held owned objects + op.adopts owned = held owned objects' + released := by
  cases op with
  | construct x =>
      simp only [step, Option.some.injEq, Prod.mk.injEq] at h
      obtain ⟨rfl, rfl⟩ := h
      simp [held_singleton, weight, Op.adopts]
  | moveConstruct source =>
      by_cases halive : ∃ y, objects[source]? = some (some y)
      · obtain ⟨y, hy⟩ := halive
        rw [step_moveConstruct hC hy] at h
        cases h
        have hset := held_set owned (some (C.moveConstruct y).2) hy
        simp only [weight, Option.elim_some, hC.emptied, add_zero] at hset
        simp [held_singleton, weight, Op.adopts, hset]
      · simp only [step] at h
        split at h
        · exact absurd ⟨_, ‹_›⟩ halive
        · cases h
  | moveAssign target source =>
      by_cases halive : (∃ x, objects[target]? = some (some x)) ∧
          ∃ y, objects[source]? = some (some y)
      · obtain ⟨⟨x, hx⟩, y, hy⟩ := halive
        by_cases hsame : target = source
        · subst hsame
          rw [step_selfAssign hC hx] at h
          cases h
          simp [Op.adopts]
        · rw [step_moveAssign hC hx hy hsame] at h
          cases h
          have hfirst := held_set owned (some y) hx
          have hsource : (objects.set target (some y))[source]? = some (some y) := by
            rw [List.getElem?_set_ne hsame, hy]
          have hsecond := held_set owned (some (C.moveAssign false x y).2.2) hsource
          simp only [weight, Option.elim_some, hC.assignedEmptied, add_zero] at hfirst hsecond
          rw [← hsecond, add_right_comm] at hfirst
          simp [Op.adopts, hC.destroy, add_right_cancel hfirst]
      · simp only [step] at h
        split at h
        · exact absurd ⟨⟨_, ‹_›⟩, _, ‹_›⟩ halive
        · cases h
  | destroy target =>
      simp only [step] at h
      split at h
      · rename_i x hx
        simp only [Option.some.injEq, Prod.mk.injEq] at h
        obtain ⟨rfl, rfl⟩ := h
        have hset := held_set owned none hx
        simp only [weight, Option.elim_some, Option.elim_none, add_zero] at hset
        simp [Op.adopts, hC.destroy, hset]
      · cases h

theorem run_conserves (hC : Lawful C owned) {ops : List (Op η)}
    (h : run C objects ops = some (objects', released)) :
    held owned objects + adopted owned ops = held owned objects' + released := by
  induction ops generalizing objects released with
  | nil =>
      simp only [run, Option.some.injEq, Prod.mk.injEq] at h
      obtain ⟨rfl, rfl⟩ := h
      simp [adopted]
  | cons op ops ih =>
      simp only [run] at h
      split at h
      · cases h
      · rename_i middle first hstep
        obtain ⟨⟨last, second⟩, hrest, heq⟩ := Option.map_eq_some_iff.mp h
        simp only [Prod.mk.injEq] at heq
        obtain ⟨rfl, rfl⟩ := heq
        have hone := step_conserves hC hstep
        have hmore := ih hrest
        simp only [adopted, List.map_cons, List.sum_cons] at hmore ⊢
        rw [← add_assoc, hone, add_right_comm, hmore, ← Multiset.coe_add, add_assoc,
          add_comm (second : Multiset ρ)]

/-- No operation of the run adopts what one of the objects owns already. -/
def Fresh (C : MoveOnly η ρ) (owned : η → Multiset ρ) : Objects η → List (Op η) → Prop
  | _, [] => True
  | objects, op :: ops => (held owned objects + op.adopts owned).Nodup ∧
      ∀ result, step C objects op = some result → Fresh C owned result.1 ops

theorem step_distinct (hC : Lawful C owned) {op : Op η}
    (hfresh : (held owned objects + op.adopts owned).Nodup)
    (h : step C objects op = some (objects', released)) :
    (held owned objects').Nodup ∧ released.Nodup ∧ ∀ r ∈ released, r ∉ held owned objects' := by
  rw [step_conserves hC h, Multiset.nodup_add] at hfresh
  obtain ⟨hheld, hreleased, hdisjoint⟩ := hfresh
  refine ⟨hheld, Multiset.coe_nodup.mp hreleased, fun r hr hin => ?_⟩
  exact Multiset.disjoint_left.mp hdisjoint hin (Multiset.mem_coe.mpr hr)

theorem run_distinct (hC : Lawful C owned) {ops : List (Op η)} (hfresh : Fresh C owned objects ops)
    (hheld : (held owned objects).Nodup) (h : run C objects ops = some (objects', released)) :
    (held owned objects').Nodup := by
  induction ops generalizing objects released with
  | nil =>
      simp only [run, Option.some.injEq, Prod.mk.injEq] at h
      exact h.1 ▸ hheld
  | cons op ops ih =>
      simp only [run] at h
      split at h
      · cases h
      · rename_i middle first hstep
        obtain ⟨⟨last, second⟩, hrest, heq⟩ := Option.map_eq_some_iff.mp h
        simp only [Prod.mk.injEq] at heq
        obtain ⟨rfl, rfl⟩ := heq
        exact ih (hfresh.2 _ hstep) (step_distinct hC hfresh.1 hstep).1 hrest

/-- Over every run from nothing each thing adopted is held or has been given back; once all
objects are gone it has been given back. While nothing is adopted that is still held, no two
objects own one thing. -/
def Accounts (C : MoveOnly η ρ) (owned : η → Multiset ρ) : Prop :=
  ∀ (ops : List (Op η)) (objects : Objects η) (released : List ρ),
    run C [] ops = some (objects, released) →
      adopted owned ops = held owned objects + released ∧
      ((∀ object ∈ objects, object = none) → adopted owned ops = released) ∧
      (Fresh C owned [] ops → (held owned objects).Nodup)

theorem held_none (h : ∀ object ∈ objects, object = none) : held owned objects = 0 := by
  induction objects with
  | nil => rfl
  | cons object objects ih =>
      have hrest := ih fun x hx => h x (by simp [hx])
      simp only [held] at hrest
      simp [held, weight, h object (by simp), hrest]

theorem Lawful.accounts (hC : Lawful C owned) : Accounts C owned := by
  intro ops objects released h
  have hconserved := run_conserves hC h
  have hempty : held owned ([] : Objects η) = 0 := rfl
  rw [hempty, zero_add] at hconserved
  refine ⟨hconserved, fun hgone => ?_, fun hfresh => ?_⟩
  · rw [hconserved, held_none hgone, zero_add]
  · exact run_distinct hC hfresh (hempty ▸ Multiset.nodup_zero) h

/-- Each object is moved to a new place and destroyed where it was, as a vector does that grows. -/
def relocate (sources : List ℕ) : List (Op η) :=
  sources.flatMap fun i => [.moveConstruct i, .destroy i]

theorem destroy_emptied (hC : Lawful C owned) (x : η) : C.destroy (C.moveConstruct x).2 = [] := by
  have h := hC.destroy (C.moveConstruct x).2
  rw [hC.emptied] at h
  exact (Multiset.coe_eq_zero _).mp h

theorem run_relocate_one (hC : Lawful C owned) {i : ℕ} {x : η}
    (hx : objects[i]? = some (some x)) :
    run C objects [.moveConstruct i, .destroy i] = some (objects.set i none ++ [some x], []) := by
  have hi : i < objects.length := by
    by_contra hi
    simp [List.getElem?_eq_none (by omega : objects.length ≤ i)] at hx
  have hrest : step C (objects.set i (some (C.moveConstruct x).2) ++ [some x]) (.destroy i) =
      some (objects.set i none ++ [some x], []) := by
    simp [step, List.getElem?_append, hi, destroy_emptied hC]
  simp only [run, step_moveConstruct hC hx, hrest]
  rfl

theorem foldl_set_append {sources : List ℕ} {more : Objects η}
    (h : ∀ i ∈ sources, i < objects.length) :
    sources.foldl (fun objects i => objects.set i none) (objects ++ more) =
      sources.foldl (fun objects i => objects.set i none) objects ++ more := by
  induction sources generalizing objects with
  | nil => rfl
  | cons i sources ih =>
      have hi : i < objects.length := h i (by simp)
      have hrest : ∀ j ∈ sources, j < (objects.set i none).length := by
        intro j hj
        rw [List.length_set]
        exact h j (by simp [hj])
      simp only [List.foldl_cons, List.set_append, hi, if_true, ih hrest]

/-- Relocating objects gives nothing back and keeps their values, in order. -/
theorem run_relocate (hC : Lawful C owned) {sources : List ℕ} {values : List η}
    (hsources : sources.Nodup)
    (hvalues : sources.map (fun i => objects[i]?) = values.map fun x => some (some x)) :
    run C objects (relocate sources) =
      some (sources.foldl (fun objects i => objects.set i none) objects ++ values.map some,
        []) := by
  induction sources generalizing objects values with
  | nil =>
      obtain rfl : values = [] := by simpa using hvalues.symm
      simp [relocate, run]
  | cons i sources ih =>
      cases values with
      | nil => simp at hvalues
      | cons x values =>
          simp only [List.map_cons, List.cons.injEq] at hvalues
          obtain ⟨hx, hvalues⟩ := hvalues
          rw [List.nodup_cons] at hsources
          have hlive : ∀ j ∈ sources, j < objects.length := by
            intro j hj
            have hmem : objects[j]? ∈ sources.map fun j => objects[j]? := List.mem_map_of_mem hj
            rw [hvalues, List.mem_map] at hmem
            obtain ⟨y, _, hy⟩ := hmem
            exact (List.getElem?_eq_some_iff.mp hy.symm).1
          have hkept : (sources.map fun j => (objects.set i none ++ [some x])[j]?) =
              values.map fun x => some (some x) := by
            rw [← hvalues]
            apply List.map_congr_left
            intro j hj
            have hne : i ≠ j := by
              rintro rfl
              exact hsources.1 hj
            rw [List.getElem?_append_left (by simpa using hlive j hj), List.getElem?_set_ne hne]
          have hone := run_relocate_one hC hx
          have hrest := ih hsources.2 hkept
          change run C objects ([.moveConstruct i, .destroy i] ++ relocate sources) = _
          rw [run_append, hone, Option.bind_some, hrest, foldl_set_append (by simpa using hlive)]
          simp

theorem set_replicate (k : ℕ) (object : Option η) (rest : Objects η) :
    (List.replicate k none ++ object :: rest).set k none = List.replicate (k + 1) none ++ rest := by
  rw [List.set_append_right _ _ (by simp)]
  simp [List.replicate_succ']

theorem foldl_set_range {k : ℕ} (hk : k ≤ objects.length) :
    (List.range k).foldl (fun objects i => objects.set i none) objects =
      List.replicate k none ++ objects.drop k := by
  induction k with
  | zero => rfl
  | succ k ih =>
      have hlast : k < objects.length := by omega
      rw [List.range_succ, List.foldl_append, ih (by omega), List.foldl_cons, List.foldl_nil,
        List.drop_eq_getElem_cons hlast, set_replicate]

/-- A vector that grows: the values have moved on, in order, and nothing was given back. -/
theorem run_grow (hC : Lawful C owned) (values : List η) :
    run C (values.map some) (relocate (List.range values.length)) =
      some (List.replicate values.length none ++ values.map some, []) := by
  have hvalues : (List.range values.length).map (fun i => (values.map some)[i]?) =
      values.map fun x => some (some x) := by
    apply List.ext_getElem
    · simp
    · intro i h₁ h₂
      simp only [List.length_map] at h₂
      simp [List.getElem?_eq_getElem h₂]
  rw [run_relocate hC List.nodup_range hvalues, foldl_set_range (by simp)]
  simp

def destroyEach (count : ℕ) : List (Op η) := (List.range count).map .destroy

theorem run_destroyEach (values : List η) :
    run C (values.map some) (destroyEach values.length) =
      some (List.replicate values.length none, values.flatMap C.destroy) := by
  have hfirst : ∀ k ≤ values.length, run C (values.map some) (destroyEach k) =
      some (List.replicate k none ++ (values.drop k).map some,
        (values.take k).flatMap C.destroy) := by
    intro k
    induction k with
    | zero => simp [destroyEach, run]
    | succ k ih =>
        intro hk
        have hlast : k < values.length := by omega
        have hsplit : destroyEach (k + 1) = destroyEach k ++ [Op.destroy (η := η) k] := by
          simp [destroyEach, List.range_succ]
        have hdestroyed : step C (List.replicate k none ++ (values.drop k).map some) (.destroy k) =
            some (List.replicate (k + 1) none ++ (values.drop (k + 1)).map some,
              C.destroy values[k]) := by
          rw [List.drop_eq_getElem_cons hlast, List.map_cons,
            ← set_replicate k (some values[k])]
          simp [step]
        rw [hsplit, run_append, ih (by omega), Option.bind_some, List.take_add_one,
          List.getElem?_eq_getElem hlast]
        simp only [run, hdestroyed, Option.map_some, Option.toList_some, List.flatMap_append,
          List.flatMap_singleton, List.append_nil]
  rw [hfirst values.length le_rfl]
  simp

end UniqueOwner
