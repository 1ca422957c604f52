import CameraCore.ScopedConstruction
import CameraCore.UniqueOwner

/-!
# The owners of the descriptor and the mappings

`UniqueFd` and `Mapping` can be moved but not copied, and each marks an object that owns nothing
by a value that the system never hands out: a negative descriptor, or `MAP_FAILED`. Their special
members are written field by field. Whatever a program does with such objects, what they were
given is closed or unmapped once, and the objects of a state give back just what the ledger of
the construction expects from it.
-/

namespace CameraCore

open UniqueOwner

structure UniqueFd where
  fd : Int32 := -1
deriving DecidableEq

namespace UniqueFd

/-- `~UniqueFd`. -/
def destroy (x : UniqueFd) : List Int32 := if 0 ≤ x.fd then [x.fd] else []

def moveConstruct (other : UniqueFd) : UniqueFd × UniqueFd :=
  ({ fd := other.fd }, { other with fd := -1 })

def moveAssign (same : Bool) (this other : UniqueFd) : List Int32 × UniqueFd × UniqueFd :=
  if !same then
    (if 0 ≤ this.fd then [this.fd] else [],
      { this with fd := other.fd }, { other with fd := -1 })
  else ([], this, other)

def owned (x : UniqueFd) : Multiset Int32 := if 0 ≤ x.fd then {x.fd} else 0

def members : MoveOnly UniqueFd Int32 := ⟨destroy, moveConstruct, moveAssign⟩

theorem lawful : Lawful members owned where
  destroy x := by
    change ((destroy x : List Int32) : Multiset Int32) = owned x
    unfold destroy owned
    split_ifs <;> rfl
  moved _ := rfl
  emptied _ := rfl
  assigned _ _ := ⟨rfl, rfl⟩
  assignedEmptied _ _ := rfl
  selfAssigned _ := rfl

end UniqueFd

def mapFailed : ℕ := 2 ^ 64 - 1

/-- An object of the class `Mapping`. -/
structure OwnedMapping where
  address : ℕ := mapFailed
  length : UInt64 := 0
deriving DecidableEq

namespace OwnedMapping

def reset (x : OwnedMapping) : List Mapping × OwnedMapping :=
  if x.address ≠ mapFailed then ([⟨x.address, x.length⟩], { address := mapFailed, length := 0 })
  else ([], x)

/-- `~Mapping`. -/
def destroy (x : OwnedMapping) : List Mapping := x.reset.1

def moveConstruct (other : OwnedMapping) : OwnedMapping × OwnedMapping :=
  ({ address := other.address, length := other.length }, { address := mapFailed, length := 0 })

def moveAssign (same : Bool) (this other : OwnedMapping) :
    List Mapping × OwnedMapping × OwnedMapping :=
  if !same then
    let (unmapped, this) := this.reset
    (unmapped, { this with address := other.address, length := other.length },
      { address := mapFailed, length := 0 })
  else ([], this, other)

def owned (x : OwnedMapping) : Multiset Mapping :=
  if x.address ≠ mapFailed then {⟨x.address, x.length⟩} else 0

def members : MoveOnly OwnedMapping Mapping := ⟨destroy, moveConstruct, moveAssign⟩

theorem lawful : Lawful members owned where
  destroy x := by
    change ((destroy x : List Mapping) : Multiset Mapping) = owned x
    unfold destroy reset owned
    split_ifs <;> rfl
  moved _ := rfl
  emptied _ := rfl
  assigned _ _ := ⟨rfl, rfl⟩
  assignedEmptied _ _ := rfl
  selfAssigned _ := rfl

/-- The object `map_region` returns. -/
def adopt (mapping : Mapping) : OwnedMapping := ⟨mapping.address, mapping.length⟩

theorem destroy_adopt {mapping : Mapping} (h : mapping.address ≠ mapFailed) :
    (adopt mapping).destroy = [mapping] := by
  simp [destroy, reset, adopt, h]

theorem destroy_adopted {mappings : List Mapping} (h : ∀ m ∈ mappings, m.address ≠ mapFailed) :
    (mappings.map adopt).flatMap destroy = mappings := by
  induction mappings with
  | nil => rfl
  | cons mapping mappings ih =>
      have hrest := ih fun m hm => h m (by simp [hm])
      simp only [List.map_cons, List.flatMap_cons, destroy_adopt (h mapping (by simp)), hrest]
      rfl

end OwnedMapping

variable {t : CaptureType}

/-- The `Mapping` objects in the buffers of a state. -/
def V4L2State.mappingObjects (s : V4L2State t) : List OwnedMapping :=
  (s.buffers.flatMap BufferMemory.planes).map OwnedMapping.adopt

theorem V4L2State.resources_of_planes (s : V4L2State t) :
    (s.buffers.flatMap BufferMemory.planes).map Resource.region ++ [.descriptor] =
      s.resources := by
  unfold V4L2State.resources
  rw [List.map_flatMap]
  rfl

/-- In every run of constructions, moves, assignments (to itself as well) and destructions, what
descriptor and mapping objects were given is held by one of them or has been given back once. A
vector of mappings that grows unmaps nothing and keeps its order, and the destructors of the
members of a state give back the resources of the state. -/
theorem handles_release_once :
    Accounts UniqueFd.members UniqueFd.owned ∧
    Accounts OwnedMapping.members OwnedMapping.owned ∧
    (∀ planes : List OwnedMapping,
      run OwnedMapping.members (planes.map some) (relocate (List.range planes.length)) =
        some (List.replicate planes.length none ++ planes.map some, [])) ∧
    ∀ (t : CaptureType) (s : V4L2State t),
      (∀ memory ∈ s.buffers, ∀ m ∈ memory.planes, m.address ≠ mapFailed) →
      ∃ unmapped, run OwnedMapping.members (s.mappingObjects.map some)
          (destroyEach s.mappingObjects.length) =
            some (List.replicate s.mappingObjects.length none, unmapped) ∧
        unmapped.map Resource.region ++ [.descriptor] = s.resources := by
  refine ⟨UniqueFd.lawful.accounts, OwnedMapping.lawful.accounts,
    run_grow OwnedMapping.lawful, fun t s hmapped => ?_⟩
  refine ⟨_, run_destroyEach s.mappingObjects, ?_⟩
  have hplanes : ∀ m ∈ s.buffers.flatMap BufferMemory.planes, m.address ≠ mapFailed := by
    intro m hm
    obtain ⟨memory, hmemory, hm⟩ := List.mem_flatMap.mp hm
    exact hmapped memory hmemory m hm
  have hdestroyed : s.mappingObjects.flatMap OwnedMapping.members.destroy =
      s.buffers.flatMap BufferMemory.planes := OwnedMapping.destroy_adopted hplanes
  rw [hdestroyed, V4L2State.resources_of_planes]

end CameraCore
