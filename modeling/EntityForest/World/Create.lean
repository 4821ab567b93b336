import EntityForest.World
import EntityForest.Factory

/-! Creating entities. An entity is complete when its creation is announced: it is held, recorded,
marked and seeded. A listener that fails does not undo the creation. -/

namespace EntityForest

variable [ValueTypes]

/-- A created entity, the container that announces it, and the registry that holds it. -/
structure Creation where
  entity : EntityRef
  delegate : ContainerRef
  registry : Registry

/-- Creates an entity in a container whose delegate is given, or tells why that is refused. -/
def Registry.create (r : Registry) (c : ContainerRef)
    (delegate : Except ContainerError ContainerRef) (id : Uuid) (marker : Option Marker)
    (seed : Table Slot Value) : Except ContainerError Creation :=
  let x := r.container c
  if id = .nil then .error .nilId
  else
    match delegate with
    | .error refusal => .error refusal
    | .ok delegate =>
      if x.closed then .error (.closed x.id)
      else if id ∈ x.entities then .error (.alreadyAssociated id)
      else
        match r.mint x.factory delegate id with
        | .error refusal => .error refusal
        | .ok (e, r) =>
          let r := r.setHeld c ((r.held c).insert id e)
          let r := marker.elim r fun m => (r.mark e m).2
          .ok ⟨e, delegate, r.setBag (.ofEntity e) (.ofValues seed)⟩

namespace World

variable {χ : Type} (obs : Observers χ) (holds : Holds)

/-- Creates an entity and announces it. -/
def create (c : ContainerRef) (id : Uuid) (marker : Option Marker) (seed : Table Slot Value)
    (w : World χ) : Except ContainerError EntityRef × World χ :=
  match w.registry.create c (delegate obs holds c w) id marker seed with
  | .error refusal => (.error refusal, w)
  | .ok made =>
    let event : Event := ⟨.created, made.delegate, made.entity, none⟩
    match announce obs (holds.lock c) c event { w with registry := made.registry } with
    | (.ok (), w) => (.ok made.entity, w)
    | (.error failure, w) => (.error failure, w)

/-- Creates an entity without a mark. -/
def newEntity (c : ContainerRef) (id : Uuid) (seed : Table Slot Value) (w : World χ) :
    Except ContainerError EntityRef × World χ :=
  create obs holds c id none seed w

/-- Creates a marked entity. A listener may have removed the mark by the end; then the result is an
error although the entity exists. -/
def newEntityOfType (c : ContainerRef) (id : Uuid) (marker : Marker) (seed : Table Slot Value)
    (w : World χ) : Except ContainerError EntityRef × World χ :=
  match create obs holds c id (some marker) seed w with
  | (.ok e, w) => (w.registry.typed e marker, w)
  | (.error failure, w) => (.error failure, w)

end World

end EntityForest
