import EntityForest.World
import EntityForest.Factory

/-! Moving entities between containers. Inside a tree a move changes one record; a move to another
tree exports the entity from the one and imports it into the other, with everything below it. -/

namespace EntityForest

variable [ValueTypes]

/-- How an entity came into a container. -/
inductive Arrival where
  | taken
  | imported
  deriving DecidableEq

/-- Puts an entity into a container if a factory lets it in, first as a move inside the tree and
then as an import. -/
def Registry.receive (r : Registry) (c : ContainerRef) (delegate : ContainerRef) (e : EntityRef) :
    Option (Arrival × Registry) :=
  let x := r.container c
  let id := (r.entity e).id
  let enter (r : Registry) : Registry := r.setHeld c ((r.held c).insert id e)
  if x.closed ∨ id ∈ x.entities then none
  else
    match r.relocate x.factory e delegate with
    | (true, r) => some (.taken, enter r)
    | (false, _) =>
      match r.adopt x.factory e delegate with
      | (true, r) => some (.imported, enter r)
      | (false, _) => none

namespace World

variable {χ : Type} (obs : Observers χ) (holds : Holds)

/-- Takes an entity into a container; answers whether it came in. An import is announced. -/
def receive (c : ContainerRef) (e : EntityRef) (w : World χ) :
    Except ContainerError Bool × World χ :=
  let r := w.registry
  let x := r.container c
  let id := (r.entity e).id
  if id = x.id then (.error (.selfTransfer id), w)
  else
    let holds := holds.keepEntities [e]
    match delegate obs holds c w with
    | .error refusal => (.error refusal, w)
    | .ok delegate =>
      match r.receive c delegate e with
      | none => (.ok false, w)
      | some (.taken, r) => (.ok true, { w with registry := r })
      | some (.imported, r) =>
        let event : Event := ⟨.received, delegate, e, none⟩
        match announce obs (holds.lock c) c event { w with registry := r } with
        | (.ok (), w) => (.ok true, w)
        | (.error failure, w) => (.error failure, w)

/-- The last part of a transfer: the entity leaves its source, and the source announces where it
went. A failure at the destination is reported in favour of one at the source. -/
def depart (source destination delegate : ContainerRef) (id : Uuid) (e : EntityRef)
    (arrival : Except ContainerError Unit) (w : World χ) : Except ContainerError Bool × World χ :=
  let r := w.registry.setHeld source ((w.registry.held source).erase id)
  let event : Event := ⟨.transferred, delegate, e, some destination⟩
  let (outcome, w) := announce obs holds source event { w with registry := r }
  ((arrival.bind fun _ => outcome).map fun _ => true, w)

/-- Moves an entity to another container; answers whether it moved. The gates of both ends are held
throughout. If the trees differ and the destination refuses an entity that has been released, the
transfer is violated: the entity stays where it was held, but no tree knows it. -/
def transfer (source : ContainerRef) (id : Uuid) (destination : ContainerRef) (w : World χ) :
    Except ContainerError Bool × World χ :=
  let r := w.registry
  let x := r.container source
  let y := r.container destination
  if y.id = x.id then (.error (.sameContainer id x.id), w)
  else if y.closed then (.ok false, w)
  else
    match x.entities.find? id with
    | none => (.ok false, w)
    | some e =>
      if (r.entity e).id = y.id then (.error (.selfTransfer id), w)
      else
        let holds := (((holds.gate source).gate destination).lock source).keepEntities [e]
        match delegate obs holds source w with
        | .error refusal => (.error refusal, w)
        | .ok delegate =>
          let holds := holds.keep [delegate]
          let leaves := !r.sameTree x.factory delegate destination
          let w := if leaves then { w with registry := r.release x.factory e } else w
          let leave := depart obs holds source destination delegate id e
          match receive obs holds destination e w with
          | (.ok true, w) => leave (.ok ()) w
          | (.error (.listener failure), w) => leave (.error (.listener failure)) w
          | (.ok false, w) =>
            (if leaves then .error (.exportedNotTransferred id) else .ok false, w)
          | (.error refusal, w) =>
            (.error (if leaves then .exportedNotTransferred id else refusal), w)

/-- Moves the entities with the given identities in turn and counts those that moved; the first
failure ends the moves. -/
def transferEach (source destination : ContainerRef) : List Uuid → World χ →
    Except ContainerError Nat × World χ
  | [], w => (.ok 0, w)
  | id :: ids, w =>
    match transfer obs holds source id destination w with
    | (.error failure, w) => (.error failure, w)
    | (.ok moved, w) =>
      let (count, w) := transferEach source destination ids w
      (count.map (moved.toNat + ·), w)

/-- Moves every held entity. -/
def transferAll (source destination : ContainerRef) (w : World χ) :
    Except ContainerError Nat × World χ :=
  transferEach obs holds source destination (heldInOrder obs source w) w

end World

end EntityForest
