import EntityForest.Factory.Owners
import EntityForest.Factory.Subtree

/-! What a factory decides: whether an entity may come to life, die, move inside its tree, or pass
to another tree together with everything below it. A factory knows entities by their identity. -/

namespace EntityForest.Registry

variable [ValueTypes]

/-- The root of the tree that a container belongs to, according to a factory. -/
def rootOf (r : Registry) (f : FactoryRef) (c : ContainerRef) : Uuid :=
  Owners.rootOf (r.owners f) (r.containerId c)

/-- Whether two containers belong to one tree, according to a factory. -/
def sameTree (r : Registry) (f : FactoryRef) (a b : ContainerRef) : Bool :=
  r.rootOf f a = r.rootOf f b

/-- The limit of a factory, if `incoming` further entities would exceed it. -/
def overLimit (r : Registry) (f : FactoryRef) (incoming : Nat) : Option Nat :=
  (r.factory f).config.overLimit (r.owners f).size incoming

/-- Brings an entity to life under `owner`. -/
def mint (r : Registry) (f : FactoryRef) (owner : ContainerRef) (id : Uuid) :
    Except ContainerError (EntityRef × Registry) :=
  match r.overLimit f 1 with
  | some limit => .error (.entityLimitReached limit)
  | none =>
    if id ∈ r.owners f then .error (.alreadyAssociated id)
    else
      let r := r.setOwners f ((r.owners f).insert id (r.containerId owner))
      .ok (r.newEntity id f)

/-- Ends the life of an entity and forgets it. A refusal means that the entity is not recorded or
not alive. -/
def retire (r : Registry) (f : FactoryRef) (e : EntityRef) : Bool × Registry :=
  let id := (r.entity e).id
  if id ∈ r.owners f ∧ r.lifecycle e = .alive then
    (true, (r.setLifecycle e .dead).setOwners f ((r.owners f).erase id))
  else (false, r)

/-- Whether an entity may move to `target` inside its tree: it is alive, both ends have one root,
and the target is neither the entity itself nor below it. -/
def mayRelocate (r : Registry) (f : FactoryRef) (e : EntityRef) (target : ContainerRef) : Bool :=
  let owners := r.owners f
  let id := (r.entity e).id
  let targetId := r.containerId target
  match owners.find? id with
  | none => false
  | some current =>
    r.lifecycle e = .alive &&
    Owners.rootOf owners current = Owners.rootOf owners targetId &&
    !Owners.isWithin owners targetId id

/-- Moves an entity to `target` inside its tree, if it may go there. -/
def relocate (r : Registry) (f : FactoryRef) (e : EntityRef) (target : ContainerRef) :
    Bool × Registry :=
  if r.mayRelocate f e target then
    (true, r.setOwners f ((r.owners f).insert (r.entity e).id (r.containerId target)))
  else (false, r)

/-- Whether a factory may adopt an entity under `target`: the entity is exported, the target is not
below it, the limit leaves room for the whole subtree, none of its identities is recorded, and the
target is not within the entity according to the records. -/
def mayAdopt (r : Registry) (f : FactoryRef) (e : EntityRef) (target : ContainerRef) : Bool :=
  let owners := r.owners f
  let id := (r.entity e).id
  let targetId := r.containerId target
  let below := r.descendants e
  r.lifecycle e = .exported &&
  below.all (fun p => r.containerId (.ofEntity p.1) ≠ targetId) &&
  (r.overLimit f (below.length + 1)).isNone &&
  id ∉ owners &&
  below.all (fun p => (r.entity p.1).id ∉ owners) &&
  !Owners.isWithin owners targetId id

/-- Adopts an exported entity under `target`, with everything below it, if that is possible: the
entity is alive again, the subtree is recorded, and its child containers belong to this factory. -/
def adopt (r : Registry) (f : FactoryRef) (e : EntityRef) (target : ContainerRef) :
    Bool × Registry :=
  if r.mayAdopt f e target then
    let below := r.descendants e
    let owners := (r.owners f).insert (r.entity e).id (r.containerId target)
    let owners := below.foldl (fun owners p => owners.insert (r.entity p.1).id p.2) owners
    let r := (r.setLifecycle e .alive).setOwners f owners
    let r := r.rebind (.ofEntity e) f
    (true, below.foldl (fun r p => r.rebind (.ofEntity p.1) f) r)
  else (false, r)

/-- Forgets an entity and everything below it, so that another tree may adopt it. A record of an
entity below is dropped only where it names the container that really holds it. -/
def release (r : Registry) (f : FactoryRef) (e : EntityRef) : Registry :=
  let forget (owners : Table Uuid Uuid) (p : EntityRef × Uuid) : Table Uuid Uuid :=
    let id := (r.entity p.1).id
    if owners.find? id = some p.2 then owners.erase id else owners
  let owners := (r.descendants e).foldl forget ((r.owners f).erase (r.entity e).id)
  ((r.setOwners f owners).transition e .alive .exported).2

end EntityForest.Registry
