import EntityForest.Store
import EntityForest.Table
import EntityForest.Uuid
import EntityForest.ListenerSet
import EntityForest.Config
import EntityForest.Attribute.Bag

/-! The objects of a forest: entities, the containers that hold them and the factories that record
who owns what. Objects are named by references, and an entity names its own child container and
attribute bag as well. -/

namespace EntityForest

structure EntityRef where
  index : Nat
  deriving DecidableEq, Inhabited, Repr

/-- A container that stands alone, or the child container of an entity. -/
inductive ContainerRef where
  | standalone (index : Nat)
  | ofEntity (entity : EntityRef)
  deriving DecidableEq, Inhabited, Repr

/-- A bag that stands alone, or the attributes of an entity. -/
inductive BagRef where
  | standalone (index : Nat)
  | ofEntity (entity : EntityRef)
  deriving DecidableEq, Repr

structure FactoryRef where
  index : Nat
  deriving DecidableEq, Inhabited, Repr

structure ListenerRef where
  index : Nat
  deriving DecidableEq, Inhabited, Repr

/-- An entity is alive in one tree, exported on its way to another, or dead for good. -/
inductive Lifecycle where
  | alive
  | exported
  | dead
  deriving DecidableEq, Inhabited, Repr

/-- A type that entities can be marked with, known by its full name. -/
structure Marker where
  name : String
  deriving DecidableEq, Repr

structure Entity where
  id : Uuid
  lifecycle : Lifecycle
  marks : List Marker
  deriving Inhabited

structure Container where
  /-- The identity the container reports: its own, or that of its delegate. -/
  id : Uuid
  /-- The container named in events, which may be gone. -/
  delegate : ContainerRef
  factory : FactoryRef
  entities : Table Uuid EntityRef
  listeners : ListenerSet ListenerRef
  /-- A closed container takes no new entities. -/
  closed : Bool
  deriving Inhabited

/-- The book-keeping of one tree: which container owns which entity. -/
structure Factory where
  config : TreeConfig
  owners : Table Uuid Uuid
  deriving Inhabited

variable [ValueTypes]

structure Registry where
  entities : Store Entity
  children : Store Container
  containers : Store Container
  factories : Store Factory
  entityBags : Store Bag
  bags : Store Bag
  deriving Inhabited

namespace Registry

def empty : Registry := ⟨∅, ∅, ∅, ∅, ∅, ∅⟩

/-! ### Reading and writing objects -/

def entity (r : Registry) (e : EntityRef) : Entity := r.entities.get e.index

def setEntity (r : Registry) (e : EntityRef) (x : Entity) : Registry :=
  { r with entities := r.entities.set e.index x }

def container (r : Registry) : ContainerRef → Container
  | .standalone i => r.containers.get i
  | .ofEntity e => r.children.get e.index

def setContainer (r : Registry) (c : ContainerRef) (x : Container) : Registry :=
  match c with
  | .standalone i => { r with containers := r.containers.set i x }
  | .ofEntity e => { r with children := r.children.set e.index x }

def factory (r : Registry) (f : FactoryRef) : Factory := r.factories.get f.index

def setFactory (r : Registry) (f : FactoryRef) (x : Factory) : Registry :=
  { r with factories := r.factories.set f.index x }

def bag (r : Registry) : BagRef → Bag
  | .standalone i => r.bags.get i
  | .ofEntity e => r.entityBags.get e.index

def setBag (r : Registry) (b : BagRef) (x : Bag) : Registry :=
  match b with
  | .standalone i => { r with bags := r.bags.set i x }
  | .ofEntity e => { r with entityBags := r.entityBags.set e.index x }

/-! ### What a reference shows -/

def lifecycle (r : Registry) (e : EntityRef) : Lifecycle := (r.entity e).lifecycle

/-- The identity that a container reports. -/
def containerId (r : Registry) (c : ContainerRef) : Uuid := (r.container c).id

/-- The entities that a container holds. -/
def held (r : Registry) (c : ContainerRef) : Table Uuid EntityRef := (r.container c).entities

/-- The records of a factory: the owner of each entity of its tree. -/
def owners (r : Registry) (f : FactoryRef) : Table Uuid Uuid := (r.factory f).owners

/-! ### Changing one part of an object -/

def setHeld (r : Registry) (c : ContainerRef) (held : Table Uuid EntityRef) : Registry :=
  r.setContainer c { r.container c with entities := held }

def setListeners (r : Registry) (c : ContainerRef) (ls : ListenerSet ListenerRef) : Registry :=
  r.setContainer c { r.container c with listeners := ls }

/-- Closes a container for good. -/
def close (r : Registry) (c : ContainerRef) : Registry :=
  r.setContainer c { r.container c with closed := true }

/-- Hands a container over to another factory. -/
def rebind (r : Registry) (c : ContainerRef) (f : FactoryRef) : Registry :=
  r.setContainer c { r.container c with factory := f }

def setOwners (r : Registry) (f : FactoryRef) (owners : Table Uuid Uuid) : Registry :=
  r.setFactory f { r.factory f with owners := owners }

def setLifecycle (r : Registry) (e : EntityRef) (l : Lifecycle) : Registry :=
  r.setEntity e { r.entity e with lifecycle := l }

/-- Moves an entity from one lifecycle to another, if it is in the first. -/
def transition (r : Registry) (e : EntityRef) (source target : Lifecycle) : Bool × Registry :=
  if r.lifecycle e = source then (true, r.setLifecycle e target) else (false, r)

/-- Marks an entity; answers whether it was unmarked. -/
def mark (r : Registry) (e : EntityRef) (m : Marker) : Bool × Registry :=
  let x := r.entity e
  if m ∈ x.marks then (false, r) else (true, r.setEntity e { x with marks := x.marks ++ [m] })

/-- Removes a mark; answers whether it was there. -/
def unmark (r : Registry) (e : EntityRef) (m : Marker) : Bool × Registry :=
  let x := r.entity e
  if m ∈ x.marks then (true, r.setEntity e { x with marks := x.marks.filter (· ≠ m) })
  else (false, r)

def isMarked (r : Registry) (e : EntityRef) (m : Marker) : Bool := m ∈ (r.entity e).marks

/-- The entity, if it carries the mark. -/
def typed (r : Registry) (e : EntityRef) (m : Marker) : Except ContainerError EntityRef :=
  if r.isMarked e m then .ok e else .error (.typeMismatch (r.entity e).id m.name)

/-! ### Making objects -/

def newFactory (r : Registry) (config : TreeConfig) : FactoryRef × Registry :=
  (⟨r.factories.size⟩, { r with factories := r.factories.push ⟨config, ∅⟩ })

def newBag (r : Registry) : BagRef × Registry :=
  (.standalone r.bags.size, { r with bags := r.bags.push ∅ })

private def freshContainer (id : Uuid) (delegate : ContainerRef) (f : FactoryRef) : Container :=
  { id, delegate, factory := f, entities := ∅, listeners := ∅, closed := false }

/-- A container that names itself in events. -/
def newContainer (r : Registry) (id : Uuid) (f : FactoryRef) : ContainerRef × Registry :=
  let c := ContainerRef.standalone r.containers.size
  (c, r.setContainer c (freshContainer id c f))

/-- A container that names another one in events and reports its identity. -/
def newDelegating (r : Registry) (delegate : ContainerRef) (f : FactoryRef) :
    ContainerRef × Registry :=
  let c := ContainerRef.standalone r.containers.size
  (c, r.setContainer c (freshContainer (r.containerId delegate) delegate f))

/-- An entity that is alive, unmarked and without attributes, and that holds nothing. -/
def newEntity (r : Registry) (id : Uuid) (f : FactoryRef) : EntityRef × Registry :=
  let e : EntityRef := ⟨r.entities.size⟩
  let r := r.setEntity e ⟨id, .alive, []⟩
  let r := r.setContainer (.ofEntity e) (freshContainer id (.ofEntity e) f)
  (e, r.setBag (.ofEntity e) ∅)

end Registry

end EntityForest
