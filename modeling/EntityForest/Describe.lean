import EntityForest.World
import EntityForest.Factory
import EntityForest.Text.Quoted
import EntityForest.Text.Record

/-! One-line descriptions of the objects of a forest. A container that is locked shows its identity
only, because its contents may be changing. Identities are written by `write`. -/

namespace EntityForest

def Lifecycle.name : Lifecycle → String
  | alive => "Alive"
  | exported => "Exported"
  | dead => "Dead"

def EventKind.name : EventKind → String
  | created => "created"
  | killed => "killed"
  | received => "received"
  | transferred => "transferred"

/-- The capitalised name of a kind of event. -/
def EventKind.title : EventKind → String
  | created => "Created"
  | killed => "Killed"
  | received => "Received"
  | transferred => "Transferred"

def Change.name : Change → String
  | added => "added"
  | changed => "changed"
  | removed => "removed"

/-- The capitalised name of a change. -/
def Change.title : Change → String
  | added => "Added"
  | changed => "Changed"
  | removed => "Removed"

def describeId (write : Uuid → String) (id : Uuid) : String := Text.wrapped "ContainerId" (write id)

variable [ValueTypes]

namespace Registry

variable (r : Registry) (write : Uuid → String)

def describeContainer (holds : Holds) (c : ContainerRef) : String :=
  let x := r.container c
  let id := ("id", describeId write x.id)
  if c ∈ holds.locks then Text.partialRecord "DefaultEntityContainer" [id]
  else
    Text.record "DefaultEntityContainer"
      [id, ("entities", toString x.entities.size), ("listeners", toString x.listeners.size)]

def describeEntity (holds : Holds) (e : EntityRef) : String :=
  let x := r.entity e
  Text.record "Entity"
    [("id", write x.id), ("lifecycle", x.lifecycle.name),
     ("types", Text.list (x.marks.map fun m => Text.quote m.name)),
     ("children", r.describeContainer write holds (.ofEntity e))]

/-- The description of what a reference names, an entity or a container that stands alone. -/
def describe (holds : Holds) : ContainerRef → String
  | .standalone i => r.describeContainer write holds (.standalone i)
  | .ofEntity e => r.describeEntity write holds e

def describeTyped (holds : Holds) (e : EntityRef) (m : Marker) : String :=
  Text.record "TypedEntity"
    [("type", Text.quote m.name), ("entity", r.describeEntity write holds e)]

def describeFactory (f : FactoryRef) : String :=
  let x := r.factory f
  Text.record "DefaultEntityFactory"
    [("config", x.config.describe), ("entities", toString x.owners.size)]

/-- The held identities in ascending order. -/
def displayContainer (c : ContainerRef) : String :=
  let ids := (r.held c).keys.mergeSort fun a b => a ≤ b
  "DefaultEntityContainer " ++ Text.list (ids.map write)

def displayEntity (e : EntityRef) : String := "Entity " ++ Text.list [write (r.entity e).id]

def display : ContainerRef → String
  | .standalone i => r.displayContainer write (.standalone i)
  | .ofEntity e => r.displayEntity write e

def describeEvent (event : Event) : String :=
  let id (c : ContainerRef) : String := describeId write (r.containerId c)
  Text.record "EntityEvent"
    [("container", id event.container), ("entity", write (r.entity event.entity).id),
     ("destination", Text.optional (event.destination.map id))]

/-- The event under the name of its kind. -/
def describeKinded (event : Event) : String :=
  Text.wrapped event.kind.title (r.describeEvent write event)

end Registry

def Key.describe {type : ValueType} (k : Key type) : String :=
  Text.record "AttributeKey"
    [("name", Text.quote k.name), ("type", Text.quote type.fullName)]

end EntityForest
