import EntityForest.World.Create

/-! Building a container together with its first entities. Listeners are registered before the
entities are created, so they observe every creation. -/

namespace EntityForest

variable [ValueTypes]

/-- An entity to create. -/
structure Stub where
  id : Uuid
  marker : Option Marker
  seed : Table Slot Value

/-- What to build. Without a factory a new tree is started with the given settings. -/
structure Blueprint where
  factory : Option FactoryRef
  config : TreeConfig
  listeners : List ListenerRef
  stubs : List Stub

namespace World

variable {χ : Type} (obs : Observers χ) (holds : Holds)

def createStub (c : ContainerRef) (stub : Stub) (w : World χ) :
    Except ContainerError EntityRef × World χ :=
  match stub.marker with
  | some marker => newEntityOfType obs holds c stub.id marker stub.seed w
  | none => newEntity obs holds c stub.id stub.seed w

/-- Creates entities in turn; the first failure ends this, and those created before it stay. -/
def createStubs (c : ContainerRef) : List Stub → World χ → Except ContainerError Unit × World χ
  | [], w => (.ok (), w)
  | stub :: stubs, w =>
    match createStub obs holds c stub w with
    | (.ok _, w) => createStubs c stubs w
    | (.error failure, w) => (.error failure, w)

/-- Builds a container with identity `id`. -/
def build (b : Blueprint) (id : Uuid) (w : World χ) :
    Except ContainerError ContainerRef × World χ :=
  let (f, r) :=
    match b.factory with
    | some f => (f, w.registry)
    | none => w.registry.newFactory b.config
  let (c, r) := r.newContainer id f
  let r := r.setListeners c ((∅ : ListenerSet ListenerRef).extend b.listeners)
  let (outcome, w) := createStubs obs holds c b.stubs { w with registry := r }
  (outcome.map fun _ => c, w)

end World

end EntityForest
