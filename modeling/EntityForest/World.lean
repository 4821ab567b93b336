import EntityForest.Registry

/-! A world is a registry together with the state of its clients, the listeners. Operations hand
each event to the listeners of one container while they hold locks and gates; what a listener does
to the world in response is up to the observers that an operation is given. The observers also tell
which containers still exist: one that nothing keeps is gone, although the registry has its data.
What a container holds is in no order, and the observers give it one when there is something to do
with all of it. -/

namespace EntityForest

/-- What operations in progress hold while a listener runs. -/
structure Holds where
  locks : List ContainerRef
  gates : List ContainerRef
  /-- Containers and entities that are neither locked nor gated but still needed. -/
  others : List ContainerRef
  /-- The listeners of the events that are being announced. -/
  listeners : List ListenerRef
  deriving DecidableEq

namespace Holds

def nothing : Holds := ⟨[], [], [], []⟩

def lock (h : Holds) (c : ContainerRef) : Holds := { h with locks := c :: h.locks }

def gate (h : Holds) (c : ContainerRef) : Holds := { h with gates := c :: h.gates }

def keep (h : Holds) (cs : List ContainerRef) : Holds := { h with others := cs ++ h.others }

def keepEntities (h : Holds) (es : List EntityRef) : Holds := h.keep (es.map .ofEntity)

/-- All containers and entities that operations in progress keep. -/
def kept (h : Holds) : List ContainerRef := h.locks ++ h.gates ++ h.others

end Holds

inductive EventKind where
  | created
  | killed
  | received
  | transferred
  deriving DecidableEq, Repr

/-- A lifecycle event: what happened to an entity in a container. -/
structure Event where
  kind : EventKind
  /-- The container as it names itself, that is, its delegate. -/
  container : ContainerRef
  entity : EntityRef
  /-- Where the entity went, if it was transferred. -/
  destination : Option ContainerRef
  deriving DecidableEq

/-- What an event refers to, and keeps as long as there is the event. -/
def Event.refs (event : Event) : List ContainerRef :=
  event.container :: .ofEntity event.entity :: event.destination.toList

/-- An event that is being announced keeps what it refers to and all the listeners it is for. -/
def Holds.keepEvent (h : Holds) (event : Event) (listeners : List ListenerRef) : Holds :=
  { h.keep event.refs with listeners := listeners ++ h.listeners }

variable [ValueTypes]

structure World (χ : Type) where
  registry : Registry
  client : χ

/-- The clients of a world as operations meet them. A lifecycle listener accepts an event or fails;
either way it may change the world first. -/
structure Observers (χ : Type) where
  lifecycle : Holds → ListenerRef → Event → World χ → Except ListenerError Unit × World χ
  bag : Holds → AttributeListenerRef → AttributeEvent → World χ → World χ
  /-- A bound on the entities that listeners in this state can still bring to life. -/
  slack : χ → Nat
  /-- Whether a container still exists, given what operations in progress hold. -/
  remains : Holds → World χ → ContainerRef → Bool
  /-- The order in which a container goes through all that it holds. -/
  order : World χ → ContainerRef → List Uuid → List Uuid := fun _ _ ids => ids
  order_perm : ∀ w c ids, (order w c ids).Perm ids := by exact fun _ _ ids => .refl ids

namespace World

variable {χ : Type}

variable (obs : Observers χ) (holds : Holds)

/-- Hands an event to listeners in turn, up to the first that fails. -/
def notify (listeners : List ListenerRef) (event : Event) (w : World χ) :
    Except ContainerError Unit × World χ :=
  match fire (fun l => obs.lifecycle (holds.keepEvent event listeners) l event) listeners w with
  | (.ok (), w) => (.ok (), w)
  | (.error failure, w) => (.error (.listener failure), w)

/-- The identities that a container holds, in the order in which it goes through them. -/
def heldInOrder (c : ContainerRef) (w : World χ) : List Uuid :=
  obs.order w c (w.registry.held c).keys

theorem heldInOrder_perm (c : ContainerRef) (w : World χ) :
    (w.heldInOrder obs c).Perm (w.registry.held c).keys := obs.order_perm w c _

/-- Tells the listeners of a container about an event. -/
def announce (c : ContainerRef) (event : Event) (w : World χ) :
    Except ContainerError Unit × World χ :=
  notify obs holds (w.registry.container c).listeners.members event w

/-- The container that `c` names in events. Only another container can be gone: whoever works with
`c` keeps `c` itself. -/
def delegate (c : ContainerRef) (w : World χ) : Except ContainerError ContainerRef :=
  let x := w.registry.container c
  if x.delegate = c ∨ obs.remains (holds.keep [c]) w x.delegate then .ok x.delegate
  else .error (.delegateDropped x.id)

end World

end EntityForest
