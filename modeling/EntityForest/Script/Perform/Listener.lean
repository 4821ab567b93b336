import EntityForest.Script.Answer
import EntityForest.Script.Perform.Tree

/-! Steps on registered listeners, on buses, and on bare sets of listeners. -/

namespace EntityForest.Script

open scoped PlainType

open Text (Json)

/-- Changes the listeners of a container. -/
def onListeners {α : Type} (c : ContainerRef)
    (f : ListenerSet ListenerRef → α × ListenerSet ListenerRef) : Action α :=
  Action.onRegistry fun r =>
    let (a, ls) := f (r.container c).listeners
    (a, r.setListeners c ls)

def onSet {α : Type} (name : String)
    (f : ListenerSet ListenerRef → α × ListenerSet ListenerRef) : Action α := do
  let (a, ls) := f (← Action.lookUp Session.sets name)
  Action.modifySession fun s => { s with sets := s.sets.insert name ls }
  return a

def listenerNamed (name : String) : Action ListenerRef := Action.lookUp Session.listeners name

def listenerNames (ls : ListenerSet ListenerRef) : Action Json := do
  let s ← Action.session
  return .strings (ls.members.map s.listenerName)

/-- Makes a listener and names it. -/
def makeListener (name : String) (l : Listener) : Action Unit :=
  Action.modifySession fun s =>
    { s with
      madeListeners := s.madeListeners.push l
      listeners := s.listeners.insert name ⟨s.madeListeners.size⟩ }

/-- Keeps a bus. -/
def makeBus (b : Queue Event) : Action Nat := do
  let bus := (← Action.session).madeBuses.size
  Action.modifySession fun s => { s with madeBuses := s.madeBuses.push b }
  return bus

def nameBus (name : String) (bus : Nat) : Action Unit :=
  Action.modifySession fun s =>
    let s := forget .bus name s
    { s with buses := s.buses.insert name bus }

def nameReceiver (name : String) (bus : Nat) : Action Unit :=
  Action.modifySession fun s =>
    let s := forget .receiver name s
    { s with receivers := s.receivers.insert name bus }

def onBus {α : Type} (receiver : String) (f : Queue Event → α × Queue Event) : Action α := do
  let bus ← Action.lookUp Session.receivers receiver
  let (a, b) := f ((← Action.session).madeBuses.get bus)
  Action.modifySession fun s => { s with madeBuses := s.madeBuses.set bus b }
  return a

def takenAnswer (write : Uuid → String) (r : Registry) (event : Event) : Json :=
  .strings [write (r.entity event.entity).id, r.describeKinded write event]

def performListener (s : Scope) : ListenerStep → Action Json
  | .listen node listener => do
    let c ← s.node node
    let l ← listenerNamed listener
    return .bool (← onListeners c (·.add l))
  | .unlisten node listener => do
    let c ← s.node node
    let l ← listenerNamed listener
    return .bool (← onListeners c (·.remove l))
  | .unlistenAll node => do
    let c ← s.node node
    Action.modifyRegistry (·.setListeners c ∅)
    return ok
  | .listeners node => do
    let c ← s.node node
    listenerNames ((← Action.registry).container c).listeners
  | .bus name capacity => do
    nameBus name (← makeBus (LifecycleBus.new Queue.channel capacity))
    return ok
  | .sender bus name => do
    let bus ← Action.lookUp Session.buses bus
    makeListener name (.sender bus)
    return ok
  | .receiver bus name => do
    let bus ← Action.lookUp Session.buses bus
    Action.modifySession fun s =>
      { s with madeBuses := s.madeBuses.modify bus (LifecycleBus.receiver Queue.channel) }
    nameReceiver name bus
    return ok
  | .pair capacity sender receiver => do
    let bus ← makeBus (LifecycleBus.createPair Queue.channel capacity)
    makeListener sender (.sender bus)
    nameReceiver receiver bus
    return ok
  | .drain receiver => do
    let events ← onBus receiver (LifecycleBus.drain Queue.channel)
    return .arr (events.map (takenAnswer (← Action.writer) (← Action.registry)))
  | .take receiver => do
    let event ← onBus receiver (LifecycleBus.tryRecv Queue.channel)
    return Json.optional (takenAnswer (← Action.writer) (← Action.registry)) event
  | .pending receiver => do
    let count ← onBus receiver fun b => (LifecycleBus.pendingCount Queue.channel b, b)
    let any ← onBus receiver fun b => (LifecycleBus.hasEvents Queue.channel b, b)
    return .arr [.nat count, .bool any]
  | .set name => do
    Action.modifySession fun s => { s with sets := s.sets.insert name ∅ }
    return ok
  | .setAdd set listener => do
    let _ ← Action.lookUp Session.sets set
    let l ← listenerNamed listener
    return .bool (← onSet set (·.add l))
  | .setRemove set listener => do
    let _ ← Action.lookUp Session.sets set
    let l ← listenerNamed listener
    return .bool (← onSet set (·.remove l))
  | .setHas set listener => do
    let ls ← Action.lookUp Session.sets set
    let l ← listenerNamed listener
    return .bool (l ∈ ls)
  | .setClear set => do
    onSet set fun _ => ((), ∅)
    return ok
  | .setExtend set listeners => do
    let _ ← Action.lookUp Session.sets set
    let ls ← listeners.mapM listenerNamed
    onSet set fun members => ((), members.extend ls)
    return ok
  | .setState set => do
    let ls ← Action.lookUp Session.sets set
    return .obj
      [("len", .nat ls.size), ("empty", .bool ls.isEmpty), ("items", ← listenerNames ls)]
  | .setFire set kind node entity destination => do
    let ls ← Action.lookUp Session.sets set
    let c ← s.node node
    let e ← s.entity entity
    let event : Event := ⟨kind, c, e, ← destination.mapM s.node⟩
    s.operate fun obs holds => World.notify obs holds ls.members event
    return .str ((← Action.registry).describeEvent (← Action.writer) event)

end EntityForest.Script
