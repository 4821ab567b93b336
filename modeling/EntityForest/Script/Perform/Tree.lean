import EntityForest.Script.Answer
import EntityForest.World.Build

/-! Steps that make, build, rebind and forget trees and containers. -/

namespace EntityForest.Script

open scoped PlainType

open Text (Json)

def StubSpec.stub (spec : StubSpec) : Stub :=
  ⟨spec.id, spec.species.map Species.marker, listedValues spec.attributes⟩

/-- A handle that receives events from a bus is gone. -/
def releaseBus (bus : Nat) (s : Session) : Session :=
  { s with madeBuses := s.madeBuses.modify bus (LifecycleBus.dropReceiver Queue.channel) }

/-- Forgets a name; a bus or a receiver has no more events under it. -/
def forget (kind : NameKind) (name : String) (s : Session) : Session :=
  match kind with
  | .node => { s with nodes := s.nodes.erase name }
  | .tree => { s with trees := s.trees.erase name }
  | .listener => { s with listeners := s.listeners.erase name }
  | .snapshot => { s with snapshots := s.snapshots.erase name }
  | .bag => { s with bags := s.bags.erase name }
  | .bus =>
    match s.buses.find? name with
    | some bus => releaseBus bus { s with buses := s.buses.erase name }
    | none => s
  | .receiver =>
    match s.receivers.find? name with
    | some bus => releaseBus bus { s with receivers := s.receivers.erase name }
    | none => s

/-- A container with an identity of its own that no script has chosen carries its name. -/
def bindFresh (name : String) (id : Uuid) (c : ContainerRef) : Action Unit := do
  Action.nameId id name
  Action.bindNode name c

def performTree (s : Scope) : TreeStep → Action Json
  | .tree name settings => do
    let config ← Action.ofResult settings.config
    let f ← Action.onRegistry (·.newFactory config)
    Action.modifySession fun s => { s with trees := s.trees.insert name f }
    return ok
  | .container name factory identity => do
    let f ← s.factory factory
    match identity with
    | .delegated node =>
      let delegate ← s.node node
      Action.bindNode name (← Action.onRegistry (·.newDelegating delegate f))
    | .given id => Action.bindNode name (← Action.onRegistry (·.newContainer id f))
    | .fresh =>
      let id ← Action.freshId
      bindFresh name id (← Action.onRegistry (·.newContainer id f))
    return ok
  | .build name tree settings listeners stubs => do
    let factory ← tree.mapM (Action.lookUp Session.trees)
    let config ← Action.ofResult settings.config
    let listeners ← listeners.mapM (Action.lookUp Session.listeners)
    let id ← Action.freshId
    let plan : Blueprint := ⟨factory, config, listeners, stubs.map StubSpec.stub⟩
    bindFresh name id (← s.operate fun obs holds => World.build obs holds plan id)
    return ok
  | .drop kind name => do
    Action.modifySession (forget kind name)
    return ok
  | .rebind node factory => do
    let c ← s.node node
    let f ← s.factory factory
    Action.modifyRegistry (·.rebind c f)
    return ok
  | .delegate node => do
    let c ← s.node node
    let delegate ← s.operate fun obs holds w => (World.delegate obs holds c w, w)
    return .str ((← Action.writer) ((← Action.registry).containerId delegate))
  | .containerId node => do
    let c ← s.node node
    return .str ((← Action.writer) ((← Action.registry).containerId c))

end EntityForest.Script
