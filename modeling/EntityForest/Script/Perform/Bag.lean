import EntityForest.Script.Answer
import EntityForest.World.Attributes

/-! Steps on attribute bags, their listeners and views. -/

namespace EntityForest.Script

open scoped PlainType

open Text (Json)

def onBag {α : Type} (b : BagRef) (f : Bag → α × Bag) : Action α :=
  Action.onRegistry fun r =>
    let (a, x) := f (r.bag b)
    (a, r.setBag b x)

def bagListenerNamed (name : String) : Action AttributeListenerRef :=
  Action.lookUp Session.bagListeners name

def makeBagListener (name : String) (l : BagListener) : Action Unit :=
  Action.modifySession fun s =>
    { s with
      madeBagListeners := s.madeBagListeners.push l
      bagListeners := s.bagListeners.insert name ⟨s.madeBagListeners.size⟩ }

def performBag (s : Scope) : BagStep → Action Json
  | .bag name attributes => do
    let b ← Action.onRegistry Registry.newBag
    Action.modifyRegistry (·.setBag b (.ofValues (listedValues attributes)))
    Action.modifySession fun s => { s with bags := s.bags.insert name b }
    return ok
  | .set bag key value => do
    let b ← s.bag bag
    let previous ← s.apply fun obs holds =>
      World.setAttribute obs holds b (Key.mk key) value.data
    return dataAnswer previous
  | .get bag key type => do
    let x := (← Action.registry).bag (← s.bag bag)
    let k : Key type := ⟨key⟩
    return .arr [.bool (x.contains k), dataAnswer (x.get k)]
  | .remove bag key type => do
    let b ← s.bag bag
    let k : Key type := ⟨key⟩
    return dataAnswer (← s.apply fun obs holds => World.removeAttribute obs holds b k)
  | .state bag => do
    let x := (← Action.registry).bag (← s.bag bag)
    return .obj
      [("len", .nat x.size), ("empty", .bool (x.size = 0)), ("names", .strings x.names),
       ("listeners", .nat x.listeners.length)]
  | .debug bag => do
    let b ← s.bag bag
    return .str ((← Action.registry).bag b).describe
  | .copy target source => do
    let b ← s.bag target
    let a ← s.bag source
    return .nat (← s.apply fun obs holds => World.copyAttributes obs holds b a)
  | .listen bag listener => do
    let b ← s.bag bag
    let l ← bagListenerNamed listener
    return .bool (← onBag b (·.addListener l))
  | .unlisten bag listener => do
    let b ← s.bag bag
    let l ← bagListenerNamed listener
    return .bool (← onBag b (·.removeListener l))
  | .unlistenAll bag => do
    let b ← s.bag bag
    onBag b fun x => ((), x.clearListeners)
    return ok
  | .key key type => return .strings [key, (Key.mk key : Key type).describe]
  | .view name bag => do
    let b ← bag.mapM s.bag
    Action.modifySession fun s => { s with views := s.views.insert name ⟨b⟩ }
    return ok
  | .viewGet view key type => do
    let v ← Action.lookUp Session.views view
    let r ← Action.registry
    let k : Key type := ⟨key⟩
    return .arr [.bool (v.contains r k), dataAnswer (v.get r k)]
  | .viewState view => do
    let v ← Action.lookUp Session.views view
    let r ← Action.registry
    return .obj
      [("len", .nat (v.size r)), ("empty", .bool (v.size r = 0)), ("names", .strings (v.names r)),
       ("debug", .str (v.describe r))]

end EntityForest.Script
