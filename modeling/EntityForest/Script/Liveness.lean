import EntityForest.Script.Session

/-! Which containers and entities still exist. One exists while something refers to it: a name, a
snapshot, an operation in progress, an event that waits on a bus in use, or another one that exists
and holds it. A container that reports another one's identity does not keep that one. -/

namespace EntityForest.Script

open scoped PlainType

def Listener.bus? : Listener → Option Nat
  | .sender bus => some bus
  | _ => none

namespace Session

variable (s : Session)

/-- The buses that some listeners send to. -/
def busesOf (ls : List ListenerRef) : List Nat :=
  ls.filterMap fun l => (s.madeListeners.get l.index).bus?

/-- What the events that wait on some buses refer to. -/
def pendingRefs (buses : List Nat) : List ContainerRef :=
  buses.flatMap fun bus => (s.madeBuses.get bus).pending.flatMap Event.refs

/-- The buses that are in use, apart from those that only listeners of containers send to. -/
def openBuses (holds : Holds) : List Nat :=
  s.buses.values ++ s.receivers.values ++
    s.busesOf (s.listeners.values ++ s.sets.values.flatMap ListenerSet.members ++ holds.listeners)

/-- What names, snapshots and operations in progress refer to, also by way of a bus. -/
def rootRefs (holds : Holds) : List ContainerRef :=
  s.nodes.values ++ s.snapshots.values.flatMap (fun es => es.map .ofEntity) ++ holds.kept ++
    s.pendingRefs (s.openBuses holds)

end Session

/-- What a container refers to: the entities that it holds, and, by way of a listener that sends to
a bus, what the events on the bus refer to. -/
def refsOf (w : World Session) (c : ContainerRef) : List ContainerRef :=
  let x := w.registry.container c
  x.entities.values.map .ofEntity ++ w.client.pendingRefs (w.client.busesOf x.listeners.members)

def allRefs (r : Registry) : List ContainerRef :=
  (List.range r.containers.size).map .standalone ++
  (List.range r.entities.size).map fun i => .ofEntity ⟨i⟩

/-- The position of an object's mark. -/
def slot : ContainerRef → Nat
  | .standalone i => 2 * i
  | .ofEntity e => 2 * e.index + 1

/-- A mark for each object in a list. -/
def marks (refs : List ContainerRef) : Store Bool :=
  refs.foldl (fun marks c => marks.set (slot c) true) ∅

/-- What is left of some objects after a number of rounds. Each round lets go of objects that are no
roots and that nothing left refers to; a round without any is the last. `links` has what each
object refers to. No round lets go of a circle, or of anything that a circle leads to. -/
def survivors (roots : List ContainerRef) :
    Nat → List (ContainerRef × List ContainerRef) → List (ContainerRef × List ContainerRef)
  | 0, links => links
  | rounds + 1, links =>
    let used := marks (roots ++ links.flatMap Prod.snd)
    let left := links.filter fun link => used.get (slot link.1)
    if left.length = links.length then links else survivors roots rounds left

/-- Whether a container still exists, given what operations in progress hold. Every round but the
last lets go of an object, so there are enough rounds to let go of all that can go. -/
def remains (holds : Holds) (w : World Session) (c : ContainerRef) : Bool :=
  let roots := w.client.rootRefs holds
  let all := allRefs w.registry
  c ∈ roots || (survivors roots all.length (all.map fun d => (d, refsOf w d))).any (·.1 = c)

end EntityForest.Script
