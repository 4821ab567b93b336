import EntityForest.World
import EntityForest.Factory

/-! Killing entities. A killed entity leaves its container and its tree at once; afterwards
everything below it is killed as well, from the top down, and the child container of each entity
that died is closed for good. Failures among the descendants are not reported. -/

namespace EntityForest

variable [ValueTypes]

/-- Takes an entity out of its container and its tree, unless its factory refuses. -/
def Registry.kill (r : Registry) (c : ContainerRef) (id : Uuid) : Option (EntityRef × Registry) :=
  match (r.held c).find? id with
  | none => none
  | some e =>
    match r.retire (r.container c).factory e with
    | (false, _) => none
    | (true, r) => some (e, r.setHeld c ((r.held c).erase id))

namespace World

variable {χ : Type} (obs : Observers χ) (holds : Holds)

/-- Announces that an entity was killed in a container. -/
def announceKilled (c : ContainerRef) (e : EntityRef) (w : World χ) :
    Except ContainerError Unit × World χ :=
  match delegate obs holds c w with
  | .error refusal => (.error refusal, w)
  | .ok delegate => announce obs holds c ⟨.killed, delegate, e, none⟩ w

/-- Kills one held entity, not yet those below it. The first part of the answer is the entity if it
was killed, also where a listener failed afterwards. -/
def killHeld (c : ContainerRef) (id : Uuid) (w : World χ) :
    (Option EntityRef × Except ContainerError Unit) × World χ :=
  match w.registry.kill c id with
  | none => ((none, .ok ()), w)
  | some (e, r) =>
    let (outcome, w) := announceKilled obs (holds.keepEntities [e]) c e { w with registry := r }
    ((some e, outcome), w)

/-- Kills the held entities with the given identities in turn, and keeps those killed until the last
is. The answer lists them and has the first failure. -/
def killEach (c : ContainerRef) : Holds → List Uuid → World χ →
    (List EntityRef × Except ContainerError Unit) × World χ
  | _, [], w => (([], .ok ()), w)
  | holds, id :: ids, w =>
    let ((victim, outcome), w) := killHeld obs holds c id w
    let ((victims, later), w) := killEach c (holds.keepEntities victim.toList) ids w
    ((victim.toList ++ victims, outcome.bind fun _ => later), w)

/-- Does something with each of some dead entities in turn, and lets go of each one after that. -/
def eachOfDead (f : Holds → EntityRef → World χ → World χ) : List EntityRef → World χ → World χ
  | [], w => w
  | e :: es, w => eachOfDead f es (f (holds.keepEntities (e :: es)) e w)

/-- Closes the child container of a dead entity and kills everything below it. The gate is held
while the container is emptied. `depth` bounds the levels below the entity. -/
def shutDown : Nat → Holds → EntityRef → World χ → World χ
  | 0, _, e, w => { w with registry := w.registry.close (.ofEntity e) }
  | depth + 1, holds, e, w =>
    let c := ContainerRef.ofEntity e
    let w := { w with registry := w.registry.close c }
    let ((victims, _), w) := killEach obs c ((holds.gate c).lock c) (heldInOrder obs c w) w
    eachOfDead holds (shutDown depth) victims w

/-- Enough levels for a cascade: in a chain of entities all but the last hold another one, so the
chain is not longer than the child containers that there will be by then, and one more. -/
def depth (w : World χ) : Nat := w.registry.children.size + 1 + obs.slack w.client

/-- Shuts down the child containers of entities that have just been killed. -/
def shutDownEach (victims : List EntityRef) (w : World χ) : World χ :=
  eachOfDead holds (fun holds victim w => shutDown obs (depth obs w) holds victim w) victims w

/-- Kills an entity and everything below it; answers whether there was one to kill. -/
def kill (c : ContainerRef) (id : Uuid) (w : World χ) : Except ContainerError Bool × World χ :=
  let ((victim, outcome), w) := killHeld obs (holds.lock c) c id w
  (outcome.map fun _ => victim.isSome, shutDownEach obs (holds.keep [c]) victim.toList w)

/-- Kills the entities with the given identities and everything below them. -/
def killListed (c : ContainerRef) (ids : List Uuid) (w : World χ) :
    Except ContainerError Unit × World χ :=
  let ((victims, outcome), w) := killEach obs c (holds.lock c) ids w
  (outcome, shutDownEach obs (holds.keep [c]) victims w)

/-- Kills every held entity and everything below; the result is the first failure. -/
def killAll (c : ContainerRef) (w : World χ) : Except ContainerError Unit × World χ :=
  killListed obs holds c (heldInOrder obs c w) w

end World

end EntityForest
