import EntityForest.Attribute.Plain
import EntityForest.Proofs.Creations
import EntityForest.Proofs.Registrations
import EntityForest.World.Build

/-! # Buildings

To build a container is to found it, with its listeners, and then to create the entities of its
stubs one after the other until one creation fails. What was created before the failure stays in the
records of the factory, which may be one that others use. -/

namespace EntityForest

open Registry World

section

variable [ValueTypes]

/-! ## Founding -/

namespace Blueprint

variable (b : Blueprint) (id : Uuid) (r : Registry)

/-- The factory to build with, which starts a new tree if there is none yet. -/
def plant : FactoryRef × Registry :=
  match b.factory with
  | some f => (f, r)
  | none => r.newFactory b.config

/-- A new container with the listeners of a blueprint. -/
def found : ContainerRef × Registry :=
  let (f, r) := b.plant r
  let (c, r) := r.newContainer id f
  (c, r.setListeners c ((∅ : ListenerSet ListenerRef).extend b.listeners))

/-- Planting a tree changes no object, and a new factory has no records. -/
structure Planted (f : FactoryRef) (s : Registry) : Prop where
  factory : f = b.factory.getD (r.newFactory b.config).1
  exists_iff : ∀ c, s.Exists c ↔ r.Exists c
  container : ∀ c, s.container c = r.container c
  entity : ∀ e, s.entity e = r.entity e
  bag : ∀ a, s.bag a = r.bag a
  owners : ∀ f, s.owners f = r.owners f
  config : ∀ f, s.config f =
    if b.factory = none ∧ f = (r.newFactory b.config).1 then b.config else r.config f

theorem planted_plant : b.Planted r (b.plant r).1 (b.plant r).2 := by
  unfold plant
  cases hfactory : b.factory with
  | some f =>
    refine ⟨by rw [hfactory]; rfl, fun _ => .rfl, fun _ => rfl, fun _ => rfl, fun _ => rfl,
      fun _ => rfl, fun f => ?_⟩
    rw [hfactory, if_neg (by simp)]
  | none =>
    refine ⟨by rw [hfactory]; rfl, (sameNames_newFactory r b.config).exists_iff, fun c => ?_,
      fun _ => rfl, fun a => ?_, (extends_newFactory r b.config).owners, fun f => ?_⟩
    · cases c <;> rfl
    · cases a <;> rfl
    · change ((r.factories.push ⟨b.config, ∅⟩).get f.index).config = _
      have hnew : (f = (r.newFactory b.config).1) ↔ f.index = r.factories.size := by
        obtain ⟨i⟩ := f
        simp [newFactory]
      rw [Store.get_push]
      simp only [hfactory, true_and, hnew]
      split <;> rfl

/-- What is built on: a container that is new, open and empty, names itself and has each listener
once. Nothing else has changed, but for the new tree if there is one. -/
structure Founded (c : ContainerRef) (s : Registry) : Prop where
  new : ¬ r.Exists c
  exists_iff : ∀ d, s.Exists d ↔ r.Exists d ∨ d = c
  containerId : s.containerId c = id
  delegateOf : s.delegateOf c = c
  isClosed : s.isClosed c = false
  held : s.held c = ∅
  bound : s.bound c = b.factory.getD (r.newFactory b.config).1
  audience_nodup : (s.audience c).Nodup
  mem_audience : ∀ l, l ∈ s.audience c ↔ l ∈ b.listeners
  container : ∀ d, d ≠ c → s.container d = r.container d
  entity : ∀ e, s.entity e = r.entity e
  bag : ∀ a, s.bag a = r.bag a
  owners : ∀ f, s.owners f = r.owners f
  config : ∀ f, s.config f =
    if b.factory = none ∧ f = (r.newFactory b.config).1 then b.config else r.config f

theorem founded_found : b.Founded id r (b.found id r).1 (b.found id r).2 := by
  have planted := b.planted_plant r
  unfold found
  generalize b.plant r = plot at planted ⊢
  obtain ⟨f, t⟩ := plot
  set c := (t.newContainer id f).1
  set ls := (∅ : ListenerSet ListenerRef).extend b.listeners
  have hsame := sameForest_setListeners (t.newContainer id f).2
    ((exists_newContainer id f c).2 (.inr rfl)) ls
  have hcontainer : ∀ d, ((t.newContainer id f).2.setListeners c ls).container d =
      if d = c then ⟨id, c, f, ∅, ls, false⟩ else r.container d := by
    intro d
    rw [setListeners, container_setContainer, container_newContainer, if_pos rfl]
    split
    · rfl
    · rename_i hd
      rw [container_newContainer, if_neg hd]
      exact planted.container d
  have hself := (hcontainer c).trans (if_pos rfl)
  refine {
    new := fun hc => ne_newContainer id f ((planted.exists_iff c).2 hc) rfl
    exists_iff := fun d => ?_
    containerId := congrArg Container.id hself
    delegateOf := congrArg Container.delegate hself
    isClosed := congrArg Container.closed hself
    held := congrArg Container.entities hself
    bound := (congrArg Container.factory hself).trans planted.factory
    audience_nodup := ?_
    mem_audience := fun l => ?_
    container := fun d hd => (hcontainer d).trans (if_neg hd)
    entity := fun e => ?_
    bag := fun a => ?_
    owners := fun g => ?_
    config := fun g => ?_ }
  · exact (hsame.exists_iff d).trans ((exists_newContainer id f d).trans
      (or_congr_left (planted.exists_iff d)))
  · rw [audience, hself]
    exact ListenerSet.nodup_extend List.nodup_nil b.listeners
  · rw [audience, hself, ← ListenerSet.mem_def, ListenerSet.mem_extend]
    exact or_iff_right List.not_mem_nil
  · exact ((entity_setContainer ..).trans (entity_setContainer ..)).trans (planted.entity e)
  · exact ((bag_setContainer ..).trans (bag_setContainer ..)).trans (planted.bag a)
  · rw [hsame.owners, (extends_newContainer t id f).owners]
    exact planted.owners g
  · rw [hsame.config, Registry.config, newContainer, factory_setContainer]
    exact planted.config g

end Blueprint

/-! ## Stubs in turn -/

variable {χ : Type}

theorem World.createStub_eq (obs : Observers χ) (holds : Holds) (c : ContainerRef) (stub : Stub)
    (w : World χ) : createStub obs holds c stub w =
      w.newEntityAs obs holds c stub.id stub.marker stub.seed := by
  obtain ⟨id, marker, seed⟩ := stub
  cases marker <;> rfl

section Raised

variable (obs : Observers χ) (holds : Holds) (c : ContainerRef)

/-- The entities of some stubs have been created, one after the other. -/
inductive Raised (w : World χ) : List (Stub × EntityRef) → World χ → Prop
  | nothing : Raised w [] w
  | concat {made : List (Stub × EntityRef)} {stub : Stub} {e : EntityRef} {v v' : World χ}
      (before : Raised w made v) (created : createStub obs holds c stub v = (.ok e, v')) :
      Raised w (made ++ [(stub, e)]) v'

/-- How the creation of several entities ends: all of them are there, or one creation has failed
after others, and no more has been tried. -/
inductive Raising (w : World χ) (stubs : List Stub) : Except ContainerError Unit × World χ → Prop
  | finished {made : List (Stub × EntityRef)} {w' : World χ} (raised : Raised obs holds c w made w')
      (all : made.map Prod.fst = stubs) : Raising w stubs (.ok (), w')
  | stopped {made : List (Stub × EntityRef)} {stub : Stub} {later : List Stub} {v w' : World χ}
      {failure : ContainerError} (raised : Raised obs holds c w made v)
      (split : stubs = made.map Prod.fst ++ stub :: later)
      (fails : createStub obs holds c stub v = (.error failure, w')) :
      Raising w stubs (.error failure, w')

variable {obs holds c} {w v : World χ} {made : List (Stub × EntityRef)}

theorem Raised.raising (before : Raised obs holds c w made v) (stubs : List Stub) :
    Raising obs holds c w (made.map Prod.fst ++ stubs) (createStubs obs holds c stubs v) := by
  induction stubs generalizing made v with
  | nil => exact .finished before (List.append_nil _).symm
  | cons stub stubs ih =>
    rw [createStubs]
    cases hraise : createStub obs holds c stub v with
    | mk answer v' =>
      cases answer with
      | error failure => exact .stopped before rfl hraise
      | ok e =>
        have hrest := ih (before.concat hraise)
        rwa [List.map_append, List.append_assoc] at hrest

/-- One after the other, creations leave nothing open. -/
theorem Raised.createStubs_eq (h : Raised obs holds c w made v) (stubs : List Stub) :
    createStubs obs holds c (made.map Prod.fst ++ stubs) w = createStubs obs holds c stubs v := by
  induction h generalizing stubs with
  | nothing => rfl
  | @concat made stub e v v' _ created ih =>
    rw [List.map_append, List.append_assoc, ih]
    change createStubs obs holds c (stub :: stubs) v = _
    rw [createStubs, created]

end Raised

/-! ## What has been created -/

/-- The container holds exactly the entities of some stubs, in this order, and each of them is alive
with the mark and the attributes of its stub. -/
structure Furnished (c : ContainerRef) (made : List (Stub × EntityRef)) (s : Registry) : Prop where
  held : (s.held c).entries = made.map fun p => (p.1.id, p.2)
  idOf : ∀ p ∈ made, s.idOf p.2 = p.1.id
  alive : ∀ p ∈ made, s.lifecycle p.2 = .alive
  marks : ∀ p ∈ made, (s.entity p.2).marks = p.1.marker.toList
  bag : ∀ p ∈ made, s.bag (.ofEntity p.2) = .ofValues p.1.seed

/-- A factory has gained records of some stubs, and no other factory has changed. -/
structure Recorded (r : Registry) (f : FactoryRef) (owner : Uuid) (stubs : List Stub)
    (s : Registry) : Prop where
  own : (s.owners f).entries = (r.owners f).entries ++ stubs.map fun stub => (stub.id, owner)
  others : ∀ g, g ≠ f → s.owners g = r.owners g

/-- A container is as it was, apart from what it holds. -/
structure Stands (r : Registry) (c : ContainerRef) (s : Registry) : Prop where
  here : s.Exists c
  containerId : s.containerId c = r.containerId c
  delegateOf : s.delegateOf c = r.delegateOf c
  bound : s.bound c = r.bound c
  audience : s.audience c = r.audience c

/-- What listeners are told of creations if they accept all of them: each listener of each entity
in turn. -/
def welcomes (c : ContainerRef) (ls : List ListenerRef) (made : List (Stub × EntityRef)) :
    List Notice :=
  made.flatMap fun p => ls.map fun l => ⟨l, ⟨.created, c, p.2, none⟩, .ok ()⟩

section Populated

variable {r s : Registry} {c : ContainerRef} {stub : Stub} {e : EntityRef}
  {made : List (Stub × EntityRef)}

theorem Recorded.refl (r : Registry) (f : FactoryRef) (owner : Uuid) : Recorded r f owner [] r :=
  ⟨(List.append_nil _).symm, fun _ _ => rfl⟩

theorem Recorded.born {r₀ : Registry} {stubs : List Stub}
    (h : Recorded r₀ (r.bound c) (r.containerId c) stubs r)
    (born : r.Born c stub.id stub.marker stub.seed e s)
    (unrecorded : stub.id ∉ r.owners (r.bound c)) :
    Recorded r₀ (r.bound c) (r.containerId c) (stubs ++ [stub]) s where
  own := by
    rw [born.owners, if_pos rfl, Table.entries_insert_of_not_mem unrecorded, h.own,
      List.append_assoc, List.map_append]
    rfl
  others g hg := by
    rw [born.owners, if_neg hg, h.others g hg]

theorem Stands.born (here : r.Exists c) (born : r.Born c stub.id stub.marker stub.seed e s) :
    Stands r c s := by
  have hne : c ≠ .ofEntity e := by
    rintro rfl
    exact born.new here
  refine ⟨(born.exists_iff c).2 (.inl here), ?_, ?_, ?_, ?_⟩
  · rw [born.containerId, if_neg hne]
  · rw [born.delegateOf, if_neg hne]
  · rw [born.bound, if_neg hne]
  · rw [born.audience, if_neg hne]

theorem Stands.trans {t : Registry} (h : Stands r c s) (k : Stands s c t) : Stands r c t :=
  ⟨k.here, k.containerId.trans h.containerId, k.delegateOf.trans h.delegateOf,
    k.bound.trans h.bound, k.audience.trans h.audience⟩

theorem Furnished.born (h : Furnished c made r) (present : ∀ p ∈ made, r.Exists (.ofEntity p.2))
    (absent : stub.id ∉ r.held c) (born : r.Born c stub.id stub.marker stub.seed e s) :
    Furnished c (made ++ [(stub, e)]) s := by
  have hne : ∀ p ∈ made, p.2 ≠ e := by
    rintro p hp rfl
    exact born.new (present p hp)
  have hbag : ∀ p ∈ made, BagRef.ofEntity p.2 ≠ .ofEntity e :=
    fun p hp heq => hne p hp (BagRef.ofEntity.inj heq)
  constructor
  · rw [born.held, if_pos rfl, Table.entries_insert_of_not_mem absent, h.held, List.map_append]
    rfl
  · refine List.forall_mem_append.2 ⟨fun p hp => ?_, List.forall_mem_singleton.2 ?_⟩
    · rw [born.idOf, if_neg (hne p hp), h.idOf p hp]
    · rw [born.idOf, if_pos rfl]
  · refine List.forall_mem_append.2 ⟨fun p hp => ?_, List.forall_mem_singleton.2 ?_⟩
    · rw [born.lifecycle, if_neg (hne p hp), h.alive p hp]
    · rw [born.lifecycle, if_pos rfl]
  · refine List.forall_mem_append.2 ⟨fun p hp => ?_, List.forall_mem_singleton.2 ?_⟩
    · rw [born.marks, if_neg (hne p hp), h.marks p hp]
    · rw [born.marks, if_pos rfl]
  · refine List.forall_mem_append.2 ⟨fun p hp => ?_, List.forall_mem_singleton.2 ?_⟩
    · rw [born.bag, if_neg (hbag p hp), h.bag p hp]
    · rw [born.bag, if_pos rfl]

end Populated

/-! ## One creation after the other -/

/-- All that has come of the creations so far. -/
structure Populated (w : World (χ × List Sighting)) (c : ContainerRef)
    (made : List (Stub × EntityRef)) (w' : World (χ × List Sighting)) : Prop where
  stands : Stands w.registry c w'.registry
  present : ∀ p ∈ made, w'.registry.Exists (.ofEntity p.2)
  furnished : Furnished c made w'.registry
  recorded : Recorded w.registry (w'.registry.bound c) (w'.registry.containerId c)
    (made.map Prod.fst) w'.registry
  welcomed : ∃ sightings, w'.client.2 = w.client.2 ++ sightings ∧
    sightings.map Sighting.toNotice = welcomes c (w.registry.audience c) made

/-- What is recorded of a stub although its creation has failed. -/
def Stub.recordedDespite (stub : Stub) : ContainerError → List Stub
  | .listener _ => [stub]
  | _ => []

theorem Objection.recordedDespite {obs : Observers χ} {holds : Holds} {w : World χ}
    {c : ContainerRef} {stub : Stub} {failure : ContainerError}
    (h : Objection obs holds w c stub.id failure) : stub.recordedDespite failure = [] := by
  cases h <;> rfl

section Attempt

variable {obs : Observers χ} {holds : Holds} {c : ContainerRef}
  {w v v' : World (χ × List Sighting)} {made : List (Stub × EntityRef)} {stub : Stub}

/-- An attempt to create an entity for a stub. -/
inductive Stub.Outcome (obs : Observers χ) (holds : Holds) (c : ContainerRef) (stub : Stub)
    (v : World (χ × List Sighting)) :
    Except ContainerError EntityRef × World (χ × List Sighting) → Prop
  | refused {failure : ContainerError}
      (objection : Objection obs.witnessed holds v c stub.id failure) :
      stub.Outcome obs holds c v (.error failure, v)
  | born {outcome : Except ContainerError EntityRef × World (χ × List Sighting)} {e : EntityRef}
      {sightings : List Sighting} (free : Unopposed obs.witnessed holds v c stub.id)
      (report : CreationReport v c stub.id stub.marker stub.seed e sightings outcome) :
      stub.Outcome obs holds c v outcome

variable (hobs : obs.Steady) (named : w.registry.delegateOf c = c) (h : Populated w c made v)

include hobs named h

end Attempt

/-! ## Buildings -/

section Build

variable {obs : Observers χ} {holds : Holds} {c : ContainerRef} {w w' : World (χ × List Sighting)}
  {made : List (Stub × EntityRef)}

/-- How a building ends. Either the container holds exactly the entities of all stubs, and each of
its listeners has been told of each of them once, in this order; or the creation for one of the
stubs has failed, nothing has been done for those after it, and the factory has kept the records of
those before it, and its own record if it was a listener that failed. -/
inductive Built (obs : Observers χ) (holds : Holds) (b : Blueprint) (c : ContainerRef)
    (w : World (χ × List Sighting)) :
    Except ContainerError ContainerRef × World (χ × List Sighting) → Prop
  | finished {made : List (Stub × EntityRef)} {w' : World (χ × List Sighting)}
      {sightings : List Sighting} (raised : Raised obs.witnessed holds c w made w')
      (all : made.map Prod.fst = b.stubs) (furnished : Furnished c made w'.registry)
      (recorded : Recorded w.registry (w.registry.bound c) (w.registry.containerId c) b.stubs
        w'.registry)
      (logged : w'.client.2 = w.client.2 ++ sightings)
      (told : sightings.map Sighting.toNotice = welcomes c (w.registry.audience c) made) :
      Built obs holds b c w (.ok c, w')
  | stopped {made : List (Stub × EntityRef)} {stub : Stub} {later : List Stub}
      {v w' : World (χ × List Sighting)} {failure : ContainerError}
      (raised : Raised obs.witnessed holds c w made v)
      (split : b.stubs = made.map Prod.fst ++ stub :: later)
      (fails : createStub obs.witnessed holds c stub v = (.error failure, w'))
      (recorded : Recorded w.registry (w.registry.bound c) (w.registry.containerId c)
        (made.map Prod.fst ++ stub.recordedDespite failure) w'.registry) :
      Built obs holds b c w (.error failure, w')

theorem build_eq (obs : Observers χ) (holds : Holds) (b : Blueprint) (id : Uuid) (w : World χ) :
    w.build obs holds b id =
      let created := createStubs obs holds (b.found id w.registry).1 b.stubs
        { w with registry := (b.found id w.registry).2 }
      (created.1.map fun _ => (b.found id w.registry).1, created.2) := rfl

end Build

end

open scoped PlainType

/-! ### A den that is built twice -/

/-- The second listener does not accept the entity 3. -/
def Observers.fastidious : Observers Unit where
  lifecycle _ l event w :=
    (if l.index = 1 ∧ w.registry.idOf event.entity = .ofNat 3 then .error ⟨"no", none⟩ else .ok (),
      w)
  bag _ _ _ w := w
  slack _ := 0
  remains _ _ _ := true

theorem Observers.fastidious_steady : Observers.fastidious.Steady := fun _ _ _ _ => rfl

/-- A tree with an entity. -/
def hillside : World (Unit × List Sighting) where
  registry := (trail [.newFactory .unbounded, .newContainer (.ofNat 100) ⟨0⟩,
    .create (.standalone 0) (.ofNat 7) none ∅]).2.registry
  client := ((), [])

/-- A den in this tree, with a listener that is given twice. -/
def den (stubs : List Stub) : Blueprint := ⟨some ⟨0⟩, .unbounded, [⟨0⟩, ⟨1⟩, ⟨0⟩], stubs⟩

def wolves : List Stub := [⟨.ofNat 1, some ⟨"Wolf"⟩, tameness⟩, ⟨.ofNat 2, none, ∅⟩]

end EntityForest
