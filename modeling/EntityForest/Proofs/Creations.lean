import EntityForest.Attribute.Plain
import EntityForest.Proofs.Coherence
import EntityForest.Proofs.Sightings

/-! # Creations from end to end

A creation is refused for the first of six reasons that applies, and then nothing has happened. If
none applies, the entity is complete before anybody hears of it. -/

namespace EntityForest

open Registry World

section

variable [ValueTypes] {χ : Type}

/-- A minted entity enters its container, is marked and gets its attributes. -/
def Registry.install (r : Registry) (c : ContainerRef) (id : Uuid) (e : EntityRef)
    (marker : Option Marker) (seed : Table Slot Value) : Registry :=
  let r := r.setHeld c ((r.held c).insert id e)
  let r := marker.elim r fun m => (r.mark e m).2
  r.setBag (.ofEntity e) (.ofValues seed)

/-! ## Refusals -/

/-- The container that `c` names in events can be found: it is `c` itself, or it still exists. -/
def Observers.Finds (obs : Observers χ) (holds : Holds) (w : World χ) (c : ContainerRef) : Prop :=
  w.registry.delegateOf c = c ∨ obs.remains (holds.keep [c]) w (w.registry.delegateOf c) = true

/-- What stands against a creation, with the answer that it is refused with. An objection is only
raised where those before it do not apply. -/
inductive Objection (obs : Observers χ) (holds : Holds) (w : World χ) (c : ContainerRef)
    (id : Uuid) : ContainerError → Prop
  | unnamed (h : id = .nil) : Objection obs holds w c id .nilId
  | dropped (named : id ≠ .nil) (h : ¬ obs.Finds holds w c) :
      Objection obs holds w c id (.delegateDropped (w.registry.containerId c))
  | closed (named : id ≠ .nil) (found : obs.Finds holds w c)
      (h : w.registry.isClosed c = true) :
      Objection obs holds w c id (.closed (w.registry.containerId c))
  | held (named : id ≠ .nil) (found : obs.Finds holds w c)
      (isOpen : w.registry.isClosed c = false) (h : id ∈ w.registry.held c) :
      Objection obs holds w c id (.alreadyAssociated id)
  | full {limit : Nat} (named : id ≠ .nil) (found : obs.Finds holds w c)
      (isOpen : w.registry.isClosed c = false) (absent : id ∉ w.registry.held c)
      (limited : (w.registry.config (w.registry.bound c)).entityLimit = some limit)
      (h : limit ≤ (w.registry.owners (w.registry.bound c)).size) :
      Objection obs holds w c id (.entityLimitReached limit)
  | recorded (named : id ≠ .nil) (found : obs.Finds holds w c)
      (isOpen : w.registry.isClosed c = false) (absent : id ∉ w.registry.held c)
      (room : ∀ limit, (w.registry.config (w.registry.bound c)).entityLimit = some limit →
        (w.registry.owners (w.registry.bound c)).size < limit)
      (h : id ∈ w.registry.owners (w.registry.bound c)) :
      Objection obs holds w c id (.alreadyAssociated id)

/-- Nothing stands against a creation. -/
structure Unopposed (obs : Observers χ) (holds : Holds) (w : World χ) (c : ContainerRef)
    (id : Uuid) : Prop where
  named : id ≠ .nil
  found : obs.Finds holds w c
  isOpen : w.registry.isClosed c = false
  absent : id ∉ w.registry.held c
  room : ∀ limit, (w.registry.config (w.registry.bound c)).entityLimit = some limit →
    (w.registry.owners (w.registry.bound c)).size < limit
  unrecorded : id ∉ w.registry.owners (w.registry.bound c)

section Objections

variable {obs : Observers χ} {holds : Holds} {w : World χ} {c : ContainerRef} {id : Uuid}

theorem unopposed_iff :
    Unopposed obs holds w c id ↔ ∀ failure, ¬ Objection obs holds w c id failure := by
  constructor
  · intro h failure hobjection
    cases hobjection with
    | unnamed hnil => exact h.named hnil
    | dropped _ hgone => exact hgone h.found
    | closed _ _ hclosed => exact Bool.false_ne_true (h.isOpen.symm.trans hclosed)
    | held _ _ _ hheld => exact h.absent hheld
    | full _ _ _ _ hlimit hfull => exact Nat.not_lt.2 hfull (h.room _ hlimit)
    | recorded _ _ _ _ _ hrecorded => exact h.unrecorded hrecorded
  · intro h
    have named : id ≠ .nil := fun hnil => h _ (.unnamed hnil)
    have found : obs.Finds holds w c := not_not.1 fun hgone => h _ (.dropped named hgone)
    have isOpen : w.registry.isClosed c = false :=
      Bool.eq_false_iff.2 fun hclosed => h _ (.closed named found hclosed)
    have absent : id ∉ w.registry.held c := fun hheld => h _ (.held named found isOpen hheld)
    have room : ∀ limit, (w.registry.config (w.registry.bound c)).entityLimit = some limit →
        (w.registry.owners (w.registry.bound c)).size < limit := by
      intro limit hlimit
      exact Nat.not_le.1 fun hfull => h _ (.full named found isOpen absent hlimit hfull)
    exact ⟨named, found, isOpen, absent, room,
      fun hrecorded => h _ (.recorded named found isOpen absent room hrecorded)⟩

theorem delegate_of_finds (h : obs.Finds holds w c) :
    delegate obs holds c w = .ok (w.registry.delegateOf c) := if_pos h

theorem delegate_of_not_finds (h : ¬ obs.Finds holds w c) :
    delegate obs holds c w = .error (.delegateDropped (w.registry.containerId c)) := if_neg h

/-- An open container looks at what it holds and leaves the rest to its factory. -/
theorem create_of_open (named : id ≠ .nil) (found : obs.Finds holds w c)
    (isOpen : w.registry.isClosed c = false) {marker : Option Marker} {seed : Table Slot Value} :
    w.registry.create c (delegate obs holds c w) id marker seed =
      if id ∈ w.registry.held c then .error (.alreadyAssociated id)
      else
        match w.registry.mint (w.registry.bound c) (w.registry.delegateOf c) id with
        | .error refusal => .error refusal
        | .ok (e, r) => .ok ⟨e, w.registry.delegateOf c,
          r.install c id e marker seed⟩ := by
  unfold Registry.create
  rw [if_neg named, delegate_of_finds found]
  exact if_neg (Bool.eq_false_iff.1 isOpen)

/-- Whatever stands against a creation, nothing has happened. -/
theorem create_of_objection {failure : ContainerError}
    (h : Objection obs holds w c id failure) (marker : Option Marker) (seed : Table Slot Value) :
    w.create obs holds c id marker seed = (.error failure, w) := by
  suffices hrefused : w.registry.create c (delegate obs holds c w) id marker seed =
      .error failure by
    rw [World.create, hrefused]
  cases h with
  | unnamed hnil => exact if_pos hnil
  | dropped named hgone =>
    unfold Registry.create
    rw [if_neg named, delegate_of_not_finds hgone]
  | closed named found hclosed =>
    unfold Registry.create
    rw [if_neg named, delegate_of_finds found]
    exact if_pos hclosed
  | held named found isOpen hheld =>
    rw [create_of_open named found isOpen]
    exact if_pos hheld
  | @full limit named found isOpen absent hlimit hfull =>
    have hmint : w.registry.mint (w.registry.bound c) (w.registry.delegateOf c) id =
        .error (.entityLimitReached limit) := by
      rw [mint, overLimit_eq_some_iff.2 ⟨hlimit, Nat.lt_succ_of_le hfull⟩]
    rw [create_of_open named found isOpen, if_neg absent, hmint]
  | recorded named found isOpen absent room hrecorded =>
    have hmint : w.registry.mint (w.registry.bound c) (w.registry.delegateOf c) id =
        .error (.alreadyAssociated id) := by
      rw [mint, overLimit_eq_none_iff.2 room]
      exact if_pos hrecorded
    rw [create_of_open named found isOpen, if_neg absent, hmint]

end Objections

/-! ## What is created -/

namespace Registry

/-- A new entity is in its container, with its record, its mark and its attributes, and nothing else
has changed. -/
structure Born (r : Registry) (c : ContainerRef) (id : Uuid) (marker : Option Marker)
    (seed : Table Slot Value) (e : EntityRef) (s : Registry) : Prop where
  new : ¬ r.Exists (.ofEntity e)
  exists_iff : ∀ d, s.Exists d ↔ r.Exists d ∨ d = .ofEntity e
  held : ∀ d, s.held d =
    if d = c then (r.held c).insert id e else if d = .ofEntity e then ∅ else r.held d
  owners : ∀ f, s.owners f =
    if f = r.bound c then (r.owners f).insert id (r.containerId c) else r.owners f
  containerId : ∀ d, s.containerId d = if d = .ofEntity e then id else r.containerId d
  delegateOf : ∀ d, s.delegateOf d = if d = .ofEntity e then d else r.delegateOf d
  bound : ∀ d, s.bound d = if d = .ofEntity e then r.bound c else r.bound d
  isClosed : ∀ d, s.isClosed d = if d = .ofEntity e then false else r.isClosed d
  audience : ∀ d, s.audience d = if d = .ofEntity e then [] else r.audience d
  idOf : ∀ x, s.idOf x = if x = e then id else r.idOf x
  lifecycle : ∀ x, s.lifecycle x = if x = e then .alive else r.lifecycle x
  marks : ∀ x, (s.entity x).marks = if x = e then marker.toList else (r.entity x).marks
  bag : ∀ b, s.bag b = if b = .ofEntity e then .ofValues seed else r.bag b
  config : ∀ f, s.config f = r.config f

variable {r s : Registry} {id : Uuid} {e : EntityRef}

theorem audience_newEntity (r : Registry) (id : Uuid) (f : FactoryRef) (d : ContainerRef) :
    (r.newEntity id f).2.audience d =
      if d = .ofEntity (r.newEntity id f).1 then [] else r.audience d := by
  rw [audience, container_newEntity]
  split <;> rfl

/-- A mark is added to one that has none. -/
theorem marks_mark (h : (r.entity e).marks = []) (m : Marker) (x : EntityRef) :
    ((r.mark e m).2.entity x).marks = if x = e then [m] else (r.entity x).marks := by
  unfold mark
  simp only [h, List.not_mem_nil, if_false, entity_setEntity, List.nil_append]
  split <;> rfl

theorem audience_mark (r : Registry) (e : EntityRef) (m : Marker) (d : ContainerRef) :
    (r.mark e m).2.audience d = r.audience d := by
  simp only [mark]
  split
  · rfl
  · exact congrArg (fun x => x.listeners.members) (r.container_setEntity e _ d)

theorem audience_install (r : Registry) (c : ContainerRef) (id : Uuid) (e : EntityRef)
    (marker : Option Marker) (seed : Table Slot Value) (d : ContainerRef) :
    (r.install c id e marker seed).audience d = r.audience d := by
  rw [install, audience, container_setBag, ← audience]
  cases marker with
  | none => exact r.audience_setHeld c _ d
  | some m => exact (audience_mark _ e m d).trans (r.audience_setHeld c _ d)

theorem marks_install (h : (r.entity e).marks = []) (c : ContainerRef) (id : Uuid)
    (marker : Option Marker) (seed : Table Slot Value) (x : EntityRef) :
    ((r.install c id e marker seed).entity x).marks =
      if x = e then marker.toList else (r.entity x).marks := by
  have hentity : ∀ y, (r.setHeld c ((r.held c).insert id e)).entity y = r.entity y :=
    r.entity_setContainer c _
  rw [install, entity_setBag]
  cases marker with
  | none =>
    by_cases hx : x = e
    · rw [if_pos hx, hx]
      exact (congrArg Entity.marks (hentity e)).trans h
    · rw [if_neg hx]
      exact congrArg Entity.marks (hentity x)
  | some m =>
    have hblank := (congrArg Entity.marks (hentity e)).trans h
    exact (marks_mark hblank m x).trans (by rw [hentity]; rfl)

theorem bag_install (r : Registry) (c : ContainerRef) (id : Uuid) (e : EntityRef)
    (marker : Option Marker) (seed : Table Slot Value) (b : BagRef) :
    (r.install c id e marker seed).bag b =
      if b = .ofEntity e then .ofValues seed else r.bag b := by
  rw [install, bag_setBag]
  split
  · rfl
  · cases marker with
    | none => exact r.bag_setContainer c _ b
    | some m => exact (bag_mark _ e m b).trans (r.bag_setContainer c _ b)

/-- A creation that succeeds has minted the entity, and puts it into place. -/
theorem create_eq_ok {c delegate : ContainerRef} {marker : Option Marker}
    {seed : Table Slot Value} {made : Creation}
    (h : r.create c (.ok delegate) id marker seed = .ok made) :
    ∃ e t, r.mint (r.bound c) delegate id = .ok (e, t) ∧
      made = ⟨e, delegate, t.install c id e marker seed⟩ := by
  unfold create at h
  simp only at h
  split at h
  · cases h
  split at h
  · cases h
  split at h
  · cases h
  split at h
  · cases h
  rename_i e t hmint
  cases h
  exact ⟨e, t, hmint, rfl⟩

theorem born_of_create {c delegate : ContainerRef} {marker : Option Marker}
    {seed : Table Slot Value} {made : Creation} (hc : r.Exists c)
    (hreports : r.containerId delegate = r.containerId c)
    (h : r.create c (.ok delegate) id marker seed = .ok made) :
    r.Born c id marker seed made.entity made.registry := by
  have created := (created_of_create h).1
  obtain ⟨e, t, hmint, rfl⟩ := create_eq_ok h
  obtain ⟨-, -, heq⟩ := mint_eq_ok hmint
  set u := r.setOwners (r.bound c) ((r.owners (r.bound c)).insert id (r.containerId delegate))
  obtain rfl : e = (u.newEntity id (r.bound c)).1 := congrArg Prod.fst heq
  obtain rfl : t = (u.newEntity id (r.bound c)).2 := congrArg Prod.snd heq
  refine {
    new := created.ref ▸ Nat.lt_irrefl _
    exists_iff := created.exists_iff hc
    held := created.held hc
    owners := fun f => (created.owners f).trans (by rw [hreports])
    containerId := created.containerId
    delegateOf := created.delegateOf
    bound := created.bound
    isClosed := created.isClosed
    audience := fun d => ?_
    idOf := created.idOf
    lifecycle := created.lifecycle
    marks := fun x => ?_
    bag := fun b => ?_
    config := created.config }
  · rw [audience_install, audience_newEntity]
    rfl
  · have hblank : ((u.newEntity id (r.bound c)).2.entity (u.newEntity id (r.bound c)).1).marks =
        [] := by rw [entity_newEntity, if_pos rfl]
    rw [marks_install hblank, entity_newEntity]
    split <;> rfl
  · rw [bag_install, bag_newEntity]
    split <;> rfl

end Registry

/-! ## The contract of a creation -/

/-- Creates an entity, with a mark if there is to be one. -/
def World.newEntityAs (obs : Observers χ) (holds : Holds) (c : ContainerRef) (id : Uuid)
    (marker : Option Marker) (seed : Table Slot Value) (w : World χ) :
    Except ContainerError EntityRef × World χ :=
  match marker with
  | none => w.newEntity obs holds c id seed
  | some m => w.newEntityOfType obs holds c id m seed

/-- What a creation does that nothing stands against. The listeners of the container are told of the
entity in turn, up to the first that fails, and each of them finds everything in place. -/
structure CreationReport (w : World (χ × List Sighting)) (c : ContainerRef) (id : Uuid)
    (marker : Option Marker) (seed : Table Slot Value) (e : EntityRef) (sightings : List Sighting)
    (outcome : Except ContainerError EntityRef × World (χ × List Sighting)) : Prop where
  born : w.registry.Born c id marker seed e outcome.2.registry
  told : Witnessed Eq outcome.2.registry ⟨.created, w.registry.delegateOf c, e, none⟩
    (w.registry.audience c) sightings
  logged : outcome.2.client.2 = w.client.2 ++ sightings
  answer : outcome.1 = (firstRefusal sightings).map fun _ => e

section Answer

variable {w w' : World (χ × List Sighting)} {c : ContainerRef} {id : Uuid} {marker : Option Marker}
  {seed : Table Slot Value} {e : EntityRef} {sightings : List Sighting}

theorem CreationReport.accepted {made : EntityRef}
    (h : CreationReport w c id marker seed e sightings (.ok made, w')) :
    firstRefusal sightings = .ok () ∧ made = e := by
  have hanswer : Except.ok made = (firstRefusal sightings).map fun _ => e := h.answer
  cases hfirst : firstRefusal sightings with
  | ok =>
    rw [hfirst] at hanswer
    exact ⟨rfl, Except.ok.inj hanswer⟩
  | error =>
    rw [hfirst] at hanswer
    cases hanswer

theorem CreationReport.rejected {failure : ContainerError}
    (h : CreationReport w c id marker seed e sightings (.error failure, w')) :
    firstRefusal sightings = .error failure := by
  have hanswer : Except.error failure = (firstRefusal sightings).map fun _ => e := h.answer
  cases hfirst : firstRefusal sightings with
  | ok =>
    rw [hfirst] at hanswer
    cases hanswer
  | error cause =>
    rw [hfirst] at hanswer
    rw [Except.error.inj hanswer]

end Answer

section Contract

variable {obs : Observers χ} {holds : Holds} {c : ContainerRef} {id : Uuid}

theorem create_of_unopposed {w : World χ} (h : Unopposed obs holds w c id)
    (marker : Option Marker) (seed : Table Slot Value) :
    ∃ made, w.registry.create c (delegate obs holds c w) id marker seed = .ok made ∧
      made.delegate = w.registry.delegateOf c := by
  have hmint : ∃ e r, w.registry.mint (w.registry.bound c) (w.registry.delegateOf c) id =
      .ok (e, r) := by
    rw [mint, overLimit_eq_none_iff.2 h.room]
    exact ⟨_, _, if_neg h.unrecorded⟩
  obtain ⟨e, r, hmint⟩ := hmint
  rw [create_of_open h.named h.found h.isOpen, if_neg h.absent, hmint]
  exact ⟨_, rfl, rfl⟩

/-- What has been created is announced, and a listener that fails makes the answer. -/
theorem create_eq_announce {w : World χ} {marker : Option Marker} {seed : Table Slot Value}
    {made : Creation} {announced : Except ContainerError Unit × World χ}
    (h : w.registry.create c (delegate obs holds c w) id marker seed = .ok made)
    (hannounced : announce obs (holds.lock c) c ⟨.created, made.delegate, made.entity, none⟩
      { w with registry := made.registry } = announced) :
    w.create obs holds c id marker seed =
      (announced.1.map fun _ => made.entity, announced.2) := by
  rw [World.create, h]
  simp only
  rw [hannounced]
  obtain ⟨answer, w'⟩ := announced
  cases answer <;> rfl

theorem report_create (hobs : obs.Steady) {w : World (χ × List Sighting)}
    (hc : w.registry.Exists c)
    (hreports : w.registry.containerId (w.registry.delegateOf c) = w.registry.containerId c)
    (h : Unopposed obs.witnessed holds w c id) (marker : Option Marker) (seed : Table Slot Value) :
    ∃ e sightings, CreationReport w c id marker seed e sightings
      (w.create obs.witnessed holds c id marker seed) := by
  obtain ⟨made, hmade, hdelegate⟩ := create_of_unopposed h marker seed
  have hborn := born_of_create hc hreports (delegate_of_finds h.found ▸ hmade)
  have haudience : made.registry.audience c = w.registry.audience c := by
    rw [hborn.audience, if_neg]
    rintro rfl
    exact hborn.new hc
  obtain ⟨sightings, htold, hlogged, hanswer, hsame⟩ := witnessed_announce (fun _ => rfl)
    (fun h k => h.trans k) hobs.confined.witnessed obs.witnessed_watches (holds.lock c) c
    ⟨.created, made.delegate, made.entity, none⟩ { w with registry := made.registry }
  rw [create_eq_announce hmade rfl]
  refine ⟨made.entity, sightings, ?_, ?_, hlogged, congrArg (Except.map _) hanswer⟩
  · exact hsame ▸ hborn
  · rw [haudience, hdelegate] at htold
    exact hsame ▸ htold

/-- With listeners that leave marks alone, the mark that was asked for is there in the end. -/
theorem newEntityAs_eq_create (hobs : obs.Steady) {w : World (χ × List Sighting)}
    (hc : w.registry.Exists c)
    (hreports : w.registry.containerId (w.registry.delegateOf c) = w.registry.containerId c)
    (marker : Option Marker) (seed : Table Slot Value) :
    w.newEntityAs obs.witnessed holds c id marker seed =
      w.create obs.witnessed holds c id marker seed := by
  cases marker with
  | none => rfl
  | some m =>
    rw [newEntityAs, newEntityOfType]
    by_cases h : Unopposed obs.witnessed holds w c id
    · obtain ⟨e, sightings, report⟩ := report_create hobs hc hreports h (some m) seed
      generalize w.create obs.witnessed holds c id (some m) seed = outcome at report
      obtain ⟨answer, w'⟩ := outcome
      have hmarked : w'.registry.typed e m = .ok e := by
        refine if_pos (decide_eq_true ?_)
        rw [report.born.marks, if_pos rfl]
        exact List.mem_singleton.2 rfl
      obtain rfl := report.answer
      cases firstRefusal sightings with
      | ok => exact congrArg (·, w') hmarked
      | error => rfl
    · rw [unopposed_iff] at h
      obtain ⟨failure, hobjection⟩ := not_forall_not.1 h
      rw [create_of_objection hobjection]

end Contract

/-! ## A creation that is heard of -/

end

open scoped PlainType

/-- A tree for at most two entities. It holds the entity 1, for which another container stands in
that has three listeners. -/
def annex : World (Unit × List Sighting) where
  registry := ((trail [.newFactory ⟨some 2, 0⟩, .newContainer (.ofNat 100) ⟨0⟩,
    .create (.standalone 0) (.ofNat 1) none ∅]).2.registry.newDelegating (.ofEntity ⟨0⟩)
      ⟨0⟩).2.setListeners (.standalone 1) ⟨[⟨0⟩, ⟨1⟩, ⟨2⟩]⟩
  client := ((), [])

/-- A tame wolf. -/
def tameness : Table Slot Value := (∅ : Table Slot Value).insert ⟨"tame", .bool⟩ ⟨.bool, true⟩

def whelping : Except ContainerError EntityRef × World (Unit × List Sighting) :=
  annex.newEntityAs Observers.picky.witnessed .nothing (.standalone 1) (.ofNat 2) (some ⟨"Wolf"⟩)
    tameness

end EntityForest
