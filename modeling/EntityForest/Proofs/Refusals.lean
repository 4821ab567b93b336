import EntityForest.Attribute.Plain
import EntityForest.Proofs.Runs

/-! # Refusals

An operation that answers no, or with an error that is no listener's and no violation, has not
begun. Two answers are exceptions, since they come too late. A creation looks for the mark that it
was asked for once the entity is there, and a kill misses a delegate that is gone once the entity is
dead. -/

namespace EntityForest

open Registry World

section

variable [ValueTypes]

/-- The operations on one container, or on two. -/
inductive Request where
  | newEntity (c : ContainerRef) (id : Uuid) (seed : Table Slot Value)
  | newEntityOfType (c : ContainerRef) (id : Uuid) (marker : Marker) (seed : Table Slot Value)
  | kill (c : ContainerRef) (id : Uuid)
  | killAll (c : ContainerRef) (order : List Uuid)
  | transfer (src : ContainerRef) (id : Uuid) (dst : ContainerRef)
  | receive (c : ContainerRef) (e : EntityRef)

namespace Request

variable {χ : Type} (obs : Observers χ) (holds : Holds)

/-- Carries a request out. Where the answer is not a truth value, success counts as true. -/
def perform (w : World χ) : Request → Except ContainerError Bool × World χ
  | newEntity c id seed =>
    let (answer, w) := w.newEntity obs holds c id seed
    (answer.map fun _ => true, w)
  | newEntityOfType c id marker seed =>
    let (answer, w) := w.newEntityOfType obs holds c id marker seed
    (answer.map fun _ => true, w)
  | kill c id => w.kill obs holds c id
  | killAll c order =>
    let (answer, w) := w.killListed obs holds c order
    (answer.map fun _ => true, w)
  | transfer src id dst => w.transfer obs holds src id dst
  | receive c e => w.receive obs holds c e

/-- The answers that count as refusals. -/
def Refused : Except ContainerError Bool → Prop
  | .ok answer => answer = false
  | .error failure =>
    failure.kind = .invalidArgument ∨ failure.kind = .conflict ∨ failure.kind = .capacity

/-- The answers that a request gives only after it has changed the forest. -/
def Late (request : Request) (answer : Except ContainerError Bool) : Prop :=
  match request with
  | newEntityOfType _ id marker _ => answer = .error (.typeMismatch id marker.name)
  | kill .. | killAll .. => ∃ id, answer = .error (.delegateDropped id)
  | _ => False

end Request

/-! ## Lasting changes -/

namespace World

variable {r s : Registry}

theorem Culled.dead_of_dead (h : Culled r s) {x : EntityRef} (hx : r.lifecycle x = .dead) :
    s.lifecycle x = .dead := by
  induction h with
  | refl => exact hx
  | tail _ hstep ih =>
    cases hstep with
    | @kill c id e s killed =>
      rw [killed.lifecycle]
      split
      · rfl
      · exact ih
    | close e =>
      rw [lifecycle_close]
      exact ih
    | same same =>
      rw [same.lifecycle]
      exact ih

end World

/-- Where an entity has been killed and more has been killed since, the forest is not the same. -/
theorem Registry.Killed.not_sameForest {r s t : Registry} {c : ContainerRef} {id : Uuid}
    {e : EntityRef} (k : r.Killed c id e s) (h : Culled s t) : ¬ SameForest r t := by
  intro hsame
  have hdead : t.lifecycle e = .dead := by
    apply Culled.dead_of_dead h
    rw [k.lifecycle, if_pos rfl]
  rw [hsame.lifecycle, k.alive] at hdead
  cases hdead

theorem Registry.Created.not_sameForest {r s : Registry} {c delegate : ContainerRef} {id : Uuid}
    {e : EntityRef} (k : r.Created c delegate id e s) : ¬ SameForest r s := by
  intro hsame
  have howners := hsame.owners (r.bound c)
  rw [k.owners, if_pos rfl] at howners
  exact k.unrecorded (howners ▸ Table.mem_insert.2 (.inl rfl))

/-! ## Each operation -/

namespace World

variable {χ : Type} {obs : Observers χ} (holds : Holds) (hobs : obs.Passive) (w : World χ)

include hobs

/-- A creation without a mark either leaves the world alone or is not a refusal. -/
theorem create_of_refused (c : ContainerRef) (id : Uuid) (marker : Option Marker)
    (seed : Table Slot Value)
    (h : Request.Refused ((w.create obs holds c id marker seed).1.map fun _ => true)) :
    (w.create obs holds c id marker seed).2 = w := by
  have hcreate := creating_create holds hobs c id marker seed w
  generalize w.create obs holds c id marker seed = made at h hcreate
  obtain ⟨answer, w'⟩ := made
  change Creating w c id answer w' at hcreate
  cases hcreate with
  | refused => rfl
  | made _ told =>
    rcases told with rfl | ⟨failure, rfl⟩
    · cases h
    · rcases h with h | h | h <;> cases h

/-- A marked creation that is refused leaves the world alone, unless the mark is what was missing;
then the entity is there. -/
theorem newEntityOfType_of_refused (c : ContainerRef) (id : Uuid) (marker : Marker)
    (seed : Table Slot Value) :
    (Request.Refused ((w.newEntityOfType obs holds c id marker seed).1.map fun _ => true) →
      (w.newEntityOfType obs holds c id marker seed).1 ≠ .error (.typeMismatch id marker.name) →
      (w.newEntityOfType obs holds c id marker seed).2 = w) ∧
    ((w.newEntityOfType obs holds c id marker seed).1 = .error (.typeMismatch id marker.name) →
      ∃ e, w.registry.Created c (w.registry.delegateOf c) id e
        (w.newEntityOfType obs holds c id marker seed).2.registry) := by
  unfold newEntityOfType
  have hcreate := creating_create holds hobs c id (some marker) seed w
  generalize w.create obs holds c id (some marker) seed = made at hcreate
  obtain ⟨answer, w'⟩ := made
  change Creating w c id answer w' at hcreate
  cases hcreate with
  | refused unlike =>
    refine ⟨fun _ _ => rfl, fun hmismatch => ?_⟩
    cases hmismatch
    exact absurd rfl (unlike _ _)
  | @made e _ _ created told =>
    rcases told with rfl | ⟨failure, rfl⟩
    · refine ⟨fun hrefused hmatch => ?_, fun _ => ⟨e, created⟩⟩
      simp only [Registry.typed] at hrefused hmatch
      split at hrefused
      · cases hrefused
      · rename_i hunmarked
        refine absurd ?_ hmatch
        have hid : (w'.registry.entity e).id = id := by
          have hidOf := created.idOf e
          rw [if_pos rfl] at hidOf
          exact hidOf
        rw [if_neg hunmarked, hid]
    · refine ⟨fun hrefused => ?_, fun hmismatch => by cases hmismatch⟩
      rcases hrefused with h | h | h <;> cases h

/-- A kill that is refused leaves the world alone, unless the delegate is what was missing; then
the entity is dead. -/
theorem kill_of_refused (c : ContainerRef) (id : Uuid)
    (h : Request.Refused (w.kill obs holds c id).1) :
    ((¬ ∃ d, (w.kill obs holds c id).1 = .error (.delegateDropped d)) →
      (w.kill obs holds c id).2 = w) ∧
    ((∃ d, (w.kill obs holds c id).1 = .error (.delegateDropped d)) →
      ¬ SameForest w.registry (w.kill obs holds c id).2.registry) := by
  unfold World.kill at h ⊢
  have hkill := killing_killHeld (holds.lock c) hobs c id w
  generalize killHeld obs (holds.lock c) c id w = killed at h hkill ⊢
  obtain ⟨⟨victim, outcome⟩, w'⟩ := killed
  change Killing w c id (victim, outcome) w' at hkill
  cases hkill with
  | none =>
    refine ⟨fun _ => rfl, fun hdropped => ?_⟩
    obtain ⟨d, hd⟩ := hdropped
    cases hd
  | dead killed same told =>
    refine ⟨fun htold => ?_, fun _ => ?_⟩
    · rcases told with rfl | ⟨failure, rfl⟩ | ⟨d, rfl⟩
      · cases h
      · rcases h with h | h | h <;> cases h
      · exact absurd ⟨d, rfl⟩ htold
    · exact killed.not_sameForest (.head (.same same) (culled_shutDownEach _ hobs _ _))

/-- A cascade fails only where a death cannot be announced, and then there has been one. -/
theorem killEach_told (c : ContainerRef) (ids : List Uuid) :
    (killEach obs c holds ids w).1.2 = .ok () ∨
      (∃ failure, (killEach obs c holds ids w).1.2 = .error (.listener failure)) ∨
      (∃ d, (killEach obs c holds ids w).1.2 = .error (.delegateDropped d)) ∧
        ∃ id e s, w.registry.Killed c id e s ∧
          Culled s (killEach obs c holds ids w).2.registry := by
  induction ids generalizing holds w with
  | nil => exact .inl rfl
  | cons id ids ih =>
    have hkill := killing_killHeld holds hobs c id w
    unfold killEach
    generalize killHeld obs holds c id w = killed at hkill
    obtain ⟨⟨victim, outcome⟩, w'⟩ := killed
    change Killing w c id (victim, outcome) w' at hkill
    have hlater := ih (holds.keepEntities victim.toList) w'
    have hculled := culled_killEach hobs c (holds.keepEntities victim.toList) ids w'
    cases hkill with
    | none => exact hlater
    | @dead e s _ _ killed same told =>
      have hdeath : ∃ id e s, w.registry.Killed c id e s ∧ Culled s _ :=
        ⟨id, e, s, killed, .head (.same same) hculled⟩
      rcases told with rfl | ⟨failure, rfl⟩ | ⟨d, rfl⟩
      · exact hlater.imp_right fun h => h.imp_right fun hdropped => ⟨hdropped.1, hdeath⟩
      · exact .inr (.inl ⟨failure, rfl⟩)
      · exact .inr (.inr ⟨⟨d, rfl⟩, hdeath⟩)

/-- A bulk kill is never refused, unless the delegate is what was missing. -/
theorem killListed_of_refused (c : ContainerRef) (ids : List Uuid)
    (h : Request.Refused ((w.killListed obs holds c ids).1.map fun _ => true)) :
    (∃ d, (w.killListed obs holds c ids).1 = .error (.delegateDropped d)) ∧
      ¬ SameForest w.registry (w.killListed obs holds c ids).2.registry := by
  have htold := killEach_told (holds.lock c) hobs w c ids
  unfold killListed at h ⊢
  generalize killEach obs c (holds.lock c) ids w = killed at h htold ⊢
  obtain ⟨⟨victims, outcome⟩, w'⟩ := killed
  change outcome = .ok () ∨ (∃ failure, outcome = .error (.listener failure)) ∨
    (∃ d, outcome = .error (.delegateDropped d)) ∧ _ at htold
  rcases htold with rfl | ⟨failure, rfl⟩ | ⟨hdropped, id, e, s, killed, hculled⟩
  · cases h
  · rcases h with h | h | h <;> cases h
  · exact ⟨hdropped, killed.not_sameForest (hculled.trans (culled_shutDownEach _ hobs _ _))⟩

theorem transfer_of_refused (src : ContainerRef) (id : Uuid) (dst : ContainerRef)
    (h : Request.Refused (w.transfer obs holds src id dst).1) :
    (w.transfer obs holds src id dst).2 = w := by
  have hmove := transferring_transfer holds hobs src id dst w
  generalize w.transfer obs holds src id dst = moved at h hmove
  obtain ⟨answer, w'⟩ := moved
  change Transferring obs w src id dst answer w' at hmove
  cases hmove with
  | sameContainer => rfl
  | closed => rfl
  | absent => rfl
  | self => rfl
  | dropped => rfl
  | refused => rfl
  | stranded => rcases h with h | h | h <;> cases h
  | moved _ _ _ told _ =>
    rcases told with rfl | ⟨failure, rfl⟩
    · cases h
    · rcases h with h | h | h <;> cases h

theorem receive_of_refused (c : ContainerRef) (e : EntityRef)
    (h : Request.Refused (w.receive obs holds c e).1) : (w.receive obs holds c e).2 = w := by
  have hreceive := receiving_receive holds hobs c e w
  generalize w.receive obs holds c e = received at h hreceive
  obtain ⟨answer, w'⟩ := received
  change Receiving obs w c e answer w' at hreceive
  cases hreceive with
  | self => rfl
  | dropped => rfl
  | refused => rfl
  | entered _ _ told _ =>
    rcases told with rfl | ⟨failure, rfl⟩
    · cases h
    · rcases h with h | h | h <;> cases h

end World

/-! ## All operations -/

/-- A refused request has changed nothing exactly if its answer is not one that comes late. -/
theorem unchanged_iff_not_late {χ : Type} {obs : Observers χ} (holds : Holds) (hobs : obs.Passive)
    (w : World χ) (request : Request)
    (hrefused : Request.Refused (request.perform obs holds w).1) :
    (SameForest w.registry (request.perform obs holds w).2.registry ↔
      ¬ request.Late (request.perform obs holds w).1) ∧
    (¬ request.Late (request.perform obs holds w).1 → (request.perform obs holds w).2 = w) := by
  suffices hsplit : (¬ request.Late (request.perform obs holds w).1 →
      (request.perform obs holds w).2 = w) ∧
    (request.Late (request.perform obs holds w).1 →
      ¬ SameForest w.registry (request.perform obs holds w).2.registry) by
    obtain ⟨hunchanged, hchanged⟩ := hsplit
    refine ⟨⟨fun hsame hlate => hchanged hlate hsame, fun hlate => ?_⟩, hunchanged⟩
    rw [hunchanged hlate]
    exact .refl w.registry
  cases request with
  | newEntity c id seed =>
    exact ⟨fun _ => create_of_refused holds hobs w c id none seed hrefused, False.elim⟩
  | newEntityOfType c id marker seed =>
    obtain ⟨hunchanged, hcreated⟩ := newEntityOfType_of_refused holds hobs w c id marker seed
    have hlate : Request.Late (.newEntityOfType c id marker seed)
        ((Request.newEntityOfType c id marker seed).perform obs holds w).1 ↔
          (w.newEntityOfType obs holds c id marker seed).1 =
            .error (.typeMismatch id marker.name) := by
      simp only [Request.Late, Request.perform]
      cases (w.newEntityOfType obs holds c id marker seed).1 <;> simp [Except.map]
    rw [hlate]
    refine ⟨hunchanged hrefused, fun hmismatch => ?_⟩
    obtain ⟨e, created⟩ := hcreated hmismatch
    exact created.not_sameForest
  | kill c id => exact kill_of_refused holds hobs w c id hrefused
  | killAll c order =>
    obtain ⟨⟨d, hdropped⟩, hchanged⟩ := killListed_of_refused holds hobs w c order hrefused
    refine ⟨fun hlate => absurd ⟨d, ?_⟩ hlate, fun _ => hchanged⟩
    simp only [Request.perform, hdropped]
    rfl
  | transfer src id dst =>
    exact ⟨fun _ => transfer_of_refused holds hobs w src id dst hrefused, False.elim⟩
  | receive c e => exact ⟨fun _ => receive_of_refused holds hobs w c e hrefused, False.elim⟩

end

open scoped PlainType

/-- A tree with one container, which holds the entity 1. -/
def single : List Call :=
  [.newFactory .unbounded, .newContainer (.ofNat 100) ⟨0⟩,
    .create (.standalone 0) (.ofNat 1) none ∅]

/-- The entity 1 cannot be created a second time. -/
theorem unchanged_single :
    ((Request.newEntity (.standalone 0) (.ofNat 1) ∅).perform .quiet .nothing
      (trail single).2).2 = (trail single).2 := by
  have hanswer : ((Request.newEntity (.standalone 0) (.ofNat 1) ∅).perform .quiet .nothing
      (trail single).2).1 = .error (.alreadyAssociated (.ofNat 1)) := by decide +kernel
  refine (unchanged_iff_not_late .nothing Observers.quiet_passive (trail single).2
    (.newEntity (.standalone 0) (.ofNat 1) ∅) ?_).2 id
  rw [hanswer]
  exact .inr (.inl rfl)

/-! ## A mark that is taken away -/

/-- Listeners that take a mark away from every entity they hear of. -/
def Observers.unmarking (m : Marker) : Observers Unit where
  lifecycle _ _ event w := (.ok (), { w with registry := (w.registry.unmark event.entity m).2 })
  bag _ _ _ w := w
  slack _ := 0
  remains _ _ _ := true

theorem Observers.unmarking_passive (m : Marker) : (Observers.unmarking m).Passive :=
  ⟨fun _ _ event w => sameForest_unmark w.registry event.entity m⟩

/-- A tree with one container, made under such listeners. -/
def unmarked (m : Marker) : List (World Unit × Call) × World Unit :=
  replay (.unmarking m) [.newFactory .unbounded, .newContainer (.ofNat 100) ⟨0⟩]
    ([], ⟨.empty, ()⟩)

/-- The same tree with one such listener at its container. -/
def watched (m : Marker) : World Unit :=
  { (unmarked m).2 with
    registry := (unmarked m).2.registry.setListeners (.standalone 0) ⟨[⟨0⟩]⟩ }

/-- The listener hears of the new entity and takes its mark away, and the creation is answered with
the missing mark. -/
theorem not_unchanged_of_refused :
    ¬ ∀ (obs : Observers Unit) (past : List (World Unit × Call)) (w : World Unit)
        (request : Request), obs.Passive → Run obs past w →
        Request.Refused (request.perform obs .nothing w).1 →
        SameForest w.registry (request.perform obs .nothing w).2.registry := by
  intro hclaim
  have hstart : Run (.unmarking ⟨"M"⟩) (unmarked ⟨"M"⟩).1 (unmarked ⟨"M"⟩).2 :=
    (Run.start ()).replay (by decide +kernel)
  have hexists : (unmarked ⟨"M"⟩).2.registry.Exists (.standalone 0) := by decide +kernel
  have hrun : Run (.unmarking ⟨"M"⟩) (unmarked ⟨"M"⟩).1 (watched ⟨"M"⟩) :=
    hstart.other (sameForest_setListeners _ hexists _)
  have hanswer : ((Request.newEntityOfType (.standalone 0) (.ofNat 1) ⟨"M"⟩ ∅).perform
      (.unmarking ⟨"M"⟩) .nothing (watched ⟨"M"⟩)).1 =
        .error (.typeMismatch (.ofNat 1) "M") := by decide +kernel
  have hsame := hclaim (.unmarking ⟨"M"⟩) _ (watched ⟨"M"⟩)
    (.newEntityOfType (.standalone 0) (.ofNat 1) ⟨"M"⟩ ∅) (Observers.unmarking_passive _) hrun (by
      rw [hanswer]
      exact .inr (.inl rfl))
  have hkeys := congrArg Table.keys (hsame.held (.standalone 0))
  exact absurd hkeys (by decide +kernel)

end EntityForest
