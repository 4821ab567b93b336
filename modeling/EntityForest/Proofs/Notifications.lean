import EntityForest.Attribute.Plain
import EntityForest.Proofs.Sightings
import EntityForest.Proofs.Transfers

/-! # Who hears of a transfer

The destination announces an entity that comes from another tree, and then the source announces
every entity that has left. What these listeners see when they are called tells how far the move had
come by then. -/

namespace EntityForest

open Registry World

section

variable [ValueTypes]

namespace Registry

/-- Listeners that did not call back have been at work: they have left the forest as it is, and who
listens to a container. -/
structure Undisturbed (r s : Registry) : Prop extends SameForest r s where
  audience : ∀ c, s.audience c = r.audience c

theorem Undisturbed.refl (r : Registry) : Undisturbed r r := ⟨.refl r, fun _ => rfl⟩

theorem Undisturbed.trans {r s t : Registry} (h : Undisturbed r s) (k : Undisturbed s t) :
    Undisturbed r t :=
  ⟨h.toSameForest.trans k.toSameForest, fun c => (k.audience c).trans (h.audience c)⟩

/-- Leaving the source does not depend on what listeners did at the destination. -/
theorem Undisturbed.leave {r s : Registry} (h : Undisturbed r s) (src : ContainerRef) (id : Uuid) :
    Undisturbed (r.setHeld src ((r.held src).erase id)) (s.setHeld src ((s.held src).erase id)) :=
  ⟨sameForest_leave h.toSameForest src id, fun c => by
    rw [audience_setHeld, audience_setHeld, h.audience]⟩

end Registry

variable {χ : Type} {obs : Observers χ} {log : χ → List Sighting}

theorem Observers.Steady.undisturbed (h : obs.Steady) : obs.Confined Undisturbed :=
  fun holds l event w => (h holds l event w).symm ▸ .refl w.registry

theorem firstRefusal_append (first more : List Sighting) :
    firstRefusal (first ++ more) = (firstRefusal first).bind fun _ => firstRefusal more := by
  rw [firstRefusal, List.map_append, firstFailure_append]
  rfl

/-- The answer is not one that follows upon an announcement. -/
structure Unheard (answer : Except ContainerError Bool) : Prop where
  not_ok : answer ≠ .ok true
  not_listener : ∀ failure, answer ≠ .error (.listener failure)

theorem not_voiceless_of_delegate {holds : Holds} {w : World χ} {c d : ContainerRef}
    (h : delegate obs holds c w = .ok d) : ¬ obs.Voiceless w.registry c := by
  intro hgone
  cases h.symm.trans (delegate_of_voiceless hgone holds)

section Hearing

variable (hobs : obs.Confined Undisturbed) (hlog : obs.Watches log) (holds : Holds)

/-! ## Arrivals -/

/-- Who hears of an arrival: nobody, if the entity was taken from within the tree. -/
inductive Greeted (s : Registry) (event : Event) (ls : List ListenerRef) :
    Arrival → List Sighting → Prop
  | taken : Greeted s event ls .taken []
  | imported {sightings : List Sighting} (told : Witnessed Undisturbed s event ls sightings) :
      Greeted s event ls .imported sightings

/-- What is heard of an arrival, whether or not it comes about. -/
inductive Greeting (obs : Observers χ) (log : χ → List Sighting) (w : World χ) (c : ContainerRef)
    (e : EntityRef) : Except ContainerError Bool → World χ → Prop
  | refused {answer : Except ContainerError Bool} (unheard : Unheard answer) :
      Greeting obs log w c e answer w
  | entered {arrival : Arrival} {s : Registry} {sightings : List Sighting} {w' : World χ}
      (found : ¬ obs.Voiceless w.registry c)
      (received : w.registry.receive c (w.registry.delegateOf c) e = some (arrival, s))
      (greeted : Greeted s ⟨.received, w.registry.delegateOf c, e, none⟩ (s.audience c) arrival
        sightings)
      (logged : log w'.client = log w.client ++ sightings)
      (kept : Undisturbed s w'.registry) :
      Greeting obs log w c e ((firstRefusal sightings).map fun _ => true) w'

include hobs hlog

theorem greeting_receive (c : ContainerRef) (e : EntityRef) (w : World χ) :
    Greeting obs log w c e (w.receive obs holds c e).1 (w.receive obs holds c e).2 := by
  unfold World.receive
  simp only
  split
  · exact .refused ⟨nofun, nofun⟩
  rcases delegate_eq (holds.keepEntities [e]) obs c w with hfound | ⟨-, hgone⟩
  swap
  · rw [hgone]
    exact .refused ⟨nofun, nofun⟩
  have hvoice := not_voiceless_of_delegate hfound
  rw [hfound]
  simp only
  cases hreceive : w.registry.receive c (w.registry.delegateOf c) e with
  | none => exact .refused ⟨nofun, nofun⟩
  | some entered =>
    obtain ⟨arrival, s⟩ := entered
    cases arrival with
    | taken => exact .entered hvoice hreceive .taken (List.append_nil _).symm (.refl s)
    | imported =>
      obtain ⟨sightings, htold, hlogged, hanswer, hkept⟩ := witnessed_announce Undisturbed.refl
        Undisturbed.trans hobs hlog ((holds.keepEntities [e]).lock c) c
        ⟨.received, w.registry.delegateOf c, e, none⟩ { w with registry := s }
      have hentered := Greeting.entered hvoice hreceive (.imported htold) hlogged hkept
      simp only
      rw [← hanswer] at hentered
      generalize announce obs ((holds.keepEntities [e]).lock c) c _ _ = announced at hentered
      obtain ⟨answer, w'⟩ := announced
      cases answer <;> exact hentered

/-! ## Departures -/

/-- The source announces a departure whatever has happened at the destination, and reports a failure
of its own only if there was none. -/
theorem witnessed_depart (src dst delegate : ContainerRef) (id : Uuid) (e : EntityRef)
    (arrival : Except ContainerError Unit) (w : World χ) :
    ∃ sightings, Witnessed Undisturbed (w.registry.setHeld src ((w.registry.held src).erase id))
        ⟨.transferred, delegate, e, some dst⟩ (w.registry.audience src) sightings ∧
      log (depart obs holds src dst delegate id e arrival w).2.client =
        log w.client ++ sightings ∧
      (depart obs holds src dst delegate id e arrival w).1 =
        (arrival.bind fun _ => firstRefusal sightings).map (fun _ => true) ∧
      Undisturbed (w.registry.setHeld src ((w.registry.held src).erase id))
        (depart obs holds src dst delegate id e arrival w).2.registry := by
  obtain ⟨sightings, htold, hlogged, hanswer, hkept⟩ := witnessed_announce Undisturbed.refl
    Undisturbed.trans hobs hlog holds src ⟨.transferred, delegate, e, some dst⟩
    { w with registry := w.registry.setHeld src ((w.registry.held src).erase id) }
  rw [audience_setHeld] at htold
  exact ⟨sightings, htold, hlogged, congrArg (fun answer => (arrival.bind fun _ => answer).map
    fun _ => true) hanswer, hkept⟩

/-! ## Transfers -/

omit hobs hlog

/-- What is heard of a transfer: nothing if the entity stays, and else first of its arrival and then
of its departure. -/
inductive Course (obs : Observers χ) (log : χ → List Sighting) (w : World χ) (src : ContainerRef)
    (id : Uuid) (dst : ContainerRef) : Except ContainerError Bool → World χ → Prop
  | stays {answer : Except ContainerError Bool} {w' : World χ} (unheard : Unheard answer)
      (held : ∀ c, w'.registry.held c = w.registry.held c) (silent : w'.client = w.client) :
      Course obs log w src id dst answer w'
  | moves {e : EntityRef} {arrival : Arrival} {s : Registry} {arrivals departures : List Sighting}
      {w' : World χ} (ready : Ready w.registry src id dst e)
      (found : ¬ obs.Voiceless w.registry src ∧ ¬ obs.Voiceless w.registry dst)
      (received : (offered w.registry src dst e).receive dst (w.registry.delegateOf dst) e =
        some (arrival, s))
      (greeted : Greeted s ⟨.received, w.registry.delegateOf dst, e, none⟩
        (w.registry.audience dst) arrival arrivals)
      (dismissed : Witnessed Undisturbed (s.setHeld src ((s.held src).erase id))
        ⟨.transferred, w.registry.delegateOf src, e, some dst⟩ (w.registry.audience src) departures)
      (logged : log w'.client = log w.client ++ (arrivals ++ departures))
      (kept : Undisturbed (s.setHeld src ((s.held src).erase id)) w'.registry) :
      Course obs log w src id dst ((firstRefusal (arrivals ++ departures)).map fun _ => true) w'

include hobs hlog

/-- An entity that has come in leaves its source, whatever was answered to its arrival. -/
theorem course_depart {w v : World χ} {src dst : ContainerRef} {id : Uuid} {e : EntityRef}
    {arrival : Arrival} {s : Registry} {arrivals : List Sighting}
    (ready : Ready w.registry src id dst e)
    (found : ¬ obs.Voiceless w.registry src ∧ ¬ obs.Voiceless w.registry dst)
    (received : (offered w.registry src dst e).receive dst (w.registry.delegateOf dst) e =
      some (arrival, s))
    (greeted : Greeted s ⟨.received, w.registry.delegateOf dst, e, none⟩ (s.audience dst) arrival
      arrivals)
    (logged : log v.client = log w.client ++ arrivals) (kept : Undisturbed s v.registry) :
    Course obs log w src id dst
      (depart obs holds src dst (w.registry.delegateOf src) id e (firstRefusal arrivals) v).1
      (depart obs holds src dst (w.registry.delegateOf src) id e (firstRefusal arrivals) v).2 := by
  obtain ⟨departures, hdismissed, hlogged, hanswer, hkept⟩ := witnessed_depart hobs hlog holds src
    dst (w.registry.delegateOf src) id e (firstRefusal arrivals) v
  have haudience : ∀ c, s.audience c = w.registry.audience c := by
    intro c
    rw [← delegateOf_offered e] at received
    have hmoved := moved_of_receive id ready.ne received
    rw [← audience_setHeld s src, hmoved.audience, audience_offered]
  have hleft := kept.leave src id
  rw [hanswer, ← firstRefusal_append]
  refine .moves ready found received (haudience dst ▸ greeted) ?_ ?_ (hleft.trans hkept)
  · rw [kept.audience, haudience] at hdismissed
    exact ⟨hdismissed.delivery, fun sighting hmem => hleft.trans (hdismissed.seen sighting hmem)⟩
  · rw [hlogged, logged, List.append_assoc]

theorem course_transfer (src : ContainerRef) (id : Uuid) (dst : ContainerRef) (w : World χ) :
    Course obs log w src id dst (transfer obs holds src id dst w).1
      (transfer obs holds src id dst w).2 := by
  have htransit := transit_transfer holds obs src id dst w
  generalize transfer obs holds src id dst w = outcome at htransit
  cases htransit with
  | sameContainer => exact .stays ⟨nofun, nofun⟩ (fun _ => rfl) rfl
  | closed => exact .stays ⟨nofun, nofun⟩ (fun _ => rfl) rfl
  | absent => exact .stays ⟨nofun, nofun⟩ (fun _ => rfl) rfl
  | self => exact .stays ⟨nofun, nofun⟩ (fun _ => rfl) rfl
  | dropped => exact .stays ⟨nofun, nofun⟩ (fun _ => rfl) rfl
  | @handed e ready found =>
    have hvoice := not_voiceless_of_delegate found
    have hgreeting := greeting_receive hobs hlog (holds.handing w.registry src dst e) dst e
      { w with registry := offered w.registry src dst e }
    generalize World.receive obs (holds.handing w.registry src dst e) dst e _ = outcome
      at hgreeting
    obtain ⟨answer, v⟩ := outcome
    change Greeting obs log { w with registry := offered w.registry src dst e } dst e answer v
      at hgreeting
    have hheld : ∀ c, (offered w.registry src dst e).held c = w.registry.held c := held_offered e
    unfold settle
    cases hgreeting with
    | refused unheard =>
      split <;> rename_i heq
      · exact absurd (congrArg Prod.fst heq) unheard.not_ok
      · exact absurd (congrArg Prod.fst heq) (unheard.not_listener _)
      · cases heq
        refine .stays ?_ hheld rfl
        cases looksLocal w.registry src dst <;> exact ⟨nofun, nofun⟩
      · cases heq
        refine .stays ?_ hheld rfl
        cases looksLocal w.registry src dst with
        | true => exact unheard
        | false => exact ⟨nofun, nofun⟩
    | @entered arrival s arrivals _ found received greeted logged kept =>
      rw [delegateOf_offered] at received greeted
      have hfound : ¬ obs.Voiceless w.registry dst := fun hgone => found <| by
        rw [Observers.Voiceless, delegateOf_offered]
        exact hgone
      have hcourse := course_depart hobs hlog (holds.handing w.registry src dst e) ready
        ⟨hvoice, hfound⟩ received greeted logged kept
      cases hfirst : firstRefusal arrivals with
      | ok =>
        rw [hfirst] at hcourse
        exact hcourse
      | error failure =>
        obtain ⟨-, -, -, cause, -, -, -, rfl⟩ := firstFailure_eq_error_iff.1 hfirst
        rw [hfirst] at hcourse
        exact hcourse

end Hearing

/-! ## In a consistent forest -/

namespace Registry

/-- The entity has come to its destination: it lives there, and the factory of the destination knows
it and everything in its subtree. -/
structure Landed (r : Registry) (id : Uuid) (dst : ContainerRef) (e : EntityRef) (s : Registry) :
    Prop where
  alive : s.lifecycle e = .alive
  held : s.Held dst id e
  recorded : (s.owners (r.bound dst)).find? id = some (r.containerId dst)
  held_within : ∀ {c j x}, r.Within c (.ofEntity e) → r.Held c j x → s.Held c j x
  bound_within : ∀ {c}, r.Within c (.ofEntity e) → s.bound c = r.bound dst
  recorded_within : ∀ {c j x}, r.Within c (.ofEntity e) → r.Held c j x →
    (s.owners (r.bound dst)).find? j = some (r.containerId c)

variable {r s : Registry} {src dst : ContainerRef} {id : Uuid} {e : EntityRef}

theorem Carried.bound_dst (h : r.Carried id dst e s) : s.bound dst = r.bound dst := by
  by_cases hw : r.Within dst (.ofEntity e)
  · exact h.bound_within dst hw
  · exact h.bound_other dst hw

theorem Carried.landed (h : r.Carried id dst e s) (hr : r.Sound) : r.Landed id dst e s := by
  have hheld : s.Held dst id e := (h.held _ _ _).2 (.inl ⟨rfl, rfl, rfl⟩)
  have hwithin : ∀ {c j x}, r.Within c (.ofEntity e) → r.Held c j x → s.Held c j x :=
    fun hw hx => (h.held _ _ _).2 (.inr ⟨hx, hr.ne_of_held_within hw hx⟩)
  refine ⟨h.consistent.alive hheld, hheld, ?_, hwithin, fun hw => h.bound_within _ hw,
    fun hw hx => ?_⟩
  · have hrec := h.consistent.recorded hheld
    rwa [h.bound_dst, h.names.containerId] at hrec
  · have hrec := h.consistent.recorded (hwithin hw hx)
    rwa [h.bound_within _ hw, h.names.containerId] at hrec

/-- Nothing is missing while the source has not yet let go of the entity. -/
theorem Landed.of_leave (h : r.Landed id dst e (s.setHeld src ((s.held src).erase id))) :
    r.Landed id dst e s := by
  have hheld : ∀ {c j x}, (s.setHeld src ((s.held src).erase id)).Held c j x → s.Held c j x := by
    intro c j x hx
    rw [Held, held_setHeld] at hx
    split at hx
    · rename_i hc
      rw [Table.find?_erase] at hx
      split at hx
      · cases hx
      · rwa [Held, hc]
    · exact hx
  refine ⟨?_, hheld h.held, ?_, fun hw hx => hheld (h.held_within hw hx), fun hw => ?_,
    fun hw hx => ?_⟩
  · rw [← s.lifecycle_setHeld src]
    exact h.alive
  · rw [← s.owners_setHeld src]
    exact h.recorded
  · rw [← s.bound_setHeld src]
    exact h.bound_within hw
  · rw [← s.owners_setHeld src]
    exact h.recorded_within hw hx

theorem Landed.of_sameForest {t : Registry} (h : r.Landed id dst e s) (k : SameForest s t) :
    r.Landed id dst e t where
  alive := (k.lifecycle e).trans h.alive
  held := (held_congr k.held).2 h.held
  recorded := by
    rw [k.owners]
    exact h.recorded
  held_within hw hx := (held_congr k.held).2 (h.held_within hw hx)
  bound_within hw := (k.bound _).trans (h.bound_within hw)
  recorded_within hw hx := by
    rw [k.owners]
    exact h.recorded_within hw hx

theorem Carried.left (h : r.Carried id dst e s) (he : r.Held src id e) (hne : src ≠ dst) :
    id ∉ s.held src := by
  intro hmem
  obtain ⟨x, hx⟩ := mem_held_iff.1 hmem
  rcases (h.held _ _ _).1 hx with ⟨hsrc, -, -⟩ | ⟨hx, hother⟩
  · exact hne hsrc
  · exact hother (Option.some.inj (hx.symm.trans he))

/-- Between roots an entity is imported, and below one root it is not. -/
theorem Consistent.arrival_eq_taken_iff (h : r.Consistent) (ready : Ready r src id dst e)
    (hsrc : r.delegateOf src = src) (hdst : r.Addressable dst) {arrival : Arrival}
    (received : (offered r src dst e).receive dst (r.delegateOf dst) e = some (arrival, s)) :
    arrival = .taken ↔ r.SameRoot src dst := by
  have halive := h.alive ready.found
  rw [← h.looksLocal_iff ready.found hsrc hdst]
  obtain ⟨-, -, t, -, hway⟩ := receive_eq_some received
  cases hlocal : looksLocal r src dst with
  | true =>
    cases arrival with
    | taken => exact ⟨fun _ => rfl, fun _ => rfl⟩
    | imported =>
      rw [offered_of_local e hlocal] at hway
      have hexported := (adopted_of_adopt hway.2).may.exported
      rw [halive] at hexported
      cases hexported
  | false =>
    cases arrival with
    | imported => exact ⟨nofun, nofun⟩
    | taken =>
      have hmay := (fst_relocate).symm.trans (congrArg Prod.fst hway)
      obtain ⟨_, -, hstill, -⟩ := mayRelocate_iff.1 hmay
      rw [(released_offered e hlocal).lifecycle_of_alive halive] at hstill
      cases hstill

end Registry

/-- What is heard of an entity that moves. The destination announces only what comes from another
root, when all is in place there. The source announces every departure, after the entity has left
it and whatever was answered before. The first failure is the answer. -/
structure MoveReport (w : World (χ × List Sighting)) (src : ContainerRef) (id : Uuid)
    (dst : ContainerRef) (e : EntityRef) (arrivals departures : List Sighting)
    (answer : Except ContainerError Bool) (w' : World (χ × List Sighting)) : Prop where
  near : w.registry.SameRoot src dst → arrivals = []
  far : ¬ w.registry.SameRoot src dst →
    Delivery ⟨.received, dst, e, none⟩ (w.registry.audience dst) (arrivals.map Sighting.toNotice)
  landed : ∀ sighting ∈ arrivals, w.registry.Landed id dst e sighting.seen
  told : Delivery ⟨.transferred, src, e, some dst⟩ (w.registry.audience src)
    (departures.map Sighting.toNotice)
  carried : ∀ sighting ∈ departures,
    w.registry.Carried id dst e sighting.seen ∧ id ∉ sighting.seen.held src
  logged : w'.client.2 = w.client.2 ++ (arrivals ++ departures)
  answer : answer = (firstRefusal (arrivals ++ departures)).map fun _ => true
  moved : w.registry.Carried id dst e w'.registry

/-- An entity stays where it is and nobody hears of it, or it moves and both ends hear of it. -/
inductive Reported (w : World (χ × List Sighting)) (src : ContainerRef) (id : Uuid)
    (dst : ContainerRef) : Except ContainerError Bool → World (χ × List Sighting) → Prop
  | stays {answer : Except ContainerError Bool} {w' : World (χ × List Sighting)}
      (unheard : Unheard answer) (held : ∀ c, w'.registry.held c = w.registry.held c)
      (silent : w'.client = w.client) : Reported w src id dst answer w'
  | moves {e : EntityRef} {arrivals departures : List Sighting}
      {answer : Except ContainerError Bool} {w' : World (χ × List Sighting)}
      (found : w.registry.Held src id e)
      (report : MoveReport w src id dst e arrivals departures answer w') :
      Reported w src id dst answer w'

theorem Observers.Voiceless.witnessed {r : Registry} {c : ContainerRef} (h : obs.Voiceless r c) :
    obs.witnessed.Voiceless r c :=
  ⟨h.1, fun holds w => h.2 holds w.core⟩

/-- In a consistent forest, with listeners that may fail but do not call back, a transfer is heard
of exactly as its report says. -/
theorem reported_transfer (hobs : obs.Confined Undisturbed) (holds : Holds)
    {w : World (χ × List Sighting)} (h : w.registry.Consistent) {src dst : ContainerRef}
    (hsrc : w.registry.delegateOf src = src ∨ obs.Voiceless w.registry src)
    (hdst : w.registry.delegateOf dst = dst ∨ obs.Voiceless w.registry dst)
    (present : w.registry.Exists dst)
    (alone : ∀ c, w.registry.InUse c → w.registry.containerId c = w.registry.containerId dst →
      c = dst) (id : Uuid) :
    Reported w src id dst (w.transfer obs.witnessed holds src id dst).1
      (w.transfer obs.witnessed holds src id dst).2 := by
  have hcourse := course_transfer hobs.witnessed obs.witnessed_watches holds src id dst w
  generalize w.transfer obs.witnessed holds src id dst = outcome at hcourse
  obtain ⟨answer, w'⟩ := outcome
  change Course obs.witnessed Prod.snd w src id dst answer w' at hcourse
  cases hcourse with
  | stays unheard held silent => exact .stays unheard held silent
  | @moves e arrival s arrivals departures _ ready found received greeted dismissed logged kept =>
    have hself : w.registry.delegateOf src = src :=
      hsrc.resolve_right fun hgone => found.1 hgone.witnessed
    have hdst : w.registry.Addressable dst :=
      ⟨hdst.resolve_right fun hgone => found.2 hgone.witnessed, present, fun hc => alone _ hc⟩
    have hcarried := h.carried ready.found hdst ready hself (passage_of_receive ready received)
    have hlanded := (hcarried.landed h.sound).of_leave
    have harrival := h.arrival_eq_taken_iff ready hself hdst received
    rw [hself] at dismissed
    rw [hdst.self_named] at greeted
    refine .moves ready.found {
      near := fun hroot => ?_
      far := fun hroot => ?_
      landed := fun sighting hmem => ?_
      told := dismissed.delivery
      carried := fun sighting hmem => ?_
      logged := logged
      answer := rfl
      moved := hcarried.of_sameForest kept.toSameForest }
    · obtain rfl := harrival.2 hroot
      cases greeted
      rfl
    · cases greeted with
      | taken => exact absurd (harrival.1 rfl) hroot
      | imported told => exact told.delivery
    · cases greeted with
      | taken => cases hmem
      | imported told => exact hlanded.of_sameForest (told.seen sighting hmem).toSameForest
    · have hseen := hcarried.of_sameForest (dismissed.seen sighting hmem).toSameForest
      exact ⟨hseen, hseen.left ready.found ready.ne⟩

end

open scoped PlainType

/-! ## A move that both ends hear of -/

/-- The two trees with two listeners at each root. -/
def attended : World (Unit × List Sighting) where
  registry := ((trail twoTrees).2.registry.setListeners (.standalone 0) ⟨[⟨0⟩, ⟨1⟩]⟩).setListeners
    (.standalone 1) ⟨[⟨2⟩, ⟨0⟩]⟩
  client := ((), [])

theorem coherent_attended : attended.registry.Coherent := by
  have hfirst := (sameForest_setListeners (c := .standalone 0) _ (by decide +kernel)
    ⟨[⟨0⟩, ⟨1⟩]⟩).coherent coherent_twoTrees
  exact (sameForest_setListeners (c := .standalone 1) _ (by decide +kernel)
    ⟨[⟨2⟩, ⟨0⟩]⟩).coherent hfirst

/-- The entity 1 moves to the other tree with the entity 2. -/
def moving : Except ContainerError Bool × World (Unit × List Sighting) :=
  attended.transfer Observers.picky.witnessed .nothing (.standalone 0) (.ofNat 1) (.standalone 1)

/-- The first listener of the destination fails, so the second one is not called; the listeners of
the source hear of the departure all the same. -/
theorem reported_transfer_attended :
    Reported attended (.standalone 0) (.ofNat 1) (.standalone 1) moving.1 moving.2 ∧
      moving.1 = .error (.listener ⟨"no", none⟩) ∧
      (moving.2.client.2.map fun sighting => (sighting.listener, sighting.event.kind)) =
        [(⟨2⟩, .received), (⟨0⟩, .transferred), (⟨1⟩, .transferred)] := by
  refine ⟨?_, by decide +kernel, by decide +kernel⟩
  have hdst : attended.registry.Usable (.standalone 1) :=
    ⟨by decide +kernel, by decide +kernel⟩
  have haddressable := hdst.addressable coherent_attended
  exact reported_transfer Observers.picky_steady.undisturbed .nothing coherent_attended.toConsistent
    (.inl (by decide +kernel)) (.inl hdst.self_named) haddressable.present
    (fun _ hc hid => haddressable.alone hc hid) (.ofNat 1)

end EntityForest
