import EntityForest.Attribute.Plain
import EntityForest.Proofs.Footprints
import EntityForest.Proofs.OwnerForest
import EntityForest.Proofs.Transfers
import EntityForest.Proofs.Violations

/-! # Factories that are consulted under a lock

A container is locked while it lets an entity in or hands one over, and meanwhile it consults its
factory. A factory that enters the container then waits for its own caller. This happens where a
container that lies within an exported entity is to receive this entity: the factory looks through
the subtree before it looks whether the target is there. -/

namespace EntityForest

open Relation (ReflTransGen TransGen)
open Registry World

section

variable [ValueTypes]

/-- A call to a factory in the course of an operation: the registry it is made in, and what
operations in progress hold by then. -/
structure Consultation where
  registry : Registry
  holds : Holds
  call : FactoryCall

/-- The call enters a container that is locked, and does not return. -/
def Consultation.Reenters (k : Consultation) : Prop :=
  ∃ c ∈ k.holds.locks, k.call.Enters k.registry c

/-- The call leaves the locked containers as they are, and whatever is inside of them, it has the
same answer and the same effect elsewhere. -/
structure Consultation.Apart (k : Consultation) : Prop where
  untouched : ∀ c ∈ k.holds.locks, k.registry.Exists c →
    (k.call.perform k.registry).container c = k.registry.container c
  unread : ∀ s, AlikeBut (· ∈ k.holds.locks) k.registry s →
    k.call.answer s = k.call.answer k.registry ∧
      AlikeBut (· ∈ k.holds.locks) (k.call.perform k.registry) (k.call.perform s)

theorem Consultation.apart_of_not_reenters {k : Consultation} (h : ¬ k.Reenters) : k.Apart := by
  have hout : ∀ c ∈ k.holds.locks, ¬ k.call.Enters k.registry c :=
    fun c hc hentered => h ⟨c, hc, hentered⟩
  exact ⟨fun c hc hexists => FactoryCall.container_perform hexists (hout c hc),
    fun s hs => FactoryCall.alike_perform hs hout⟩

/-- The calls that a container makes for an entity that is to enter: may it move there inside the
tree, and if not, is it adopted. -/
def Registry.admissions (r : Registry) (holds : Holds) (c delegate : ContainerRef)
    (e : EntityRef) : List Consultation :=
  let x := r.container c
  let id := (r.entity e).id
  if x.closed ∨ id ∈ x.entities then []
  else
    ⟨r, holds, .relocate x.factory e delegate⟩ ::
      if r.mayRelocate x.factory e delegate then []
      else [⟨r, holds, .adopt x.factory e delegate⟩]

namespace World

variable {χ : Type} (obs : Observers χ) (holds : Holds)

/-- The calls to factories that `receive` makes. -/
def receiveCalls (c : ContainerRef) (e : EntityRef) (w : World χ) : List Consultation :=
  let r := w.registry
  let x := r.container c
  let id := (r.entity e).id
  if id = x.id then []
  else
    let holds := holds.keepEntities [e]
    match delegate obs holds c w with
    | .error _ => []
    | .ok delegate => r.admissions (holds.lock c) c delegate e

/-- The calls to factories that `transfer` makes, those of the destination included. -/
def transferCalls (source : ContainerRef) (id : Uuid) (destination : ContainerRef) (w : World χ) :
    List Consultation :=
  let r := w.registry
  let x := r.container source
  let y := r.container destination
  if y.id = x.id then []
  else if y.closed then []
  else
    match x.entities.find? id with
    | none => []
    | some e =>
      if (r.entity e).id = y.id then []
      else
        let holds := (((holds.gate source).gate destination).lock source).keepEntities [e]
        match delegate obs holds source w with
        | .error _ => []
        | .ok delegate =>
          let holds := holds.keep [delegate]
          let leaves := !r.sameTree x.factory delegate destination
          let w := if leaves then { w with registry := r.release x.factory e } else w
          let arrival := receiveCalls obs holds destination e w
          ⟨r, holds, .sameTree x.factory delegate destination⟩ ::
            if leaves then ⟨r, holds, .release x.factory e⟩ :: arrival else arrival

end World

/-! ## The calls are those of the operations -/

/-- The calls are made one after the other, from the first registry on. Apart from them no factory
has a part in how the second registry comes about. -/
inductive Consulted : Registry → List Consultation → Registry → Prop
  | done {r s : Registry} (step : r.Aside s) : Consulted r [] s
  | call {k : Consultation} {ks : List Consultation} {s : Registry}
      (rest : Consulted (k.call.perform k.registry) ks s) : Consulted k.registry (k :: ks) s

theorem Registry.Aside.refl (r : Registry) : r.Aside r := (SameForest.refl r).aside

theorem Consulted.trans_aside {r s t : Registry} {ks : List Consultation} (h : Consulted r ks s)
    (step : s.Aside t) : Consulted r ks t := by
  induction h with
  | done first => exact .done (first.trans step)
  | call _ ih => exact .call (ih step)

section Admissions

variable {r s : Registry} {c delegate : ContainerRef} {e : EntityRef} {holds : Holds}

theorem admissions_of_blocked (h : r.isClosed c = true ∨ r.idOf e ∈ r.held c) :
    r.admissions holds c delegate e = [] := if_pos h

theorem admissions_of_free (isOpen : r.isClosed c = false) (absent : r.idOf e ∉ r.held c) :
    r.admissions holds c delegate e = ⟨r, holds, .relocate (r.bound c) e delegate⟩ ::
      if r.mayRelocate (r.bound c) e delegate then []
      else [⟨r, holds, .adopt (r.bound c) e delegate⟩] :=
  if_neg (not_or.2 ⟨Bool.eq_false_iff.1 isOpen, absent⟩)

theorem relocate_of_stays {f : FactoryRef} (stays : r.mayRelocate f e delegate = false) :
    r.relocate f e delegate = (false, r) := by
  rw [relocate, stays]
  rfl

/-- Where an entity is refused, no call has changed anything. -/
theorem consulted_of_none (h : r.receive c delegate e = none) :
    Consulted r (r.admissions holds c delegate e) r := by
  by_cases hblocked : r.isClosed c = true ∨ r.idOf e ∈ r.held c
  · rw [admissions_of_blocked hblocked]
    exact .done (.refl r)
  rw [not_or, Bool.not_eq_true] at hblocked
  obtain ⟨isOpen, absent⟩ := hblocked
  rcases receive_eq_none h with hclosed | hpresent | ⟨stays, hrefused⟩
  · rw [isOpen] at hclosed
    cases hclosed
  · exact absurd hpresent absent
  · have hadopt : (r.adopt (r.bound c) e delegate).2 = r := by
      rw [adopt, if_neg fun hmay => hrefused (mayAdopt_iff.1 hmay)]
    rw [admissions_of_free isOpen absent, stays]
    refine .call (k := ⟨r, holds, .relocate (r.bound c) e delegate⟩) ?_
    rw [FactoryCall.perform, relocate_of_stays stays]
    refine .call (k := ⟨r, holds, .adopt (r.bound c) e delegate⟩) ?_
    rw [FactoryCall.perform, hadopt]
    exact .done (.refl r)

theorem consulted_of_some (he : r.Exists (.ofEntity e)) {arrival : Arrival}
    (h : r.receive c delegate e = some (arrival, s)) :
    Consulted r (r.admissions holds c delegate e) s := by
  obtain ⟨isOpen, absent, t, rfl, harrival⟩ := receive_eq_some h
  have hentered (call : FactoryCall) (valid : call.Valid r) (ht : call.perform r = t) :
      Consulted (call.perform r) [] (t.setHeld c ((t.held c).insert (r.idOf e) e)) := by
    have he' := (call.outcome_perform r).exists_mono valid he
    rw [ht] at he' ⊢
    exact .done (aside_enter he' c _)
  rw [admissions_of_free isOpen absent]
  cases arrival with
  | taken =>
    have hmay : r.mayRelocate (r.bound c) e delegate = true := by
      rw [← fst_relocate, harrival]
    rw [hmay]
    exact .call (k := ⟨r, holds, .relocate (r.bound c) e delegate⟩)
      (hentered _ he (congrArg Prod.snd harrival))
  | imported =>
    obtain ⟨stays, hadopt⟩ := harrival
    rw [stays]
    refine .call (k := ⟨r, holds, .relocate (r.bound c) e delegate⟩) ?_
    rw [FactoryCall.perform, relocate_of_stays stays]
    exact .call (k := ⟨r, holds, .adopt (r.bound c) e delegate⟩)
      (hentered _ he (congrArg Prod.snd hadopt))

end Admissions

namespace World

variable {χ : Type} {obs : Observers χ} (holds : Holds)

theorem receiveCalls_of_self {c : ContainerRef} {e : EntityRef} {w : World χ}
    (h : w.registry.idOf e = w.registry.containerId c) : receiveCalls obs holds c e w = [] :=
  if_pos h

theorem receiveCalls_of_other {c : ContainerRef} {e : EntityRef} {w : World χ}
    (other : w.registry.idOf e ≠ w.registry.containerId c) :
    receiveCalls obs holds c e w = match delegate obs (holds.keepEntities [e]) c w with
      | .error _ => []
      | .ok delegate =>
        w.registry.admissions ((holds.keepEntities [e]).lock c) c delegate e :=
  if_neg other

theorem consulted_receive (hobs : obs.Passive) (c : ContainerRef) {e : EntityRef} (w : World χ)
    (he : w.registry.Exists (.ofEntity e)) :
    Consulted w.registry (receiveCalls obs holds c e w) (receive obs holds c e w).2.registry := by
  unfold receiveCalls receive
  simp only
  by_cases hself : (w.registry.entity e).id = (w.registry.container c).id
  · rw [if_pos hself, if_pos hself]
    exact .done (.refl _)
  rw [if_neg hself, if_neg hself]
  cases delegate obs (holds.keepEntities [e]) c w with
  | error => exact .done (.refl _)
  | ok d =>
    simp only
    cases hreceive : w.registry.receive c d e with
    | none => exact consulted_of_none hreceive
    | some entered =>
      obtain ⟨arrival, s⟩ := entered
      have hconsulted : Consulted w.registry
          (w.registry.admissions ((holds.keepEntities [e]).lock c) c d e) s :=
        consulted_of_some he hreceive
      cases arrival with
      | taken => exact hconsulted
      | imported =>
        have hsame := sameForest_announce ((holds.keepEntities [e]).lock c) hobs c
          ⟨.received, d, e, none⟩ { w with registry := s }
        simp only
        split
        all_goals
          rename_i heq
          rw [heq] at hsame
          exact hconsulted.trans_aside hsame.aside

section Transfer

variable {src dst : ContainerRef} {id : Uuid} {w : World χ}

theorem transferCalls_of_found {e : EntityRef} (ready : Ready w.registry src id dst e)
    (found : delegate obs (holds.moving src dst e) src w = .ok (w.registry.delegateOf src)) :
    transferCalls obs holds src id dst w =
      ⟨w.registry, holds.handing w.registry src dst e,
          .sameTree (w.registry.bound src) (w.registry.delegateOf src) dst⟩ ::
        if looksLocal w.registry src dst then
          receiveCalls obs (holds.handing w.registry src dst e) dst e w
        else
          ⟨w.registry, holds.handing w.registry src dst e, .release (w.registry.bound src) e⟩ ::
            receiveCalls obs (holds.handing w.registry src dst e) dst e
              { w with registry := offered w.registry src dst e } := by
  have hapart : ¬ (w.registry.container dst).id = (w.registry.container src).id := ready.apart
  have hopen : ¬ (w.registry.container dst).closed = true := Bool.eq_false_iff.1 ready.isOpen
  have hfound : (w.registry.container src).entities.find? id = some e := ready.found
  have hother : ¬ (w.registry.entity e).id = (w.registry.container dst).id := ready.other
  have hmoving : (((holds.gate src).gate dst).lock src).keepEntities [e] = holds.moving src dst e :=
    rfl
  have hlooks : w.registry.sameTree (w.registry.container src).factory (w.registry.delegateOf src)
      dst = looksLocal w.registry src dst := rfl
  unfold transferCalls
  simp only
  rw [if_neg hapart, if_neg hopen, hfound]
  simp only
  rw [if_neg hother, hmoving, found]
  simp only
  rw [hlooks]
  cases hlocal : looksLocal w.registry src dst with
  | true => rfl
  | false =>
    rw [offered_of_leaves e hlocal]
    rfl

/-- At a check that a transfer does not pass no factory is asked. -/
theorem transferCalls_eq_nil (h : ∀ e, Ready w.registry src id dst e →
      delegate obs (holds.moving src dst e) src w ≠ .ok (w.registry.delegateOf src)) :
    transferCalls obs holds src id dst w = [] := by
  unfold transferCalls
  simp only
  split
  · rfl
  rename_i hapart
  split
  · rfl
  rename_i hopen
  split
  · rfl
  rename_i e hfound
  split
  · rfl
  rename_i hother
  have hgone := h e ⟨hapart, Bool.eq_false_iff.2 hopen, hfound, hother⟩
  rcases delegate_eq (holds.moving src dst e) obs src w with hdelegate | ⟨-, hdelegate⟩
  · exact absurd hdelegate hgone
  · rw [Holds.moving] at hdelegate
    rw [hdelegate]

theorem consulted_transfer (hobs : obs.Passive) (src : ContainerRef) (id : Uuid)
    (dst : ContainerRef) (w : World χ)
    (he : ∀ e, w.registry.Held src id e → w.registry.Exists (.ofEntity e)) :
    Consulted w.registry (transferCalls obs holds src id dst w)
      (transfer obs holds src id dst w).2.registry := by
  by_cases hfound : ∃ e, Ready w.registry src id dst e ∧
      delegate obs (holds.moving src dst e) src w = .ok (w.registry.delegateOf src)
  swap
  · rw [transferCalls_eq_nil holds fun e ready found => hfound ⟨e, ready, found⟩]
    have htransit := transit_transfer holds obs src id dst w
    generalize transfer obs holds src id dst w = outcome at htransit
    cases htransit with
    | handed ready found => exact absurd ⟨_, ready, found⟩ hfound
    | _ => exact .done (.refl _)
  obtain ⟨e, ready, found⟩ := hfound
  have hexists := he e ready.found
  set handing := holds.handing w.registry src dst e with hhanding
  -- what the source does in the end concerns no factory
  have hlast (leaves : Bool) (x : Except ContainerError Bool × World χ) :
      x.2.registry.Aside (settle handing obs src dst (w.registry.delegateOf src) id e leaves
        x).2.registry :=
    settle_induct (P := fun v => x.2.registry.Aside v.registry) _ (.refl _) fun arrival =>
      (aside_leave x.2.registry src id).trans (sameForest_depart _ hobs ..).aside
  rw [transfer_of_found holds ready found, transferCalls_of_found holds ready found, ← hhanding]
  refine .call (k := ⟨w.registry, handing,
    .sameTree (w.registry.bound src) (w.registry.delegateOf src) dst⟩) ?_
  rw [FactoryCall.perform]
  cases hlocal : looksLocal w.registry src dst with
  | true =>
    rw [offered_of_local e hlocal]
    exact (consulted_receive handing hobs dst w hexists).trans_aside (hlast _ _)
  | false =>
    rw [offered_of_leaves e hlocal]
    have hreleased := released_release w.registry (w.registry.bound src) e
    refine .call (k := ⟨w.registry, handing, .release (w.registry.bound src) e⟩) ?_
    exact (consulted_receive handing hobs dst
      { w with registry := w.registry.release (w.registry.bound src) e }
      ((hreleased.exists_iff hexists _).2 hexists)).trans_aside (hlast _ _)

end Transfer

end World

/-! ## Which calls come back -/

namespace Consultation

variable {r : Registry} {holds : Holds} {f : FactoryRef} {e : EntityRef} {c d : ContainerRef}

theorem not_reenters_sameTree : ¬ Reenters ⟨r, holds, .sameTree f c d⟩ :=
  fun ⟨_, _, hentered⟩ => hentered

theorem not_reenters_relocate : ¬ Reenters ⟨r, holds, .relocate f e c⟩ :=
  fun ⟨_, _, hentered⟩ => hentered

theorem reenters_release_iff :
    Reenters ⟨r, holds, .release f e⟩ ↔ ∃ c ∈ holds.locks, r.Within c (.ofEntity e) := by
  simp only [Reenters, FactoryCall.Enters, opens_iff]

theorem reenters_adopt_iff : Reenters ⟨r, holds, .adopt f e d⟩ ↔
    r.lifecycle e = .exported ∧ ∃ c ∈ holds.locks, r.Within c (.ofEntity e) := by
  simp only [Reenters, FactoryCall.Enters, opens_iff]
  constructor
  · rintro ⟨c, hc, hexported, hw⟩
    exact ⟨hexported, c, hc, hw⟩
  · rintro ⟨hexported, c, hc, hw⟩
    exact ⟨c, hc, hexported, hw⟩

end Consultation

open Consultation

namespace Registry

/-- A container is about to ask for the adoption of an exported entity, and one of the locked
containers lies within this entity. -/
structure Snares (r : Registry) (locks : List ContainerRef) (c : ContainerRef) (e : EntityRef) :
    Prop where
  other : r.idOf e ≠ r.containerId c
  isOpen : r.isClosed c = false
  absent : r.idOf e ∉ r.held c
  exported : r.lifecycle e = .exported
  inside : ∃ d ∈ locks, r.Within d (.ofEntity e)

instance (r : Registry) (c : ContainerRef) (e : EntityRef) : Decidable (r.Within c (.ofEntity e)) :=
  decidable_of_iff _ within_iff_descendant.symm

instance (r : Registry) (locks : List ContainerRef) (c : ContainerRef) (e : EntityRef) :
    Decidable (r.Snares locks c e) :=
  decidable_of_iff
    (r.idOf e ≠ r.containerId c ∧ r.isClosed c = false ∧ r.idOf e ∉ r.held c ∧
      r.lifecycle e = .exported ∧ ∃ d ∈ locks, r.Within d (.ofEntity e))
    ⟨fun ⟨other, isOpen, absent, exported, inside⟩ => ⟨other, isOpen, absent, exported, inside⟩,
      fun h => ⟨h.other, h.isOpen, h.absent, h.exported, h.inside⟩⟩

/-- A transfer is about to release an entity that its source lies within, or one that its
destination snares. -/
structure SnaresMove (r : Registry) (src : ContainerRef) (id : Uuid) (dst : ContainerRef)
    (e : EntityRef) : Prop where
  ready : Ready r src id dst e
  caught : looksLocal r src dst = false ∧ r.Within src (.ofEntity e) ∨
    (offered r src dst e).Snares [dst, src] dst e

instance (r : Registry) (src : ContainerRef) (id : Uuid) (dst : ContainerRef) (e : EntityRef) :
    Decidable (r.SnaresMove src id dst e) :=
  decidable_of_iff
    ((r.containerId dst ≠ r.containerId src ∧ r.isClosed dst = false ∧
        (r.held src).find? id = some e ∧ r.idOf e ≠ r.containerId dst) ∧
      (looksLocal r src dst = false ∧ r.Within src (.ofEntity e) ∨
        (offered r src dst e).Snares [dst, src] dst e))
    ⟨fun ⟨⟨apart, isOpen, found, other⟩, caught⟩ => ⟨⟨apart, isOpen, found, other⟩, caught⟩,
      fun ⟨⟨apart, isOpen, found, other⟩, caught⟩ => ⟨⟨apart, isOpen, found, other⟩, caught⟩⟩

end Registry

theorem reenters_admissions_iff {r : Registry} {holds : Holds} {c delegate : ContainerRef}
    {e : EntityRef} : (∃ k ∈ r.admissions holds c delegate e, k.Reenters) ↔
      r.isClosed c = false ∧ r.idOf e ∉ r.held c ∧ r.lifecycle e = .exported ∧
        ∃ d ∈ holds.locks, r.Within d (.ofEntity e) := by
  by_cases hblocked : r.isClosed c = true ∨ r.idOf e ∈ r.held c
  · rw [admissions_of_blocked hblocked]
    refine ⟨fun ⟨_, hk, _⟩ => absurd hk List.not_mem_nil, fun ⟨isOpen, absent, _⟩ => ?_⟩
    rcases hblocked with hclosed | hpresent
    · rw [isOpen] at hclosed
      cases hclosed
    · exact absurd hpresent absent
  rw [not_or, Bool.not_eq_true] at hblocked
  obtain ⟨isOpen, absent⟩ := hblocked
  rw [admissions_of_free isOpen absent, List.exists_mem_cons_iff,
    or_iff_right not_reenters_relocate, and_iff_right isOpen, and_iff_right absent]
  cases hmay : r.mayRelocate (r.bound c) e delegate with
  | true =>
    -- what moves inside a tree is alive
    obtain ⟨_, -, halive, -⟩ := mayRelocate_iff.1 hmay
    refine ⟨fun ⟨_, hk, _⟩ => absurd hk List.not_mem_nil, fun ⟨hexported, _⟩ => ?_⟩
    cases halive.symm.trans hexported
  | false =>
    rw [← reenters_adopt_iff (d := delegate) (f := r.bound c)]
    simp only [Bool.false_eq_true, if_false, List.mem_singleton, exists_eq_left]

namespace World

variable {χ : Type} {obs : Observers χ} (holds : Holds) {w : World χ}

/-- A container that names itself has a delegate at all times. -/
theorem delegate_of_self_named {c : ContainerRef} (hself : w.registry.delegateOf c = c) :
    delegate obs holds c w = .ok (w.registry.delegateOf c) :=
  (delegate_eq holds obs c w).resolve_right fun ⟨hne, _⟩ => hne hself

theorem reenters_receive_iff {c : ContainerRef} {e : EntityRef}
    (hself : w.registry.delegateOf c = c) :
    (∃ k ∈ receiveCalls obs holds c e w, k.Reenters) ↔
      w.registry.Snares (c :: holds.locks) c e := by
  by_cases hother : w.registry.idOf e = w.registry.containerId c
  · rw [receiveCalls_of_self holds hother]
    exact ⟨fun ⟨_, hk, _⟩ => absurd hk List.not_mem_nil, fun h => absurd hother h.other⟩
  rw [receiveCalls_of_other holds hother, delegate_of_self_named _ hself]
  simp only
  rw [reenters_admissions_iff]
  constructor
  · rintro ⟨isOpen, absent, exported, inside⟩
    exact ⟨hother, isOpen, absent, exported, inside⟩
  · rintro ⟨-, isOpen, absent, exported, inside⟩
    exact ⟨isOpen, absent, exported, inside⟩

theorem reenters_transfer_iff {src dst : ContainerRef} {id : Uuid}
    (hsrc : w.registry.delegateOf src = src) (hdst : w.registry.delegateOf dst = dst) :
    (∃ k ∈ transferCalls obs .nothing src id dst w, k.Reenters) ↔
      ∃ e, w.registry.SnaresMove src id dst e := by
  by_cases hready : ∃ e, Ready w.registry src id dst e
  swap
  · rw [transferCalls_eq_nil .nothing fun e ready _ => hready ⟨e, ready⟩]
    exact ⟨fun ⟨_, hk, _⟩ => absurd hk List.not_mem_nil, fun ⟨e, h⟩ => absurd ⟨e, h.ready⟩ hready⟩
  obtain ⟨e, ready⟩ := hready
  have hdst' : (offered w.registry src dst e).delegateOf dst = dst :=
    (delegateOf_offered e dst).trans hdst
  have harrival : (∃ k ∈ receiveCalls obs (Holds.nothing.handing w.registry src dst e) dst e
      { w with registry := offered w.registry src dst e }, k.Reenters) ↔
      (offered w.registry src dst e).Snares [dst, src] dst e :=
    reenters_receive_iff (w := { w with registry := offered w.registry src dst e }) _ hdst'
  have hsnares : (∃ x, w.registry.SnaresMove src id dst x) ↔
      looksLocal w.registry src dst = false ∧ w.registry.Within src (.ofEntity e) ∨
        (offered w.registry src dst e).Snares [dst, src] dst e := by
    constructor
    · rintro ⟨x, ready', caught⟩
      obtain rfl := ready.unique ready'.found
      exact caught
    · exact fun caught => ⟨e, ready, caught⟩
  rw [hsnares, ← harrival, transferCalls_of_found _ ready (delegate_of_self_named _ hsrc),
    List.exists_mem_cons_iff, or_iff_right not_reenters_sameTree]
  cases hlocal : looksLocal w.registry src dst with
  | true =>
    rw [offered_of_local e hlocal]
    simp only [if_true, Bool.true_eq_false, false_and, false_or]
  | false =>
    have hrelease : Reenters ⟨w.registry, Holds.nothing.handing w.registry src dst e,
        .release (w.registry.bound src) e⟩ ↔ w.registry.Within src (.ofEntity e) := by
      rw [reenters_release_iff]
      change (∃ c ∈ [src], w.registry.Within c (.ofEntity e)) ↔ _
      simp only [List.mem_singleton, exists_eq_left]
    simp only [Bool.false_eq_true, if_false, List.exists_mem_cons_iff, true_and, hrelease]

end World

/-! ## Runs -/

namespace Registry

/-- Nothing is on its way from one tree to another. -/
def NoneExported (r : Registry) : Prop := ∀ e, r.lifecycle e ≠ .exported

variable {r s : Registry}

theorem noneExported_empty : Registry.empty.NoneExported := by
  intro e hexported
  have hlife : Registry.empty.lifecycle e = (default : Entity).lifecycle :=
    congrArg Entity.lifecycle (Store.get_empty _)
  cases hlife.symm.trans hexported

theorem NoneExported.of_lifecycle (h : r.NoneExported)
    (k : ∀ e, s.lifecycle e = r.lifecycle e ∨ s.lifecycle e ≠ .exported) : s.NoneExported := by
  intro e hexported
  rcases k e with hlife | hlife
  · exact h e (hlife.symm.trans hexported)
  · exact hlife hexported

theorem NoneExported.of_ite (h : r.NoneExported) {e : EntityRef} {l : Lifecycle}
    (k : ∀ x, s.lifecycle x = if x = e then l else r.lifecycle x) (hl : l ≠ .exported) :
    s.NoneExported := by
  refine h.of_lifecycle fun x => ?_
  rw [k]
  split
  · exact .inr hl
  · exact .inl rfl

end Registry

theorem World.culled_noneExported {r s : Registry} (h : Culled r s) (hr : r.NoneExported) :
    s.NoneExported := by
  induction h with
  | refl => exact hr
  | tail _ hstep ih =>
    cases hstep with
    | kill killed => exact ih.of_ite killed.lifecycle (by decide)
    | close e => exact ih.of_lifecycle fun x => .inl (lifecycle_close ..)
    | same same => exact ih.of_lifecycle fun x => .inl (same.lifecycle x)

theorem World.Passage.noneExported {r s : Registry} {src dst : ContainerRef} {id : Uuid}
    {e : EntityRef} (h : Passage r src id dst e s) (hr : r.NoneExported) : s.NoneExported := by
  cases h with
  | taken _ taken => exact hr.of_lifecycle fun x => .inl (taken.lifecycle x)
  | adopted _ imported => exact hr.of_ite imported.lifecycle (by decide)
  | imported _ imported =>
    -- only the entity itself has been exported, and now it is alive
    have released := released_release r (r.bound src) e
    refine hr.of_ite (e := e) (l := .alive) (fun x => ?_) (by decide)
    rw [imported.lifecycle]
    split
    · rfl
    · rename_i hne
      exact released.lifecycle_other x hne

variable {χ : Type} {obs : Observers χ}

/-- Only a violated transfer leaves an entity exported. -/
theorem Call.noneExported_perform (hobs : obs.Passive) {w : World χ} {call : Call}
    (single : call.IsSingle) (hr : w.registry.NoneExported) (hstrands : ¬ call.Strands obs w) :
    (call.perform obs w).2.registry.NoneExported := by
  cases call with
  | transfer src id dst =>
    have hmove := transferring_transfer .nothing hobs src id dst w
    rw [Strands, perform] at hstrands
    simp only [fst_failure?] at hstrands
    rw [perform, snd_failure?]
    generalize World.transfer obs .nothing src id dst w = moved at *
    obtain ⟨answer, w'⟩ := moved
    change Transferring obs w src id dst answer w' at hmove
    cases hmove with
    | stranded => exact absurd ⟨_, rfl⟩ hstrands
    | moved ready received same _ _ =>
      have hmoved := (passage_of_receive ready received).noneExported hr
      exact hmoved.of_lifecycle fun x => .inl (same.lifecycle x)
    | _ => exact hr
  | newFactory config => exact hr
  | newContainer id f => exact hr
  | transferAll => exact single.elim
  | create c id marker seed =>
    have hsingle : (create c id marker seed).IsSingle := trivial
    have heffect := effect_perform hobs hsingle w
    generalize ((create c id marker seed).perform obs w).2.registry = s at heffect ⊢
    cases heffect with
    | refused => exact hr
    | created created => exact hr.of_ite created.lifecycle (by decide)
  | kill c id =>
    rw [perform, snd_failure?]
    exact culled_noneExported (culled_kill .nothing hobs c id w) hr
  | killAll c order =>
    rw [perform, snd_failure?]
    exact culled_noneExported (culled_killListed .nothing hobs c order w) hr

section Run

variable {past : List (World χ × Call)} {w : World χ}

theorem Run.labelled (hobs : obs.Passive) (run : Run obs past w)
    (single : ∀ p ∈ past, p.2.IsSingle) : w.registry.Labelled :=
  run.forall_reached Labelled Call.IsSingle (fun _ _ => False)
    (fun hr valid hsingle _ => (Call.effect_perform hobs hsingle _).labelled hr valid)
    labelled_empty (fun same hr => hr.of_sameForest same) single (fun _ _ => not_false) w
    List.mem_cons_self

theorem Run.noneExported (hobs : obs.Passive) (run : Run obs past w)
    (single : ∀ p ∈ past, p.2.IsSingle) (hstrands : ∀ p ∈ past, ¬ p.2.Strands obs p.1) :
    w.registry.NoneExported :=
  run.forall_reached NoneExported Call.IsSingle (fun w call => call.Strands obs w)
    (fun hr _ hsingle hnone => Call.noneExported_perform hobs hsingle hr hnone)
    noneExported_empty (fun same hr => hr.of_lifecycle fun x => .inl (same.lifecycle x)) single
    hstrands w List.mem_cons_self

end Run

/-- Where the books are complete and no link leads back, a factory finds every container within an
entity in the tree of its holder. -/
theorem Registry.Tidy.looksLocal_of_within {r : Registry} (h : r.Tidy) {src dst : ContainerRef}
    {id : Uuid} {e : EntityRef}
    (noLoop : ∀ x, ¬ TransGen (Owners.Link (r.owners (r.bound src))) x x)
    (he : r.Held src id e) (hw : r.Within dst (.ofEntity e)) : looksLocal r src dst = true := by
  have hin : r.Within dst src := hw.tail (up_of_held he)
  have hup := h.full.reaches_of_within h.sound hin
  rw [h.sound.bound_of_within hin] at hup
  rw [looksLocal, h.formed.self_named src (h.sound.placed _ _ _ he).1, sameTree, decide_eq_true_eq]
  exact (Owners.rootOf_eq_rootOf noLoop hup).symm

/-- So nothing that is alive is snared. -/
theorem Registry.Tidy.not_snaresMove {r : Registry} (h : r.Tidy) {src dst : ContainerRef}
    {id : Uuid} {e : EntityRef}
    (noLoop : ∀ x, ¬ TransGen (Owners.Link (r.owners (r.bound src))) x x) :
    ¬ r.SnaresMove src id dst e := by
  rintro ⟨ready, ⟨-, hw⟩ | snares⟩
  · exact h.sound.acyclic.not_within_of_held ready.found hw
  obtain ⟨d, hd, hw⟩ := snares.inside
  rw [within_congr (held_offered e)] at hw
  have hw : r.Within dst (.ofEntity e) := by
    rcases List.mem_cons.1 hd with rfl | hd
    · exact hw
    · obtain rfl := List.mem_singleton.1 hd
      exact absurd hw (h.sound.acyclic.not_within_of_held ready.found)
  have hexported := snares.exported
  rw [offered_of_local e (h.looksLocal_of_within noLoop ready.found hw)] at hexported
  cases (h.full.alive ready.found).symm.trans hexported

/-- Whichever entity a container is to receive next, and whichever transfer is next, no factory
comes back to a container that is locked. -/
structure World.KeepsOut (obs : Observers χ) (w : World χ) : Prop where
  receive : ∀ c e, w.registry.Exists c → w.registry.Exists (.ofEntity e) →
    ∀ k ∈ receiveCalls obs .nothing c e w, ¬ k.Reenters
  transfer : ∀ src id dst, w.registry.Exists src → w.registry.Exists dst →
    ∀ k ∈ transferCalls obs .nothing src id dst w, ¬ k.Reenters

/-- In every state that a run reaches, a factory that is consulted comes back to a locked container
exactly if an exported entity is to enter a container that lies within it, or if a transfer releases
an entity and then leads to such a case. Neither happens where no transfer has crossed trees or been
violated before and no owner links return. A factory that does not come back has nothing to do with
the locked containers. -/
theorem reenters_iff_snared {past : List (World χ × Call)} {w : World χ} (hobs : obs.Passive)
    (run : Run obs past w) (single : ∀ p ∈ past, p.2.IsSingle) :
    (∀ c e, w.registry.Exists c → w.registry.Exists (.ofEntity e) →
      Consulted w.registry (receiveCalls obs .nothing c e w)
          (receive obs .nothing c e w).2.registry ∧
        ((∃ k ∈ receiveCalls obs .nothing c e w, k.Reenters) ↔ w.registry.Snares [c] c e)) ∧
      (∀ src id dst, w.registry.Exists src → w.registry.Exists dst →
        Consulted w.registry (transferCalls obs .nothing src id dst w)
            (transfer obs .nothing src id dst w).2.registry ∧
          ((∃ k ∈ transferCalls obs .nothing src id dst w, k.Reenters) ↔
            ∃ e, w.registry.SnaresMove src id dst e)) ∧
      ((∀ p ∈ past, ¬ p.2.Crosses obs p.1 ∧ ¬ p.2.Strands obs p.1) →
        (∀ f x, ¬ TransGen (Owners.Link (w.registry.owners f)) x x) → w.KeepsOut obs) ∧
      ∀ k : Consultation, ¬ k.Reenters → k.Apart := by
  have hlabelled := run.labelled hobs single
  have hself := hlabelled.formed.self_named
  refine ⟨fun c e hc he => ?_, fun src id dst hsrc hdst => ?_, fun hstays noLoop => ?_,
    fun k => Consultation.apart_of_not_reenters⟩
  · exact ⟨consulted_receive .nothing hobs c w he, reenters_receive_iff .nothing (hself c hc)⟩
  · refine ⟨consulted_transfer .nothing hobs src id dst w fun e he => ?_,
      reenters_transfer_iff (hself src hsrc) (hself dst hdst)⟩
    exact (hlabelled.placed src id e he).2
  · have hstrands : ∀ p ∈ past, ¬ p.2.Strands obs p.1 := fun p hp => (hstays p hp).2
    have htidy := run.tidy hobs single hstrands (fun p hp => (hstays p hp).1) w List.mem_cons_self
    have hnone := run.noneExported hobs single hstrands
    constructor
    · intro c e hc _ k hk hreenters
      have hsnares := (reenters_receive_iff .nothing (hself c hc)).1 ⟨k, hk, hreenters⟩
      exact hnone e hsnares.exported
    · intro src id dst hsrc hdst k hk hreenters
      obtain ⟨e, hsnares⟩ :=
        (reenters_transfer_iff (hself src hsrc) (hself dst hdst)).1 ⟨k, hk, hreenters⟩
      exact htidy.not_snaresMove (noLoop _) hsnares

end

open scoped PlainType

/-- A transfer between two trees asks four times, and no factory comes back. -/
theorem reenters_iff_snared_twoTrees :
    (transferCalls .quiet .nothing (.standalone 0) (.ofNat 1) (.standalone 1)
        (trail twoTrees).2).length = 4 ∧
      (trail twoTrees).2.KeepsOut .quiet := by
  have hstays : ∀ p ∈ (trail twoTrees).1, (p.2.perform .quiet p.1).1 = none := by decide +kernel
  have hrun : Run .quiet (trail twoTrees).1 (trail twoTrees).2 := run_trail (by decide +kernel)
  refine ⟨by decide +kernel, (reenters_iff_snared Observers.quiet_passive hrun
    (by decide +kernel)).2.2.1 (fun p hp => ⟨?_, ?_⟩) coherent_twoTrees.no_link_cycle⟩
  · revert p
    decide +kernel
  · intro hstrands
    obtain ⟨id, hid⟩ := hstrands
    rw [hstays p hp] at hid
    cases hid

/-! ## Factories that come back -/

/-- The entity 1 of the first tree is refused by the second, and stays in its container with the
entity 2 below it. -/
def marooned : List Call :=
  namesakes ++ [.transfer (.standalone 0) (.ofNat 1) (.standalone 1)]

/-- Below the entity that has the identity of the root there are two more generations. -/
def tangled : List Call :=
  knot ++ [.create (.ofEntity ⟨0⟩) (.ofNat 2) none ∅, .create (.ofEntity ⟨2⟩) (.ofNat 3) none ∅]

/-- After a violated transfer, the factory comes back to the child container of the entity 2 if this
is to receive the entity 1. Where owner links return, a transfer does as well, although nothing has
failed before. -/
theorem not_keepsOut_marooned :
    (Run .quiet (trail marooned).1 (trail marooned).2 ∧ (∀ p ∈ (trail marooned).1, p.2.IsSingle) ∧
      (∃ k ∈ receiveCalls .quiet .nothing (.ofEntity ⟨1⟩) ⟨0⟩ (trail marooned).2, k.Reenters) ∧
      ¬ (trail marooned).2.KeepsOut .quiet) ∧
    (Run .quiet (trail tangled).1 (trail tangled).2 ∧
      (∀ p ∈ (trail tangled).1, p.2.IsSingle ∧ (p.2.perform .quiet p.1).1 = none) ∧
      (∃ k ∈ transferCalls .quiet .nothing (.standalone 0) (.ofNat 1) (.ofEntity ⟨3⟩)
        (trail tangled).2, k.Reenters) ∧
      ¬ (trail tangled).2.KeepsOut .quiet) := by
  have hreceive : ∃ k ∈ receiveCalls .quiet .nothing (.ofEntity ⟨1⟩) ⟨0⟩ (trail marooned).2,
      k.Reenters :=
    (reenters_receive_iff .nothing (by decide +kernel)).2 (by decide +kernel)
  have htransfer : ∃ k ∈ transferCalls .quiet .nothing (.standalone 0) (.ofNat 1) (.ofEntity ⟨3⟩)
      (trail tangled).2, k.Reenters :=
    (reenters_transfer_iff (by decide +kernel) (by decide +kernel)).2 ⟨⟨0⟩, by decide +kernel⟩
  refine ⟨⟨run_trail (by decide +kernel), by decide +kernel, hreceive, fun hkeeps => ?_⟩,
    run_trail (by decide +kernel), by decide +kernel, htransfer, fun hkeeps => ?_⟩
  · obtain ⟨k, hk, hreenters⟩ := hreceive
    exact hkeeps.receive _ _ (by decide +kernel) (by decide +kernel) k hk hreenters
  · obtain ⟨k, hk, hreenters⟩ := htransfer
    exact hkeeps.transfer _ _ _ (by decide +kernel) (by decide +kernel) k hk hreenters

end EntityForest
