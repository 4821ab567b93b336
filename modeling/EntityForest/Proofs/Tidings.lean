import EntityForest.Proofs.BagDeeds
import EntityForest.Proofs.Verdicts

/-! # What listeners of bags hear

A listener of a bag is told of changes that have been made already. With a log of what every
listener was told, and of what there was at that moment, one can say which changes a listener has
heard of and what it could know of the bag by then. -/

namespace EntityForest

open Registry World

variable [ValueTypes]

/-- A listener was told of a change to a bag, and saw all there was at that moment. -/
structure Tiding where
  listener : AttributeListenerRef
  event : AttributeEvent
  seen : Registry

namespace Tiding

def delivery (t : Tiding) : AttributeEvent × AttributeListenerRef := (t.event, t.listener)

/-- The changes that a listener was told of, in this order. -/
def heardBy (l : AttributeListenerRef) (tidings : List Tiding) : List AttributeEvent :=
  (tidings.filter (·.listener = l)).map event

theorem heardBy_append (l : AttributeListenerRef) (first more : List Tiding) :
    heardBy l (first ++ more) = heardBy l first ++ heardBy l more := by
  simp [heardBy]

omit [ValueTypes] in
private theorem filter_pairs (event : AttributeEvent) (l : AttributeListenerRef)
    (listeners : List AttributeListenerRef) :
    ((listeners.map (event, ·)).filter (·.2 = l)).map Prod.fst =
      List.replicate (listeners.count l) event := by
  induction listeners with
  | nil => rfl
  | cons k listeners ih => by_cases hk : k = l <;> simp [hk, List.replicate_succ, ih]

/-- Changes are told to listeners in this order. -/
def Tell (tidings : List Tiding) (due : List (SlotChange × AttributeListenerRef)) : Prop :=
  tidings.map delivery = due.map fun p => (p.1.event, p.2)

/-- If changes are told to listeners one after the other, each listener hears of all of them, as
often as it is listed. -/
theorem heardBy_of_product {changes : List SlotChange} {listeners : List AttributeListenerRef}
    {tidings : List Tiding} (h : Tell tidings (changes ×ˢ listeners)) (l : AttributeListenerRef) :
    heardBy l tidings =
      changes.flatMap fun change => List.replicate (listeners.count l) change.event := by
  have hheard : heardBy l tidings =
      ((tidings.map delivery).filter (·.2 = l)).map Prod.fst := by
    rw [heardBy, List.filter_map, List.map_map]
    rfl
  rw [hheard, h]
  clear h hheard
  induction changes with
  | nil => rfl
  | cons change changes ih =>
    rw [List.product_cons, List.map_append, List.filter_append, List.map_append, ih, List.map_map,
      List.flatMap_cons]
    exact congrArg (· ++ _) (filter_pairs change.event l listeners)

theorem heardBy_eq_events {changes : List SlotChange} {listeners : List AttributeListenerRef}
    {tidings : List Tiding} (h : Tell tidings (changes ×ˢ listeners)) {l : AttributeListenerRef}
    (once : listeners.count l = 1) : heardBy l tidings = changes.map SlotChange.event := by
  rw [heardBy_of_product h, once, List.map_eq_flatMap]
  rfl

theorem heardBy_eq_nil {changes : List SlotChange} {listeners : List AttributeListenerRef}
    {tidings : List Tiding} (h : Tell tidings (changes ×ˢ listeners)) {l : AttributeListenerRef}
    (absent : l ∉ listeners) : heardBy l tidings = [] := by
  rw [heardBy_of_product h, List.count_eq_zero_of_not_mem absent]
  simp

end Tiding

variable {χ : Type}

namespace Observers

/-- The same listeners, with a log of all tidings kept beside their own state. -/
def noted (obs : Observers χ) : Observers (χ × List Tiding) where
  lifecycle holds l event w :=
    let (answer, v) := obs.lifecycle holds l event w.core
    (answer, ⟨v.registry, (v.client, w.client.2)⟩)
  bag holds l event w :=
    let v := obs.bag holds l event w.core
    ⟨v.registry, (v.client, w.client.2 ++ [⟨l, event, w.registry⟩])⟩
  slack c := obs.slack c.1
  remains holds w c := obs.remains holds w.core c
  order w := obs.order w.core
  order_perm w := obs.order_perm w.core

/-- What these listeners of bags may make of all there is. -/
def Heeds (obs : Observers χ) (listeners : List AttributeListenerRef)
    (R : Registry → Registry → Prop) : Prop :=
  ∀ l ∈ listeners, ∀ holds event w, R w.registry (obs.bag holds l event w).registry

end Observers

/-- From one world to the next, changes have been told to listeners in this order, and what there
was at the beginning is kept as `R` says by the time of each tiding and in the end. -/
structure Spread (R : Registry → Registry → Prop)
    (due : List (SlotChange × AttributeListenerRef)) (w w' : World (χ × List Tiding))
    (tidings : List Tiding) : Prop where
  logged : w'.client.2 = w.client.2 ++ tidings
  told : Tiding.Tell tidings due
  seen : ∀ t ∈ tidings, R w.registry t.seen
  kept : R w.registry w'.registry

section Spread

variable {R : Registry → Registry → Prop} (hrefl : ∀ r, R r r)
  (htrans : ∀ {r s t}, R r s → R s t → R r t) {obs : Observers χ}
  {listeners : List AttributeListenerRef} (heeds : obs.Heeds listeners R) (holds : Holds)

include hrefl htrans heeds

theorem spread_deliverDue {due : List (SlotChange × AttributeListenerRef)}
    (hdue : ∀ p ∈ due, p.2 ∈ listeners) (w : World (χ × List Tiding)) :
    ∃ tidings, Spread R due w (w.deliverDue obs.noted holds due) tidings := by
  induction due generalizing w with
  | nil => exact ⟨[], (List.append_nil _).symm, rfl, nofun, hrefl _⟩
  | cons p due ih =>
    obtain ⟨change, l⟩ := p
    rw [List.forall_mem_cons] at hdue
    obtain ⟨tidings, hrest⟩ := ih hdue.2 (obs.noted.bag holds l change.event w)
    have hstep : R w.registry (obs.noted.bag holds l change.event w).registry :=
      heeds l hdue.1 holds change.event w.core
    refine ⟨⟨l, change.event, w.registry⟩ :: tidings, ?_, ?_, ?_, htrans hstep hrest.kept⟩
    · exact hrest.logged.trans (List.append_assoc _ _ _)
    · exact congrArg ((change.event, l) :: ·) hrest.told
    · intro t ht
      rcases List.mem_cons.1 ht with rfl | ht
      · exact hrefl _
      · exact htrans hstep (hrest.seen t ht)

/-- Each of some listeners is told of each of some changes. -/
theorem spread_deliverEach (changes : List SlotChange) (w : World (χ × List Tiding)) :
    ∃ tidings, Spread R (changes ×ˢ listeners) w
      (changes.foldl (fun w change => deliver obs.noted holds listeners change w) w) tidings := by
  rw [← World.deliverDue_product]
  exact spread_deliverDue hrefl htrans heeds holds (fun p hp => (List.mem_product.1 hp).2) w

end Spread

end EntityForest
