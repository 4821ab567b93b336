import EntityForest.Proofs.Containment
import EntityForest.Proofs.Histories

/-! # What factories look into

Some calls to a factory enumerate what is below an entity, container by container, and an adoption
hands these containers over to the factory as well. All other containers a call leaves alone:
neither its answer nor anything it does depends on what is inside of them. -/

namespace EntityForest

variable [ValueTypes]

namespace Registry

variable {r s : Registry} {e : EntityRef} {c : ContainerRef}

/-! ## Containers that the worklist opens -/

/-- An enumeration of what is below an entity opens the child container of the entity, and in each
round of the loop that of the entity it has come to. -/
inductive Opens (r : Registry) (e : EntityRef) : ContainerRef → Prop
  | first : Opens r e (.ofEntity e)
  | round {n : Nat} {s : Search} {p : EntityRef × Uuid}
      (hs : (Search.advance r)^[n] (.start r e) = s) (hp : s.found[s.next]? = some p) :
      Opens r e (.ofEntity p.1)

namespace Search

theorem advance_eq {s : Search} {p : EntityRef × Uuid} (hp : s.found[s.next]? = some p) :
    s.advance r = ⟨s.found ++ r.childrenOf p.1, s.next + 1⟩ := by
  rw [Search.advance, hp]

/-- The loop comes to everything on the list that it has not worked off yet. -/
theorem exists_next_eq {s : Search} {i : Nat} {p : EntityRef × Uuid} (hi : s.found[i]? = some p)
    (hle : s.next ≤ i) :
    ∃ n, ((advance r)^[n] s).next = i ∧ ((advance r)^[n] s).found[i]? = some p := by
  induction hk : i - s.next generalizing s with
  | zero => exact ⟨0, Nat.le_antisymm hle (Nat.sub_eq_zero_iff_le.1 hk), hi⟩
  | succ k ih =>
    have hlength : i < s.found.length := (List.getElem?_eq_some_iff.1 hi).1
    have hq : s.found[s.next]? = some s.found[s.next] := List.getElem?_eq_getElem (by omega)
    have hround := advance_eq (r := r) hq
    have hstays : (s.advance r).found[i]? = some p := by
      rw [hround, List.getElem?_append_left hlength, hi]
    have hnext : (s.advance r).next = s.next + 1 := by rw [hround]
    obtain ⟨n, hn⟩ := ih hstays (by omega) (by omega)
    exact ⟨n + 1, hn⟩

theorem below_of_found (n : Nat) :
    ∀ p ∈ ((advance r)^[n] (start r e)).found, r.Below e p.1 := by
  induction n with
  | zero => exact fun p hp => .child (mem_childrenOf.1 hp).1
  | succ n ih =>
    rw [Function.iterate_succ_apply']
    intro p hp
    unfold Search.advance at hp
    split at hp
    · rename_i q hq
      rcases List.mem_append.1 hp with hp | hp
      · exact ih p hp
      · exact .step (ih q (List.mem_of_getElem? hq)) (mem_childrenOf.1 hp).1
    · exact ih p hp

end Search

theorem exists_round_of_listed {n i : Nat} {s : Search} {p : EntityRef × Uuid}
    (hs : (Search.advance r)^[n] (.start r e) = s) (hi : s.found[i]? = some p) (hle : s.next ≤ i) :
    ∃ m t, (Search.advance r)^[m] (.start r e) = t ∧ t.found[t.next]? = some p := by
  obtain ⟨m, hnext, hfound⟩ := Search.exists_next_eq (r := r) hi hle
  refine ⟨m + n, _, rfl, ?_⟩
  rw [Function.iterate_add_apply, hs, hnext, hfound]

/-- The loop comes to everything that is below the entity, also where it does not end. -/
theorem exists_round_of_below {x : EntityRef} (h : r.Below e x) :
    ∃ n s owner, (Search.advance r)^[n] (.start r e) = s ∧ s.found[s.next]? = some (x, owner) := by
  induction h with
  | child hx =>
    obtain ⟨i, hi⟩ := List.mem_iff_getElem?.1 (mem_childrenOf.2 ⟨hx, rfl⟩)
    obtain ⟨n, s, hs, hp⟩ :=
      exists_round_of_listed (n := 0) (s := .start r e) rfl hi (Nat.zero_le i)
    exact ⟨n, s, _, hs, hp⟩
  | @step x y _ hy ih =>
    obtain ⟨n, s, owner, hs, hx⟩ := ih
    have hround := Search.advance_eq (r := r) hx
    have hlength : s.next < s.found.length := (List.getElem?_eq_some_iff.1 hx).1
    obtain ⟨j, hj⟩ := List.mem_iff_getElem?.1 (mem_childrenOf.2 ⟨hy, rfl⟩)
    have hlisted : (s.advance r).found[s.found.length + j]? =
        some (y, r.containerId (.ofEntity x)) := by
      rw [hround, List.getElem?_append_right (Nat.le_add_right _ _), Nat.add_sub_cancel_left, hj]
    have hle : (s.advance r).next ≤ s.found.length + j := by
      rw [hround]
      change s.next + 1 ≤ s.found.length + j
      omega
    have hstep : (Search.advance r)^[n + 1] (.start r e) = s.advance r := by
      rw [Function.iterate_succ_apply', hs]
    obtain ⟨m, t, ht, hp⟩ := exists_round_of_listed hstep hlisted hle
    exact ⟨m, t, _, ht, hp⟩

/-- The containers that are opened are those within the entity. -/
theorem opens_iff : r.Opens e c ↔ r.Within c (.ofEntity e) := by
  rw [within_ofEntity_iff]
  constructor
  · intro h
    cases h with
    | first => exact ⟨e, rfl, .inl rfl⟩
    | @round n s p hs hp =>
      subst hs
      exact ⟨p.1, rfl, .inr (Search.below_of_found n p (List.mem_of_getElem? hp))⟩
  · rintro ⟨x, rfl, rfl | hx⟩
    · exact .first
    · obtain ⟨n, s, owner, hs, hp⟩ := exists_round_of_below hx
      exact .round hs hp

/-! ## Registries that differ inside of containers -/

/-- Registries that differ at most in what is inside of some containers. Which containers there are,
and the identities that they report, is the same. -/
structure AlikeBut (inside : ContainerRef → Prop) (r s : Registry) : Prop where
  entities_size : s.entities.size = r.entities.size
  children_size : s.children.size = r.children.size
  entity : ∀ e, s.entity e = r.entity e
  factory : ∀ f, s.factory f = r.factory f
  containerId : ∀ c, s.containerId c = r.containerId c
  container : ∀ c, ¬ inside c → s.container c = r.container c

namespace AlikeBut

variable {inside : ContainerRef → Prop} (h : AlikeBut inside r s)

include h

theorem owners (f : FactoryRef) : s.owners f = r.owners f := congrArg Factory.owners (h.factory f)

theorem overLimit (f : FactoryRef) (n : Nat) : s.overLimit f n = r.overLimit f n := by
  rw [Registry.overLimit, h.factory, h.owners, Registry.overLimit]

theorem lifecycle (x : EntityRef) : s.lifecycle x = r.lifecycle x :=
  congrArg Entity.lifecycle (h.entity x)

/-! ### What depends on the alike parts only -/

theorem rootOf (f : FactoryRef) (c : ContainerRef) : s.rootOf f c = r.rootOf f c := by
  rw [Registry.rootOf, h.owners, h.containerId, Registry.rootOf]

theorem childrenOf {x : EntityRef} (hx : ¬ inside (.ofEntity x)) :
    s.childrenOf x = r.childrenOf x := by
  rw [Registry.childrenOf, held, h.container _ hx, h.containerId, Registry.childrenOf, held]

/-- What no container in question is opened for is enumerated alike. -/
theorem below {parents : List EntityRef}
    (hout : ∀ p ∈ parents, ∀ c, inside c → ¬ r.Within c (.ofEntity p)) (depth : Nat) :
    s.below depth parents = r.below depth parents := by
  induction depth generalizing parents with
  | zero => rfl
  | succ depth ih =>
    have hlevel : parents.flatMap s.childrenOf = parents.flatMap r.childrenOf :=
      List.flatMap_congr fun p hp => h.childrenOf fun hin => hout p hp _ hin .refl
    rw [below_succ, below_succ, hlevel, ih]
    intro x hx c hc hw
    obtain ⟨⟨y, owner⟩, hy, rfl⟩ := List.mem_map.1 hx
    obtain ⟨p, hp, hchild⟩ := List.mem_flatMap.1 hy
    exact hout p hp c hc (hw.tail (parent_iff_up.1 (mem_childrenOf.1 hchild).1))

theorem descendants (hout : ∀ c, inside c → ¬ r.Within c (.ofEntity e)) :
    s.descendants e = r.descendants e := by
  rw [Registry.descendants, h.children_size, Registry.descendants]
  refine h.below (fun p hp => ?_) _
  obtain rfl := List.mem_singleton.1 hp
  exact hout

theorem mayRelocate (f : FactoryRef) (x : EntityRef) (target : ContainerRef) :
    s.mayRelocate f x target = r.mayRelocate f x target := by
  simp only [Registry.mayRelocate, h.owners, h.entity, h.containerId, h.lifecycle]

/-- Before the entity is known to be exported, nothing is opened. -/
theorem mayAdopt (f : FactoryRef) (target : ContainerRef)
    (hout : ∀ c, inside c → ¬ (r.lifecycle e = .exported ∧ r.Within c (.ofEntity e))) :
    s.mayAdopt f e target = r.mayAdopt f e target := by
  by_cases hexported : r.lifecycle e = .exported
  · have hbelow := h.descendants fun c hc hw => hout c hc ⟨hexported, hw⟩
    simp only [Registry.mayAdopt, h.owners, h.entity, h.containerId, h.lifecycle, h.overLimit,
      hbelow]
  · simp only [Registry.mayAdopt, h.lifecycle, hexported, decide_false, Bool.false_and]

/-! ### Changes that keep registries alike -/

theorem setOwners (f : FactoryRef) (owners : Table Uuid Uuid) :
    AlikeBut inside (r.setOwners f owners) (s.setOwners f owners) where
  entities_size := h.entities_size
  children_size := h.children_size
  entity := h.entity
  factory g := by
    simp only [Registry.setOwners, factory_setFactory, h.factory]
  containerId c := by
    simp only [Registry.containerId, container_setOwners]
    exact h.containerId c
  container c hc := by rw [container_setOwners, container_setOwners, h.container c hc]

theorem setLifecycle (x : EntityRef) (l : Lifecycle) :
    AlikeBut inside (r.setLifecycle x l) (s.setLifecycle x l) where
  entities_size := by
    change (s.entities.set _ _).size = (r.entities.set _ _).size
    rw [Store.size_set, Store.size_set, h.entities_size]
  children_size := h.children_size
  entity y := by simp only [Registry.setLifecycle, entity_setEntity, h.entity]
  factory := h.factory
  containerId c := by
    simp only [Registry.containerId, container_setLifecycle]
    exact h.containerId c
  container c hc := by rw [container_setLifecycle, container_setLifecycle, h.container c hc]

theorem rebind {x : EntityRef} (hx : ¬ inside (.ofEntity x)) (f : FactoryRef) :
    AlikeBut inside (r.rebind (.ofEntity x) f) (s.rebind (.ofEntity x) f) where
  entities_size := h.entities_size
  children_size := by
    change (s.children.set _ _).size = (r.children.set _ _).size
    rw [Store.size_set, Store.size_set, h.children_size]
  entity y := by
    simp only [Registry.rebind, entity_setContainer, h.entity]
  factory g := by
    simp only [Registry.rebind, factory_setContainer, h.factory]
  containerId c := by rw [containerId_rebind, containerId_rebind, h.containerId]
  container c hc := by
    rw [container_rebind, container_rebind, h.container _ hx, h.container c hc]

theorem foldl_rebind {l : List (EntityRef × Uuid)} (hl : ∀ p ∈ l, ¬ inside (.ofEntity p.1))
    (f : FactoryRef) :
    AlikeBut inside (l.foldl (fun t p => t.rebind (.ofEntity p.1) f) r)
      (l.foldl (fun t p => t.rebind (.ofEntity p.1) f) s) := by
  induction l generalizing r s with
  | nil => exact h
  | cons p l ih =>
    obtain ⟨hp, hl⟩ := List.forall_mem_cons.1 hl
    exact ih (h.rebind hp f) hl

theorem newEntity (id : Uuid) (f : FactoryRef) :
    AlikeBut inside (r.newEntity id f).2 (s.newEntity id f).2 := by
  have href : (s.newEntity id f).1 = (r.newEntity id f).1 := congrArg EntityRef.mk h.entities_size
  have hcontainer : ∀ c, s.container c = r.container c →
      (s.newEntity id f).2.container c = (r.newEntity id f).2.container c := by
    intro c hc
    rw [container_newEntity, container_newEntity, href, hc]
  exact {
    entities_size := by
      change (s.entities.set _ _).size = (r.entities.set _ _).size
      rw [Store.size_set, Store.size_set, h.entities_size]
    children_size := by
      change (s.children.set _ _).size = (r.children.set _ _).size
      rw [Store.size_set, Store.size_set, h.entities_size, h.children_size]
    entity := fun x => by rw [entity_newEntity, entity_newEntity, href, h.entity]
    factory := h.factory
    containerId := fun c => by
      rw [Registry.containerId, Registry.containerId, container_newEntity, container_newEntity,
        href]
      split
      · rfl
      · exact h.containerId c
    container := fun c hc => hcontainer c (h.container c hc) }

/-! ### Each call -/

theorem mint (f : FactoryRef) (owner : ContainerRef) (id : Uuid) :
    (s.mint f owner id).toBool = (r.mint f owner id).toBool ∧
      AlikeBut inside ((FactoryCall.mint f owner id).perform r)
        ((FactoryCall.mint f owner id).perform s) := by
  simp only [FactoryCall.perform, Registry.mint, h.overLimit, h.owners, h.containerId]
  cases r.overLimit f 1 with
  | some limit => exact ⟨rfl, h⟩
  | none =>
    by_cases hid : id ∈ r.owners f
    · simp only [if_pos hid]
      exact ⟨trivial, h⟩
    · simp only [if_neg hid]
      exact ⟨rfl, (h.setOwners f _).newEntity id f⟩

theorem retire (f : FactoryRef) (x : EntityRef) :
    (s.retire f x).1 = (r.retire f x).1 ∧ AlikeBut inside (r.retire f x).2 (s.retire f x).2 := by
  unfold Registry.retire
  simp only [h.owners, h.entity, h.lifecycle]
  split
  · exact ⟨rfl, (h.setLifecycle x .dead).setOwners f _⟩
  · exact ⟨rfl, h⟩

theorem sameTree (f : FactoryRef) (a b : ContainerRef) : s.sameTree f a b = r.sameTree f a b := by
  rw [Registry.sameTree, h.rootOf, h.rootOf, Registry.sameTree]

theorem relocate (f : FactoryRef) (x : EntityRef) (target : ContainerRef) :
    (s.relocate f x target).1 = (r.relocate f x target).1 ∧
      AlikeBut inside (r.relocate f x target).2 (s.relocate f x target).2 := by
  unfold Registry.relocate
  rw [h.mayRelocate, h.owners, h.entity, h.containerId]
  split
  · exact ⟨rfl, h.setOwners f _⟩
  · exact ⟨rfl, h⟩

theorem adopt (f : FactoryRef) (target : ContainerRef)
    (hout : ∀ c, inside c → ¬ (r.lifecycle e = .exported ∧ r.Within c (.ofEntity e))) :
    (s.adopt f e target).1 = (r.adopt f e target).1 ∧
      AlikeBut inside (r.adopt f e target).2 (s.adopt f e target).2 := by
  unfold Registry.adopt
  rw [h.mayAdopt f target hout]
  split
  swap
  · exact ⟨rfl, h⟩
  rename_i hmay
  have hexported := (mayAdopt_iff.1 hmay).exported
  have hfree : ∀ x, r.Within (.ofEntity x) (.ofEntity e) → ¬ inside (.ofEntity x) :=
    fun x hw hx => hout _ hx ⟨hexported, hw⟩
  have hbelow := h.descendants fun c hc hw => hout c hc ⟨hexported, hw⟩
  simp only [hbelow, h.owners, h.entity, h.containerId]
  refine ⟨trivial, (((h.setLifecycle e .alive).setOwners f _).rebind (hfree e .refl) f).foldl_rebind
    (fun p hp => hfree p.1 ?_) f⟩
  exact within_iff_descendant.2 (.inr ⟨p, hp, rfl⟩)

theorem release (f : FactoryRef) (hout : ∀ c, inside c → ¬ r.Within c (.ofEntity e)) :
    AlikeBut inside (r.release f e) (s.release f e) := by
  unfold Registry.release
  simp only [h.descendants hout, h.owners, h.entity]
  have hrecords := h.setOwners f ((r.descendants e).foldl
    (fun (owners : Table Uuid Uuid) p =>
      if owners.find? (r.entity p.1).id = some p.2 then owners.erase (r.entity p.1).id else owners)
    ((r.owners f).erase (r.entity e).id))
  unfold transition
  rw [hrecords.lifecycle]
  split
  · exact hrecords.setLifecycle e .exported
  · exact hrecords

end AlikeBut

theorem container_foldl_rebind {l : List (EntityRef × Uuid)} (f : FactoryRef)
    (hl : ∀ p ∈ l, c ≠ .ofEntity p.1) (r : Registry) :
    (l.foldl (fun t p => t.rebind (.ofEntity p.1) f) r).container c = r.container c := by
  induction l generalizing r with
  | nil => rfl
  | cons p l ih =>
    obtain ⟨hp, hl⟩ := List.forall_mem_cons.1 hl
    rw [List.foldl_cons, ih hl, container_rebind, if_neg hp]

/-- Only what lies within an entity is handed over when a factory adopts the entity. -/
theorem container_adopt (f : FactoryRef) (target : ContainerRef)
    (hout : ¬ (r.lifecycle e = .exported ∧ r.Within c (.ofEntity e))) :
    (r.adopt f e target).2.container c = r.container c := by
  unfold adopt
  split
  swap
  · rfl
  rename_i hmay
  have hexported := (mayAdopt_iff.1 hmay).exported
  have hne : ∀ x, r.Within (.ofEntity x) (.ofEntity e) → c ≠ .ofEntity x :=
    fun x hw heq => hout ⟨hexported, heq ▸ hw⟩
  simp only
  rw [container_foldl_rebind f fun p hp => hne p.1 (within_iff_descendant.2 (.inr ⟨p, hp, rfl⟩)),
    container_rebind, if_neg (hne e .refl), container_setOwners, container_setLifecycle]

end Registry

/-! ## Calls -/

namespace FactoryCall

open Registry

/-- The call looks into the container, or hands it over to the factory. -/
def Enters (r : Registry) (c : ContainerRef) : FactoryCall → Prop
  | release _ e => r.Opens e c
  | adopt _ e _ => r.lifecycle e = .exported ∧ r.Opens e c
  | mint .. | retire .. | sameTree .. | relocate .. => False

/-- What a call answers. -/
def answer (r : Registry) : FactoryCall → Bool
  | mint f owner id => (r.mint f owner id).toBool
  | retire f e => (r.retire f e).1
  | sameTree f a b => r.sameTree f a b
  | relocate f e target => (r.relocate f e target).1
  | adopt f e target => (r.adopt f e target).1
  | release .. => true

variable {r s : Registry} {call : FactoryCall}

/-- A call depends on the inside of no container that it does not enter. -/
theorem alike_perform {inside : ContainerRef → Prop} (h : AlikeBut inside r s)
    (hout : ∀ c, inside c → ¬ call.Enters r c) :
    call.answer s = call.answer r ∧ AlikeBut inside (call.perform r) (call.perform s) := by
  cases call with
  | mint f owner id => exact h.mint f owner id
  | retire f e => exact h.retire f e
  | sameTree f a b => exact ⟨h.sameTree f a b, h⟩
  | relocate f e target => exact h.relocate f e target
  | adopt f e target =>
    exact h.adopt f target fun c hc hentered => hout c hc ⟨hentered.1, opens_iff.2 hentered.2⟩
  | release f e => exact ⟨rfl, h.release f fun c hc hw => hout c hc (opens_iff.2 hw)⟩

/-- A call leaves every container as it is that it does not enter. -/
theorem container_perform {c : ContainerRef} (hc : r.Exists c) (hout : ¬ call.Enters r c) :
    (call.perform r).container c = r.container c := by
  cases call with
  | mint f owner id =>
    rw [perform]
    split
    · rename_i e s hmint
      obtain ⟨-, -, heq⟩ := mint_eq_ok hmint
      obtain rfl := congrArg Prod.snd heq
      have hne : c ≠ .ofEntity ⟨r.entities.size⟩ := by
        rintro rfl
        exact Nat.lt_irrefl _ hc
      exact (container_newEntity ..).trans ((if_neg hne).trans (container_setOwners ..))
    · rfl
  | retire f e =>
    rcases r.retire_cases f e with ⟨s, hretire⟩ | hrefused
    · obtain ⟨-, -, rfl⟩ := retire_eq_true hretire
      rw [perform, hretire, container_setOwners, container_setLifecycle]
    · rw [perform, hrefused]
  | sameTree f a b => rfl
  | relocate f e target =>
    rcases r.relocate_cases f e target with ⟨s, hrelocate⟩ | hrefused
    · obtain rfl := relocate_eq_true hrelocate
      rw [perform, hrelocate, container_setOwners]
    · rw [perform, hrefused]
  | adopt f e target =>
    exact container_adopt f target fun hentered => hout ⟨hentered.1, opens_iff.2 hentered.2⟩
  | release f e => exact (released_release r f e).container c

end FactoryCall

end EntityForest
