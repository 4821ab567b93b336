import EntityForest.Proofs.Effects
import EntityForest.Proofs.Owners

/-! # What a factory does with an entity that moves

A move inside a tree rewrites one record. A move to another tree releases the entity with all its
records and adopts it elsewhere with records for everything below it. -/

namespace EntityForest.Registry

open Relation (ReflTransGen)

variable [ValueTypes] {r s : Registry}

/-! ## Moves inside a tree -/

theorem mayRelocate_iff {f : FactoryRef} {e : EntityRef} {target : ContainerRef} :
    r.mayRelocate f e target = true ↔
      ∃ current, (r.owners f).find? (r.idOf e) = some current ∧ r.lifecycle e = .alive ∧
        Owners.rootOf (r.owners f) current = Owners.rootOf (r.owners f) (r.containerId target) ∧
        ¬ ReflTransGen (Owners.Link (r.owners f)) (r.containerId target) (r.idOf e) := by
  have hid : (r.entity e).id = r.idOf e := rfl
  simp only [mayRelocate, hid, ← Owners.isWithin_iff]
  cases (r.owners f).find? (r.idOf e) with
  | none => simp
  | some current =>
    simp only [Bool.and_eq_true, decide_eq_true_eq, Bool.not_eq_true', Option.some.injEq,
      exists_eq_left', Bool.not_eq_true, and_assoc]

/-! ## Releasing -/

structure Released (r : Registry) (f : FactoryRef) (e : EntityRef) (s : Registry) : Prop where
  children_size : s.children.size = r.children.size
  container : ∀ c, s.container c = r.container c
  exists_iff : r.Exists (.ofEntity e) → ∀ c, s.Exists c ↔ r.Exists c
  idOf : ∀ x, s.idOf x = r.idOf x
  config : ∀ g, s.config g = r.config g
  lifecycle_other : ∀ x, x ≠ e → s.lifecycle x = r.lifecycle x
  lifecycle_of_alive : r.lifecycle e = .alive → s.lifecycle e = .exported
  lifecycle_of_not_alive : r.lifecycle e ≠ .alive → s.lifecycle e = r.lifecycle e
  owners_other : ∀ g, g ≠ f → s.owners g = r.owners g
  record_iff : ∀ id owner, (s.owners f).find? id = some owner ↔
    (r.owners f).find? id = some owner ∧ id ≠ r.idOf e ∧
      ∀ p ∈ r.descendants e, r.idOf p.1 = id → p.2 ≠ owner
  size_le : (s.owners f).size ≤ (r.owners f).size

theorem released_release (r : Registry) (f : FactoryRef) (e : EntityRef) :
    r.Released f e (r.release f e) := by
  set owners := (r.descendants e).foldl
    (fun (t : Table Uuid Uuid) p =>
      if t.find? (r.idOf p.1) = some p.2 then t.erase (r.idOf p.1) else t)
    ((r.owners f).erase (r.idOf e)) with howners
  have hrelease : r.release f e = ((r.setOwners f owners).transition e .alive .exported).2 := rfl
  have hrecord : ∀ id owner, owners.find? id = some owner ↔
      (r.owners f).find? id = some owner ∧ id ≠ r.idOf e ∧
        ∀ p ∈ r.descendants e, r.idOf p.1 = id → p.2 ≠ owner := by
    intro id owner
    rw [howners, Table.find?_foldl_forget (fun p : EntityRef × Uuid => r.idOf p.1) Prod.snd,
      Table.find?_erase]
    by_cases hid : id = r.idOf e <;> simp [hid]
  have hsize : owners.size ≤ (r.owners f).size :=
    Nat.le_trans (Table.size_foldl_forget_le _ _ _ _) (Table.size_erase_le _ _)
  rw [hrelease, transition]
  by_cases halive : r.lifecycle e = .alive
  · have hcond : (r.setOwners f owners).lifecycle e = .alive := halive
    rw [if_pos hcond]
    exact {
      children_size := rfl
      container := fun c => by simp only [container_setLifecycle, container_setOwners]
      exists_iff := fun he c => by
        have he' : (r.setOwners f owners).Exists (.ofEntity e) :=
          (r.exists_setOwners f owners _).2 he
        rw [exists_setLifecycle _ _ he', exists_setOwners]
      idOf := fun x => (r.setOwners f owners).idOf_setLifecycle e _ x
      config := fun g => r.config_setOwners f owners g
      lifecycle_other := fun x hx => by
        rw [lifecycle_setLifecycle, if_neg hx]
        rfl
      lifecycle_of_alive := fun _ => by rw [lifecycle_setLifecycle, if_pos rfl]
      lifecycle_of_not_alive := fun h => absurd halive h
      owners_other := fun g hg => (r.owners_setOwners f owners g).trans (if_neg hg)
      record_iff := fun id owner => by
        rw [← hrecord, Registry.owners, factory_setLifecycle, ← Registry.owners, owners_setOwners,
          if_pos rfl]
      size_le := by
        rw [Registry.owners, factory_setLifecycle, ← Registry.owners, owners_setOwners, if_pos rfl]
        exact hsize }
  · have hcond : ¬ (r.setOwners f owners).lifecycle e = .alive := halive
    rw [if_neg hcond]
    exact {
      children_size := rfl
      container := fun c => r.container_setOwners f owners c
      exists_iff := fun _ c => r.exists_setOwners f owners c
      idOf := fun x => rfl
      config := fun g => r.config_setOwners f owners g
      lifecycle_other := fun x _ => rfl
      lifecycle_of_alive := fun h => absurd h halive
      lifecycle_of_not_alive := fun _ => rfl
      owners_other := fun g hg => (r.owners_setOwners f owners g).trans (if_neg hg)
      record_iff := fun id owner => by rw [← hrecord, owners_setOwners, if_pos rfl]
      size_le := by
        rw [owners_setOwners, if_pos rfl]
        exact hsize }

namespace Released

variable {f : FactoryRef} {e : EntityRef} (h : r.Released f e s)

include h

theorem held (c : ContainerRef) : s.held c = r.held c := by
  rw [Registry.held, h.container, Registry.held]

theorem containerId (c : ContainerRef) : s.containerId c = r.containerId c := by
  rw [Registry.containerId, h.container, Registry.containerId]

theorem delegateOf (c : ContainerRef) : s.delegateOf c = r.delegateOf c := by
  rw [Registry.delegateOf, h.container, Registry.delegateOf]

theorem bound (c : ContainerRef) : s.bound c = r.bound c := by
  rw [Registry.bound, h.container, Registry.bound]

theorem isClosed (c : ContainerRef) : s.isClosed c = r.isClosed c := by
  rw [Registry.isClosed, h.container, Registry.isClosed]

theorem held_iff {c : ContainerRef} {id : Uuid} {x : EntityRef} :
    s.Held c id x ↔ r.Held c id x := by
  rw [Held, h.held, Held]

/-- A record that is left was there before. -/
theorem record_mono {g : FactoryRef} {id owner : Uuid}
    (hrec : (s.owners g).find? id = some owner) : (r.owners g).find? id = some owner := by
  by_cases hg : g = f
  · subst hg
    exact ((h.record_iff id owner).1 hrec).1
  · rw [h.owners_other g hg] at hrec
    exact hrec

theorem sameContents : r.SameContents e s where
  exists_iff := h.exists_iff
  held := h.held
  containerId := h.containerId
  delegateOf := h.delegateOf
  isClosed := h.isClosed
  audience c := by rw [audience, h.container, audience]
  idOf := h.idOf
  config := h.config

theorem sameNames (he : r.Exists (.ofEntity e)) : SameNames r s :=
  h.sameContents.sameNames he

theorem within_iff {c d : ContainerRef} : s.Within c d ↔ r.Within c d :=
  within_congr h.held

theorem acyclic_iff : s.Acyclic ↔ r.Acyclic :=
  acyclic_congr h.held

theorem descendants (x : EntityRef) : s.descendants x = r.descendants x :=
  descendants_congr h.container h.children_size x

end Released

/-! ## Adopting -/

structure MayAdopt (r : Registry) (f : FactoryRef) (e : EntityRef) (target : ContainerRef) :
    Prop where
  exported : r.lifecycle e = .exported
  not_below : ∀ p ∈ r.descendants e, r.containerId (.ofEntity p.1) ≠ r.containerId target
  room : r.overLimit f ((r.descendants e).length + 1) = none
  unrecorded : r.idOf e ∉ r.owners f
  unrecorded_below : ∀ p ∈ r.descendants e, r.idOf p.1 ∉ r.owners f
  not_within : ¬ ReflTransGen (Owners.Link (r.owners f)) (r.containerId target) (r.idOf e)

theorem mayAdopt_iff {f : FactoryRef} {e : EntityRef} {target : ContainerRef} :
    r.mayAdopt f e target = true ↔ r.MayAdopt f e target := by
  unfold mayAdopt
  simp only [Bool.and_eq_true, decide_eq_true_eq, List.all_eq_true, Option.isNone_iff_eq_none,
    Bool.not_eq_true', ← Bool.not_eq_true, Owners.isWithin_iff]
  constructor
  · intro hchecks
    obtain ⟨⟨⟨⟨⟨hexp, hbelow⟩, hroom⟩, hid⟩, hids⟩, hwithin⟩ := hchecks
    exact ⟨hexp, hbelow, hroom, hid, hids, hwithin⟩
  · intro h
    exact ⟨⟨⟨⟨⟨h.exported, h.not_below⟩, h.room⟩, h.unrecorded⟩, h.unrecorded_below⟩, h.not_within⟩

/-- A view that no rebinding changes is the same after many. -/
theorem foldl_rebind_congr {β : Type} (view : Registry → β) {f : FactoryRef}
    (hview : ∀ (r : Registry) (x : EntityRef), view (r.rebind (.ofEntity x) f) = view r)
    (l : List (EntityRef × Uuid)) (r : Registry) :
    view (l.foldl (fun r p => r.rebind (.ofEntity p.1) f) r) = view r := by
  induction l generalizing r with
  | nil => rfl
  | cons p l ih => rw [List.foldl_cons, ih, hview]

theorem bound_foldl_rebind (f : FactoryRef) (l : List (EntityRef × Uuid)) (r : Registry)
    (c : ContainerRef) :
    (l.foldl (fun r p => r.rebind (.ofEntity p.1) f) r).bound c =
      if ∃ p ∈ l, c = .ofEntity p.1 then f else r.bound c := by
  induction l generalizing r with
  | nil => simp
  | cons p l ih =>
    rw [List.foldl_cons, ih, bound_rebind]
    have hmem : (∃ q ∈ p :: l, c = .ofEntity q.1) ↔
        (∃ q ∈ l, c = .ofEntity q.1) ∨ c = .ofEntity p.1 := by
      simp only [List.mem_cons, exists_eq_or_imp, or_comm]
    by_cases hl : ∃ q ∈ l, c = .ofEntity q.1
    · rw [if_pos hl, if_pos (hmem.2 (.inl hl))]
    · rw [if_neg hl]
      refine if_congr ?_ rfl rfl
      rw [hmem, or_iff_right hl]

structure Adopted (r : Registry) (f : FactoryRef) (e : EntityRef) (target : ContainerRef)
    (s : Registry) : Prop extends r.SameContents e s where
  may : r.MayAdopt f e target
  bound : ∀ c, s.bound c =
    if c = .ofEntity e ∨ ∃ p ∈ r.descendants e, c = .ofEntity p.1 then f else r.bound c
  owners : ∀ g, s.owners g =
    if g = f then
      (r.descendants e).foldl (fun t p => t.insert (r.idOf p.1) p.2)
        ((r.owners f).insert (r.idOf e) (r.containerId target))
    else r.owners g
  lifecycle : ∀ x, s.lifecycle x = if x = e then .alive else r.lifecycle x

theorem adopted_of_adopt {f : FactoryRef} {e : EntityRef} {target : ContainerRef}
    (h : r.adopt f e target = (true, s)) : r.Adopted f e target s := by
  unfold adopt at h
  split at h
  swap
  · cases h
  rename_i hmay
  simp only [Prod.mk.injEq, true_and] at h
  subst h
  set owners := (r.descendants e).foldl
    (fun (t : Table Uuid Uuid) p => t.insert (r.entity p.1).id p.2)
    ((r.owners f).insert (r.entity e).id (r.containerId target)) with howners
  set t := (r.setLifecycle e .alive).setOwners f owners with ht
  have hrecords : r.SameContents e t :=
    (r.sameContents_setLifecycle e .alive).trans (sameContents_setOwners _ f owners e)
  have hbound : ∀ c, t.bound c = r.bound c := by
    intro c
    rw [Registry.bound, ht, container_setOwners, container_setLifecycle, Registry.bound]
  refine {
    toSameContents := (hrecords.trans (t.sameContents_rebind e f e)).trans
      (sameContents_foldl_rebind _ f e _)
    may := mayAdopt_iff.1 hmay
    bound := ?_
    owners := ?_
    lifecycle := ?_ }
  · intro c
    rw [bound_foldl_rebind, bound_rebind, hbound]
    by_cases hbelow : ∃ p ∈ r.descendants e, c = .ofEntity p.1
    · rw [if_pos hbelow, if_pos (.inr hbelow)]
    · rw [if_neg hbelow]
      refine if_congr ?_ rfl rfl
      rw [or_iff_left hbelow]
  · intro g
    rw [foldl_rebind_congr (fun r => r.owners g) (fun r x => r.owners_rebind _ f g), owners_rebind,
      ht, owners_setOwners]
    rfl
  · intro x
    rw [foldl_rebind_congr (fun r => r.lifecycle x) (fun r y => r.lifecycle_rebind _ f x),
      lifecycle_rebind]
    exact r.lifecycle_setLifecycle e _ x

/-! ## From one container to another -/

/-- What every move of an entity from `src`, which holds it under `id`, to `dst` checks and changes,
inside a tree or between trees. -/
structure Moved (r : Registry) (src : ContainerRef) (id : Uuid) (dst : ContainerRef) (e : EntityRef)
    (s : Registry) : Prop where
  isOpen : r.isClosed dst = false
  absent : r.idOf e ∉ r.held dst
  names : r.Exists src → r.Exists dst → r.Exists (.ofEntity e) → SameNames r s
  held : ∀ c, s.held c =
    if c = src then (r.held src).erase id
    else if c = dst then (r.held dst).insert (r.idOf e) e
    else r.held c
  isClosed : ∀ c, s.isClosed c = r.isClosed c
  audience : ∀ c, s.audience c = r.audience c
  config : ∀ f, s.config f = r.config f

structure Taken (r : Registry) (src : ContainerRef) (id : Uuid) (dst : ContainerRef) (e : EntityRef)
    (s : Registry) : Prop extends r.Moved src id dst e s where
  may : r.mayRelocate (r.bound dst) e (r.delegateOf dst) = true
  bound : ∀ c, s.bound c = r.bound c
  owners : ∀ f, s.owners f =
    if f = r.bound dst then (r.owners f).insert (r.idOf e) (r.containerId (r.delegateOf dst))
    else r.owners f
  lifecycle : ∀ x, s.lifecycle x = r.lifecycle x

structure Imported (r : Registry) (src : ContainerRef) (id : Uuid) (dst : ContainerRef)
    (e : EntityRef) (s : Registry) : Prop extends r.Moved src id dst e s where
  stays : r.mayRelocate (r.bound dst) e (r.delegateOf dst) = false
  may : r.MayAdopt (r.bound dst) e (r.delegateOf dst)
  bound : ∀ c, s.bound c =
    if c = .ofEntity e ∨ ∃ p ∈ r.descendants e, c = .ofEntity p.1 then r.bound dst else r.bound c
  owners : ∀ f, s.owners f =
    if f = r.bound dst then
      (r.descendants e).foldl (fun t p => t.insert (r.idOf p.1) p.2)
        ((r.owners f).insert (r.idOf e) (r.containerId (r.delegateOf dst)))
    else r.owners f
  lifecycle : ∀ x, s.lifecycle x = if x = e then .alive else r.lifecycle x

theorem fst_relocate {f : FactoryRef} {e : EntityRef} {target : ContainerRef} :
    (r.relocate f e target).1 = r.mayRelocate f e target := by
  unfold relocate
  split
  · rename_i hmay
    exact hmay.symm
  · rename_i hmay
    exact (Bool.eq_false_iff.2 hmay).symm

theorem relocate_eq_true {f : FactoryRef} {e : EntityRef} {target : ContainerRef}
    (h : r.relocate f e target = (true, s)) :
    s = r.setOwners f ((r.owners f).insert (r.idOf e) (r.containerId target)) := by
  unfold relocate at h
  split at h
  · cases h
    rfl
  · cases h

theorem fst_adopt {f : FactoryRef} {e : EntityRef} {target : ContainerRef} :
    (r.adopt f e target).1 = r.mayAdopt f e target := by
  unfold adopt
  split
  · rename_i hmay
    exact hmay.symm
  · rename_i hmay
    exact (Bool.eq_false_iff.2 hmay).symm

/-- How a container lets an entity in: it is open, holds nothing of that identity, and its factory
moves the entity inside the tree or, failing that, adopts it. -/
theorem receive_eq_some {dst delegate : ContainerRef} {e : EntityRef} {arrival : Arrival}
    (h : r.receive dst delegate e = some (arrival, s)) :
    r.isClosed dst = false ∧ r.idOf e ∉ r.held dst ∧
      ∃ t, s = t.setHeld dst ((t.held dst).insert (r.idOf e) e) ∧
        match arrival with
        | .taken => r.relocate (r.bound dst) e delegate = (true, t)
        | .imported => r.mayRelocate (r.bound dst) e delegate = false ∧
            r.adopt (r.bound dst) e delegate = (true, t) := by
  unfold receive at h
  simp only at h
  split at h
  · cases h
  rename_i hfree
  rw [not_or, Bool.not_eq_true] at hfree
  refine ⟨hfree.1, hfree.2, ?_⟩
  split at h
  · rename_i t hrelocate
    cases h
    exact ⟨t, rfl, hrelocate⟩
  · rename_i hrelocate
    split at h
    · rename_i t hadopt
      cases h
      refine ⟨t, rfl, ?_, hadopt⟩
      rw [← fst_relocate]
      exact congrArg Prod.fst hrelocate
    · cases h

theorem receive_eq_none {dst delegate : ContainerRef} {e : EntityRef}
    (h : r.receive dst delegate e = none) :
    r.isClosed dst = true ∨ r.idOf e ∈ r.held dst ∨
      r.mayRelocate (r.bound dst) e delegate = false ∧ ¬ r.MayAdopt (r.bound dst) e delegate := by
  unfold receive at h
  simp only at h
  split at h
  · rename_i hblocked
    exact hblocked.imp_right .inl
  · split at h
    · cases h
    · rename_i hrelocate
      split at h
      · cases h
      · rename_i hadopt
        refine .inr (.inr ⟨?_, ?_⟩)
        · rw [← fst_relocate]
          exact congrArg Prod.fst hrelocate
        · rw [← mayAdopt_iff, Bool.not_eq_true, ← fst_adopt]
          exact congrArg Prod.fst hadopt

section Move

variable {src dst : ContainerRef} {e : EntityRef} (id : Uuid)

/-- Once the factories are done, the entity enters the one container and leaves the other. -/
theorem SameContents.moved {t : Registry} (h : r.SameContents e t) (hne : src ≠ dst)
    (isOpen : r.isClosed dst = false) (absent : r.idOf e ∉ r.held dst) (hs : s =
      t.setHeld dst ((t.held dst).insert (r.idOf e) e)) :
    r.Moved src id dst e (s.setHeld src ((s.held src).erase id)) where
  isOpen := isOpen
  absent := absent
  names hsrc hdst he := by
    have hnames := h.sameNames he
    have hentered : SameNames r s :=
      hs ▸ hnames.trans (sameNames_setHeld t ((hnames.exists_iff dst).2 hdst) _)
    exact hentered.trans (sameNames_setHeld s ((hentered.exists_iff src).2 hsrc) _)
  held c := by
    simp only [hs, held_setHeld, if_neg hne, h.held]
  isClosed c := by
    rw [isClosed_setHeld, hs, isClosed_setHeld, h.isClosed]
  audience c := by
    rw [audience_setHeld, hs, audience_setHeld, h.audience]
  config f := by
    rw [config_setHeld, hs, config_setHeld, h.config]

theorem taken_of_receive (hne : src ≠ dst)
    (h : r.receive dst (r.delegateOf dst) e = some (.taken, s)) :
    r.Taken src id dst e (s.setHeld src ((s.held src).erase id)) := by
  obtain ⟨hopen, habsent, t, hs, hrelocate⟩ := receive_eq_some h
  have hmay : r.mayRelocate (r.bound dst) e (r.delegateOf dst) = true := by
    rw [← fst_relocate]
    exact congrArg Prod.fst hrelocate
  have ht := relocate_eq_true hrelocate
  have hrecords : r.SameContents e t := ht ▸ r.sameContents_setOwners _ _ e
  refine {
    toMoved := hrecords.moved id hne hopen habsent hs
    may := hmay
    bound := ?_
    owners := ?_
    lifecycle := ?_ }
  · intro c
    rw [bound_setHeld, hs, bound_setHeld, ht, Registry.bound, container_setOwners, Registry.bound]
  · intro f
    rw [owners_setHeld, hs, owners_setHeld, ht, owners_setOwners]
    by_cases hf : f = r.bound dst
    · rw [if_pos hf, if_pos hf, hf]
    · rw [if_neg hf, if_neg hf]
  · intro x
    rw [lifecycle_setHeld, hs, lifecycle_setHeld, ht]
    rfl

theorem imported_of_receive (hne : src ≠ dst)
    (h : r.receive dst (r.delegateOf dst) e = some (.imported, s)) :
    r.Imported src id dst e (s.setHeld src ((s.held src).erase id)) := by
  obtain ⟨hopen, habsent, t, hs, hstays, hadopt⟩ := receive_eq_some h
  have ht := adopted_of_adopt hadopt
  refine {
    toMoved := ht.toSameContents.moved id hne hopen habsent hs
    stays := hstays
    may := ht.may
    bound := ?_
    owners := ?_
    lifecycle := ?_ }
  · intro c
    rw [bound_setHeld, hs, bound_setHeld, ht.bound]
  · intro f
    rw [owners_setHeld, hs, owners_setHeld, ht.owners]
    by_cases hf : f = r.bound dst
    · rw [if_pos hf, if_pos hf, hf]
    · rw [if_neg hf, if_neg hf]
  · intro x
    rw [lifecycle_setHeld, hs, lifecycle_setHeld, ht.lifecycle]

theorem moved_of_receive {arrival : Arrival} (hne : src ≠ dst)
    (h : r.receive dst (r.delegateOf dst) e = some (arrival, s)) :
    r.Moved src id dst e (s.setHeld src ((s.held src).erase id)) := by
  cases arrival with
  | taken => exact (taken_of_receive id hne h).toMoved
  | imported => exact (imported_of_receive id hne h).toMoved

end Move

end EntityForest.Registry
