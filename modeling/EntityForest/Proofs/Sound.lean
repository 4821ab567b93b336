import EntityForest.Proofs.Moves

/-! # Sound forests

Containers and factories keep separate books, both by identity. What keeps the books together is an
invariant of the forest as a whole; each operation needs a part of it to preserve the rest. -/

namespace EntityForest.Registry

open Relation (ReflTransGen TransGen)

variable [ValueTypes]

/-- The invariant of a forest: an entity is in one container at most, under its identity; a tree
holds an identity at most once; a child container belongs to the tree of its entity; every record is
true; and containment has no cycle. -/
structure Sound (r : Registry) : Prop where
  placed : r.Placed
  child_id : ∀ {c id e}, r.Held c id e → r.containerId (.ofEntity e) = id
  keyed : ∀ {c id e}, r.Held c id e → r.idOf e = id
  once : ∀ {c d i j e}, r.Held c i e → r.Held d j e → c = d
  unique : ∀ {c d id x y}, r.bound c = r.bound d → r.Held c id x → r.Held d id y → c = d
  child_bound : ∀ {c id e}, r.Held c id e → r.bound (.ofEntity e) = r.bound c
  witnessed : ∀ {f id owner}, (r.owners f).find? id = some owner →
    ∃ c e, r.bound c = f ∧ r.containerId c = owner ∧ r.Held c id e
  acyclic : r.Acyclic

/-- Every held entity is alive and recorded by the tree of its container. -/
structure Full (r : Registry) : Prop where
  alive : ∀ {c id e}, r.Held c id e → r.lifecycle e = .alive
  recorded : ∀ {c id e}, r.Held c id e →
    (r.owners (r.bound c)).find? id = some (r.containerId c)

variable {r s : Registry}

/-! ## Consequences -/

namespace Sound

theorem id_eq (h : r.Sound) {c d : ContainerRef} {i j : Uuid} {e : EntityRef} (hi : r.Held c i e)
    (hj : r.Held d j e) : i = j := (h.keyed hi).symm.trans (h.keyed hj)

/-- Everything in a subtree belongs to one tree. -/
theorem bound_of_within (h : r.Sound) {c d : ContainerRef} (hw : r.Within c d) :
    r.bound c = r.bound d := by
  induction hw with
  | refl => rfl
  | tail _ hup ih =>
    obtain ⟨e, id, rfl, hheld⟩ := hup
    rw [ih, h.child_bound hheld]

end Sound

/-! ## Forests that grow -/

/-- Only objects that hold nothing have been added, and nothing else has changed but gates, marks,
attributes and listeners. -/
structure Extends (r s : Registry) : Prop where
  exists_mono : ∀ c, r.Exists c → s.Exists c
  held : ∀ c, s.held c = r.held c
  owners : ∀ f, s.owners f = r.owners f
  containerId : ∀ c, r.Exists c → s.containerId c = r.containerId c
  bound : ∀ c, r.Exists c → s.bound c = r.bound c
  idOf : ∀ e, r.Exists (.ofEntity e) → s.idOf e = r.idOf e
  lifecycle : ∀ e, r.Exists (.ofEntity e) → s.lifecycle e = r.lifecycle e

theorem SameForest.extends (h : SameForest r s) : Extends r s where
  exists_mono c hc := (h.exists_iff c).2 hc
  held := h.held
  owners := h.owners
  containerId c _ := h.containerId c
  bound c _ := h.bound c
  idOf e _ := h.idOf e
  lifecycle e _ := h.lifecycle e

theorem extends_close (r : Registry) (e : EntityRef) : Extends r (r.close (.ofEntity e)) where
  exists_mono c hc := by
    cases c <;> exact hc
  held c := r.held_close _ c
  owners f := r.owners_close _ f
  containerId c _ := r.containerId_close _ c
  bound c _ := r.bound_close _ c
  idOf x _ := r.idOf_close _ x
  lifecycle x _ := r.lifecycle_close _ x

theorem extends_newFactory (r : Registry) (config : TreeConfig) :
    Extends r (r.newFactory config).2 where
  exists_mono c hc := by
    cases c <;> exact hc
  held c := by
    cases c <;> rfl
  owners f := by
    -- the position of the new factory held the default factory, which records nothing either
    change ((r.factories.push ⟨config, ∅⟩).get f.index).owners = (r.factories.get f.index).owners
    rw [Store.get_push]
    split
    · rename_i hf
      rw [hf, Store.get_of_size_le (Nat.le_refl _)]
      rfl
    · rfl
  containerId c _ := by
    cases c <;> rfl
  bound c _ := by
    cases c <;> rfl
  idOf e _ := rfl
  lifecycle e _ := rfl

theorem ne_newContainer (id : Uuid) (f : FactoryRef) {c : ContainerRef} (hc : r.Exists c) :
    c ≠ (r.newContainer id f).1 := by
  rintro rfl
  exact Nat.lt_irrefl _ hc

/-- A container that is added holds nothing. -/
theorem extends_setContainer (r : Registry) {x : Container} (hx : x.entities = ∅) :
    Extends r (r.setContainer (.standalone r.containers.size) x) := by
  have hother : ∀ {c}, r.Exists c →
      (r.setContainer (.standalone r.containers.size) x).container c = r.container c := by
    intro c hc
    rw [container_setContainer, if_neg]
    rintro rfl
    exact Nat.lt_irrefl _ hc
  refine {
    exists_mono := ?_
    held := ?_
    owners := ?_
    containerId := ?_
    bound := ?_
    idOf := ?_
    lifecycle := ?_ }
  · intro c hc
    cases c with
    | ofEntity e => exact hc
    | standalone i =>
      change i < (r.containers.set _ _).size
      have hi : i < r.containers.size := hc
      rw [Store.size_set]
      omega
  · intro c
    rw [Registry.held, container_setContainer]
    split
    · rename_i hc
      -- nothing was held at the position of the new container
      have hblank : r.container c = default := by
        rw [hc]
        exact Store.get_of_size_le (Nat.le_refl _)
      rw [hx, Registry.held, hblank]
      rfl
    · rfl
  · intro f
    rw [Registry.owners, factory_setContainer, Registry.owners]
  · intro c hc
    rw [Registry.containerId, hother hc, Registry.containerId]
  · intro c hc
    rw [Registry.bound, hother hc, Registry.bound]
  · intro e _
    rw [Registry.idOf, entity_setContainer, Registry.idOf]
  · intro e _
    rw [Registry.lifecycle, entity_setContainer, Registry.lifecycle]

theorem extends_newContainer (r : Registry) (id : Uuid) (f : FactoryRef) :
    Extends r (r.newContainer id f).2 := r.extends_setContainer rfl

theorem extends_newDelegating (r : Registry) (delegate : ContainerRef) (f : FactoryRef) :
    Extends r (r.newDelegating delegate f).2 := r.extends_setContainer rfl

namespace Extends

variable (h : Extends r s)

include h

theorem held_iff {c : ContainerRef} {id : Uuid} {e : EntityRef} : s.Held c id e ↔ r.Held c id e :=
  held_congr h.held

theorem sound (hr : r.Sound) : s.Sound where
  placed c id e hheld := by
    obtain ⟨hc, he⟩ := hr.placed c id e (h.held_iff.1 hheld)
    exact ⟨h.exists_mono c hc, h.exists_mono _ he⟩
  child_id {c id e} hheld := by
    rw [h.held_iff] at hheld
    rw [h.containerId _ (hr.placed c id e hheld).2, hr.child_id hheld]
  keyed {c id e} hheld := by
    rw [h.held_iff] at hheld
    rw [h.idOf _ (hr.placed c id e hheld).2, hr.keyed hheld]
  once hc hd := hr.once (h.held_iff.1 hc) (h.held_iff.1 hd)
  unique {c d id x y} hbound hc hd := by
    rw [h.held_iff] at hc hd
    rw [h.bound c (hr.placed _ _ _ hc).1, h.bound d (hr.placed _ _ _ hd).1] at hbound
    exact hr.unique hbound hc hd
  child_bound {c id e} hheld := by
    rw [h.held_iff] at hheld
    obtain ⟨hc, he⟩ := hr.placed c id e hheld
    rw [h.bound _ he, h.bound _ hc, hr.child_bound hheld]
  witnessed {f id owner} hrec := by
    rw [h.owners] at hrec
    obtain ⟨c, e, hbound, hid, hheld⟩ := hr.witnessed hrec
    have hc := (hr.placed c id e hheld).1
    exact ⟨c, e, by rw [h.bound c hc, hbound], by rw [h.containerId c hc, hid], h.held_iff.2 hheld⟩
  acyclic := (acyclic_congr h.held).2 hr.acyclic

theorem full (hr : r.Sound) (hfull : r.Full) : s.Full where
  alive {c id e} hheld := by
    rw [h.held_iff] at hheld
    rw [h.lifecycle _ (hr.placed c id e hheld).2, hfull.alive hheld]
  recorded {c id e} hheld := by
    rw [h.held_iff] at hheld
    have hc := (hr.placed c id e hheld).1
    rw [h.bound c hc, h.owners, h.containerId c hc, hfull.recorded hheld]

end Extends

/-! ## Names -/

/-- The child container of an entity reports the identity of the entity, and every container names
itself in events. -/
structure Formed (r : Registry) : Prop where
  child_id : ∀ e, r.Exists (.ofEntity e) → r.containerId (.ofEntity e) = r.idOf e
  self_named : ∀ c, r.Exists c → r.delegateOf c = c

namespace Formed

theorem of_sameNames (h : r.Formed) (k : SameNames r s) : s.Formed where
  child_id e he := by
    rw [k.containerId, k.idOf, h.child_id e ((k.exists_iff _).1 he)]
  self_named c hc := by
    rw [k.delegateOf, h.self_named c ((k.exists_iff c).1 hc)]

theorem delegate_id (h : r.Formed) {c : ContainerRef} (hc : r.Exists c) :
    r.containerId (r.delegateOf c) = r.containerId c := by
  rw [h.self_named c hc]

end Formed

theorem sameNames_close (r : Registry) (e : EntityRef) : SameNames r (r.close (.ofEntity e)) where
  exists_iff c := by
    cases c <;> exact Iff.rfl
  containerId c := r.containerId_close _ c
  delegateOf c := r.delegateOf_close _ c
  idOf x := r.idOf_close _ x

theorem sameNames_newFactory (r : Registry) (config : TreeConfig) :
    SameNames r (r.newFactory config).2 where
  exists_iff c := by
    cases c <;> exact Iff.rfl
  containerId c := by
    cases c <;> rfl
  delegateOf c := by
    cases c <;> rfl
  idOf _ := rfl

theorem exists_newContainer (id : Uuid) (f : FactoryRef) (c : ContainerRef) :
    (r.newContainer id f).2.Exists c ↔ r.Exists c ∨ c = (r.newContainer id f).1 := by
  cases c with
  | ofEntity e =>
    change r.Exists (.ofEntity e) ↔ _ ∨ ContainerRef.ofEntity e = .standalone r.containers.size
    simp only [reduceCtorEq, or_false]
  | standalone i =>
    change i < (r.containers.set r.containers.size _).size ↔
      i < r.containers.size ∨ ContainerRef.standalone i = .standalone r.containers.size
    rw [Store.size_set, ContainerRef.standalone.injEq]
    omega

theorem formed_newContainer (h : r.Formed) (id : Uuid) (f : FactoryRef) :
    (r.newContainer id f).2.Formed where
  child_id e he := by
    have he' : r.Exists (.ofEntity e) := he
    rw [(extends_newContainer r id f).containerId _ he', (extends_newContainer r id f).idOf e he',
      h.child_id e he']
  self_named c hc := by
    rw [delegateOf, container_newContainer]
    rcases (exists_newContainer id f c).1 hc with hc | rfl
    · rw [if_neg (ne_newContainer id f hc)]
      exact h.self_named c hc
    · rw [if_pos rfl]

theorem Created.formed {c delegate : ContainerRef} {id : Uuid} {e : EntityRef}
    (h : r.Created c delegate id e s) (hc : r.Exists c) (hr : r.Formed) : s.Formed where
  child_id x hx := by
    simp only [h.containerId, h.idOf, ContainerRef.ofEntity.injEq]
    rcases (h.exists_iff hc _).1 hx with hx | hx
    · have hne : x ≠ e := by
        rintro rfl
        rw [h.ref] at hx
        exact Nat.lt_irrefl _ hx
      rw [if_neg hne, if_neg hne, hr.child_id x hx]
    · obtain rfl := ContainerRef.ofEntity.inj hx
      rw [if_pos rfl, if_pos rfl]
  self_named d hd := by
    rw [h.delegateOf]
    split
    · rfl
    · rename_i hne
      exact hr.self_named d (((h.exists_iff hc d).1 hd).resolve_right hne)

/-! ## The empty forest -/

theorem not_exists_empty (c : ContainerRef) : ¬ Registry.empty.Exists c := by
  cases c <;> exact Nat.not_lt_zero _

theorem not_held_empty {c : ContainerRef} {id : Uuid} {e : EntityRef} :
    ¬ Registry.empty.Held c id e := by
  cases c <;> exact nofun

theorem formed_empty : Registry.empty.Formed :=
  ⟨fun _ he => absurd he (not_exists_empty _), fun c hc => absurd hc (not_exists_empty c)⟩

theorem sound_empty : Registry.empty.Sound where
  placed _ _ _ h := absurd h not_held_empty
  child_id h := absurd h not_held_empty
  keyed h := absurd h not_held_empty
  once h := absurd h not_held_empty
  unique _ h := absurd h not_held_empty
  child_bound h := absurd h not_held_empty
  witnessed h := by cases h
  acyclic c h := by
    obtain ⟨_, ⟨_, _, -, hheld⟩, -⟩ := TransGen.head'_iff.1 h
    exact not_held_empty hheld

theorem full_empty : Registry.empty.Full :=
  ⟨fun h => absurd h not_held_empty, fun h => absurd h not_held_empty⟩

end EntityForest.Registry
