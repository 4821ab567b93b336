import EntityForest.Registry.Lemmas

/-! # What a registry shows

The state of a forest as far as operations on it depend on it: which objects exist, what each
container reports, holds and is bound to, what each factory records, and where each entity is in its
life. Each write changes one of these views and leaves the others alone. -/

namespace EntityForest.Registry

variable [ValueTypes]

/-- A reference that the registry has handed out. -/
def Exists (r : Registry) : ContainerRef → Prop
  | .standalone i => i < r.containers.size
  | .ofEntity e => e.index < r.entities.size

instance (r : Registry) (c : ContainerRef) : Decidable (r.Exists c) :=
  match c with
  | .standalone i => inferInstanceAs (Decidable (i < r.containers.size))
  | .ofEntity e => inferInstanceAs (Decidable (e.index < r.entities.size))

def idOf (r : Registry) (e : EntityRef) : Uuid := (r.entity e).id

/-- The container that `c` names in events. -/
def delegateOf (r : Registry) (c : ContainerRef) : ContainerRef := (r.container c).delegate

/-- The factory that a container belongs to. -/
def bound (r : Registry) (c : ContainerRef) : FactoryRef := (r.container c).factory

def isClosed (r : Registry) (c : ContainerRef) : Bool := (r.container c).closed

/-- The listeners that hear of the events of a container. -/
def audience (r : Registry) (c : ContainerRef) : List ListenerRef :=
  (r.container c).listeners.members

def config (r : Registry) (f : FactoryRef) : TreeConfig := (r.factory f).config

/-! ## Registries that show the same -/

/-- The two registries agree in all but marks, attributes and listeners. -/
structure SameForest (r s : Registry) : Prop where
  exists_iff : ∀ c, s.Exists c ↔ r.Exists c
  held : ∀ c, s.held c = r.held c
  containerId : ∀ c, s.containerId c = r.containerId c
  delegateOf : ∀ c, s.delegateOf c = r.delegateOf c
  bound : ∀ c, s.bound c = r.bound c
  isClosed : ∀ c, s.isClosed c = r.isClosed c
  owners : ∀ f, s.owners f = r.owners f
  config : ∀ f, s.config f = r.config f
  idOf : ∀ e, s.idOf e = r.idOf e
  lifecycle : ∀ e, s.lifecycle e = r.lifecycle e

theorem SameForest.refl (r : Registry) : SameForest r r where
  exists_iff _ := Iff.rfl
  held _ := rfl
  containerId _ := rfl
  delegateOf _ := rfl
  bound _ := rfl
  isClosed _ := rfl
  owners _ := rfl
  config _ := rfl
  idOf _ := rfl
  lifecycle _ := rfl

theorem SameForest.trans {r s t : Registry} (h : SameForest r s) (k : SameForest s t) :
    SameForest r t where
  exists_iff c := (k.exists_iff c).trans (h.exists_iff c)
  held c := (k.held c).trans (h.held c)
  containerId c := (k.containerId c).trans (h.containerId c)
  delegateOf c := (k.delegateOf c).trans (h.delegateOf c)
  bound c := (k.bound c).trans (h.bound c)
  isClosed c := (k.isClosed c).trans (h.isClosed c)
  owners f := (k.owners f).trans (h.owners f)
  config f := (k.config f).trans (h.config f)
  idOf e := (k.idOf e).trans (h.idOf e)
  lifecycle e := (k.lifecycle e).trans (h.lifecycle e)

/-- The two registries have the same objects under the same identities. -/
structure SameNames (r s : Registry) : Prop where
  exists_iff : ∀ c, s.Exists c ↔ r.Exists c
  containerId : ∀ c, s.containerId c = r.containerId c
  delegateOf : ∀ c, s.delegateOf c = r.delegateOf c
  idOf : ∀ e, s.idOf e = r.idOf e

theorem SameForest.sameNames {r s : Registry} (h : SameForest r s) : SameNames r s :=
  ⟨h.exists_iff, h.containerId, h.delegateOf, h.idOf⟩

theorem SameNames.trans {r s t : Registry} (h : SameNames r s) (k : SameNames s t) :
    SameNames r t where
  exists_iff c := (k.exists_iff c).trans (h.exists_iff c)
  containerId c := (k.containerId c).trans (h.containerId c)
  delegateOf c := (k.delegateOf c).trans (h.delegateOf c)
  idOf e := (k.idOf e).trans (h.idOf e)

theorem SameNames.symm {r s : Registry} (h : SameNames r s) : SameNames s r where
  exists_iff c := (h.exists_iff c).symm
  containerId c := (h.containerId c).symm
  delegateOf c := (h.delegateOf c).symm
  idOf e := (h.idOf e).symm

theorem SameNames.size_eq {r s : Registry} (h : SameNames r s) :
    s.entities.size = r.entities.size := by
  have hiff : ∀ i, i < s.entities.size ↔ i < r.entities.size :=
    fun i => h.exists_iff (.ofEntity ⟨i⟩)
  have hr := hiff r.entities.size
  have hs := hiff s.entities.size
  omega

variable (r : Registry)

/-! ## Writing one object -/

theorem exists_setContainer {c : ContainerRef} (h : r.Exists c) (x : Container)
    (d : ContainerRef) : (r.setContainer c x).Exists d ↔ r.Exists d := by
  cases c with
  | ofEntity e => cases d <;> exact Iff.rfl
  | standalone i =>
    cases d with
    | ofEntity e => exact Iff.rfl
    | standalone j =>
      have hi : i < r.containers.size := h
      simp only [Exists, setContainer, Store.size_set]
      omega

theorem exists_setEntity {e : EntityRef} (h : r.Exists (.ofEntity e)) (x : Entity)
    (d : ContainerRef) : (r.setEntity e x).Exists d ↔ r.Exists d := by
  cases d with
  | standalone j => exact Iff.rfl
  | ofEntity d =>
    have he : e.index < r.entities.size := h
    simp only [Exists, setEntity, Store.size_set]
    omega

/-- A part of a container that is written back unchanged is unchanged everywhere. -/
theorem container_setContainer_congr {β : Type} (part : Container → β) {c : ContainerRef}
    {x : Container} (h : part x = part (r.container c)) (d : ContainerRef) :
    part ((r.setContainer c x).container d) = part (r.container d) := by
  rw [container_setContainer]
  split
  · subst d
    exact h
  · rfl

theorem entity_setEntity_congr {β : Type} (part : Entity → β) {e : EntityRef} {x : Entity}
    (h : part x = part (r.entity e)) (d : EntityRef) :
    part ((r.setEntity e x).entity d) = part (r.entity d) := by
  rw [entity_setEntity]
  split
  · subst d
    exact h
  · rfl

theorem factory_setFactory_congr {β : Type} (part : Factory → β) {f : FactoryRef} {x : Factory}
    (h : part x = part (r.factory f)) (g : FactoryRef) :
    part ((r.setFactory f x).factory g) = part (r.factory g) := by
  rw [factory_setFactory]
  split
  · subst g
    exact h
  · rfl

/-! ### The entities held by a container -/

section setHeld

variable (c : ContainerRef) (t : Table Uuid EntityRef)

theorem exists_setHeld {c : ContainerRef} (h : r.Exists c) (d : ContainerRef) :
    (r.setHeld c t).Exists d ↔ r.Exists d := r.exists_setContainer h _ d

@[simp] theorem delegateOf_setHeld (d : ContainerRef) :
    (r.setHeld c t).delegateOf d = r.delegateOf d :=
  r.container_setContainer_congr Container.delegate (by rfl) d

@[simp] theorem bound_setHeld (d : ContainerRef) : (r.setHeld c t).bound d = r.bound d :=
  r.container_setContainer_congr Container.factory (by rfl) d

@[simp] theorem isClosed_setHeld (d : ContainerRef) :
    (r.setHeld c t).isClosed d = r.isClosed d :=
  r.container_setContainer_congr Container.closed (by rfl) d

@[simp] theorem audience_setHeld (d : ContainerRef) :
    (r.setHeld c t).audience d = r.audience d :=
  r.container_setContainer_congr (fun x => x.listeners.members) (by rfl) d

@[simp] theorem owners_setHeld (f : FactoryRef) : (r.setHeld c t).owners f = r.owners f := by
  rw [owners, setHeld, factory_setContainer, owners]

@[simp] theorem config_setHeld (f : FactoryRef) : (r.setHeld c t).config f = r.config f := by
  rw [config, setHeld, factory_setContainer, config]

@[simp] theorem idOf_setHeld (e : EntityRef) : (r.setHeld c t).idOf e = r.idOf e := by
  rw [idOf, setHeld, entity_setContainer, idOf]

@[simp] theorem lifecycle_setHeld (e : EntityRef) :
    (r.setHeld c t).lifecycle e = r.lifecycle e := by
  rw [lifecycle, setHeld, entity_setContainer, lifecycle]

end setHeld

/-! ### Gates and bindings -/

section close

variable (c : ContainerRef)

@[simp] theorem containerId_close (d : ContainerRef) :
    (r.close c).containerId d = r.containerId d :=
  r.container_setContainer_congr Container.id (by rfl) d

@[simp] theorem delegateOf_close (d : ContainerRef) :
    (r.close c).delegateOf d = r.delegateOf d :=
  r.container_setContainer_congr Container.delegate (by rfl) d

@[simp] theorem bound_close (d : ContainerRef) : (r.close c).bound d = r.bound d :=
  r.container_setContainer_congr Container.factory (by rfl) d

@[simp] theorem audience_close (d : ContainerRef) :
    (r.close c).audience d = r.audience d :=
  r.container_setContainer_congr (fun x => x.listeners.members) (by rfl) d

theorem isClosed_close (d : ContainerRef) :
    (r.close c).isClosed d = if d = c then true else r.isClosed d := by
  rw [isClosed, container_close]
  split <;> rfl

@[simp] theorem config_close (f : FactoryRef) : (r.close c).config f = r.config f := by
  rw [config, close, factory_setContainer, config]

@[simp] theorem owners_close (f : FactoryRef) : (r.close c).owners f = r.owners f := by
  rw [owners, close, factory_setContainer, owners]

@[simp] theorem idOf_close (e : EntityRef) : (r.close c).idOf e = r.idOf e := by
  rw [idOf, close, entity_setContainer, idOf]

@[simp] theorem lifecycle_close (e : EntityRef) : (r.close c).lifecycle e = r.lifecycle e := by
  rw [lifecycle, close, entity_setContainer, lifecycle]

end close

section rebind

variable (c : ContainerRef) (f : FactoryRef)

theorem bound_rebind (d : ContainerRef) :
    (r.rebind c f).bound d = if d = c then f else r.bound d := by
  rw [bound, container_rebind]
  split <;> rfl

theorem exists_rebind_ofEntity (e : EntityRef) (d : ContainerRef) :
    (r.rebind (.ofEntity e) f).Exists d ↔ r.Exists d := by
  cases d <;> exact Iff.rfl

@[simp] theorem containerId_rebind (d : ContainerRef) :
    (r.rebind c f).containerId d = r.containerId d :=
  r.container_setContainer_congr Container.id (by rfl) d

@[simp] theorem delegateOf_rebind (d : ContainerRef) :
    (r.rebind c f).delegateOf d = r.delegateOf d :=
  r.container_setContainer_congr Container.delegate (by rfl) d

@[simp] theorem isClosed_rebind (d : ContainerRef) :
    (r.rebind c f).isClosed d = r.isClosed d :=
  r.container_setContainer_congr Container.closed (by rfl) d

@[simp] theorem audience_rebind (d : ContainerRef) :
    (r.rebind c f).audience d = r.audience d :=
  r.container_setContainer_congr (fun x => x.listeners.members) (by rfl) d

@[simp] theorem owners_rebind (g : FactoryRef) : (r.rebind c f).owners g = r.owners g := by
  rw [owners, rebind, factory_setContainer, owners]

@[simp] theorem config_rebind (g : FactoryRef) : (r.rebind c f).config g = r.config g := by
  rw [config, rebind, factory_setContainer, config]

@[simp] theorem idOf_rebind (e : EntityRef) : (r.rebind c f).idOf e = r.idOf e := by
  rw [idOf, rebind, entity_setContainer, idOf]

@[simp] theorem lifecycle_rebind (e : EntityRef) :
    (r.rebind c f).lifecycle e = r.lifecycle e := by
  rw [lifecycle, rebind, entity_setContainer, lifecycle]

end rebind

/-! ### Records and lifecycles -/

section setOwners

variable (f : FactoryRef) (t : Table Uuid Uuid)

@[simp] theorem exists_setOwners (d : ContainerRef) :
    (r.setOwners f t).Exists d ↔ r.Exists d := by
  cases d <;> exact Iff.rfl

@[simp] theorem container_setOwners (d : ContainerRef) :
    (r.setOwners f t).container d = r.container d := by
  rw [setOwners, container_setFactory]

@[simp] theorem config_setOwners (g : FactoryRef) :
    (r.setOwners f t).config g = r.config g :=
  r.factory_setFactory_congr Factory.config (by rfl) g

end setOwners

section setLifecycle

variable (e : EntityRef) (l : Lifecycle)

theorem exists_setLifecycle {e : EntityRef} (h : r.Exists (.ofEntity e)) (d : ContainerRef) :
    (r.setLifecycle e l).Exists d ↔ r.Exists d := r.exists_setEntity h _ d

@[simp] theorem container_setLifecycle (d : ContainerRef) :
    (r.setLifecycle e l).container d = r.container d := by
  rw [setLifecycle, container_setEntity]

@[simp] theorem factory_setLifecycle (f : FactoryRef) :
    (r.setLifecycle e l).factory f = r.factory f := rfl

@[simp] theorem idOf_setLifecycle (d : EntityRef) : (r.setLifecycle e l).idOf d = r.idOf d :=
  r.id_setLifecycle e l d

end setLifecycle

/-! ## Changes of records -/

/-- Records, bindings and the lifecycle of `e` may have changed, but no container. -/
structure SameContents (r : Registry) (e : EntityRef) (s : Registry) : Prop where
  exists_iff : r.Exists (.ofEntity e) → ∀ c, s.Exists c ↔ r.Exists c
  held : ∀ c, s.held c = r.held c
  containerId : ∀ c, s.containerId c = r.containerId c
  delegateOf : ∀ c, s.delegateOf c = r.delegateOf c
  isClosed : ∀ c, s.isClosed c = r.isClosed c
  audience : ∀ c, s.audience c = r.audience c
  idOf : ∀ x, s.idOf x = r.idOf x
  config : ∀ f, s.config f = r.config f

theorem SameContents.sameNames {e : EntityRef} {r s : Registry} (h : r.SameContents e s)
    (he : r.Exists (.ofEntity e)) : SameNames r s :=
  ⟨h.exists_iff he, h.containerId, h.delegateOf, h.idOf⟩

theorem SameContents.trans {e : EntityRef} {r s t : Registry} (h : r.SameContents e s)
    (k : s.SameContents e t) : r.SameContents e t where
  exists_iff he c := (k.exists_iff ((h.exists_iff he _).2 he) c).trans (h.exists_iff he c)
  held c := (k.held c).trans (h.held c)
  containerId c := (k.containerId c).trans (h.containerId c)
  delegateOf c := (k.delegateOf c).trans (h.delegateOf c)
  isClosed c := (k.isClosed c).trans (h.isClosed c)
  audience c := (k.audience c).trans (h.audience c)
  idOf x := (k.idOf x).trans (h.idOf x)
  config f := (k.config f).trans (h.config f)

theorem sameContents_setOwners (f : FactoryRef) (owners : Table Uuid Uuid) (e : EntityRef) :
    r.SameContents e (r.setOwners f owners) where
  exists_iff _ c := r.exists_setOwners f owners c
  held c := congrArg Container.entities (r.container_setOwners f owners c)
  containerId c := congrArg Container.id (r.container_setOwners f owners c)
  delegateOf c := congrArg Container.delegate (r.container_setOwners f owners c)
  isClosed c := congrArg Container.closed (r.container_setOwners f owners c)
  audience c := congrArg (fun x => x.listeners.members) (r.container_setOwners f owners c)
  idOf _ := rfl
  config g := r.config_setOwners f owners g

theorem sameContents_setLifecycle (e : EntityRef) (l : Lifecycle) :
    r.SameContents e (r.setLifecycle e l) where
  exists_iff he c := r.exists_setLifecycle l he c
  held c := congrArg Container.entities (r.container_setLifecycle e l c)
  containerId c := congrArg Container.id (r.container_setLifecycle e l c)
  delegateOf c := congrArg Container.delegate (r.container_setLifecycle e l c)
  isClosed c := congrArg Container.closed (r.container_setLifecycle e l c)
  audience c := congrArg (fun x => x.listeners.members) (r.container_setLifecycle e l c)
  idOf x := r.idOf_setLifecycle e l x
  config _ := rfl

theorem sameContents_rebind (x : EntityRef) (f : FactoryRef) (e : EntityRef) :
    r.SameContents e (r.rebind (.ofEntity x) f) where
  exists_iff _ c := r.exists_rebind_ofEntity f x c
  held c := r.held_rebind _ f c
  containerId c := r.containerId_rebind _ f c
  delegateOf c := r.delegateOf_rebind _ f c
  isClosed c := r.isClosed_rebind _ f c
  audience c := r.audience_rebind _ f c
  idOf y := r.idOf_rebind _ f y
  config g := r.config_rebind _ f g

theorem sameContents_foldl_rebind (f : FactoryRef) (e : EntityRef) (l : List (EntityRef × Uuid)) :
    r.SameContents e (l.foldl (fun r p => r.rebind (.ofEntity p.1) f) r) := by
  induction l generalizing r with
  | nil =>
    exact ⟨fun _ _ => Iff.rfl, fun _ => rfl, fun _ => rfl, fun _ => rfl, fun _ => rfl,
      fun _ => rfl, fun _ => rfl, fun _ => rfl⟩
  | cons p l ih => exact (r.sameContents_rebind p.1 f e).trans (ih _)

theorem sameNames_setHeld {c : ContainerRef} (hc : r.Exists c) (t : Table Uuid EntityRef) :
    SameNames r (r.setHeld c t) :=
  ⟨r.exists_setHeld t hc, r.containerId_setHeld c t, r.delegateOf_setHeld c t, r.idOf_setHeld c t⟩

end EntityForest.Registry
