import EntityForest.Registry

/-! What each change of a registry does to what references show. A change of one object leaves every
object of another kind alone, and the other objects of its kind as well. -/

namespace EntityForest

theorem EntityRef.index_inj {a b : EntityRef} : a.index = b.index ↔ a = b := by
  cases a; cases b; simp

theorem FactoryRef.index_inj {a b : FactoryRef} : a.index = b.index ↔ a = b := by
  cases a; cases b; simp

variable [ValueTypes]

namespace Registry

variable (r : Registry)

/-! ### Whole objects -/

theorem entity_setEntity (e : EntityRef) (x : Entity) (d : EntityRef) :
    (r.setEntity e x).entity d = if d = e then x else r.entity d := by
  simp only [entity, setEntity, Store.get_set, EntityRef.index_inj]

theorem container_setContainer (c : ContainerRef) (x : Container) (d : ContainerRef) :
    (r.setContainer c x).container d = if d = c then x else r.container d := by
  cases c <;> cases d <;>
    simp [container, setContainer, Store.get_set, EntityRef.index_inj]

theorem factory_setFactory (f : FactoryRef) (x : Factory) (g : FactoryRef) :
    (r.setFactory f x).factory g = if g = f then x else r.factory g := by
  simp only [factory, setFactory, Store.get_set, FactoryRef.index_inj]

theorem bag_setBag (b : BagRef) (x : Bag) (c : BagRef) :
    (r.setBag b x).bag c = if c = b then x else r.bag c := by
  cases b <;> cases c <;> simp [bag, setBag, Store.get_set, EntityRef.index_inj]

@[simp] theorem bag_setBag_self (b : BagRef) (x : Bag) : (r.setBag b x).bag b = x := by
  rw [bag_setBag, if_pos rfl]

/-! ### Objects of other kinds -/

@[simp] theorem entity_setContainer (c : ContainerRef) (x : Container) (e : EntityRef) :
    (r.setContainer c x).entity e = r.entity e := by cases c <;> rfl

@[simp] theorem factory_setContainer (c : ContainerRef) (x : Container) (f : FactoryRef) :
    (r.setContainer c x).factory f = r.factory f := by cases c <;> rfl

@[simp] theorem bag_setContainer (c : ContainerRef) (x : Container) (b : BagRef) :
    (r.setContainer c x).bag b = r.bag b := by cases c <;> cases b <;> rfl

@[simp] theorem container_setEntity (e : EntityRef) (x : Entity) (c : ContainerRef) :
    (r.setEntity e x).container c = r.container c := by cases c <;> rfl

@[simp] theorem factory_setEntity (e : EntityRef) (x : Entity) (f : FactoryRef) :
    (r.setEntity e x).factory f = r.factory f := rfl

@[simp] theorem bag_setEntity (e : EntityRef) (x : Entity) (b : BagRef) :
    (r.setEntity e x).bag b = r.bag b := by cases b <;> rfl

@[simp] theorem entity_setFactory (f : FactoryRef) (x : Factory) (e : EntityRef) :
    (r.setFactory f x).entity e = r.entity e := rfl

@[simp] theorem container_setFactory (f : FactoryRef) (x : Factory) (c : ContainerRef) :
    (r.setFactory f x).container c = r.container c := by cases c <;> rfl

@[simp] theorem bag_setFactory (f : FactoryRef) (x : Factory) (b : BagRef) :
    (r.setFactory f x).bag b = r.bag b := by cases b <;> rfl

@[simp] theorem entity_setBag (b : BagRef) (x : Bag) (e : EntityRef) :
    (r.setBag b x).entity e = r.entity e := by cases b <;> rfl

@[simp] theorem container_setBag (b : BagRef) (x : Bag) (c : ContainerRef) :
    (r.setBag b x).container c = r.container c := by cases b <;> cases c <;> rfl

@[simp] theorem factory_setBag (b : BagRef) (x : Bag) (f : FactoryRef) :
    (r.setBag b x).factory f = r.factory f := by cases b <;> rfl

/-! ### Parts of objects -/

theorem container_setHeld (c : ContainerRef) (t : Table Uuid EntityRef) (d : ContainerRef) :
    (r.setHeld c t).container d =
      if d = c then { r.container c with entities := t } else r.container d :=
  r.container_setContainer ..

theorem held_setHeld (c : ContainerRef) (t : Table Uuid EntityRef) (d : ContainerRef) :
    (r.setHeld c t).held d = if d = c then t else r.held d := by
  rw [held, container_setHeld]
  split <;> rfl

@[simp] theorem containerId_setHeld (c : ContainerRef) (t : Table Uuid EntityRef)
    (d : ContainerRef) : (r.setHeld c t).containerId d = r.containerId d := by
  rw [containerId, container_setHeld]
  split
  · subst d; rfl
  · rfl

theorem container_close (c d : ContainerRef) :
    (r.close c).container d =
      if d = c then { r.container c with closed := true } else r.container d :=
  r.container_setContainer ..

@[simp] theorem held_close (c d : ContainerRef) : (r.close c).held d = r.held d := by
  rw [held, container_close]
  split
  · subst d; rfl
  · rfl

theorem container_rebind (c : ContainerRef) (f : FactoryRef) (d : ContainerRef) :
    (r.rebind c f).container d =
      if d = c then { r.container c with factory := f } else r.container d :=
  r.container_setContainer ..

@[simp] theorem held_rebind (c : ContainerRef) (f : FactoryRef) (d : ContainerRef) :
    (r.rebind c f).held d = r.held d := by
  rw [held, container_rebind]
  split
  · subst d; rfl
  · rfl

theorem owners_setOwners (f : FactoryRef) (t : Table Uuid Uuid) (g : FactoryRef) :
    (r.setOwners f t).owners g = if g = f then t else r.owners g := by
  rw [owners, setOwners, factory_setFactory]
  split <;> rfl

theorem lifecycle_setLifecycle (e : EntityRef) (l : Lifecycle) (d : EntityRef) :
    (r.setLifecycle e l).lifecycle d = if d = e then l else r.lifecycle d := by
  rw [lifecycle, setLifecycle, entity_setEntity]
  split <;> rfl

/-- A change of the lifecycle keeps the identity. -/
@[simp] theorem id_setLifecycle (e : EntityRef) (l : Lifecycle) (d : EntityRef) :
    ((r.setLifecycle e l).entity d).id = (r.entity d).id := by
  rw [setLifecycle, entity_setEntity]
  split
  · subst d; rfl
  · rfl

/-! ### New objects -/

theorem container_newContainer (id : Uuid) (f : FactoryRef) (d : ContainerRef) :
    (r.newContainer id f).2.container d =
      if d = (r.newContainer id f).1 then
        { id, delegate := (r.newContainer id f).1, factory := f, entities := ∅,
          listeners := ∅, closed := false }
      else r.container d :=
  r.container_setContainer ..

theorem entity_newEntity (id : Uuid) (f : FactoryRef) (d : EntityRef) :
    (r.newEntity id f).2.entity d =
      if d = (r.newEntity id f).1 then ⟨id, .alive, []⟩ else r.entity d := by
  simp only [newEntity, entity_setBag, entity_setContainer, entity_setEntity]
  rfl

theorem container_newEntity (id : Uuid) (f : FactoryRef) (d : ContainerRef) :
    (r.newEntity id f).2.container d =
      if d = .ofEntity (r.newEntity id f).1 then
        { id, delegate := .ofEntity (r.newEntity id f).1, factory := f, entities := ∅,
          listeners := ∅, closed := false }
      else r.container d := by
  simp only [newEntity, container_setBag, container_setContainer, container_setEntity]
  rfl

end Registry

end EntityForest
