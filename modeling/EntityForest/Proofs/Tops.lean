import EntityForest.Attribute.Plain
import EntityForest.Proofs.Transfers

/-! # The view of a factory

A factory knows identities only and follows records of them. In a consistent forest this shows it
the real tree: the root that it finds for a container is the outermost container around it. -/

namespace EntityForest.Registry

open Relation (ReflTransGen TransGen)

section

variable [ValueTypes]

/-- Going from a container to the one that holds its entity, and on from there, leads to `top`, and
nothing holds the entity of `top`, if it has one at all. -/
structure Top (r : Registry) (c top : ContainerRef) : Prop where
  within : r.Within c top
  outermost : ∀ d, ¬ r.Up top d

/-- What a factory finds out about the containers bound to it, as far as `P` goes, is what a walk
through the containers shows. -/
structure SeesTrees (r : Registry) (P : ContainerRef → Prop) (f : FactoryRef) : Prop where
  top : ∀ {c}, P c → r.bound c = f → ∃! t, r.Top c t
  root : ∀ {c t}, P c → r.bound c = f → r.Top c t → r.rootOf f c = r.containerId t
  same_tree : ∀ {c d}, P c → P d → r.bound c = f → r.bound d = f →
    (r.sameTree f c d = true ↔ ∃ t, r.Top c t ∧ r.Top d t)
  moves : ∀ {src id e target}, r.Held src id e → r.bound src = f → P target →
    r.bound target = f →
    ((r.relocate f e target).1 = true ↔
      (∃ t, r.Top src t ∧ r.Top target t) ∧ target ≠ .ofEntity e ∧
        ∀ x, r.Below e x → target ≠ .ofEntity x)

variable {r : Registry} {P : ContainerRef → Prop} {f : FactoryRef} {c d t : ContainerRef}

/-- There is one way up, so it has one end. -/
theorem Sound.top_unique (hr : r.Sound) {t' : ContainerRef} (h : r.Top c t) (h' : r.Top c t') :
    t = t' := by
  have hend : ∀ {a b}, (∀ d, ¬ r.Up a d) → r.Within a b → a = b := by
    intro a b hout hw
    rcases ReflTransGen.cases_head hw with heq | ⟨d, hup, -⟩
    · exact heq
    · exact absurd hup (hout d)
  have hunique : Relator.RightUnique r.Up := fun _ _ _ hup hup' => hr.up_unique hup hup'
  rcases ReflTransGen.total_of_right_unique hunique h.within h'.within with hw | hw
  · exact hend h.outermost hw
  · exact (hend h'.outermost hw).symm

namespace Consistent

variable (h : r.Consistent) (hP : r.Distinct P)

include h hP

/-- The root by the records is the identity of the top. -/
theorem exists_top (hc : P c) (hbound : r.bound c = f) :
    ∃ t, P t ∧ r.containerId t = r.rootOf f c ∧ r.Top c t := by
  obtain ⟨t, ht, hid, hw⟩ := hP.within_of_reaches h.sound hc (Owners.reaches_rootOf _)
  refine ⟨t, ht, hid, hw, fun d hup => ?_⟩
  -- what holds the entity of the top would have a record of it
  obtain ⟨e, i, rfl, he⟩ := hup
  have hrec := h.recorded he
  have hf : r.bound d = f := by
    rw [← h.child_bound he, ← h.sound.bound_of_within hw, hbound]
  rw [← h.sound.child_id he, hid, hf] at hrec
  exact Owners.rootOf_not_mem (h.no_link_cycle f) _ (Table.mem_of_find? hrec)

theorem rootOf_eq_iff (hc : P c) (hd : P d) (hcf : r.bound c = f) (hdf : r.bound d = f) :
    r.rootOf f c = r.rootOf f d ↔ ∃ t, r.Top c t ∧ r.Top d t := by
  obtain ⟨t, ht, htid, hct⟩ := h.exists_top hP hc hcf
  obtain ⟨u, hu, huid, hdu⟩ := h.exists_top hP hd hdf
  rw [← htid, ← huid]
  constructor
  · intro hid
    obtain rfl := hP.eq_of_id ht hu hid
    exact ⟨t, hct, hdu⟩
  · rintro ⟨v, hcv, hdv⟩
    rw [h.sound.top_unique hct hcv, h.sound.top_unique hdu hdv]

/-- Records lead from a container to an entity if the container lies within the entity. -/
theorem reaches_iff_within {src : ContainerRef} {id : Uuid} {e : EntityRef} (he : r.Held src id e)
    (hc : P c) (hbound : r.bound c = f) :
    ReflTransGen (Owners.Link (r.owners f)) (r.containerId c) (r.idOf e) ↔
      r.Within c (.ofEntity e) := by
  rw [← h.child_id he]
  constructor
  · intro hreach
    obtain ⟨d, hd, hid, hw⟩ := hP.within_of_reaches h.sound hc hreach
    obtain rfl := hP.eq_of_id hd (hP.covers he).2 hid
    exact hw
  · intro hw
    rw [← hbound]
    exact h.full.reaches_of_within h.sound hw

/-- The view of a factory is the real tree. -/
theorem sees_trees (f : FactoryRef) : r.SeesTrees P f where
  top hc hbound := by
    obtain ⟨t, -, -, ht⟩ := h.exists_top hP hc hbound
    exact ⟨t, ht, fun _ ht' => h.sound.top_unique ht' ht⟩
  root hc hbound ht := by
    obtain ⟨u, -, hid, hu⟩ := h.exists_top hP hc hbound
    rw [← hid, h.sound.top_unique hu ht]
  same_tree hc hd hcf hdf := by
    rw [sameTree, decide_eq_true_eq]
    exact h.rootOf_eq_iff hP hc hd hcf hdf
  moves {src id e target} he hsrc htarget hbound := by
    have hrec : (r.owners f).find? (r.idOf e) = some (r.containerId src) := by
      rw [h.keyed he, ← hsrc]
      exact h.recorded he
    have hout : ¬ r.Within target (.ofEntity e) ↔
        target ≠ .ofEntity e ∧ ∀ x, r.Below e x → target ≠ .ofEntity x := by
      rw [within_ofEntity_iff]
      constructor
      · intro hnone
        exact ⟨fun heq => hnone ⟨e, heq, .inl rfl⟩, fun x hx heq => hnone ⟨x, heq, .inr hx⟩⟩
      · rintro ⟨hne, hbelow⟩ ⟨x, heq, rfl | hx⟩
        · exact hne heq
        · exact hbelow x hx heq
    rw [fst_relocate, mayRelocate_iff, ← hout, ← h.reaches_iff_within hP he htarget hbound,
      ← h.rootOf_eq_iff hP (hP.covers he).1 htarget hsrc hbound]
    constructor
    · rintro ⟨current, hcurrent, -, hroot, havoid⟩
      obtain rfl := Option.some.inj (hcurrent.symm.trans hrec)
      exact ⟨hroot, havoid⟩
    · rintro ⟨hroot, havoid⟩
      exact ⟨_, hrec, h.alive he, hroot, havoid⟩

end Consistent

end

open scoped PlainType

/-- The first tree has one root, and its first entity cannot go below its second one. -/
theorem sees_trees_twoTrees :
    (trail twoTrees).2.registry.SeesTrees (trail twoTrees).2.registry.InUse ⟨0⟩ ∧
      (trail twoTrees).2.registry.rootOf ⟨0⟩ (.ofEntity ⟨1⟩) = .ofNat 100 ∧
      ((trail twoTrees).2.registry.relocate ⟨0⟩ ⟨1⟩ (.standalone 0)).1 = true ∧
      ((trail twoTrees).2.registry.relocate ⟨0⟩ ⟨0⟩ (.ofEntity ⟨1⟩)).1 = false :=
  ⟨coherent_twoTrees.toConsistent.sees_trees coherent_twoTrees.covers ⟨0⟩, by decide +kernel,
    by decide +kernel, by decide +kernel⟩

end EntityForest.Registry
