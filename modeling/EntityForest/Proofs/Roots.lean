import EntityForest.Proofs.Migration

/-! # Roots

A factory finds the root of a container along its records. Where no two containers share an
identity, every record stands for one step up, so what the records say holds of the containers. -/

namespace EntityForest.Registry

open Relation (ReflTransGen TransGen)

variable [ValueTypes]

/-- No two of these containers have the same identity, and they include all that containment is
about. -/
structure Distinct (r : Registry) (P : ContainerRef → Prop) : Prop where
  covers : ∀ {c id e}, r.Held c id e → P c ∧ P (.ofEntity e)
  eq_of_id : ∀ {c d}, P c → P d → r.containerId c = r.containerId d → c = d

variable {r : Registry} {P : ContainerRef → Prop} {f : FactoryRef}

theorem Sound.up_unique (hr : r.Sound) {c d d' : ContainerRef} (h : r.Up c d) (h' : r.Up c d') :
    d = d' := by
  obtain ⟨e, i, rfl, hd⟩ := h
  obtain ⟨j, hd'⟩ := up_ofEntity_iff.1 h'
  exact hr.once hd hd'

namespace Distinct

variable (h : r.Distinct P) (hr : r.Sound)

include h hr

/-- Only one held entity has a given identity. -/
theorem eq_of_held {c d : ContainerRef} {id : Uuid} {x y : EntityRef} (hx : r.Held c id x)
    (hy : r.Held d id y) : x = y := by
  have hid : r.containerId (.ofEntity x) = r.containerId (.ofEntity y) :=
    (hr.child_id hx).trans (hr.child_id hy).symm
  exact ContainerRef.ofEntity.inj (h.eq_of_id (h.covers hx).2 (h.covers hy).2 hid)

/-- A record is a step up. -/
theorem up_of_link {c : ContainerRef} {owner : Uuid} (hc : P c)
    (hlink : Owners.Link (r.owners f) (r.containerId c) owner) :
    ∃ d, P d ∧ r.containerId d = owner ∧ r.Up c d := by
  obtain ⟨d, e, -, hid, hheld⟩ := hr.witnessed hlink
  obtain ⟨hd, he⟩ := h.covers hheld
  obtain rfl := h.eq_of_id he hc (hr.child_id hheld)
  exact ⟨d, hd, hid, up_of_held hheld⟩

theorem within_of_reaches {c : ContainerRef} {top : Uuid} (hc : P c)
    (hreach : ReflTransGen (Owners.Link (r.owners f)) (r.containerId c) top) :
    ∃ d, P d ∧ r.containerId d = top ∧ r.Within c d := by
  generalize hid : r.containerId c = id at hreach
  induction hreach using ReflTransGen.head_induction_on generalizing c with
  | refl => exact ⟨c, hc, hid, .refl⟩
  | head hlink _ ih =>
    subst hid
    obtain ⟨d, hd, hdid, hup⟩ := h.up_of_link hr hc hlink
    obtain ⟨t, ht, htid, hw⟩ := ih hd hdid
    exact ⟨t, ht, htid, .head hup hw⟩

/-- One root by the records means a common container above both. -/
theorem common_of_rootOf_eq {c d : ContainerRef} (hc : P c) (hd : P d)
    (hroot : r.rootOf f c = r.rootOf f d) : ∃ t, r.Within c t ∧ r.Within d t := by
  obtain ⟨t, ht, htid, hct⟩ := h.within_of_reaches hr hc (Owners.reaches_rootOf _)
  obtain ⟨u, hu, huid, hdu⟩ := h.within_of_reaches hr hd (Owners.reaches_rootOf _)
  obtain rfl := h.eq_of_id ht hu (htid.trans (hroot.trans huid.symm))
  exact ⟨t, hct, hdu⟩

theorem bound_eq_of_rootOf_eq {c d : ContainerRef} (hc : P c) (hd : P d)
    (hroot : r.rootOf f c = r.rootOf f d) : r.bound c = r.bound d := by
  obtain ⟨t, hct, hdt⟩ := h.common_of_rootOf_eq hr hc hd hroot
  rw [hr.bound_of_within hct, hr.bound_of_within hdt]

/-- A way along records that avoids an entity stays below it. -/
theorem within_of_reaches_below {c : ContainerRef} {top : Uuid} {e : EntityRef} (hc : P c)
    (hreach : ReflTransGen (Owners.Link (r.owners f)) (r.containerId c) top)
    (hw : r.Within c (.ofEntity e))
    (havoid : ¬ ReflTransGen (Owners.Link (r.owners f)) (r.containerId c)
      (r.containerId (.ofEntity e))) :
    ∃ d, P d ∧ r.containerId d = top ∧ r.Within d (.ofEntity e) := by
  generalize hid : r.containerId c = id at hreach havoid
  induction hreach using ReflTransGen.head_induction_on generalizing c with
  | refl => exact ⟨c, hc, hid, hw⟩
  | head hlink _ ih =>
    subst hid
    obtain ⟨d, hd, hdid, hup⟩ := h.up_of_link hr hc hlink
    rcases ReflTransGen.cases_head hw with rfl | ⟨d', hup', hw'⟩
    · exact absurd .refl havoid
    · obtain rfl := hr.up_unique hup hup'
      exact ih hd hw' hdid fun hrest => havoid (.head hlink hrest)

/-- An admitted move inside a tree does not lead below the entity, whether or not all that is below
it is recorded. -/
theorem outside_of_mayRelocate {src dst : ContainerRef} {id : Uuid} {e : EntityRef}
    (he : r.Held src id e) (hdst : P dst)
    (hself : r.containerId (r.delegateOf dst) = r.containerId dst)
    (hmay : r.mayRelocate f e (r.delegateOf dst) = true) : ¬ r.Within dst (.ofEntity e) := by
  intro hw
  obtain ⟨current, hrec, -, hroot, hout⟩ := mayRelocate_iff.1 hmay
  rw [hself] at hroot hout
  obtain ⟨c, y, -, rfl, hy⟩ := hr.witnessed hrec
  rw [hr.keyed he] at hy
  obtain rfl := h.eq_of_held hr he hy
  obtain rfl := hr.once he hy
  rw [hr.keyed he, ← hr.child_id he] at hout
  -- the common root is below the entity and above the source
  obtain ⟨t, ht, htid, htw⟩ :=
    h.within_of_reaches_below hr hdst (Owners.reaches_rootOf _) hw hout
  obtain ⟨u, hu, huid, hsrc⟩ := h.within_of_reaches hr (h.covers he).1 (Owners.reaches_rootOf _)
  obtain rfl := h.eq_of_id ht hu (htid.trans (hroot.symm.trans huid.symm))
  exact hr.acyclic.not_within_of_held he (hsrc.trans htw)

/-- Where identities are distinct, whatever lies outside an entity has other identities. -/
theorem apart {e : EntityRef} {src : ContainerRef} {i : Uuid} (he : r.Held src i e) :
    r.Apart f e := by
  intro d id y _ hout hy hye
  refine ⟨?_, fun hw hx => ?_⟩
  · rintro rfl
    rw [hr.keyed he] at hy
    exact hye (h.eq_of_held hr hy he)
  · obtain rfl := h.eq_of_held hr hx hy
    exact hout (hr.once hx hy ▸ hw)

end Distinct

end EntityForest.Registry
