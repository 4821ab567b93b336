import EntityForest.Attribute.Plain
import EntityForest.Proofs.Histories
import EntityForest.Proofs.Reversals
import EntityForest.Proofs.Tops
import EntityForest.Proofs.Weights

/-! # Adoptions

A factory adopts a subtree as a whole or not at all. What it checks can be told from containment,
and so can what it records then. Inside a tree this way of moving an entity leads where the short
way does, which rewrites one record. -/

namespace EntityForest.Registry

open Relation (ReflTransGen)

section

variable [ValueTypes] {r s : Registry} {f : FactoryRef} {e : EntityRef} {target : ContainerRef}

/-! ## The subtree -/

/-- Within `e` no two places have one identity, and none has that of `e`. -/
structure DistinctWithin (r : Registry) (e : EntityRef) : Prop where
  place : ∀ {c d i j x y}, r.Within c (.ofEntity e) → r.Within d (.ofEntity e) → r.Held c i x →
    r.Held d j y → r.idOf x = r.idOf y → c = d ∧ i = j
  top : ∀ {c i x}, r.Within c (.ofEntity e) → r.Held c i x → r.idOf x ≠ r.idOf e

theorem DistinctWithin.heldOnce (h : r.DistinctWithin e) : r.HeldOnceBelow e :=
  fun hc hd hx hy => h.place hc hd hx hy rfl

/-- No way down from what is held in one place only leads back to it, unless one leads back to its
holder. -/
theorem DistinctWithin.not_below_child (h : r.DistinctWithin e) {p x : EntityRef}
    (hp : p = e ∨ r.Below e p) (hx : r.Parent p x) (hself : ¬ r.Below p p) : ¬ r.Below x x := by
  intro hround
  obtain ⟨i, hheld⟩ := hx
  obtain ⟨c, j, hw, hheld'⟩ := below_iff_held.1 hround
  obtain ⟨y, rfl, hy⟩ := within_ofEntity_iff.1 hw
  have hbelow : x = e ∨ r.Below e x := atOrBelow_trans hp (.inr (.child ⟨i, hheld⟩))
  have hin : ∀ {z}, z = e ∨ r.Below e z → r.Within (.ofEntity z) (.ofEntity e) :=
    fun hz => within_ofEntity_iff.2 ⟨_, rfl, hz⟩
  obtain ⟨hpy, -⟩ := h.place (hin hp) (hin (atOrBelow_trans hbelow hy)) hheld hheld' rfl
  obtain rfl := ContainerRef.ofEntity.inj hpy
  exact hself (.of_parent ⟨i, hheld⟩ hy)

theorem DistinctWithin.noReturnBelow (h : r.DistinctWithin e) : r.NoReturnBelow e := by
  have htop : ¬ r.Below e e := by
    intro hround
    obtain ⟨c, i, hw, hheld⟩ := below_iff_held.1 hround
    exact h.top hw hheld rfl
  rintro x (rfl | hx)
  · exact htop
  · induction hx with
    | child hx => exact h.not_below_child (.inl rfl) hx htop
    | step hp hx ih => exact h.not_below_child (.inr hp) hx ih

/-- Of the entities within `e`, only one has a given identity, and one container holds it. -/
theorem DistinctWithin.owner_eq (h : r.DistinctWithin e) {c : ContainerRef} {i : Uuid}
    {x : EntityRef} (hc : r.Within c (.ofEntity e)) (hx : r.Held c i x) {p : EntityRef × Uuid}
    (hp : p ∈ r.descendants e) (hid : r.idOf p.1 = r.idOf x) : p.2 = r.containerId c := by
  obtain ⟨d, j, hd, hy, howner⟩ := mem_descendants.1 hp
  rw [howner, (h.place hd hc hy hx hid).1]

theorem Sound.distinctWithin (h : r.Sound) {src : ContainerRef} {id : Uuid}
    (he : r.Held src id e) : r.DistinctWithin e where
  place {c d i j x y} hc hd hx hy hid := by
    have hbound := (h.bound_of_within_held he hc).trans (h.bound_of_within_held he hd).symm
    have hij : i = j := (h.keyed hx).symm.trans (hid.trans (h.keyed hy))
    exact ⟨h.unique hbound hx (hij ▸ hy), hij⟩
  top {c i x} hc hx :=
    h.key_ne_of_descendant he (p := (x, r.containerId c)) (mem_descendants.2 ⟨c, i, hc, hx, rfl⟩)

/-! ## What is admitted -/

/-- An adoption that is possible: the entity is exported, the target has the identity of no child
container below it, there is room for all of the subtree, none of its identities is recorded, and no
records lead from the target to the entity. -/
structure Admissible (r : Registry) (f : FactoryRef) (e : EntityRef) (target : ContainerRef) :
    Prop where
  exported : r.lifecycle e = .exported
  not_below : ∀ x, r.Below e x → r.containerId (.ofEntity x) ≠ r.containerId target
  room : ∀ limit, (r.config f).entityLimit = some limit →
    (r.owners f).size + {x | x = e ∨ r.Below e x}.ncard ≤ limit
  unrecorded : ∀ x, x = e ∨ r.Below e x → r.idOf x ∉ r.owners f
  not_within : ¬ ReflTransGen (Owners.Link (r.owners f)) (r.containerId target) (r.idOf e)

theorem forall_descendants_iff {P : EntityRef → Prop} :
    (∀ p ∈ r.descendants e, P p.1) ↔ ∀ x, r.Below e x → P x := by
  constructor
  · intro h x hx
    obtain ⟨owner, hmem⟩ := exists_mem_descendants.2 hx
    exact h _ hmem
  · intro h p hp
    exact h p.1 (exists_mem_descendants.1 ⟨p.2, hp⟩)

theorem mayAdopt_iff_admissible (hids : r.DistinctWithin e) :
    r.MayAdopt f e target ↔ r.Admissible f e target := by
  have hcount := hids.noReturnBelow.ncard hids.heldOnce
  constructor
  · intro h
    refine ⟨h.exported, forall_descendants_iff.1 h.not_below, ?_, ?_, h.not_within⟩
    · rw [← hcount]
      exact overLimit_eq_none_iff.1 h.room
    · rintro x (rfl | hx)
      · exact h.unrecorded
      · obtain ⟨owner, hmem⟩ := exists_mem_descendants.2 hx
        exact h.unrecorded_below _ hmem
  · intro h
    refine ⟨h.exported, forall_descendants_iff.2 h.not_below, ?_, h.unrecorded e (.inl rfl),
      forall_descendants_iff.2 fun x hx => h.unrecorded x (.inr hx), h.not_within⟩
    rw [overLimit_eq_none_iff, hcount]
    exact h.room

/-! ## What is recorded -/

/-- The factory has taken in the subtree: it has a record of the entity and of each one below it
beside those that it had before, and its are all child containers of these. -/
structure Joined (r : Registry) (f : FactoryRef) (e : EntityRef) (target : ContainerRef)
    (s : Registry) : Prop extends r.SameContents e s, r.SameFeatures s where
  lifecycle : ∀ x, s.lifecycle x = if x = e then .alive else r.lifecycle x
  record_iff : ∀ g id owner, (s.owners g).find? id = some owner ↔
    (r.owners g).find? id = some owner ∨
      g = f ∧ (id = r.idOf e ∧ owner = r.containerId target ∨
        ∃ c i x, r.Within c (.ofEntity e) ∧ r.Held c i x ∧ id = r.idOf x ∧
          owner = r.containerId c)
  bound_within : ∀ c, r.Within c (.ofEntity e) → s.bound c = f
  bound_other : ∀ c, ¬ r.Within c (.ofEntity e) → s.bound c = r.bound c

namespace Adopted

variable (h : r.Adopted f e target s)

include h

/-- The record of an identity that is not in the subtree is the old one. -/
theorem find?_other {g : FactoryRef} {id : Uuid}
    (hid : g = f → id ≠ r.idOf e ∧ ∀ p ∈ r.descendants e, r.idOf p.1 ≠ id) :
    (s.owners g).find? id = (r.owners g).find? id := by
  rw [h.owners]
  split
  · rename_i hg
    obtain ⟨hself, hbelow⟩ := hid hg
    rw [Table.find?_foldl_insert_of_not_mem (fun p : EntityRef × Uuid => r.idOf p.1) Prod.snd
      hbelow, Table.find?_insert, if_neg hself, hg]
  · rfl

theorem find?_self (hids : r.DistinctWithin e) :
    (s.owners f).find? (r.idOf e) = some (r.containerId target) := by
  have hother : ∀ p ∈ r.descendants e, r.idOf p.1 ≠ r.idOf e := by
    intro p hp
    obtain ⟨c, i, hc, hx, -⟩ := mem_descendants.1 hp
    exact hids.top hc hx
  rw [h.owners, if_pos rfl, Table.find?_foldl_insert_of_not_mem
    (fun p : EntityRef × Uuid => r.idOf p.1) Prod.snd hother, Table.find?_insert_self]

theorem find?_below (hids : r.DistinctWithin e) {c : ContainerRef} {i : Uuid} {x : EntityRef}
    (hc : r.Within c (.ofEntity e)) (hx : r.Held c i x) :
    (s.owners f).find? (r.idOf x) = some (r.containerId c) := by
  rw [h.owners, if_pos rfl]
  refine Table.find?_foldl_insert_of_mem (fun p : EntityRef × Uuid => r.idOf p.1) Prod.snd
    ⟨(x, r.containerId c), mem_descendants.2 ⟨c, i, hc, hx, rfl⟩, rfl⟩ ?_ _
  exact fun p hp hid => hids.owner_eq hc hx hp hid

theorem record_iff (hids : r.DistinctWithin e) {g : FactoryRef} {id owner : Uuid} :
    (s.owners g).find? id = some owner ↔
      (r.owners g).find? id = some owner ∨
        g = f ∧ (id = r.idOf e ∧ owner = r.containerId target ∨
          ∃ c i x, r.Within c (.ofEntity e) ∧ r.Held c i x ∧ id = r.idOf x ∧
            owner = r.containerId c) := by
  constructor
  · intro hrec
    by_cases hself : g = f ∧ id = r.idOf e
    · obtain ⟨rfl, rfl⟩ := hself
      rw [h.find?_self hids, Option.some.injEq] at hrec
      exact .inr ⟨rfl, .inl ⟨rfl, hrec.symm⟩⟩
    by_cases hbelow : g = f ∧ ∃ p ∈ r.descendants e, r.idOf p.1 = id
    · obtain ⟨rfl, p, hp, rfl⟩ := hbelow
      obtain ⟨c, i, hc, hx, -⟩ := mem_descendants.1 hp
      rw [h.find?_below hids hc hx, Option.some.injEq] at hrec
      exact .inr ⟨rfl, .inr ⟨c, i, p.1, hc, hx, rfl, hrec.symm⟩⟩
    · refine .inl (hrec ▸ (h.find?_other fun hg => ⟨fun hid => hself ⟨hg, hid⟩, ?_⟩).symm)
      exact fun p hp hid => hbelow ⟨hg, p, hp, hid⟩
  · rintro (hrec | ⟨rfl, ⟨rfl, rfl⟩ | ⟨c, i, x, hc, hx, rfl, rfl⟩⟩)
    · -- what is recorded anew was not recorded before
      rw [h.find?_other fun hg => ?_, hrec]
      subst hg
      have hmem := Table.mem_of_find? hrec
      exact ⟨fun hid => h.may.unrecorded (hid ▸ hmem),
        fun p hp hid => h.may.unrecorded_below p hp (hid ▸ hmem)⟩
    · exact h.find?_self hids
    · exact h.find?_below hids hc hx

theorem joined (hids : r.DistinctWithin e) (features : r.SameFeatures s) :
    r.Joined f e target s where
  toSameContents := h.toSameContents
  marks := features.marks
  bag := features.bag
  lifecycle := h.lifecycle
  record_iff _ _ _ := h.record_iff hids
  bound_within c hw := (h.bound c).trans (if_pos (within_iff_descendant.1 hw))
  bound_other c hw := (h.bound c).trans (if_neg fun hin => hw (within_iff_descendant.2 hin))

end Adopted

/-! ## All or nothing -/

/-- What an adoption answers and does. -/
structure AdoptSpec (r : Registry) (f : FactoryRef) (e : EntityRef) (target : ContainerRef)
    (answer : Bool) (s : Registry) : Prop where
  admitted_iff : answer = true ↔ r.Admissible f e target
  admitted : answer = true → r.Joined f e target s
  refused : answer = false → s = r

/-- A factory adopts a subtree with distinct identities, whatever else it has recorded, exactly if
that is possible, and leaves everything as it is otherwise. -/
theorem adopt_contract (f : FactoryRef) (target : ContainerRef) (hids : r.DistinctWithin e) :
    r.AdoptSpec f e target (r.adopt f e target).1 (r.adopt f e target).2 where
  admitted_iff := by
    rw [fst_adopt, mayAdopt_iff, mayAdopt_iff_admissible hids]
  admitted hadmitted := by
    rcases r.adopt_cases f e target with ⟨s, hadopt⟩ | hrefused
    · rw [hadopt]
      exact (adopted_of_adopt hadopt).joined hids (sameFeatures_adopt hadopt)
    · rw [hrefused] at hadmitted
      cases hadmitted
  refused hanswer := by
    rcases r.adopt_cases f e target with ⟨s, hadopt⟩ | hrefused
    · rw [hadopt] at hanswer
      cases hanswer
    · rw [hrefused]

end

section

open scoped PlainType

/-- The first tree has released its entity 1 with the entity 2 below it. -/
def parted : Registry := (trail twoTrees).2.registry.release ⟨0⟩ ⟨0⟩

theorem distinctWithin_parted : parted.DistinctWithin ⟨0⟩ := by
  have he : (trail twoTrees).2.registry.Held (.standalone 0) (.ofNat 1) ⟨0⟩ := by
    unfold Held
    decide +kernel
  have released := released_release (trail twoTrees).2.registry ⟨0⟩ ⟨0⟩
  have hsound := released.sound coherent_twoTrees.sound (coherent_twoTrees.placed _ _ _ he).2
  exact hsound.distinctWithin (released.held_iff.2 he)

/-- The second tree has room for the two, but not under the entity 2. -/
theorem adopt_contract_parted :
    parted.AdoptSpec ⟨1⟩ ⟨0⟩ (.standalone 1) true (parted.adopt ⟨1⟩ ⟨0⟩ (.standalone 1)).2 ∧
      parted.AdoptSpec ⟨1⟩ ⟨0⟩ (.ofEntity ⟨1⟩) false parted := by
  have hadmitted : (parted.adopt ⟨1⟩ ⟨0⟩ (.standalone 1)).1 = true := by decide +kernel
  have hrefused := parted.adopt_cases ⟨1⟩ ⟨0⟩ (.ofEntity ⟨1⟩)
  refine ⟨hadmitted ▸ adopt_contract ⟨1⟩ (.standalone 1) distinctWithin_parted, ?_⟩
  have hspec := adopt_contract ⟨1⟩ (.ofEntity ⟨1⟩) distinctWithin_parted
  have hanswer : (parted.adopt ⟨1⟩ ⟨0⟩ (.ofEntity ⟨1⟩)).1 = false := by decide +kernel
  rwa [hspec.refused hanswer, hanswer] at hspec

end

/-! ## The short way and the long way

A factory moves an entity inside its tree by rewriting one record. It might as well release the
entity and adopt it again, which takes up every record of the subtree and writes it anew. -/

section Ways

variable [ValueTypes] {r s : Registry} {f : FactoryRef} {e : EntityRef} {target : ContainerRef}
  {P : ContainerRef → Prop} {src : ContainerRef} {id : Uuid} (h : r.Coherent)
  (hP : r.Distinct P) (he : r.Held src id e) (hsrc : r.bound src = f) (htarget : P target)
  (hbound : r.bound target = f)

include h hP he hsrc htarget hbound

/-- Under one root the short way is open to every target outside the entity. -/
theorem Coherent.fst_relocate_iff (hroot : r.rootOf f src = r.rootOf f target) :
    (r.relocate f e target).1 = true ↔ ¬ r.Within target (.ofEntity e) := by
  rw [fst_relocate, mayRelocate_iff, ← h.reaches_iff_within hP he htarget hbound]
  constructor
  · rintro ⟨-, -, -, -, havoid⟩
    exact havoid
  · intro havoid
    refine ⟨r.containerId src, ?_, h.alive he, hroot, havoid⟩
    rw [h.keyed he, ← hsrc]
    exact h.recorded he

/-- What has been released may come back to every target outside of it: nothing of the subtree is
recorded any more, and there is as much room as it took before. -/
theorem Coherent.mayAdopt_released {t : Registry} (k : r.Released f e t)
    (hout : ¬ r.Within target (.ofEntity e)) : t.MayAdopt f e target := by
  have hgone : ∀ j ∈ id :: (r.descendants e).map fun p => r.idOf p.1, j ∉ t.owners f := by
    intro j hj
    subst hsrc
    exact (h.full.mem_of_released h.sound he k hj).2
  refine ⟨k.lifecycle_of_alive (h.alive he), ?_, ?_, ?_, ?_, ?_⟩
  · intro p hp hid
    rw [k.descendants] at hp
    rw [k.containerId, k.containerId] at hid
    obtain ⟨c, i, hw, hx, -⟩ := mem_descendants.1 hp
    obtain rfl := hP.eq_of_id (hP.covers hx).2 htarget hid
    exact hout (.head (up_of_held hx) hw)
  · rw [overLimit_eq_none_iff, k.descendants, k.config]
    intro limit hlimit
    subst hsrc
    exact (h.full.size_released h.sound he k).trans (h.within_limits _ limit hlimit)
  · rw [k.idOf, h.keyed he]
    exact hgone id List.mem_cons_self
  · intro p hp
    rw [k.descendants] at hp
    rw [k.idOf]
    exact hgone _ (List.mem_cons_of_mem _ (List.mem_map_of_mem hp))
  · rw [k.containerId, k.idOf]
    intro hreach
    refine hout ((h.reaches_iff_within hP he htarget hbound).1 ?_)
    exact ReflTransGen.mono (fun _ _ hlink => k.record_mono hlink) _ _ hreach

/-- The long way is open to the same targets. -/
theorem Coherent.fst_adopt_release_iff :
    ((r.release f e).adopt f e target).1 = true ↔ ¬ r.Within target (.ofEntity e) := by
  have k := released_release r f e
  have hchild := h.child_id he
  rw [fst_adopt, Registry.mayAdopt_iff]
  constructor
  · intro hmay hw
    refine hmay.outside ?_ rfl ?_ (k.within_iff.2 hw)
    · rw [k.containerId, k.idOf, hchild]
    · intro hid
      exact hmay.not_within (hid ▸ .refl)
  · exact h.mayAdopt_released hP he hsrc htarget hbound k

omit hP htarget hbound in
/-- The long way leads to the records that the short way leaves: what is below the entity has a
record again that it had before. -/
theorem Coherent.record_iff_of_joined {t : Registry} (k : r.Released f e t)
    (joined : t.Joined f e target s) {j owner : Uuid} :
    (s.owners f).find? j = some owner ↔
      ((r.owners f).insert (r.idOf e) (r.containerId target)).find? j = some owner := by
  have hids := h.sound.distinctWithin he
  have hbelow : ∀ {c i x}, r.Within c (.ofEntity e) → r.Held c i x →
      (r.owners f).find? (r.idOf x) = some (r.containerId c) := by
    intro c i x hw hx
    rw [← hsrc, ← h.sound.bound_of_within_held he hw, h.keyed hx]
    exact h.recorded hx
  rw [joined.record_iff, k.record_iff, Table.find?_insert]
  simp only [k.idOf, k.containerId, k.within_iff, k.held_iff, true_and]
  constructor
  · rintro (⟨hrec, hj, -⟩ | ⟨rfl, rfl⟩ | ⟨c, i, x, hw, hx, rfl, rfl⟩)
    · rw [if_neg hj, hrec]
    · rw [if_pos rfl]
    · rw [if_neg (hids.top hw hx), hbelow hw hx]
  · intro hrec
    by_cases hj : j = r.idOf e
    · rw [if_pos hj] at hrec
      exact .inr (.inl ⟨hj, (Option.some.inj hrec).symm⟩)
    rw [if_neg hj] at hrec
    by_cases hmem : ∃ p ∈ r.descendants e, r.idOf p.1 = j ∧ p.2 = owner
    · obtain ⟨p, hp, rfl, rfl⟩ := hmem
      obtain ⟨c, i, hw, hx, howner⟩ := mem_descendants.1 hp
      exact .inr (.inr ⟨c, i, p.1, hw, hx, rfl, howner⟩)
    · exact .inl ⟨hrec, hj, fun p hp hid howner => hmem ⟨p, hp, hid, howner⟩⟩

omit hP htarget hbound in
/-- What is rebound on the long way was bound to the same factory before. -/
theorem Coherent.bound_of_joined {t : Registry} (k : r.Released f e t)
    (joined : t.Joined f e target s) (c : ContainerRef) : s.bound c = r.bound c := by
  by_cases hw : r.Within c (.ofEntity e)
  · rw [joined.bound_within c (k.within_iff.2 hw), h.sound.bound_of_within_held he hw, hsrc]
  · rw [joined.bound_other c fun hw' => hw (k.within_iff.1 hw'), k.bound]

omit hP hsrc htarget hbound in
/-- What is exported on the long way is alive at its end. -/
theorem Coherent.lifecycle_of_joined {t : Registry} (k : r.Released f e t)
    (joined : t.Joined f e target s) (x : EntityRef) : s.lifecycle x = r.lifecycle x := by
  rw [joined.lifecycle]
  split
  · rename_i hx
    rw [hx, h.alive he]
  · rename_i hx
    exact k.lifecycle_other x hx

omit hP htarget hbound in
/-- The short way and the long way lead to one forest. -/
theorem Coherent.restored_of_ways {t : Registry} (hshort : r.relocate f e target = (true, s))
    (hlong : (r.release f e).adopt f e target = (true, t)) : s.Restored t := by
  have k := released_release r f e
  have hexists := (h.placed _ _ _ he).2
  have hsound := k.sound h.sound hexists
  have joined := (adopted_of_adopt hlong).joined (hsound.distinctWithin (k.held_iff.2 he))
    (sameFeatures_adopt hlong)
  have long := k.sameContents.trans joined.toSameContents
  have longFeatures := (sameFeatures_release r f e).trans joined.toSameFeatures
  obtain rfl := relocate_eq_true hshort
  have short := r.sameContents_setOwners f ((r.owners f).insert (r.idOf e) (r.containerId target)) e
  have shortFeatures :=
    sameFeatures_setOwners r f ((r.owners f).insert (r.idOf e) (r.containerId target))
  exact {
    toSameNames := (short.sameNames hexists).symm.trans (long.sameNames hexists)
    toSameFeatures := shortFeatures.symm.trans longFeatures
    held := fun c i => by rw [long.held, short.held]
    owners := fun g j => by
      refine Option.ext fun owner => ?_
      rw [owners_setOwners]
      split
      · rename_i hg
        rw [hg, h.record_iff_of_joined he hsrc k joined]
      · rename_i hg
        rw [joined.record_iff, k.owners_other g hg]
        simp only [hg, false_and, or_false]
    lifecycle := h.lifecycle_of_joined he k joined
    bound := fun c => by
      rw [h.bound_of_joined he hsrc k joined, Registry.bound, Registry.bound, container_setOwners]
    isClosed := fun c => (long.isClosed c).trans (short.isClosed c).symm
    config := fun g => (long.config g).trans (short.config g).symm }

/-- In a coherent forest a factory lets an entity go to the same targets under the same root on both
ways, and on both everything ends up alike. -/
theorem relocate_agrees_with_adopt (hroot : r.rootOf f src = r.rootOf f target) :
    ((r.relocate f e target).1 = true ↔ ((r.release f e).adopt f e target).1 = true) ∧
      ((r.relocate f e target).1 = true →
        (r.relocate f e target).2.Restored ((r.release f e).adopt f e target).2) := by
  have hways := (h.fst_relocate_iff hP he hsrc htarget hbound hroot).trans
    (h.fst_adopt_release_iff hP he hsrc htarget hbound).symm
  refine ⟨hways, fun hshort => ?_⟩
  exact h.restored_of_ways he hsrc (Prod.ext hshort rfl) (Prod.ext (hways.1 hshort) rfl)

end Ways

open scoped PlainType

/-- A tree that is at its limit. The entity 1 has the entity 2 below it and this one the entity 3,
and the entity 4 has none. -/
def fullTree : List Call :=
  [.newFactory ⟨some 4, 0⟩, .newContainer (.ofNat 100) ⟨0⟩,
    .create (.standalone 0) (.ofNat 1) none ∅, .create (.ofEntity ⟨0⟩) (.ofNat 2) none ∅,
    .create (.ofEntity ⟨1⟩) (.ofNat 3) none ∅, .create (.standalone 0) (.ofNat 4) none ∅]

theorem coherent_fullTree : (trail fullTree).2.registry.Coherent :=
  coherent_trail (by decide +kernel) (by decide +kernel) (by decide +kernel) (by decide +kernel)
    (by decide +kernel) (withinLimits_iff.2 (by decide +kernel))

/-- The entity 2 can go from the entity 1 to the entity 4, but not to the entity 3. -/
theorem relocate_agrees_with_adopt_fullTree :
    ((trail fullTree).2.registry.relocate ⟨0⟩ ⟨1⟩ (.ofEntity ⟨2⟩)).1 = false ∧
      (((trail fullTree).2.registry.release ⟨0⟩ ⟨1⟩).adopt ⟨0⟩ ⟨1⟩ (.ofEntity ⟨3⟩)).1 = true ∧
      ((trail fullTree).2.registry.relocate ⟨0⟩ ⟨1⟩ (.ofEntity ⟨3⟩)).2.Restored
        (((trail fullTree).2.registry.release ⟨0⟩ ⟨1⟩).adopt ⟨0⟩ ⟨1⟩ (.ofEntity ⟨3⟩)).2 := by
  have he : (trail fullTree).2.registry.Held (.ofEntity ⟨0⟩) (.ofNat 2) ⟨1⟩ := by
    unfold Held
    decide +kernel
  have htarget : (trail fullTree).2.registry.InUse (.ofEntity ⟨3⟩) := by decide +kernel
  have hshort : ((trail fullTree).2.registry.relocate ⟨0⟩ ⟨1⟩ (.ofEntity ⟨3⟩)).1 = true := by
    decide +kernel
  obtain ⟨hways, hagree⟩ := relocate_agrees_with_adopt coherent_fullTree coherent_fullTree.covers he
    (f := ⟨0⟩) (by decide +kernel) htarget (by decide +kernel) (by decide +kernel)
  exact ⟨by decide +kernel, hways.1 hshort, hagree hshort⟩

end EntityForest.Registry
