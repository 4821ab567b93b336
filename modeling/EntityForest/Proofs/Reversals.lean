import EntityForest.Attribute.Plain
import EntityForest.Proofs.Keeping
import EntityForest.Proofs.Notices
import EntityForest.Proofs.Transfers

/-! # Transfers and their reversal

In a coherent forest a transfer that succeeds can be undone by the opposite transfer. The way back
is never refused, and it leads to the forest that was there before. -/

namespace EntityForest

open Relation (ReflTransGen)
open Registry World

section

variable [ValueTypes]

namespace Registry

variable {r s t : Registry}

/-! ## What no transfer is concerned with -/

/-- The two registries agree in marks, attributes and listeners. -/
structure SameFeatures (r s : Registry) : Prop where
  marks : ∀ x, (s.entity x).marks = (r.entity x).marks
  bag : ∀ b, s.bag b = r.bag b
  audience : ∀ c, s.audience c = r.audience c

namespace SameFeatures

theorem refl (r : Registry) : r.SameFeatures r := ⟨fun _ => rfl, fun _ => rfl, fun _ => rfl⟩

theorem trans (h : r.SameFeatures s) (k : s.SameFeatures t) : r.SameFeatures t where
  marks x := (k.marks x).trans (h.marks x)
  bag b := (k.bag b).trans (h.bag b)
  audience c := (k.audience c).trans (h.audience c)

theorem symm (h : r.SameFeatures s) : s.SameFeatures r where
  marks x := (h.marks x).symm
  bag b := (h.bag b).symm
  audience c := (h.audience c).symm

end SameFeatures

theorem sameFeatures_setOwners (r : Registry) (f : FactoryRef) (owners : Table Uuid Uuid) :
    r.SameFeatures (r.setOwners f owners) where
  marks _ := rfl
  bag b := r.bag_setFactory f _ b
  audience c := congrArg (fun x => x.listeners.members) (r.container_setOwners f owners c)

theorem sameFeatures_setLifecycle (r : Registry) (e : EntityRef) (l : Lifecycle) :
    r.SameFeatures (r.setLifecycle e l) where
  marks x := r.entity_setEntity_congr Entity.marks (by rfl) x
  bag b := r.bag_setEntity e _ b
  audience c := congrArg (fun x => x.listeners.members) (r.container_setLifecycle e l c)

theorem sameFeatures_setHeld (r : Registry) (c : ContainerRef) (held : Table Uuid EntityRef) :
    r.SameFeatures (r.setHeld c held) where
  marks x := congrArg Entity.marks (r.entity_setContainer c _ x)
  bag b := r.bag_setContainer c _ b
  audience d := r.audience_setHeld c held d

theorem sameFeatures_rebind (r : Registry) (c : ContainerRef) (f : FactoryRef) :
    r.SameFeatures (r.rebind c f) where
  marks x := congrArg Entity.marks (r.entity_setContainer c _ x)
  bag b := r.bag_setContainer c _ b
  audience d := r.audience_rebind _ f d

theorem sameFeatures_foldl_rebind (f : FactoryRef) (l : List (EntityRef × Uuid)) (r : Registry) :
    r.SameFeatures (l.foldl (fun r p => r.rebind (.ofEntity p.1) f) r) := by
  induction l generalizing r with
  | nil => exact .refl r
  | cons p l ih => exact (sameFeatures_rebind r (.ofEntity p.1) f).trans (ih _)

theorem sameFeatures_release (r : Registry) (f : FactoryRef) (e : EntityRef) :
    r.SameFeatures (r.release f e) := by
  unfold release
  simp only [transition]
  split
  · exact (sameFeatures_setOwners r f _).trans (sameFeatures_setLifecycle _ e .exported)
  · exact sameFeatures_setOwners r f _

theorem sameFeatures_adopt {f : FactoryRef} {e : EntityRef} {target : ContainerRef}
    (h : r.adopt f e target = (true, s)) : r.SameFeatures s := by
  unfold adopt at h
  split at h
  · cases h
    exact ((((sameFeatures_setLifecycle r e .alive).trans (sameFeatures_setOwners _ f _)).trans
      (sameFeatures_rebind _ (.ofEntity e) f)).trans (sameFeatures_foldl_rebind f _ _))
  · cases h

theorem sameFeatures_receive {c delegate : ContainerRef} {e : EntityRef} {arrival : Arrival}
    (h : r.receive c delegate e = some (arrival, s)) : r.SameFeatures s := by
  obtain ⟨-, -, t, rfl, harrival⟩ := receive_eq_some h
  refine .trans ?_ (sameFeatures_setHeld t c _)
  cases arrival with
  | taken => exact relocate_eq_true harrival ▸ sameFeatures_setOwners r _ _
  | imported => exact sameFeatures_adopt harrival.2

/-! ## There -/

/-- An entity has gone from one container to another one that does not lie within it. -/
structure Journey (r : Registry) (src : ContainerRef) (id : Uuid) (dst : ContainerRef)
    (e : EntityRef) (s : Registry) : Prop extends Ready r src id dst e where
  outside : ¬ r.Within dst (.ofEntity e)
  arrived : r.Arrived id dst e s

namespace Journey

variable {src dst : ContainerRef} {id : Uuid} {e : EntityRef} (k : r.Journey src id dst e s)
  (h : r.Coherent)

include k

/-- Only the entity itself goes up another way. -/
theorem up_iff {c d : ContainerRef} (hc : c ≠ .ofEntity e) : r.Up c d ↔ s.Up c d := by
  constructor
  · rintro ⟨x, j, rfl, hx⟩
    have hxe : x ≠ e := fun heq => hc (congrArg _ heq)
    exact up_of_held ((k.arrived.held d j x).2 (.inr ⟨hx, hxe⟩))
  · rintro ⟨x, j, rfl, hx⟩
    rcases (k.arrived.held d j x).1 hx with ⟨-, -, rfl⟩ | ⟨hx, -⟩
    · exact absurd rfl hc
    · exact up_of_held hx

theorem within_iff {c : ContainerRef} : r.Within c (.ofEntity e) ↔ s.Within c (.ofEntity e) :=
  reaches_iff_of_ne k.up_iff

theorem held_dst : s.Held dst id e := (k.arrived.held dst id e).2 (.inl ⟨rfl, rfl, rfl⟩)

theorem bound_dst : s.bound dst = r.bound dst := k.arrived.bound_other dst k.outside

/-- Where the factories of both ends differ, the one at the start keeps records of what lies outside
the entity only. -/
theorem exists_held_outside (hne : r.bound src ≠ r.bound dst) {j : Uuid}
    (hj : j ∈ s.owners (r.bound src)) :
    ∃ c x, r.Held c j x ∧ r.bound c = r.bound src ∧ x ≠ e ∧ ¬ r.Within c (.ofEntity e) := by
  obtain ⟨owner, hrec⟩ := Table.mem_iff_find?.1 hj
  obtain ⟨c, x, hbound, -, hx⟩ := k.arrived.coherent.held_of_record hrec
  rcases (k.arrived.held c j x).1 hx with ⟨rfl, -, -⟩ | ⟨hx, hxe⟩
  · exact absurd (hbound.symm.trans k.bound_dst) hne
  · by_cases hw : r.Within c (.ofEntity e)
    · exact absurd (hbound.symm.trans (k.arrived.bound_within c hw)) hne
    · exact ⟨c, x, hx, (k.arrived.bound_other c hw).symm.trans hbound, hxe, hw⟩

include h

theorem src_outside : ¬ r.Within src (.ofEntity e) := h.acyclic.not_within_of_held k.found

theorem bound_src : s.bound src = r.bound src := k.arrived.bound_other src (k.src_outside h)

/-- The same is below the entity as before. -/
theorem below_iff {x : EntityRef} : s.Below e x ↔ r.Below e x := by
  rw [below_iff_held, below_iff_held]
  refine exists_congr fun c => exists_congr fun j => ?_
  rw [← k.within_iff]
  refine and_congr_right fun hw => ?_
  rw [k.arrived.held]
  constructor
  · rintro (⟨rfl, -, -⟩ | ⟨hx, -⟩)
    · exact absurd hw k.outside
    · exact hx
  · intro hx
    refine .inr ⟨hx, ?_⟩
    rintro rfl
    exact h.acyclic.not_within_of_held hx hw

/-- Another factory has made room for the way back. -/
theorem size_le (hne : r.bound src ≠ r.bound dst) :
    (s.owners (r.bound src)).size + ({x | r.Below e x}.ncard + 1) ≤
      (r.owners (r.bound src)).size := by
  have hsound := h.sound
  have hsub : ∀ j ∈ s.owners (r.bound src), j ∈ r.owners (r.bound src) := by
    intro j hj
    obtain ⟨c, x, hx, hbound, -, -⟩ := k.exists_held_outside hne hj
    exact hbound ▸ Table.mem_of_find? (h.recorded hx)
  have hgone : ∀ j ∈ id :: (r.descendants e).map fun p => r.idOf p.1,
      j ∉ s.owners (r.bound src) ∧ j ∈ r.owners (r.bound src) := by
    intro j hj
    rcases List.mem_cons.1 hj with rfl | hj
    · refine ⟨fun hleft => ?_, Table.mem_of_find? (h.recorded k.found)⟩
      obtain ⟨c, x, hx, hbound, hxe, -⟩ := k.exists_held_outside hne hleft
      exact hxe (hsound.eq_of_bound hbound hx k.found)
    · obtain ⟨⟨y, owner⟩, hmem, rfl⟩ := List.mem_map.1 hj
      obtain ⟨d, hw, hy, -⟩ := hsound.mem_descendants_iff.1 hmem
      have hd := hsound.bound_of_within_held k.found hw
      refine ⟨fun hleft => ?_, hd ▸ Table.mem_of_find? (h.recorded hy)⟩
      obtain ⟨c, x, hx, hbound, -, hout⟩ := k.exists_held_outside hne hleft
      obtain rfl := hsound.eq_of_bound (hbound.trans hd.symm) hx hy
      exact hout (h.once hx hy ▸ hw)
  have hle := Table.size_add_length_le (hsound.nodup_ids k.found) hsub hgone
  rwa [List.length_cons, List.length_map, hsound.length_descendants] at hle

/-! ## Back -/

theorem hasRoom_back : s.HasRoom dst src e := by
  have hs := k.arrived.coherent
  by_cases hbound : s.bound dst = s.bound src
  · exact hs.hasRoom_of_bound_eq k.held_dst hbound
  · have released := released_release s (s.bound dst) e
    have hbelow : {x | s.Below e x} = {x | r.Below e x} := Set.ext fun _ => k.below_iff h
    have hne : r.bound src ≠ r.bound dst := by
      rw [← k.bound_src h, ← k.bound_dst]
      exact Ne.symm hbound
    intro limit hlimit
    rw [released.owners_other _ (Ne.symm hbound), hbelow, k.bound_src h]
    rw [k.bound_src h, k.arrived.config] at hlimit
    exact (k.size_le h hne).trans (h.within_limits _ limit hlimit)

theorem ready_back (isOpen : r.isClosed src = false) : Ready s dst id src e where
  apart := by
    rw [k.arrived.names.containerId, k.arrived.names.containerId]
    exact k.apart.symm
  isOpen := (k.arrived.isClosed src).trans isOpen
  found := k.held_dst
  other := by
    rw [k.arrived.names.idOf, k.arrived.names.containerId, ← h.child_id k.found]
    intro hid
    obtain ⟨hsrc, he⟩ := h.covers.covers k.found
    have hin : r.Within src (.ofEntity e) := h.distinct he hsrc hid ▸ .refl
    exact k.src_outside h hin

omit h in
theorem addressable_src (hsrc : r.Addressable src) : s.Addressable src where
  self_named := (k.arrived.names.delegateOf src).trans hsrc.self_named
  present := (k.arrived.names.exists_iff src).2 hsrc.present
  alone {d} hd hid := by
    rw [k.arrived.names.containerId, k.arrived.names.containerId] at hid
    rcases Consistent.inUse_of_moved k.found k.arrived.names (k.arrived.held _ _ _).1 hd with
      hd | rfl
    · exact hsrc.alone hd hid
    · exact absurd hid k.apart

/-- After the opposite journey everything is held where it was. -/
theorem held_back (k' : s.Journey dst id src e t) {c : ContainerRef} {j : Uuid} {x : EntityRef} :
    t.Held c j x ↔ r.Held c j x := by
  rw [k'.arrived.held, k.arrived.held]
  constructor
  · rintro (⟨rfl, rfl, rfl⟩ | ⟨⟨-, -, rfl⟩ | ⟨hx, -⟩, hxe⟩)
    · exact k.found
    · exact absurd rfl hxe
    · exact hx
  · intro hx
    by_cases hxe : x = e
    · subst hxe
      exact .inl ⟨h.once hx k.found, (h.keyed hx).symm.trans (h.keyed k.found), rfl⟩
    · exact .inr ⟨.inr ⟨hx, hxe⟩, hxe⟩

theorem bound_back (k' : s.Journey dst id src e t) (c : ContainerRef) : t.bound c = r.bound c := by
  by_cases hw : r.Within c (.ofEntity e)
  · rw [k'.arrived.bound_within c (k.within_iff.1 hw), k.bound_src h,
      h.sound.bound_of_within_held k.found hw]
  · rw [k'.arrived.bound_other c fun hw' => hw (k.within_iff.2 hw'), k.arrived.bound_other c hw]

end Journey

/-! ## There and back -/

/-- What is recorded can be told from what is held. -/
theorem Coherent.record_iff (h : r.Coherent) {f : FactoryRef} {id owner : Uuid} :
    (r.owners f).find? id = some owner ↔
      ∃ c e, r.bound c = f ∧ r.containerId c = owner ∧ r.Held c id e := by
  constructor
  · exact h.held_of_record
  · rintro ⟨c, e, rfl, rfl, he⟩
    exact h.recorded he

/-- The second forest is the first one again: containers hold the same, factories record the same,
and every object is as it was. -/
structure Restored (r s : Registry) : Prop extends SameNames r s, SameFeatures r s where
  held : ∀ c id, (s.held c).find? id = (r.held c).find? id
  owners : ∀ f id, (s.owners f).find? id = (r.owners f).find? id
  lifecycle : ∀ e, s.lifecycle e = r.lifecycle e
  bound : ∀ c, s.bound c = r.bound c
  isClosed : ∀ c, s.isClosed c = r.isClosed c
  config : ∀ f, s.config f = r.config f

/-- Coherent forests that hold the same in the same places record the same. -/
theorem Coherent.restored (h : r.Coherent) (hs : s.Coherent) (names : SameNames r s)
    (features : r.SameFeatures s) (held : ∀ {c j x}, s.Held c j x ↔ r.Held c j x)
    (bound : ∀ c, s.bound c = r.bound c) (lifecycle : ∀ x, s.lifecycle x = r.lifecycle x)
    (isClosed : ∀ c, s.isClosed c = r.isClosed c) (config : ∀ f, s.config f = r.config f) :
    r.Restored s where
  toSameNames := names
  toSameFeatures := features
  held _ _ := Option.ext fun _ => held
  owners f j := by
    refine Option.ext fun owner => ?_
    rw [hs.record_iff, h.record_iff]
    refine exists_congr fun c => exists_congr fun x => ?_
    rw [bound, names.containerId, held]
  lifecycle := lifecycle
  bound := bound
  isClosed := isClosed
  config := config

theorem Journey.restored {src dst : ContainerRef} {id : Uuid} {e : EntityRef}
    (k : r.Journey src id dst e s) (h : r.Coherent) (k' : s.Journey dst id src e t)
    (features : r.SameFeatures t) : r.Restored t :=
  h.restored k'.arrived.coherent (k.arrived.names.trans k'.arrived.names) features
    (k.held_back h k') (k.bound_back h k')
    (fun x => (k'.arrived.lifecycle x).trans (k.arrived.lifecycle x))
    (fun c => (k'.arrived.isClosed c).trans (k.arrived.isClosed c))
    fun f => (k'.arrived.config f).trans (k.arrived.config f)

end Registry

section Transfer

variable {χ : Type} {obs : Observers χ} {w w' : World χ} {src dst : ContainerRef} {id : Uuid}

/-- A transfer that succeeds is a journey. -/
theorem TransferSpec.journey (k : TransferSpec obs w src id dst (.ok true) w')
    (h : w.registry.Coherent) (hdst : w.registry.Addressable dst) :
    ∃ e, w.registry.Journey src id dst e w'.registry := by
  have apart : w.registry.containerId dst ≠ w.registry.containerId src :=
    fun heq => nomatch (k.sameContainer heq).1
  have isOpen : w.registry.isClosed dst = false :=
    Bool.eq_false_iff.2 fun hclosed => nomatch (k.closed apart hclosed).1
  have hmem : id ∈ w.registry.held src := by
    by_contra habsent
    exact nomatch (k.absent apart isOpen habsent).1
  obtain ⟨e, found⟩ := mem_held_iff.1 hmem
  have hself : dst ≠ .ofEntity e := fun hself => nomatch (k.self e apart isOpen found hself).1
  have outside : ¬ w.registry.Within dst (.ofEntity e) :=
    fun hin => nomatch (k.below e apart isOpen found hself hin).1
  have way : w.registry.SameRoot src dst ∨ w.registry.HasRoom src dst e := by
    by_contra hnone
    obtain ⟨hroot, hroom⟩ := not_or.1 hnone
    exact nomatch (k.strands e apart isOpen found outside hroot hroom).1
  exact ⟨e, ⟨apart, isOpen, found, fun hid => hself (h.eq_ofEntity hdst found hid)⟩, outside,
    (k.moves e apart isOpen found outside way).1⟩

/-- With listeners that leave everything alone a transfer does so, but for where things are. -/
theorem sameFeatures_transfer (hobs : obs.Steady) (holds : Holds) (src : ContainerRef) (id : Uuid)
    (dst : ContainerRef) (w : World χ) :
    w.registry.SameFeatures (w.transfer obs holds src id dst).2.registry := by
  have hkeeps : obs.KeepsMoving fun w' => w.registry.SameFeatures w'.registry :=
    { heard := fun {holds l event w'} h => by
        rw [hobs holds l event w']
        exact h
      released := fun h _ => h.trans (sameFeatures_release _ _ _)
      entered := fun h _ hreceive => h.trans (sameFeatures_receive hreceive)
      left := fun h => h.trans (sameFeatures_setHeld _ _ _) }
  exact transfer_keeps holds hkeeps src id dst (.refl w.registry)

theorem Observers.Steady.passive (h : obs.Steady) : obs.Passive where
  sameForest holds l event w := by
    rw [h holds l event w]
    exact .refl w.registry

/-- A transfer that succeeds can be undone by the opposite one, if the gate of the source is still
open. -/
theorem restored_of_there_and_back (steady : obs.Steady) (accepting : obs.Accepting)
    (holds holds' : Holds) (h : w.registry.Coherent) (hsrc : w.registry.Addressable src)
    (hdst : w.registry.Addressable dst) (isOpen : w.registry.isClosed src = false)
    (moved : w.transfer obs holds src id dst = (.ok true, w')) :
    (w'.transfer obs holds' dst id src).1 = .ok true ∧
      w.registry.Restored (w'.transfer obs holds' dst id src).2.registry := by
  have hthere := transferSpec_transfer holds steady.passive h hsrc.self_named hdst id
  have hfeatures := sameFeatures_transfer steady holds src id dst w
  rw [moved] at hthere hfeatures
  obtain ⟨e, k⟩ := hthere.journey h hdst
  have h' := k.arrived.coherent
  have hsrc' := k.addressable_src hsrc
  have hdst' : w'.registry.delegateOf dst = dst :=
    (k.arrived.names.delegateOf dst).trans hdst.self_named
  have hback := transferSpec_transfer holds' steady.passive h' hdst' hsrc' id
  have hready := k.ready_back h isOpen
  have hout : ¬ w'.registry.Within src (.ofEntity e) :=
    fun hw => k.src_outside h (k.within_iff.2 hw)
  obtain ⟨arrived, -, accepted⟩ := hback.moves e hready.apart hready.isOpen hready.found hout
    (.inr (k.hasRoom_back h))
  exact ⟨accepted accepting, k.restored h ⟨hready, hout, arrived⟩
    (hfeatures.trans (sameFeatures_transfer steady holds' dst id src w'))⟩

end Transfer

end

open scoped PlainType

/-- The first entity has gone to the second tree with the one below it. -/
def visiting : Except ContainerError Bool × World Unit :=
  (trail twoTrees).2.transfer .quiet .nothing (.standalone 0) (.ofNat 1) (.standalone 1)

theorem restored_of_there_and_back_twoTrees :
    (visiting.2.registry.owners ⟨0⟩).size = 0 ∧ (visiting.2.registry.owners ⟨1⟩).size = 3 ∧
      (visiting.2.transfer .quiet .nothing (.standalone 1) (.ofNat 1) (.standalone 0)).1 =
        .ok true ∧
      (trail twoTrees).2.registry.Restored (visiting.2.transfer .quiet .nothing (.standalone 1)
        (.ofNat 1) (.standalone 0)).2.registry := by
  have hthere : visiting = (.ok true, visiting.2) := Prod.ext (by decide +kernel) rfl
  have hsrc : (trail twoTrees).2.registry.Usable (.standalone 0) :=
    ⟨by decide +kernel, by decide +kernel⟩
  have hdst : (trail twoTrees).2.registry.Usable (.standalone 1) :=
    ⟨by decide +kernel, by decide +kernel⟩
  exact ⟨by decide +kernel, by decide +kernel, restored_of_there_and_back (fun _ _ _ _ => rfl)
    (fun _ _ _ _ => rfl) .nothing .nothing coherent_twoTrees (hsrc.addressable coherent_twoTrees)
    (hdst.addressable coherent_twoTrees) (by decide +kernel) hthere⟩

end EntityForest
