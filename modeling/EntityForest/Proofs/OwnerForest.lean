import EntityForest.Attribute.Plain
import EntityForest.Proofs.Calls
import EntityForest.Proofs.Coherence

/-! # The links of one factory

Where all containers belong to one factory, its owner links form a forest as long as no entity comes
to life under the identity of the root above it. Moves look where a new link leads before they write
it. A creation does not: it only looks whether the identity is recorded, and that of a root is not.
-/

namespace EntityForest

open Relation (ReflTransGen TransGen)
open Registry World

section

variable [ValueTypes]

/-- Along the links of the factory each identity leads to one that is not recorded. From a container
this is the identity of a container, and it is the same for the child container of an entity as for
the container that holds the entity. -/
structure Registry.Rooted (r : Registry) (f : FactoryRef) : Prop where
  ends : ∀ id, ∃ top, ReflTransGen (Owners.Link (r.owners f)) id top ∧ top ∉ r.owners f
  root : ∀ c, r.Exists c →
    r.rootOf f c ∉ r.owners f ∧ ∃ d, r.Exists d ∧ r.containerId d = r.rootOf f c
  same_root : ∀ c id e, r.Held c id e → r.rootOf f (.ofEntity e) = r.rootOf f c

namespace Call

/-- If the call makes a container, it is one of this factory. -/
def OnFactory (f : FactoryRef) : Call → Prop
  | newContainer _ g => g = f
  | _ => True

instance (f : FactoryRef) (call : Call) : Decidable (call.OnFactory f) :=
  match call with
  | .newContainer _ g => inferInstanceAs (Decidable (g = f))
  | .newFactory _ | .create .. | .kill .. | .killAll .. | .transfer .. | .transferAll .. =>
    inferInstanceAs (Decidable True)

/-- Between the two registries an entity has come to life under the identity of the root above
it. -/
def ClosesLoop (f : FactoryRef) (r s : Registry) : Call → Prop
  | create c id _ _ => id ∉ r.held c ∧ id ∈ s.held c ∧ r.rootOf f c = id
  | _ => False

instance (f : FactoryRef) (r s : Registry) (call : Call) : Decidable (call.ClosesLoop f r s) :=
  match call with
  | .create c id _ _ =>
    inferInstanceAs (Decidable (id ∉ r.held c ∧ id ∈ s.held c ∧ r.rootOf f c = id))
  | .newFactory _ | .newContainer .. | .kill .. | .killAll .. | .transfer .. | .transferAll .. =>
    inferInstanceAs (Decidable False)

end Call

namespace Registry

/-- A forest with complete books, all of which one factory keeps, and with links that do not
return. -/
structure OneTree (r : Registry) (f : FactoryRef) : Prop where
  tidy : r.Tidy
  bound : ∀ c, r.Exists c → r.bound c = f
  noLoop : ∀ id, ¬ TransGen (Owners.Link (r.owners f)) id id
  limits : r.WithinLimits

variable {r s : Registry} {f : FactoryRef}

theorem oneTree_empty (f : FactoryRef) : Registry.empty.OneTree f where
  tidy := ⟨formed_empty, sound_empty, full_empty⟩
  bound c hc := absurd hc (not_exists_empty c)
  noLoop id h := by
    obtain ⟨_, hlink, -⟩ := TransGen.head'_iff.1 h
    cases hlink
  limits _ _ h := by cases h

namespace OneTree

variable (h : r.OneTree f)

include h

theorem bound_of_held {c : ContainerRef} {id : Uuid} {e : EntityRef} (he : r.Held c id e) :
    r.bound c = f := h.bound c (h.tidy.sound.placed _ _ _ he).1

/-- The way up is recorded. -/
theorem reaches_of_within {c d : ContainerRef} (hc : r.Exists c) (hw : r.Within c d) :
    ReflTransGen (Owners.Link (r.owners f)) (r.containerId c) (r.containerId d) := by
  have hreach := h.tidy.full.reaches_of_within h.tidy.sound hw
  rwa [h.bound c hc] at hreach

theorem rooted : r.Rooted f where
  ends id := ⟨_, Owners.reaches_rootOf id, Owners.rootOf_not_mem h.noLoop id⟩
  root c hc := by
    refine ⟨Owners.rootOf_not_mem h.noLoop _, ?_⟩
    have hreach : ReflTransGen (Owners.Link (r.owners f)) (r.containerId c) (r.rootOf f c) :=
      Owners.reaches_rootOf _
    rcases ReflTransGen.cases_tail hreach with heq | ⟨x, -, hlink⟩
    · exact ⟨c, hc, heq.symm⟩
    · obtain ⟨d, e, -, hid, hheld⟩ := h.tidy.sound.witnessed hlink
      exact ⟨d, (h.tidy.sound.placed _ _ _ hheld).1, hid⟩
  same_root c id e he := by
    have hexists := (h.tidy.sound.placed _ _ _ he).2
    exact Owners.rootOf_eq_rootOf h.noLoop
      (h.reaches_of_within hexists (.single (up_of_held he)))

/-- Only objects of this factory are added. -/
theorem of_extends (k : Extends r s) (hformed : s.Formed)
    (hbound : ∀ c, s.Exists c → r.Exists c ∨ s.bound c = f) (hlimits : s.WithinLimits) :
    s.OneTree f where
  tidy := k.tidy h.tidy hformed
  bound c hc := by
    rcases hbound c hc with hold | hnew
    · rw [k.bound c hold, h.bound c hold]
    · exact hnew
  noLoop := by
    rw [k.owners]
    exact h.noLoop
  limits := hlimits

theorem of_sameForest (k : SameForest r s) : s.OneTree f :=
  h.of_extends k.extends (h.tidy.formed.of_sameNames k.sameNames)
    (fun c hc => .inl ((k.exists_iff c).1 hc)) (h.limits.of_sameForest k)

theorem newFactory (config : TreeConfig) : (r.newFactory config).2.OneTree f :=
  h.of_extends (extends_newFactory r config)
    (h.tidy.formed.of_sameNames (sameNames_newFactory r config))
    (fun c hc => .inl (((sameNames_newFactory r config).exists_iff c).1 hc))
    (h.limits.newFactory config)

theorem newContainer (id : Uuid) : (r.newContainer id f).2.OneTree f := by
  refine h.of_extends (extends_newContainer r id f) (formed_newContainer h.tidy.formed id f)
    (fun c hc => ?_) (h.limits.newContainer id f)
  rcases (exists_newContainer id f c).1 hc with hold | rfl
  · exact .inl hold
  · refine .inr ?_
    rw [Registry.bound, container_newContainer, if_pos rfl]

/-! ## Losses -/

theorem killed {c : ContainerRef} {id : Uuid} {e : EntityRef} (k : r.Killed c id e s) :
    s.OneTree f where
  tidy := (Culls.kill k).tidy h.tidy
  bound d hd := by
    rw [k.bound, h.bound d (((k.names h.tidy.sound.placed).exists_iff d).1 hd)]
  noLoop id hloop := by
    refine h.noLoop id (TransGen.mono (fun x y hlink => ?_) _ _ hloop)
    rw [Owners.Link, k.owners] at hlink
    split at hlink
    · rw [Table.find?_erase] at hlink
      split at hlink
      · cases hlink
      · exact hlink
    · exact hlink
  limits := h.limits.killed k

theorem close (e : EntityRef) : (r.close (.ofEntity e)).OneTree f := by
  refine h.of_extends (extends_close r e) (h.tidy.formed.of_sameNames (sameNames_close r e))
    (fun c hc => .inl (((sameNames_close r e).exists_iff c).1 hc))
    (h.limits.of_size_le (r.config_close _) fun g => ?_)
  rw [owners_close]

theorem culled (k : Culled r s) : s.OneTree f := by
  induction k with
  | refl => exact h
  | tail _ hstep ih =>
    cases hstep with
    | kill killed => exact ih.killed killed
    | close e => exact ih.close e
    | same same => exact ih.of_sameForest same

/-! ## Creations -/

/-- A new link leads to the container of the entity, and from there to its root. -/
theorem created {c : ContainerRef} {id : Uuid} {e : EntityRef} (hc : r.Exists c)
    (k : r.Created c (r.delegateOf c) id e s) (hroot : r.rootOf f c ≠ id) : s.OneTree f where
  tidy := k.tidy hc h.tidy
  bound d hd := by
    rw [k.bound]
    split
    · exact h.bound c hc
    · rename_i hne
      exact h.bound d (((k.exists_iff hc d).1 hd).resolve_right hne)
  noLoop := by
    have hfree : id ∉ r.owners f := h.bound c hc ▸ k.unrecorded
    refine not_cycle_of_step h.noLoop (a := id) (b := r.containerId c) (fun x y hlink => ?_) ?_
    · rw [Owners.Link, k.owners, h.bound c hc, if_pos rfl, Table.find?_insert,
        h.tidy.formed.delegate_id hc] at hlink
      split at hlink
      · rename_i hx
        exact .inr ⟨hx, (Option.some.inj hlink).symm⟩
      · exact .inl hlink
    · intro hback
      exact hroot (Owners.rootOf_eq_of_reaches hback hfree)
  limits := h.limits.created k

/-! ## Moves -/

section Move

variable {src dst : ContainerRef} {id : Uuid} {e : EntityRef} (he : r.Held src id e)
  (hdst : r.Exists dst)

include he hdst

omit hdst in
/-- Where the roots of both ends differ, nothing leads from the destination to the source. -/
theorem not_reaches_of_leaves (leaves : looksLocal r src dst = false) {j : Uuid}
    (hj : ReflTransGen (Owners.Link (r.owners f)) j (r.containerId src)) :
    ¬ ReflTransGen (Owners.Link (r.owners f)) (r.containerId dst) j := by
  intro hback
  have hroot := Owners.rootOf_eq_rootOf h.noLoop (hback.trans hj)
  have hsrc := (h.tidy.sound.placed _ _ _ he).1
  rw [looksLocal, sameTree, rootOf, rootOf, h.bound_of_held he, h.tidy.formed.self_named src hsrc,
    hroot, decide_eq_false_iff_not] at leaves
  exact leaves rfl

omit hdst in
/-- From all that is below an entity the links lead to the container that holds the entity. -/
theorem reaches_holder {x : EntityRef} (hx : r.Within (.ofEntity x) (.ofEntity e))
    (hexists : r.Exists (.ofEntity x)) :
    ReflTransGen (Owners.Link (r.owners f)) (r.containerId (.ofEntity x)) (r.containerId src) :=
  h.reaches_of_within hexists (hx.tail (up_of_held he))

/-- After its release, nothing keeps the factory from adopting the entity elsewhere. -/
theorem mayAdopt (leaves : looksLocal r src dst = false) {t : Registry}
    (k : r.Released (r.bound src) e t) : t.MayAdopt (t.bound dst) e (t.delegateOf dst) := by
  have hsound := h.tidy.sound
  have hid : r.containerId (.ofEntity e) = r.idOf e :=
    (hsound.child_id he).trans (hsound.keyed he).symm
  have hbound : t.bound dst = r.bound src := by
    rw [k.bound, h.bound dst hdst, h.bound_of_held he]
  have htarget : t.containerId (t.delegateOf dst) = r.containerId dst := by
    rw [k.containerId, k.delegateOf, h.tidy.formed.delegate_id hdst]
  have hexists := (hsound.placed _ _ _ he).2
  rw [hbound]
  refine ⟨k.lifecycle_of_alive (h.tidy.full.alive he), ?_, ?_, ?_, ?_, ?_⟩
  · intro p hp heq
    rw [k.descendants] at hp
    rw [k.containerId, htarget] at heq
    obtain ⟨c, hw, hx, -⟩ := hsound.mem_descendants_iff.1 hp
    apply h.not_reaches_of_leaves he leaves (h.reaches_holder he (.head (up_of_held hx) hw)
      (hsound.placed _ _ _ hx).2)
    rw [heq]
  · rw [overLimit_eq_none_iff, k.descendants, k.config]
    intro limit hlimit
    exact Nat.le_trans (h.tidy.full.size_released hsound he k) (h.limits _ limit hlimit)
  · rw [k.idOf, hsound.keyed he]
    exact (h.tidy.full.mem_of_released hsound he k List.mem_cons_self).2
  · intro p hp
    rw [k.descendants] at hp
    rw [k.idOf]
    exact (h.tidy.full.mem_of_released hsound he k
      (List.mem_cons_of_mem id (List.mem_map_of_mem hp))).2
  · intro hback
    rw [htarget, k.idOf, ← hid] at hback
    refine h.not_reaches_of_leaves he leaves (h.reaches_holder he .refl hexists)
      (ReflTransGen.mono (fun x y hlink => ?_) _ _ hback)
    rw [← h.bound_of_held he]
    exact k.record_mono hlink

/-- So nothing is stranded. -/
theorem exists_received (ready : Ready r src id dst e) (leaves : looksLocal r src dst = false) :
    (offered r src dst e).receive dst (r.delegateOf dst) e ≠ none := by
  intro hnone
  have k := released_offered e leaves
  rw [← k.delegateOf] at hnone
  rcases receive_eq_none hnone with hclosed | hpresent | ⟨-, hrefused⟩
  · rw [k.isClosed, ready.isOpen] at hclosed
    cases hclosed
  · obtain ⟨y, hy⟩ := mem_held_iff.1 hpresent
    rw [k.held_iff, k.idOf, h.tidy.sound.keyed he] at hy
    have hbound := (h.bound_of_held he).trans (h.bound_of_held hy).symm
    exact ready.ne (h.tidy.sound.unique hbound he hy)
  · exact hrefused (h.mayAdopt he hdst leaves k)

/-- Whichever way an entity passes, the links that are new lead to its destination. -/
theorem link_of_passage (k : Passage r src id dst e s) {x y : Uuid}
    (hlink : Owners.Link (s.owners f) x y) :
    Owners.Link (r.owners f) x y ∨ (x = r.idOf e ∧ y = r.containerId dst) := by
  have hsound := h.tidy.sound
  have hself := h.tidy.formed.delegate_id hdst
  rw [Owners.Link] at hlink
  cases k with
  | adopted _ imported =>
    have halive := h.tidy.full.alive he
    rw [imported.may.exported] at halive
    cases halive
  | taken _ taken =>
    rw [taken.owners, h.bound dst hdst, if_pos rfl, Table.find?_insert, hself] at hlink
    split at hlink
    · rename_i hx
      exact .inr ⟨hx, (Option.some.inj hlink).symm⟩
    · exact .inl hlink
  | imported leaves imported =>
    have released := released_release r (r.bound src) e
    have hexists := (hsound.placed _ _ _ he).2
    have ht := released.sound hsound hexists
    have he' := released.held_iff.2 he
    have hbound : (r.release (r.bound src) e).bound dst = f := by
      rw [released.bound, h.bound dst hdst]
    rw [← hbound] at hlink
    by_cases hx : x = id
    · rw [hx, imported.record_self ht he', released.containerId, released.delegateOf,
        hself] at hlink
      exact .inr ⟨hx.trans (hsound.keyed he).symm, (Option.some.inj hlink).symm⟩
    by_cases hbelow : ∃ p ∈ (r.release (r.bound src) e).descendants e,
        (r.release (r.bound src) e).idOf p.1 = x
    · -- what is below the entity is recorded as before
      obtain ⟨⟨z, owner⟩, hp, rfl⟩ := hbelow
      obtain ⟨c, hw, hz, -⟩ := ht.mem_descendants_iff.1 hp
      rw [imported.record_inside ht he' hw hz, released.containerId] at hlink
      have hz' := released.held_iff.1 hz
      obtain rfl := Option.some.inj hlink
      rw [Owners.Link, ← h.bound_of_held hz']
      exact .inl (h.tidy.full.recorded hz')
    · have hother : x ≠ (r.release (r.bound src) e).idOf e := by
        rw [released.idOf, hsound.keyed he]
        exact hx
      rw [imported.record_other fun _ => ⟨hother, fun p hp heq => hbelow ⟨p, hp, heq⟩⟩,
        hbound] at hlink
      exact .inl (released.record_mono hlink)

/-- Nothing led from the destination to the entity. -/
theorem not_reaches_of_passage (k : Passage r src id dst e s) :
    ¬ ReflTransGen (Owners.Link (r.owners f)) (r.containerId dst) (r.idOf e) := by
  cases k with
  | adopted _ imported =>
    have halive := h.tidy.full.alive he
    rw [imported.may.exported] at halive
    cases halive
  | taken _ taken =>
    obtain ⟨_, -, -, -, hout⟩ := mayRelocate_iff.1 taken.may
    rwa [h.bound dst hdst, h.tidy.formed.delegate_id hdst] at hout
  | imported leaves _ =>
    have hreach := h.reaches_holder he .refl (h.tidy.sound.placed _ _ _ he).2
    rw [h.tidy.sound.child_id he, ← h.tidy.sound.keyed he] at hreach
    exact h.not_reaches_of_leaves he leaves hreach

theorem passage (ready : Ready r src id dst e) (k : Passage r src id dst e s) : s.OneTree f where
  tidy := k.tidy h.tidy ready hdst fun _ => (h.bound_of_held he).trans (h.bound dst hdst).symm
  bound c hc := by
    have hold := h.bound c (((k.sameNames h.tidy.sound ready hdst).exists_iff c).1 hc)
    cases k with
    | taken _ taken => rw [taken.bound, hold]
    | adopted _ imported => rw [imported.bound, h.bound dst hdst, hold, ite_self]
    | imported _ imported =>
      have released := released_release r (r.bound src) e
      rw [imported.bound, released.bound, released.bound, h.bound dst hdst, hold, ite_self]
  noLoop := not_cycle_of_step h.noLoop (fun _ _ => h.link_of_passage he hdst k)
    (h.not_reaches_of_passage he hdst k)
  limits := by
    cases k with
    | taken _ taken => exact h.limits.taken taken
    | adopted _ imported => exact h.limits.imported imported
    | imported _ imported =>
      exact (h.limits.released (released_release r (r.bound src) e)).imported imported

end Move

end OneTree

end Registry

theorem Registry.SameForest.rooted {r s : Registry} {f : FactoryRef} (h : SameForest r s)
    (hs : s.Rooted f) : r.Rooted f where
  ends := by
    rw [← h.owners]
    exact hs.ends
  root c hc := by
    obtain ⟨htop, d, hd, hid⟩ := hs.root c ((h.exists_iff c).2 hc)
    rw [rootOf, h.owners, h.containerId] at htop hid
    rw [h.containerId] at hid
    exact ⟨htop, d, (h.exists_iff d).1 hd, hid⟩
  same_root c id e he := by
    have hroot := hs.same_root c id e ((held_congr h.held).2 he)
    rw [rootOf, rootOf, h.owners, h.containerId, h.containerId] at hroot
    exact hroot

/-! ## Calls and runs -/

namespace Call

variable {r s : Registry} {f : FactoryRef} {call : Call}

theorem Effect.oneTree (h : call.Effect r s) (hr : r.OneTree f) (valid : call.Valid r)
    (hfactory : call.OnFactory f) (hloop : ¬ call.ClosesLoop f r s) : s.OneTree f := by
  cases h with
  | refused => exact hr
  | newFactory config => exact hr.newFactory config
  | newContainer id g =>
    obtain rfl : g = f := hfactory
    exact hr.newContainer id
  | @created c id _ _ e _ created =>
    refine hr.created valid created fun hroot => hloop ⟨created.absent, ?_, hroot⟩
    rw [created.held valid, if_pos rfl]
    exact Table.mem_insert.2 (.inl rfl)
  | killed culled => exact hr.culled culled
  | killedAll culled => exact hr.culled culled
  | stranded ready leaves h =>
    rcases h with hnone | hne
    · exact absurd hnone (hr.exists_received ready.found valid.2 ready leaves)
    · exact absurd (hr.tidy.formed.self_named _ valid.2) hne
  | moved ready passage same =>
    exact (hr.passage ready.found valid.2 ready passage).of_sameForest same

/-- The link of an entity that is created under the identity of its root leads back to it. -/
theorem Effect.not_rooted (h : call.Effect r s) (hr : r.OneTree f) (valid : call.Valid r)
    (hloop : call.ClosesLoop f r s) : ¬ s.Rooted f := by
  cases h with
  | refused =>
    cases call with
    | create => exact absurd hloop.2.1 hloop.1
    | _ => exact hloop.elim
  | @created c id _ _ e _ created =>
    intro hrooted
    have hfree : id ∉ r.owners f := hr.bound c valid ▸ created.unrecorded
    have hrecord := created.owners f
    rw [hr.bound c valid, if_pos rfl, hr.tidy.formed.delegate_id valid] at hrecord
    have hnew : Owners.Link (s.owners f) id (r.containerId c) := by
      rw [Owners.Link, hrecord, Table.find?_insert_self]
    have hold : ∀ x y, Owners.Link (r.owners f) x y → Owners.Link (s.owners f) x y := by
      intro x y hlink
      have hx : x ≠ id := by
        rintro rfl
        exact hfree (Table.mem_of_find? hlink)
      rw [Owners.Link, hrecord, Table.find?_insert, if_neg hx]
      exact hlink
    have hback : ReflTransGen (Owners.Link (r.owners f)) (r.containerId c) (r.rootOf f c) :=
      Owners.reaches_rootOf _
    rw [hloop.2.2] at hback
    have hcycle := TransGen.head' hnew (ReflTransGen.mono hold _ _ hback)
    -- from the entity on, the links go round and round
    obtain ⟨top, hreach, htop⟩ := hrooted.ends id
    obtain ⟨_, hlink, -⟩ := TransGen.head'_iff.1
      (cycle_of_reaches (Owners.link_unique _) hcycle hreach)
    exact htop (Table.mem_of_find? hlink)
  | _ => exact hloop.elim

end Call

section Run

variable {χ : Type} {obs : Observers χ} {past : List (World χ × Call)} {w : World χ}

/-- On the containers of one factory, the owner links are a forest throughout a run exactly if no
entity comes to life under the identity of the root above it. -/
theorem rooted_iff_no_loop_closed (hobs : obs.Passive) (f : FactoryRef) (run : Run obs past w)
    (hkind : ∀ p ∈ past, p.2.IsSingle ∧ p.2.OnFactory f) :
    (∀ v ∈ reached past w, v.registry.Rooted f) ↔
      ∀ p ∈ past, ¬ p.2.ClosesLoop f p.1.registry (p.2.perform obs p.1).2.registry := by
  refine run.forall_reached_iff (OneTree · f) (Rooted · f)
    (fun call => call.IsSingle ∧ call.OnFactory f)
    (fun v call => call.ClosesLoop f v.registry (call.perform obs v).2.registry) ?_
    (oneTree_empty f) (fun hsame hr => hr.of_sameForest hsame) (fun hr => hr.rooted) ?_ ?_ hkind
  · intro w call hr valid hcall hloop
    exact (Call.effect_perform hobs hcall.1 w).oneTree hr valid hcall.2 hloop
  · intro w call hr valid hcall hloop
    exact (Call.effect_perform hobs hcall.1 w).not_rooted hr valid hloop
  · exact fun hsame hs => hsame.rooted hs

end Run

end

open scoped PlainType

/-- Two containers of one factory, for five entities at most. The identity of the second container
is also that of an entity that comes to life below the first. -/
def orchard : List Call :=
  [.newFactory ⟨some 5, 0⟩, .newContainer (.ofNat 100) ⟨0⟩, .newContainer (.ofNat 2) ⟨0⟩,
    .create (.standalone 1) (.ofNat 3) none ∅, .create (.standalone 0) (.ofNat 1) none ∅,
    .create (.ofEntity ⟨1⟩) (.ofNat 2) none ∅, .transfer (.standalone 0) (.ofNat 1) (.standalone 1),
    .transfer (.standalone 1) (.ofNat 3) (.ofEntity ⟨1⟩), .kill (.ofEntity ⟨1⟩) (.ofNat 2)]

/-- An entity below an entity of a container, with the identity of the container. -/
def knot : List Call :=
  [.newFactory .unbounded, .newContainer (.ofNat 100) ⟨0⟩,
    .create (.standalone 0) (.ofNat 1) none ∅, .create (.ofEntity ⟨0⟩) (.ofNat 100) none ∅]

theorem rooted_orchard :
    Run .quiet (trail orchard).1 (trail orchard).2 ∧
      (trail orchard).2.registry.rootOf ⟨0⟩ (.ofEntity ⟨0⟩) = .ofNat 100 ∧
      ∀ v ∈ reached (trail orchard).1 (trail orchard).2, v.registry.Rooted ⟨0⟩ := by
  have hrun : Run .quiet (trail orchard).1 (trail orchard).2 := run_trail (by decide +kernel)
  exact ⟨hrun, by decide +kernel, (rooted_iff_no_loop_closed Observers.quiet_passive ⟨0⟩ hrun
    (by decide +kernel)).2 (by decide +kernel)⟩

theorem not_rooted_knot :
    Run .quiet (trail knot).1 (trail knot).2 ∧
      (∀ p ∈ (trail knot).1, (p.2.IsSingle ∧ p.2.OnFactory ⟨0⟩) ∧
        (p.2.perform .quiet p.1).1 = none) ∧
      (trail knot).2.registry.Held (.standalone 0) (.ofNat 1) ⟨0⟩ ∧
      (trail knot).2.registry.rootOf ⟨0⟩ (.standalone 0) = .ofNat 1 ∧
      (trail knot).2.registry.rootOf ⟨0⟩ (.ofEntity ⟨0⟩) = .ofNat 100 ∧
      ¬ (trail knot).2.registry.Rooted ⟨0⟩ := by
  have hheld : (trail knot).2.registry.Held (.standalone 0) (.ofNat 1) ⟨0⟩ := by
    unfold Registry.Held
    decide +kernel
  have hup : (trail knot).2.registry.rootOf ⟨0⟩ (.standalone 0) = .ofNat 1 := by decide +kernel
  have hdown : (trail knot).2.registry.rootOf ⟨0⟩ (.ofEntity ⟨0⟩) = .ofNat 100 := by decide +kernel
  refine ⟨run_trail (by decide +kernel), by decide +kernel, hheld, hup, hdown, fun hrooted => ?_⟩
  have hroot := hrooted.same_root (.standalone 0) (.ofNat 1) ⟨0⟩ hheld
  rw [hup, hdown] at hroot
  exact absurd hroot (by decide)

end EntityForest
