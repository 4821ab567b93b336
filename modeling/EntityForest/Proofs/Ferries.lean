import EntityForest.Proofs.Reversals

/-! # Several moves to one destination

What several moves from one container to another have made of a coherent forest can be told from the
set of the entities that have moved, whatever their order was. -/

namespace EntityForest.Registry

open Relation (ReflTransGen)
open World

variable [ValueTypes] {r s t : Registry} {src dst : ContainerRef} {S : Set EntityRef}

/-- The entities of one container that can go to another one: none if that is closed, and else all
that do not have it below them. -/
def Movers (r : Registry) (src dst : ContainerRef) : Set EntityRef :=
  {e | (∃ id, r.Held src id e) ∧ r.isClosed dst = false ∧ ¬ r.Within dst (.ofEntity e)}

/-- The entities in `S` have gone to the destination, each with everything below it. Nothing else
has changed. -/
structure Ferried (r : Registry) (src dst : ContainerRef) (S : Set EntityRef) (s : Registry) :
    Prop where
  movers : S ⊆ r.Movers src dst
  names : SameNames r s
  held : ∀ c j x, s.Held c j x ↔ (c = dst ∧ r.Held src j x ∧ x ∈ S) ∨ (r.Held c j x ∧ x ∉ S)
  bound_within : ∀ c, ∀ e ∈ S, r.Within c (.ofEntity e) → s.bound c = r.bound dst
  bound_other : ∀ c, (∀ e ∈ S, ¬ r.Within c (.ofEntity e)) → s.bound c = r.bound c
  lifecycle : ∀ x, s.lifecycle x = r.lifecycle x
  isClosed : ∀ c, s.isClosed c = r.isClosed c
  config : ∀ f, s.config f = r.config f
  coherent : s.Coherent

theorem finite_movers (r : Registry) (src dst : ContainerRef) : (r.Movers src dst).Finite := by
  refine (List.finite_toSet (r.held src).values).subset ?_
  rintro e ⟨hheld, -⟩
  exact Table.mem_values.2 hheld

theorem Coherent.ferried (h : r.Coherent) (src dst : ContainerRef) : r.Ferried src dst ∅ r where
  movers := Set.empty_subset _
  names := (SameForest.refl r).sameNames
  held c j x := by
    simp only [Set.mem_empty_iff_false, and_false, false_or, not_false_eq_true, and_true]
  bound_within _ _ he := absurd he (Set.notMem_empty _)
  bound_other _ _ := rfl
  lifecycle _ := rfl
  isClosed _ := rfl
  config _ := rfl
  coherent := h

namespace Ferried

variable (k : r.Ferried src dst S s) (h : r.Coherent)

include k

theorem of_mem {e : EntityRef} (he : e ∈ S) :
    (∃ id, r.Held src id e) ∧ r.isClosed dst = false ∧ ¬ r.Within dst (.ofEntity e) :=
  k.movers he

/-! ## Ways up -/

/-- Whatever has not moved goes up the same way. -/
theorem up_iff {c d : ContainerRef} (hc : c ∉ ContainerRef.ofEntity '' S) :
    r.Up c d ↔ s.Up c d := by
  constructor
  · rintro ⟨x, j, rfl, hx⟩
    exact up_of_held ((k.held d j x).2 (.inr ⟨hx, fun hmem => hc ⟨x, hmem, rfl⟩⟩))
  · rintro ⟨x, j, rfl, hx⟩
    rcases (k.held d j x).1 hx with ⟨-, -, hmem⟩ | ⟨hx, -⟩
    · exact absurd ⟨x, hmem, rfl⟩ hc
    · exact up_of_held hx

theorem held_dst {id : Uuid} {e : EntityRef} (he : e ∈ S) (hheld : r.Held src id e) :
    s.Held dst id e := (k.held _ _ _).2 (.inl ⟨rfl, hheld, he⟩)

/-- The destination is where it was, since nothing that has it below has moved. -/
theorem within_dst_iff {c : ContainerRef} : s.Within dst c ↔ r.Within dst c := by
  have hback : ∀ {c}, s.Within dst c → r.Within dst c := by
    intro c hw
    rcases reaches_or_of_notMem (fun hc => (k.up_iff hc).2) hw with hw | ⟨_, ⟨x, hx, rfl⟩, hpath, -⟩
    · exact hw
    · exact absurd hpath (k.of_mem hx).2.2
  refine ⟨hback, fun hw => ?_⟩
  rcases reaches_or_of_notMem (fun hc => (k.up_iff hc).1) hw with hw | ⟨_, ⟨x, hx, rfl⟩, hpath, -⟩
  · exact hw
  · exact absurd (hback hpath) (k.of_mem hx).2.2

theorem bound_dst : s.bound dst = r.bound dst :=
  k.bound_other dst fun _ he => (k.of_mem he).2.2

include h

/-- In an entity that does not have the destination below it there is the same as before. -/
theorem within_iff {c : ContainerRef} {id : Uuid} {e : EntityRef} (he : r.Held src id e)
    (hout : ¬ r.Within dst (.ofEntity e)) :
    s.Within c (.ofEntity e) ↔ r.Within c (.ofEntity e) := by
  constructor
  · intro hw
    rcases reaches_or_of_notMem (fun hc => (k.up_iff hc).2) hw with
      hw | ⟨_, ⟨x, hx, rfl⟩, hpath, hmore⟩
    · exact hw
    rcases ReflTransGen.cases_head hmore with heq | ⟨d, hup, hmore⟩
    · cases heq
      exact hpath
    · obtain ⟨j, hj⟩ := (k.of_mem hx).1
      obtain rfl := k.coherent.sound.up_unique hup (up_of_held (k.held_dst hx hj))
      exact absurd (k.within_dst_iff.1 hmore) hout
  · intro hw
    rcases reaches_or_of_notMem (fun hc => (k.up_iff hc).1) hw with
      hw | ⟨_, ⟨x, hx, rfl⟩, hpath, hmore⟩
    · exact hw
    rcases ReflTransGen.cases_head hmore with heq | ⟨d, hup, hmore⟩
    · cases heq
      exact hpath
    · obtain ⟨j, hj⟩ := (k.of_mem hx).1
      obtain rfl := h.sound.up_unique hup (up_of_held hj)
      exact absurd hmore (h.acyclic.not_within_of_held he)

omit h in
theorem addressable_dst (hdst : r.Addressable dst) : s.Addressable dst where
  self_named := (k.names.delegateOf dst).trans hdst.self_named
  present := (k.names.exists_iff dst).2 hdst.present
  alone {d} hd hid := by
    rw [k.names.containerId, k.names.containerId] at hid
    have hused : r.InUse d ∨ d = dst := by
      cases d with
      | standalone i => exact .inl ((k.names.exists_iff (.standalone i)).1 hd)
      | ofEntity x =>
        rcases hd with ⟨c, j, hx⟩ | ⟨j, y, hy⟩
        · rcases (k.held _ _ _).1 hx with ⟨-, hx, -⟩ | ⟨hx, -⟩
          · exact .inl (.inl ⟨src, j, hx⟩)
          · exact .inl (.inl ⟨c, j, hx⟩)
        · rcases (k.held _ _ _).1 hy with ⟨heq, -, -⟩ | ⟨hy, -⟩
          · exact .inr heq
          · exact .inl (.inr ⟨j, y, hy⟩)
    exact hused.elim (fun hd => hdst.alone hd hid) id

/-! ## One move more -/

theorem step {id : Uuid} {e : EntityRef} (j : s.Journey src id dst e t) :
    r.Ferried src dst (insert e S) t := by
  have hne := j.ne
  obtain ⟨he, hnew⟩ : r.Held src id e ∧ e ∉ S := by
    rcases (k.held _ _ _).1 j.found with ⟨heq, -⟩ | hstays
    · exact absurd heq hne
    · exact hstays
  have hout : ¬ r.Within dst (.ofEntity e) := fun hw => j.outside (k.within_dst_iff.2 hw)
  have hwithin : ∀ {c}, s.Within c (.ofEntity e) ↔ r.Within c (.ofEntity e) :=
    k.within_iff h he hout
  refine {
    movers := Set.insert_subset ⟨⟨id, he⟩, (k.isClosed dst).symm.trans j.isOpen, hout⟩ k.movers
    names := k.names.trans j.arrived.names
    held := fun c i x => ?_
    bound_within := fun c x hx hw => ?_
    bound_other := fun c hw => ?_
    lifecycle := fun x => (j.arrived.lifecycle x).trans (k.lifecycle x)
    isClosed := fun c => (j.arrived.isClosed c).trans (k.isClosed c)
    config := fun f => (j.arrived.config f).trans (k.config f)
    coherent := j.arrived.coherent }
  · rw [j.arrived.held, k.held]
    by_cases hx : x = e
    · subst hx
      have hid : r.Held src i x ↔ i = id :=
        ⟨fun hi => (h.keyed hi).symm.trans (h.keyed he), fun hi => hi ▸ he⟩
      simp [hid]
    · simp [hx]
  · by_cases hin : s.Within c (.ofEntity e)
    · rw [j.arrived.bound_within c hin, k.bound_dst]
    · rw [j.arrived.bound_other c hin]
      rcases hx with rfl | hx
      · exact absurd (hwithin.2 hw) hin
      · exact k.bound_within c x hx hw
  · have hin : ¬ s.Within c (.ofEntity e) := fun hin => hw e (Set.mem_insert _ _) (hwithin.1 hin)
    rw [j.arrived.bound_other c hin]
    exact k.bound_other c fun x hx => hw x (Set.mem_insert_of_mem _ hx)

/-! ## Room for one move more -/

/-- The factory of the destination records what was there and what has come. -/
theorem mem_owners_iff {j : Uuid} : j ∈ s.owners (r.bound dst) ↔ ∃ c x, r.Held c j x ∧
    (r.bound c = r.bound dst ∨ ∃ e ∈ S, x = e ∨ r.Within c (.ofEntity e)) := by
  constructor
  · intro hj
    obtain ⟨owner, hrec⟩ := Table.mem_iff_find?.1 hj
    obtain ⟨c, x, hbound, -, hx⟩ := k.coherent.held_of_record hrec
    rcases (k.held c j x).1 hx with ⟨-, hx, hmem⟩ | ⟨hx, -⟩
    · exact ⟨src, x, hx, .inr ⟨x, hmem, .inl rfl⟩⟩
    · by_cases hin : ∃ e ∈ S, r.Within c (.ofEntity e)
      · obtain ⟨e, he, hw⟩ := hin
        exact ⟨c, x, hx, .inr ⟨e, he, .inr hw⟩⟩
      · refine ⟨c, x, hx, .inl ((k.bound_other c ?_).symm.trans hbound)⟩
        exact fun e he hw => hin ⟨e, he, hw⟩
  · rintro ⟨c, x, hx, hplace⟩
    by_cases hmem : x ∈ S
    · obtain ⟨i, hi⟩ := (k.of_mem hmem).1
      obtain rfl := h.once hx hi
      have hrec := k.coherent.recorded (k.held_dst hmem hx)
      rw [k.bound_dst] at hrec
      exact Table.mem_of_find? hrec
    · have hrec := k.coherent.recorded ((k.held c j x).2 (.inr ⟨hx, hmem⟩))
      suffices hbound : s.bound c = r.bound dst by
        rw [hbound] at hrec
        exact Table.mem_of_find? hrec
      by_cases hin : ∃ e ∈ S, r.Within c (.ofEntity e)
      · obtain ⟨e, he, hw⟩ := hin
        exact k.bound_within c e he hw
      · rw [k.bound_other c fun e he hw => hin ⟨e, he, hw⟩]
        rcases hplace with hbound | ⟨e, he, rfl | hw⟩
        · exact hbound
        · exact absurd he hmem
        · exact absurd ⟨e, he, hw⟩ hin

/-- If all that can move has room at the destination in the end, each one has room on the way. -/
theorem hasRoom (last : r.Ferried src dst (r.Movers src dst) t) {id : Uuid} {e : EntityRef}
    (he : s.Held src id e) (hmover : e ∈ r.Movers src dst) : s.HasRoom src dst e := by
  have hs := k.coherent
  by_cases hbound : s.bound src = s.bound dst
  · exact hs.hasRoom_of_bound_eq he hbound
  have hne : s.bound src ≠ r.bound dst := k.bound_dst ▸ hbound
  have hout := hmover.2.2
  obtain ⟨i, hi⟩ := hmover.1
  -- the factory of the destination does not record what is held elsewhere
  have hforeign : ∀ {c j x}, s.Held c j x → s.bound c = s.bound src →
      j ∉ s.owners (r.bound dst) := by
    intro c j x hx hc hj
    obtain ⟨owner, hrec⟩ := Table.mem_iff_find?.1 hj
    obtain ⟨d, y, hd, -, hy⟩ := hs.held_of_record hrec
    obtain rfl := hs.covers.eq_of_held hs.sound hx hy
    obtain rfl := hs.once hx hy
    exact hne (hc.symm.trans hd)
  have hsub : ∀ j ∈ s.owners (r.bound dst), j ∈ t.owners (r.bound dst) := by
    intro j hj
    obtain ⟨c, x, hx, hplace⟩ := (k.mem_owners_iff h).1 hj
    exact (last.mem_owners_iff h).2 ⟨c, x, hx, hplace.imp_right fun ⟨y, hy, hw⟩ =>
      ⟨y, k.movers hy, hw⟩⟩
  have hnew : ∀ j ∈ id :: (s.descendants e).map fun p => s.idOf p.1,
      j ∉ s.owners (r.bound dst) ∧ j ∈ t.owners (r.bound dst) := by
    intro j hj
    rcases List.mem_cons.1 hj with rfl | hj
    · refine ⟨hforeign he rfl, (last.mem_owners_iff h).2 ⟨src, e, ?_, .inr ⟨e, hmover, .inl rfl⟩⟩⟩
      rwa [← hs.keyed he, k.names.idOf, h.keyed hi]
    · obtain ⟨⟨y, owner⟩, hmem, rfl⟩ := List.mem_map.1 hj
      obtain ⟨c, hw, hy, -⟩ := hs.sound.mem_descendants_iff.1 hmem
      refine ⟨hforeign hy (hs.sound.bound_of_within_held he hw), (last.mem_owners_iff h).2 ?_⟩
      rcases (k.held c _ y).1 hy with ⟨rfl, -, -⟩ | ⟨hy, -⟩
      · exact absurd (k.within_dst_iff.1 hw) hout
      · exact ⟨c, y, hy, .inr ⟨e, hmover, .inr ((k.within_iff h hi hout).1 hw)⟩⟩
  intro limit hlimit
  have hle := Table.size_add_length_le (hs.sound.nodup_ids he) hsub hnew
  rw [List.length_cons, List.length_map, hs.sound.length_descendants] at hle
  have released := released_release s (s.bound src) e
  rw [released.owners_other _ (Ne.symm hbound), k.bound_dst]
  rw [k.bound_dst, k.config, ← last.config] at hlimit
  exact hle.trans (last.coherent.within_limits _ limit hlimit)

end Ferried

/-- The same moves lead to the same forest. -/
theorem Ferried.restored (k : r.Ferried src dst S s) (k' : r.Ferried src dst S t)
    (features : s.SameFeatures t) : s.Restored t := by
  refine k.coherent.restored k'.coherent (k.names.symm.trans k'.names) features
    ((k'.held _ _ _).trans (k.held _ _ _).symm) (fun c => ?_)
    (fun x => (k'.lifecycle x).trans (k.lifecycle x).symm)
    (fun c => (k'.isClosed c).trans (k.isClosed c).symm)
    fun f => (k'.config f).trans (k.config f).symm
  by_cases hin : ∃ e ∈ S, r.Within c (.ofEntity e)
  · obtain ⟨e, he, hw⟩ := hin
    exact (k'.bound_within c e he hw).trans (k.bound_within c e he hw).symm
  · have hout : ∀ e ∈ S, ¬ r.Within c (.ofEntity e) := fun e he hw => hin ⟨e, he, hw⟩
    exact (k'.bound_other c hout).trans (k.bound_other c hout).symm

end EntityForest.Registry
