import EntityForest.Proofs.Preservation

/-! # Moves keep a forest sound

A move changes where one entity is held; the subtree below it comes along untouched. Between trees
the factory that releases the subtree forgets it, and the factory that adopts it must not hold
anything of the same identity elsewhere. -/

namespace EntityForest.Registry

open Relation (ReflTransGen TransGen)

variable [ValueTypes] {r s : Registry}

/-! ## Subtrees of a sound forest -/

namespace Sound

variable (h : r.Sound)

include h

theorem mem_descendants_iff {e x : EntityRef} {owner : Uuid} :
    (x, owner) ∈ r.descendants e ↔
      ∃ c, r.Within c (.ofEntity e) ∧ r.Held c (r.idOf x) x ∧ owner = r.containerId c := by
  rw [mem_descendants]
  constructor
  · intro hmem
    obtain ⟨c, id, hc, hx, rfl⟩ := hmem
    exact ⟨c, hc, (h.keyed hx).symm ▸ hx, rfl⟩
  · intro hheld
    obtain ⟨c, hc, hx, rfl⟩ := hheld
    exact ⟨c, _, hc, hx, rfl⟩

/-- What is held within an entity is not the entity. -/
theorem ne_of_held_within {c : ContainerRef} {id : Uuid} {e x : EntityRef}
    (hw : r.Within c (.ofEntity e)) (hx : r.Held c id x) : x ≠ e := by
  rintro rfl
  exact h.acyclic.not_within_of_held hx hw

/-- The holder of another entity is within `e` if that entity is. -/
theorem within_holder_iff {c : ContainerRef} {id : Uuid} {e x : EntityRef} (hx : r.Held c id x)
    (hne : x ≠ e) : r.Within (.ofEntity x) (.ofEntity e) ↔ r.Within c (.ofEntity e) := by
  constructor
  · intro hw
    rcases ReflTransGen.cases_head hw with heq | ⟨d, hup, hw⟩
    · exact absurd (ContainerRef.ofEntity.inj heq) hne
    · obtain ⟨j, hd⟩ := up_ofEntity_iff.1 hup
      rw [h.once hx hd]
      exact hw
  · intro hw
    exact .head (up_of_held hx) hw

/-- All of a held entity's subtree belongs to the tree that holds the entity. -/
theorem bound_of_within_held {src c : ContainerRef} {id : Uuid} {e : EntityRef}
    (he : r.Held src id e) (hw : r.Within c (.ofEntity e)) : r.bound c = r.bound src :=
  (h.bound_of_within hw).trans (h.child_bound he)

/-- Nothing else in the tree has the identity of a held entity. -/
theorem eq_of_bound {c d : ContainerRef} {id : Uuid} {x y : EntityRef}
    (hbound : r.bound c = r.bound d) (hx : r.Held c id x) (hy : r.Held d id y) : x = y := by
  obtain rfl := h.unique hbound hx hy
  exact Option.some.inj (hx.symm.trans hy)

/-- No entity below a held one has the identity of the latter. -/
theorem key_ne_of_descendant {src : ContainerRef} {id : Uuid} {e : EntityRef}
    (he : r.Held src id e) {p : EntityRef × Uuid} (hp : p ∈ r.descendants e) :
    r.idOf p.1 ≠ r.idOf e := by
  obtain ⟨c, hw, hx, -⟩ := h.mem_descendants_iff.1 hp
  intro heq
  rw [heq, h.keyed he] at hx
  exact h.ne_of_held_within hw hx (h.eq_of_bound (h.bound_of_within_held he hw) hx he)

end Sound

/-! ## Any move -/

namespace Moved

variable {src dst : ContainerRef} {id : Uuid} {e : EntityRef} (h : r.Moved src id dst e s)
  (hr : r.Sound) (he : r.Held src id e) (hne : src ≠ dst)

include h hr he hne

theorem held_iff {c : ContainerRef} {j : Uuid} {x : EntityRef} :
    s.Held c j x ↔ (c = dst ∧ j = id ∧ x = e) ∨ (r.Held c j x ∧ x ≠ e) := by
  have hid : r.idOf e = id := hr.keyed he
  rw [Held, h.held]
  by_cases hsrc : c = src
  · subst hsrc
    rw [if_pos rfl, Table.find?_erase]
    by_cases hj : j = id
    · subst hj
      have hheld : ∀ {x}, r.Held c j x → x = e := fun hx => Option.some.inj (hx.symm.trans he)
      simp only [if_true, reduceCtorEq, hne, false_and, false_or, false_iff, not_and, not_not]
      exact hheld
    · have hother : r.Held c j x → x ≠ e := by
        rintro hx rfl
        exact hj (hr.id_eq hx he)
      simp only [hj, if_false, hne, false_and, false_or]
      exact ⟨fun hx => ⟨hx, hother hx⟩, And.left⟩
  · rw [if_neg hsrc]
    have hother : r.Held c j x → x ≠ e := by
      rintro hx rfl
      exact hsrc (hr.once hx he)
    by_cases hdst : c = dst
    · subst hdst
      rw [if_pos rfl, Table.find?_insert, hid]
      by_cases hj : j = id
      · subst hj
        have habsent : ¬ r.Held c j x := fun hx => h.absent (hid ▸ mem_held_iff.2 ⟨x, hx⟩)
        simp [habsent, eq_comm]
      · simp only [hj, if_false, true_and, false_and, false_or]
        exact ⟨fun hx => ⟨hx, hother hx⟩, And.left⟩
    · simp only [hdst, if_false, false_and, false_or]
      exact ⟨fun hx => ⟨hx, hother hx⟩, And.left⟩

omit hne in
theorem sameNames (hdst : r.Exists dst) : SameNames r s :=
  h.names (hr.placed _ _ _ he).1 hdst (hr.placed _ _ _ he).2

/-- What is left to show after a move concerns the trees; where things are held is in order. -/
theorem sound (hdst : r.Exists dst) (hout : ¬ r.Within dst (.ofEntity e))
    (hunique : ∀ {c d j x y}, s.bound c = s.bound d → s.Held c j x → s.Held d j y → c = d)
    (hchild : ∀ {c j x}, s.Held c j x → s.bound (.ofEntity x) = s.bound c)
    (hwitnessed : ∀ {f j owner}, (s.owners f).find? j = some owner →
      ∃ c x, s.bound c = f ∧ r.containerId c = owner ∧ s.Held c j x) : s.Sound := by
  have hnames := h.sameNames hr he hdst
  refine {
    placed := ?_
    child_id := ?_
    keyed := ?_
    once := ?_
    unique := hunique
    child_bound := hchild
    witnessed := ?_
    acyclic := ?_ }
  · intro c j x hx
    rw [hnames.exists_iff, hnames.exists_iff]
    rcases (h.held_iff hr he hne).1 hx with ⟨rfl, -, rfl⟩ | ⟨hx, -⟩
    · exact ⟨hdst, (hr.placed _ _ _ he).2⟩
    · exact hr.placed _ _ _ hx
  · intro c j x hx
    rw [hnames.containerId]
    rcases (h.held_iff hr he hne).1 hx with ⟨-, rfl, rfl⟩ | ⟨hx, -⟩
    · exact hr.child_id he
    · exact hr.child_id hx
  · intro c j x hx
    rw [hnames.idOf]
    rcases (h.held_iff hr he hne).1 hx with ⟨-, rfl, rfl⟩ | ⟨hx, -⟩
    · exact hr.keyed he
    · exact hr.keyed hx
  · intro c d i j x hc hd
    rcases (h.held_iff hr he hne).1 hc with ⟨rfl, -, rfl⟩ | ⟨hc, hx⟩
    · rcases (h.held_iff hr he hne).1 hd with ⟨rfl, -, -⟩ | ⟨-, hx⟩
      · rfl
      · exact absurd rfl hx
    · rcases (h.held_iff hr he hne).1 hd with ⟨-, -, rfl⟩ | ⟨hd, -⟩
      · exact absurd rfl hx
      · exact hr.once hc hd
  · intro f j owner hrec
    obtain ⟨c, x, hbound, hid, hx⟩ := hwitnessed hrec
    exact ⟨c, x, hbound, by rw [hnames.containerId, hid], hx⟩
  · refine hr.acyclic.of_reparent (e := e) (c := dst) ?_ hout
    rintro _ b ⟨x, j, rfl, hx⟩
    rcases (h.held_iff hr he hne).1 hx with ⟨rfl, -, rfl⟩ | ⟨hx, -⟩
    · exact .inr ⟨rfl, rfl⟩
    · exact .inl (up_of_held hx)

end Moved

/-! ## Moves inside a tree -/

namespace Taken

variable {src dst : ContainerRef} {id : Uuid} {e : EntityRef} (h : r.Taken src id dst e s)
  (hr : r.Sound) (he : r.Held src id e) (hne : src ≠ dst) (hbound : r.bound src = r.bound dst)

include h hr he hne hbound

omit hne in
theorem record_other {c : ContainerRef} {j : Uuid} {x : EntityRef} (hx : r.Held c j x)
    (hxe : x ≠ e) : (s.owners (r.bound c)).find? j = (r.owners (r.bound c)).find? j := by
  rw [h.owners]
  split
  · rename_i hc
    have hj : j ≠ r.idOf e := by
      rw [hr.keyed he]
      rintro rfl
      exact hxe (hr.eq_of_bound (hc.trans hbound.symm) hx he)
    rw [Table.find?_insert, if_neg hj]
  · rfl

theorem sound (hdst : r.Exists dst) (hout : ¬ r.Within dst (.ofEntity e))
    (hself : r.containerId (r.delegateOf dst) = r.containerId dst) : s.Sound := by
  have hheld {c j x} := h.toMoved.held_iff hr he hne (c := c) (j := j) (x := x)
  refine h.toMoved.sound hr he hne hdst hout ?_ ?_ ?_
  · intro c d j x y hcd hx hy
    rw [h.bound, h.bound] at hcd
    rcases hheld.1 hx with ⟨rfl, rfl, rfl⟩ | ⟨hx, hxe⟩
    · rcases hheld.1 hy with ⟨rfl, -, -⟩ | ⟨hy, hye⟩
      · rfl
      · exact absurd (hr.eq_of_bound (hcd.symm.trans hbound.symm) hy he) hye
    · rcases hheld.1 hy with ⟨rfl, rfl, rfl⟩ | ⟨hy, -⟩
      · exact absurd (hr.eq_of_bound (hcd.trans hbound.symm) hx he) hxe
      · exact hr.unique hcd hx hy
  · intro c j x hx
    rw [h.bound, h.bound]
    rcases hheld.1 hx with ⟨rfl, -, rfl⟩ | ⟨hx, -⟩
    · rw [hr.child_bound he, hbound]
    · exact hr.child_bound hx
  · intro f j owner hrec
    rw [h.owners, hself] at hrec
    by_cases hnew : f = r.bound dst ∧ j = r.idOf e
    · obtain ⟨rfl, rfl⟩ := hnew
      rw [if_pos rfl, Table.find?_insert_self] at hrec
      exact ⟨dst, e, h.bound dst, Option.some.inj hrec, hheld.2 (.inl ⟨rfl, hr.keyed he, rfl⟩)⟩
    · have hold : (r.owners f).find? j = some owner := by
        by_cases hf : f = r.bound dst
        · rw [if_pos hf, Table.find?_insert, if_neg fun hj => hnew ⟨hf, hj⟩] at hrec
          exact hrec
        · rw [if_neg hf] at hrec
          exact hrec
      obtain ⟨c, x, hf, hid, hx⟩ := hr.witnessed hold
      refine ⟨c, x, by rw [h.bound, hf], hid, hheld.2 (.inr ⟨hx, ?_⟩)⟩
      rintro rfl
      obtain rfl := hr.once hx he
      exact hnew ⟨hf.symm.trans hbound, (hr.keyed hx).symm⟩

theorem full (hdst : r.Exists dst) (hself : r.containerId (r.delegateOf dst) = r.containerId dst)
    (hfull : r.Full) : s.Full where
  alive {c j x} hx := by
    rw [h.lifecycle]
    rcases (h.toMoved.held_iff hr he hne).1 hx with ⟨-, -, rfl⟩ | ⟨hx, -⟩
    · exact hfull.alive he
    · exact hfull.alive hx
  recorded {c j x} hx := by
    have hnames := h.toMoved.sameNames hr he hdst
    rw [h.bound, hnames.containerId]
    rcases (h.toMoved.held_iff hr he hne).1 hx with ⟨rfl, rfl, rfl⟩ | ⟨hx, hxe⟩
    · rw [h.owners, if_pos rfl, hr.keyed he, Table.find?_insert_self, hself]
    · rw [h.record_other hr he hbound hx hxe, hfull.recorded hx]

end Taken

/-! ## Releasing -/

/-- The factory has no record of the entity, and none of what is below it there where it is. -/
structure Forgotten (r : Registry) (f : FactoryRef) (e : EntityRef) : Prop where
  self : r.idOf e ∉ r.owners f
  below : ∀ {c id x}, r.Within c (.ofEntity e) → r.Held c id x →
    (r.owners f).find? id ≠ some (r.containerId c)

namespace Released

variable {f : FactoryRef} {e : EntityRef} (h : r.Released f e s) (hr : r.Sound)

include h hr

theorem forgotten : s.Forgotten f e where
  self hmem := by
    obtain ⟨owner, hrec⟩ := Table.mem_iff_find?.1 hmem
    exact ((h.record_iff _ _).1 hrec).2.1 (h.idOf e)
  below {c id x} hw hx hrec := by
    rw [h.within_iff] at hw
    rw [h.held_iff] at hx
    have hmem : (x, r.containerId c) ∈ r.descendants e :=
      mem_descendants.2 ⟨c, id, hw, hx, rfl⟩
    exact ((h.record_iff _ _).1 hrec).2.2 _ hmem (hr.keyed hx) (h.containerId c).symm

theorem sound (he : r.Exists (.ofEntity e)) : s.Sound where
  placed c id x hx := by
    rw [h.exists_iff he, h.exists_iff he]
    exact hr.placed c id x (h.held_iff.1 hx)
  child_id hx := by
    rw [h.containerId, hr.child_id (h.held_iff.1 hx)]
  keyed hx := by
    rw [h.idOf, hr.keyed (h.held_iff.1 hx)]
  once hx hy := hr.once (h.held_iff.1 hx) (h.held_iff.1 hy)
  unique hbound hx hy := by
    rw [h.bound, h.bound] at hbound
    exact hr.unique hbound (h.held_iff.1 hx) (h.held_iff.1 hy)
  child_bound hx := by
    rw [h.bound, h.bound, hr.child_bound (h.held_iff.1 hx)]
  witnessed hrec := by
    obtain ⟨c, x, hbound, hid, hx⟩ := hr.witnessed (h.record_mono hrec)
    exact ⟨c, x, by rw [h.bound, hbound], by rw [h.containerId, hid], h.held_iff.2 hx⟩
  acyclic := h.acyclic_iff.2 hr.acyclic

/-- A record of what lies outside the subtree is not forgotten. -/
theorem record_outside {src c : ContainerRef} {i id owner : Uuid} {x : EntityRef}
    (he : r.Held src i e) (hf : r.bound src = f) (hout : ¬ r.Within c (.ofEntity e))
    (hx : r.Held c id x) (hxe : x ≠ e) (hrec : (r.owners (r.bound c)).find? id = some owner) :
    (s.owners (r.bound c)).find? id = some owner := by
  by_cases hc : r.bound c = f
  · rw [hc] at hrec ⊢
    refine (h.record_iff id owner).2 ⟨hrec, ?_, ?_⟩
    · rintro rfl
      rw [hr.keyed he] at hx
      exact hxe (hr.eq_of_bound (hc.trans hf.symm) hx he)
    · rintro ⟨y, o⟩ hmem rfl -
      obtain ⟨d, hd, hy, -⟩ := hr.mem_descendants_iff.1 hmem
      obtain rfl := hr.unique (((hr.bound_of_within_held he hd).trans hf).trans hc.symm) hy hx
      exact hout hd
  · rw [h.owners_other _ hc]
    exact hrec

end Released

/-! ## Moves between trees -/

/-- The tree of a factory holds nothing outside `e` that has the identity of `e` or of something
below it. -/
def Apart (r : Registry) (f : FactoryRef) (e : EntityRef) : Prop :=
  ∀ {d id y}, r.bound d = f → ¬ r.Within d (.ofEntity e) → r.Held d id y → y ≠ e →
    id ≠ r.idOf e ∧ ∀ {c x}, r.Within c (.ofEntity e) → ¬ r.Held c id x

/-- A destination that the checks of an import admit is not within the entity. -/
theorem MayAdopt.outside {f : FactoryRef} {e : EntityRef} {target dst : ContainerRef}
    (h : r.MayAdopt f e target) (hchild : r.containerId (.ofEntity e) = r.idOf e)
    (hself : r.containerId target = r.containerId dst) (hne : r.idOf e ≠ r.containerId dst) :
    ¬ r.Within dst (.ofEntity e) := by
  intro hw
  rcases within_iff_descendant.1 hw with rfl | ⟨p, hp, rfl⟩
  · exact hne hchild.symm
  · exact h.not_below p hp hself.symm

/-- An entity that is admitted without a release is not recorded anyway. -/
theorem MayAdopt.forgotten {f : FactoryRef} {e : EntityRef} {target : ContainerRef}
    (h : r.MayAdopt f e target) (hr : r.Sound) : r.Forgotten f e where
  self := h.unrecorded
  below {c id x} hw hx hrec := by
    have hmem : (x, r.containerId c) ∈ r.descendants e :=
      mem_descendants.2 ⟨c, id, hw, hx, rfl⟩
    have hnone := h.unrecorded_below _ hmem
    rw [hr.keyed hx] at hnone
    exact hnone (Table.mem_of_find? hrec)

namespace Imported

variable {src dst : ContainerRef} {id : Uuid} {e : EntityRef} (h : r.Imported src id dst e s)
  (hr : r.Sound) (he : r.Held src id e)

include h

theorem bound_inside {c : ContainerRef} (hw : r.Within c (.ofEntity e)) :
    s.bound c = r.bound dst := by
  rw [h.bound, if_pos (within_iff_descendant.1 hw)]

theorem bound_outside {c : ContainerRef} (hw : ¬ r.Within c (.ofEntity e)) :
    s.bound c = r.bound c := by
  rw [h.bound, if_neg fun hin => hw (within_iff_descendant.2 hin)]

include hr he

/-- The record of what is below the entity names its container. -/
theorem record_inside {c : ContainerRef} {j : Uuid} {x : EntityRef}
    (hw : r.Within c (.ofEntity e)) (hx : r.Held c j x) :
    (s.owners (r.bound dst)).find? j = some (r.containerId c) := by
  rw [h.owners, if_pos rfl]
  refine Table.find?_foldl_insert_of_mem (fun p : EntityRef × Uuid => r.idOf p.1) Prod.snd ?_ ?_ _
  · exact ⟨(x, r.containerId c), mem_descendants.2 ⟨c, j, hw, hx, rfl⟩, hr.keyed hx⟩
  · rintro ⟨y, owner⟩ hmem rfl
    obtain ⟨d, hd, hy, rfl⟩ := hr.mem_descendants_iff.1 hmem
    have hcd : r.bound d = r.bound c :=
      (hr.bound_of_within_held he hd).trans (hr.bound_of_within_held he hw).symm
    rw [hr.unique hcd hy hx]

theorem record_self :
    (s.owners (r.bound dst)).find? id = some (r.containerId (r.delegateOf dst)) := by
  have hother : ∀ p ∈ r.descendants e, r.idOf p.1 ≠ id := by
    intro p hp
    rw [← hr.keyed he]
    exact hr.key_ne_of_descendant he hp
  rw [h.owners, if_pos rfl,
    Table.find?_foldl_insert_of_not_mem (fun p : EntityRef × Uuid => r.idOf p.1) Prod.snd hother,
    hr.keyed he, Table.find?_insert_self]

omit hr he in
/-- Other records stay as they are. -/
theorem record_other {f : FactoryRef} {j : Uuid}
    (hj : f = r.bound dst → j ≠ r.idOf e ∧ ∀ p ∈ r.descendants e, r.idOf p.1 ≠ j) :
    (s.owners f).find? j = (r.owners f).find? j := by
  rw [h.owners]
  by_cases hf : f = r.bound dst
  · obtain ⟨hself, hbelow⟩ := hj hf
    rw [if_pos hf,
      Table.find?_foldl_insert_of_not_mem (fun p : EntityRef × Uuid => r.idOf p.1) Prod.snd hbelow,
      Table.find?_insert, if_neg hself]
  · rw [if_neg hf]

omit he in
/-- Outside the subtree no record changes. -/
theorem record_outside (hapart : r.Apart (r.bound dst) e) {c : ContainerRef} {j : Uuid}
    {x : EntityRef} (hx : r.Held c j x) (hxe : x ≠ e) (hw : ¬ r.Within c (.ofEntity e)) :
    (s.owners (s.bound c)).find? j = (r.owners (r.bound c)).find? j := by
  rw [h.bound_outside hw]
  refine h.record_other fun hf => ?_
  obtain ⟨hj, hnone⟩ := hapart hf hw hx hxe
  refine ⟨hj, fun p hp hid => ?_⟩
  subst hid
  obtain ⟨d, hd, hy, -⟩ := hr.mem_descendants_iff.1 hp
  exact hnone hd hy

variable (hne : src ≠ dst) (hdst : r.Exists dst)
  (hself : r.containerId (r.delegateOf dst) = r.containerId dst)
  (hout : ¬ r.Within dst (.ofEntity e))

include hne hdst hself hout

omit hdst hself in
/-- What was not in the tree of the destination before is within the entity, and what was there has
no identity in common with it. -/
theorem unique (hapart : r.Apart (r.bound dst) e) {c d : ContainerRef} {j : Uuid}
    {x y : EntityRef} (hcd : s.bound c = s.bound d) (hx : s.Held c j x) (hy : s.Held d j y) :
    c = d := by
  have hheld {c j x} := h.toMoved.held_iff hr he hne (c := c) (j := j) (x := x)
  have hinside {c} (hw : r.Within c (.ofEntity e)) := hr.bound_of_within_held he hw
  have hmixed : ∀ {c d j x y}, r.Within c (.ofEntity e) → ¬ r.Within d (.ofEntity e) →
      r.bound d = r.bound dst → r.Held c j x → r.Held d j y → y ≠ e → False :=
    fun hc hd hbound hx hy hye => (hapart hbound hd hy hye).2 hc hx
  have hentered : ∀ {d y}, s.bound d = s.bound dst → r.Held d id y → y ≠ e → False := by
    intro d y hbound hy hye
    rw [h.bound_outside hout] at hbound
    by_cases hd : r.Within d (.ofEntity e)
    · exact hye (hr.eq_of_bound (hinside hd) hy he)
    · rw [h.bound_outside hd] at hbound
      exact (hapart hbound hd hy hye).1 (hr.keyed he).symm
  rcases hheld.1 hx with ⟨rfl, rfl, rfl⟩ | ⟨hx, hxe⟩
  · rcases hheld.1 hy with ⟨rfl, -, -⟩ | ⟨hy, hye⟩
    · rfl
    · exact (hentered hcd.symm hy hye).elim
  rcases hheld.1 hy with ⟨rfl, rfl, rfl⟩ | ⟨hy, hye⟩
  · exact (hentered hcd hx hxe).elim
  by_cases hc : r.Within c (.ofEntity e)
  · by_cases hd : r.Within d (.ofEntity e)
    · exact hr.unique ((hinside hc).trans (hinside hd).symm) hx hy
    · rw [h.bound_inside hc, h.bound_outside hd] at hcd
      exact (hmixed hc hd hcd.symm hx hy hye).elim
  · by_cases hd : r.Within d (.ofEntity e)
    · rw [h.bound_outside hc, h.bound_inside hd] at hcd
      exact (hmixed hd hc hcd hy hx hxe).elim
    · rw [h.bound_outside hc, h.bound_outside hd] at hcd
      exact hr.unique hcd hx hy

omit hdst hself in
theorem child_bound {c : ContainerRef} {j : Uuid} {x : EntityRef} (hx : s.Held c j x) :
    s.bound (.ofEntity x) = s.bound c := by
  rcases (h.toMoved.held_iff hr he hne).1 hx with ⟨rfl, -, rfl⟩ | ⟨hx, hxe⟩
  · rw [h.bound_inside .refl, h.bound_outside hout]
  · by_cases hc : r.Within c (.ofEntity e)
    · rw [h.bound_inside hc, h.bound_inside ((hr.within_holder_iff hx hxe).2 hc)]
    · rw [h.bound_outside hc,
        h.bound_outside fun hw => hc ((hr.within_holder_iff hx hxe).1 hw), hr.child_bound hx]

omit hdst in
/-- A record is the entity's own, or of something below it, or an old one. -/
theorem witnessed (hforgotten : r.Forgotten (r.bound src) e) {f : FactoryRef} {j owner : Uuid}
    (hrec : (s.owners f).find? j = some owner) :
    ∃ c x, s.bound c = f ∧ r.containerId c = owner ∧ s.Held c j x := by
  have hheld {c j x} := h.toMoved.held_iff hr he hne (c := c) (j := j) (x := x)
  by_cases hnew : f = r.bound dst ∧ j = r.idOf e
  · obtain ⟨rfl, rfl⟩ := hnew
    rw [hr.keyed he, h.record_self hr he, hself] at hrec
    exact ⟨dst, e, h.bound_outside hout, Option.some.inj hrec,
      hheld.2 (.inl ⟨rfl, hr.keyed he, rfl⟩)⟩
  by_cases hbelow : f = r.bound dst ∧ ∃ p ∈ r.descendants e, r.idOf p.1 = j
  · obtain ⟨rfl, ⟨x, _⟩, hmem, rfl⟩ := hbelow
    obtain ⟨c, hw, hx, -⟩ := hr.mem_descendants_iff.1 hmem
    rw [h.record_inside hr he hw hx] at hrec
    exact ⟨c, x, h.bound_inside hw, Option.some.inj hrec,
      hheld.2 (.inr ⟨hx, hr.ne_of_held_within hw hx⟩)⟩
  · have hold : (r.owners f).find? j = some owner := by
      rw [← h.record_other fun hf =>
        ⟨fun hj => hnew ⟨hf, hj⟩, fun p hp hj => hbelow ⟨hf, p, hp, hj⟩⟩]
      exact hrec
    obtain ⟨c, x, hf, hid, hx⟩ := hr.witnessed hold
    -- what the old factory still records is neither the entity nor below it
    have hxe : x ≠ e := by
      rintro rfl
      obtain rfl := hr.once hx he
      rw [← hf] at hold
      exact hforgotten.self (hr.keyed hx ▸ Table.mem_of_find? hold)
    refine ⟨c, x, ?_, hid, hheld.2 (.inr ⟨hx, hxe⟩)⟩
    by_cases hw : r.Within c (.ofEntity e)
    · rw [← hf, hr.bound_of_within_held he hw, ← hid] at hold
      exact absurd hold (hforgotten.below hw hx)
    · rw [h.bound_outside hw, hf]

theorem sound (hforgotten : r.Forgotten (r.bound src) e) (hapart : r.Apart (r.bound dst) e) :
    s.Sound :=
  h.toMoved.sound hr he hne hdst hout (h.unique hr he hne hout hapart)
    (h.child_bound hr he hne hout) (h.witnessed hr he hne hself hout hforgotten)

/-- An import restores the records of the subtree if all others are in order. -/
theorem full (hapart : r.Apart (r.bound dst) e)
    (halive : ∀ {c j x}, r.Held c j x → x ≠ e → r.lifecycle x = .alive)
    (hrest : ∀ {c j x}, r.Held c j x → x ≠ e → ¬ r.Within c (.ofEntity e) →
      (r.owners (r.bound c)).find? j = some (r.containerId c)) : s.Full where
  alive {c j x} hx := by
    rw [h.lifecycle]
    rcases (h.toMoved.held_iff hr he hne).1 hx with ⟨-, -, rfl⟩ | ⟨hx, hxe⟩
    · rw [if_pos rfl]
    · rw [if_neg hxe, halive hx hxe]
  recorded {c j x} hx := by
    have hnames := h.toMoved.sameNames hr he hdst
    rw [hnames.containerId]
    rcases (h.toMoved.held_iff hr he hne).1 hx with ⟨rfl, rfl, rfl⟩ | ⟨hx, hxe⟩
    · rw [h.bound_outside hout, h.record_self hr he, hself]
    · by_cases hw : r.Within c (.ofEntity e)
      · rw [h.bound_inside hw, h.record_inside hr he hw hx]
      · rw [h.record_outside hr hapart hx hxe hw, hrest hx hxe hw]

end Imported

/-! ## Full forests

Where every held entity is recorded, the checks that a factory makes on its records are as good as
checks on the containers. -/

namespace Full

variable (h : r.Full) (hr : r.Sound)

include h hr

/-- The way up is recorded. -/
theorem reaches_of_within {c d : ContainerRef} (hw : r.Within c d) :
    ReflTransGen (Owners.Link (r.owners (r.bound c))) (r.containerId c) (r.containerId d) := by
  induction hw using ReflTransGen.head_induction_on with
  | refl => exact .refl
  | head hup _ ih =>
    obtain ⟨e, id, rfl, hheld⟩ := hup
    rw [hr.child_bound hheld, hr.child_id hheld]
    exact .head (h.recorded hheld) ih

variable {src dst : ContainerRef} {id : Uuid} {e : EntityRef} (he : r.Held src id e)

include he

theorem outside_of_mayRelocate
    (hself : r.containerId (r.delegateOf dst) = r.containerId dst)
    (hmay : r.mayRelocate (r.bound dst) e (r.delegateOf dst) = true) :
    ¬ r.Within dst (.ofEntity e) := by
  intro hw
  obtain ⟨_, -, -, -, hout⟩ := mayRelocate_iff.1 hmay
  have hreach := h.reaches_of_within hr hw
  rw [hr.child_id he, ← hr.keyed he] at hreach
  rw [hself] at hout
  exact hout hreach

/-- After the release of an entity, a factory without records of the subtree holds nothing of it. -/
theorem apart_of_released (k : r.Released (r.bound src) e s) {f : FactoryRef}
    {target : ContainerRef} (hmay : s.MayAdopt f e target) : s.Apart f e := by
  intro d j y hbound hout hy hye
  rw [k.bound] at hbound
  rw [k.within_iff] at hout
  rw [k.held_iff] at hy
  have hrec : (s.owners f).find? j = some (r.containerId d) := by
    rw [← hbound]
    exact k.record_outside hr he rfl hout hy hye (h.recorded hy)
  refine ⟨?_, ?_⟩
  · rintro rfl
    exact hmay.unrecorded (Table.mem_of_find? hrec)
  · intro c x hw hx
    rw [k.within_iff] at hw
    rw [k.held_iff] at hx
    have hmem : (x, r.containerId c) ∈ s.descendants e := by
      rw [k.descendants]
      exact mem_descendants.2 ⟨c, j, hw, hx, rfl⟩
    apply hmay.unrecorded_below _ hmem
    rw [k.idOf, hr.keyed hx]
    exact Table.mem_of_find? hrec

variable (hdst : r.Exists dst)
  (hself : r.containerId (r.delegateOf dst) = r.containerId dst) (hne : src ≠ dst)

include hdst hself hne

/-- A move inside a tree keeps a full forest sound and full. -/
theorem taken (hbound : r.bound src = r.bound dst) (k : r.Taken src id dst e s) :
    s.Sound ∧ s.Full :=
  ⟨k.sound hr he hne hbound hdst (h.outside_of_mayRelocate hr he hself k.may) hself,
    k.full hr he hne hbound hdst hself h⟩

/-- So does a move to another tree, which releases the entity and adopts it. -/
theorem imported (hother : r.idOf e ≠ r.containerId dst) {t : Registry}
    (k : r.Released (r.bound src) e t) (l : t.Imported src id dst e s) : s.Sound ∧ s.Full := by
  have hexists := (hr.placed _ _ _ he).2
  have ht := k.sound hr hexists
  have he' : t.Held src id e := k.held_iff.2 he
  have hdst' : t.Exists dst := (k.exists_iff hexists dst).2 hdst
  have hself' : t.containerId (t.delegateOf dst) = t.containerId dst := by
    rw [k.delegateOf, k.containerId, k.containerId, hself]
  have hout : ¬ t.Within dst (.ofEntity e) := by
    apply l.may.outside ((ht.child_id he').trans (ht.keyed he').symm) hself'
    rw [k.idOf, k.containerId]
    exact hother
  have hapart : t.Apart (t.bound dst) e := h.apart_of_released hr he k l.may
  have hforgotten : t.Forgotten (t.bound src) e := by
    rw [k.bound]
    exact k.forgotten hr
  refine ⟨l.sound ht he' hne hdst' hself' hout hforgotten hapart,
    l.full ht he' hne hdst' hself' hout hapart ?_ ?_⟩
  · intro c j x hx hxe
    rw [k.lifecycle_other x hxe]
    exact h.alive (k.held_iff.1 hx)
  · intro c j x hx hxe hw
    rw [k.bound, k.containerId]
    rw [k.held_iff] at hx
    rw [k.within_iff] at hw
    exact k.record_outside hr he rfl hw hx hxe (h.recorded hx)

end Full

end EntityForest.Registry
