import EntityForest.Proofs.Losses

/-! # What keeps a forest sound

One operation at a time. A creation needs an identity that its tree does not hold, a move inside a
tree needs a destination outside the entity, and a move to another tree needs in addition that the
destination's tree holds nothing of the subtree. -/

namespace EntityForest.Registry

open Relation (ReflTransGen TransGen)

variable [ValueTypes] {r s : Registry}

/-! ## Creating -/

namespace Created

variable {c delegate : ContainerRef} {id : Uuid} {e : EntityRef}
  (h : r.Created c delegate id e s) (hr : r.Sound) (hc : r.Exists c)

include h

theorem not_exists : ¬ r.Exists (.ofEntity e) := by
  rw [h.ref]
  exact Nat.lt_irrefl _

theorem ne_of_exists {d : ContainerRef} (hd : r.Exists d) : d ≠ .ofEntity e := by
  rintro rfl
  exact h.not_exists hd

/-- In a full forest the records tell that the identity is free. -/
theorem free_of_full (hfull : r.Full) (d : ContainerRef) (x : EntityRef)
    (hbound : r.bound d = r.bound c) : ¬ r.Held d id x := by
  intro hheld
  exact h.unrecorded (hbound ▸ Table.mem_of_find? (hfull.recorded hheld))

theorem containerId_of_ne {d : ContainerRef} (hd : d ≠ .ofEntity e) :
    s.containerId d = r.containerId d := by
  rw [h.containerId, if_neg hd]

theorem bound_of_ne {d : ContainerRef} (hd : d ≠ .ofEntity e) : s.bound d = r.bound d := by
  rw [h.bound, if_neg hd]

include hr

/-- What was held before is neither the new entity nor held by it. -/
theorem ne_of_held {d : ContainerRef} {j : Uuid} {x : EntityRef} (hheld : r.Held d j x) :
    x ≠ e ∧ d ≠ .ofEntity e := by
  obtain ⟨hd, hx⟩ := hr.placed d j x hheld
  refine ⟨?_, h.ne_of_exists hd⟩
  rintro rfl
  exact h.not_exists hx

include hc

theorem held_iff {d : ContainerRef} {j : Uuid} {x : EntityRef} :
    s.Held d j x ↔ (d = c ∧ j = id ∧ x = e) ∨ r.Held d j x := by
  rw [Held, h.held hc]
  by_cases hd : d = c
  · subst hd
    rw [if_pos rfl, Table.find?_insert]
    by_cases hj : j = id
    · subst hj
      have hnone : ¬ r.Held d j x := fun hheld => h.absent (mem_held_iff.2 ⟨x, hheld⟩)
      simp [hnone, eq_comm]
    · simp [hj, Held]
  · have hfresh : r.Held (.ofEntity e) j x → False :=
      fun hheld => h.not_exists (hr.placed _ _ _ hheld).1
    rw [if_neg hd]
    by_cases hde : d = .ofEntity e
    · subst hde
      rw [if_pos rfl]
      constructor
      · intro hheld
        cases hheld
      · intro hheld
        rcases hheld with ⟨hd', -⟩ | hheld
        · exact absurd hd' hd
        · exact (hfresh hheld).elim
    · simp [hde, hd, Held]

/-- The new entity holds nothing yet. -/
theorem holder_ne {d : ContainerRef} {j : Uuid} {x : EntityRef} (hheld : s.Held d j x) :
    d ≠ .ofEntity e := by
  rcases (h.held_iff hr hc).1 hheld with ⟨rfl, -, -⟩ | hold
  · exact h.ne_of_exists hc
  · exact (h.ne_of_held hr hold).2

theorem once {d d' : ContainerRef} {i j : Uuid} {x : EntityRef} (hd : s.Held d i x)
    (hd' : s.Held d' j x) : d = d' := by
  rcases (h.held_iff hr hc).1 hd with ⟨rfl, -, rfl⟩ | hd
  · rcases (h.held_iff hr hc).1 hd' with ⟨rfl, -, -⟩ | hd'
    · rfl
    · exact absurd rfl (h.ne_of_held hr hd').1
  · rcases (h.held_iff hr hc).1 hd' with ⟨-, -, rfl⟩ | hd'
    · exact absurd rfl (h.ne_of_held hr hd).1
    · exact hr.once hd hd'

theorem unique (hfree : ∀ d x, r.bound d = r.bound c → ¬ r.Held d id x) {d d' : ContainerRef}
    {j : Uuid} {x y : EntityRef} (hbound : s.bound d = s.bound d') (hd : s.Held d j x)
    (hd' : s.Held d' j y) : d = d' := by
  rw [h.bound_of_ne (h.holder_ne hr hc hd), h.bound_of_ne (h.holder_ne hr hc hd')] at hbound
  rcases (h.held_iff hr hc).1 hd with ⟨rfl, rfl, -⟩ | hd
  · rcases (h.held_iff hr hc).1 hd' with ⟨rfl, -, -⟩ | hd'
    · rfl
    · exact absurd hd' (hfree _ _ hbound.symm)
  · rcases (h.held_iff hr hc).1 hd' with ⟨rfl, rfl, -⟩ | hd'
    · exact absurd hd (hfree _ _ hbound)
    · exact hr.unique hbound hd hd'

theorem witnessed (hid : r.containerId delegate = r.containerId c) {f : FactoryRef}
    {j owner : Uuid} (hrec : (s.owners f).find? j = some owner) :
    ∃ d x, s.bound d = f ∧ s.containerId d = owner ∧ s.Held d j x := by
  rw [h.owners] at hrec
  by_cases hnew : f = r.bound c ∧ j = id
  · obtain ⟨rfl, rfl⟩ := hnew
    rw [if_pos rfl, Table.find?_insert_self, hid] at hrec
    have hne := h.ne_of_exists hc
    exact ⟨c, e, h.bound_of_ne hne, (h.containerId_of_ne hne).trans (Option.some.inj hrec),
      (h.held_iff hr hc).2 (.inl ⟨rfl, rfl, rfl⟩)⟩
  · have hold : (r.owners f).find? j = some owner := by
      by_cases hf : f = r.bound c
      · rw [if_pos hf, Table.find?_insert, if_neg fun hj => hnew ⟨hf, hj⟩] at hrec
        exact hrec
      · rw [if_neg hf] at hrec
        exact hrec
    obtain ⟨d, x, hbound, hdid, hheld⟩ := hr.witnessed hold
    have hne := (h.ne_of_held hr hheld).2
    exact ⟨d, x, (h.bound_of_ne hne).trans hbound, (h.containerId_of_ne hne).trans hdid,
      (h.held_iff hr hc).2 (.inr hheld)⟩

theorem acyclic : s.Acyclic := by
  refine hr.acyclic.of_reparent (e := e) (c := c) ?_ ?_
  · rintro _ b ⟨x, j, rfl, hheld⟩
    rcases (h.held_iff hr hc).1 hheld with ⟨rfl, -, rfl⟩ | hold
    · exact .inr ⟨rfl, rfl⟩
    · exact .inl (up_of_held hold)
  · intro hw
    rcases ReflTransGen.cases_tail hw with heq | ⟨d, -, x, j, -, hheld⟩
    · exact h.ne_of_exists hc heq.symm
    · exact h.not_exists (hr.placed _ _ _ hheld).1

/-- Nothing of the new entity is held before, and nothing of the others changes. -/
theorem sound (hid : r.containerId delegate = r.containerId c)
    (hfree : ∀ d x, r.bound d = r.bound c → ¬ r.Held d id x) : s.Sound := by
  have hchild : ∀ {d j x}, r.Held d j x → ContainerRef.ofEntity x ≠ .ofEntity e :=
    fun hold heq => (h.ne_of_held hr hold).1 (ContainerRef.ofEntity.inj heq)
  refine {
    placed := ?_
    child_id := ?_
    keyed := ?_
    once := h.once hr hc
    unique := h.unique hr hc hfree
    child_bound := ?_
    witnessed := h.witnessed hr hc hid
    acyclic := h.acyclic hr hc }
  · intro d j x hheld
    rw [h.exists_iff hc, h.exists_iff hc]
    rcases (h.held_iff hr hc).1 hheld with ⟨rfl, -, rfl⟩ | hold
    · exact ⟨.inl hc, .inr rfl⟩
    · exact (hr.placed d j x hold).imp .inl .inl
  · intro d j x hheld
    rcases (h.held_iff hr hc).1 hheld with ⟨-, rfl, rfl⟩ | hold
    · rw [h.containerId, if_pos rfl]
    · rw [h.containerId_of_ne (hchild hold), hr.child_id hold]
  · intro d j x hheld
    rcases (h.held_iff hr hc).1 hheld with ⟨-, rfl, rfl⟩ | hold
    · rw [h.idOf, if_pos rfl]
    · rw [h.idOf, if_neg (h.ne_of_held hr hold).1, hr.keyed hold]
  · intro d j x hheld
    rw [h.bound_of_ne (h.holder_ne hr hc hheld)]
    rcases (h.held_iff hr hc).1 hheld with ⟨rfl, -, rfl⟩ | hold
    · rw [h.bound, if_pos rfl]
    · rw [h.bound_of_ne (hchild hold), hr.child_bound hold]

theorem full (hid : r.containerId delegate = r.containerId c) (hfull : r.Full) : s.Full where
  alive {d j x} hheld := by
    rw [h.lifecycle]
    rcases (h.held_iff hr hc).1 hheld with ⟨-, -, rfl⟩ | hold
    · rw [if_pos rfl]
    · split
      · rfl
      · exact hfull.alive hold
  recorded {d j x} hheld := by
    rcases (h.held_iff hr hc).1 hheld with ⟨rfl, rfl, -⟩ | hold
    · have hd := h.ne_of_exists hc
      rw [h.bound_of_ne hd, h.owners, if_pos rfl, Table.find?_insert_self, hid,
        h.containerId_of_ne hd]
    · have hd := (h.ne_of_held hr hold).2
      rw [h.bound_of_ne hd, h.owners, h.containerId_of_ne hd, ← hfull.recorded hold]
      split
      · rename_i hbound
        have hj : j ≠ id := by
          rintro rfl
          exact h.unrecorded (hbound ▸ Table.mem_of_find? (hfull.recorded hold))
        rw [Table.find?_insert, if_neg hj]
      · rfl

end Created

end EntityForest.Registry
