import EntityForest.Attribute.Plain
import EntityForest.Proofs.Enumeration
import EntityForest.Proofs.Weights

/-! # What a factory lists

Export and import act on exactly what the worklist of a factory comes to. Where no way down returns
and nothing is held twice, this is everything below the entity, once, with its real holder, and a
parent is listed before its children: these are appended when the parent is worked off. -/

namespace EntityForest.Registry

section

variable [ValueTypes] {r : Registry} {e : EntityRef}

/-- A list of all that lies below `e`, with the identity of the container that holds it. -/
structure ListsBelow (r : Registry) (e : EntityRef) (l : List (EntityRef × Uuid)) : Prop where
  once : (l.map Prod.fst).Nodup
  mem_iff : ∀ x, x ∈ l.map Prod.fst ↔ r.Below e x
  /-- Listed with an entity is the identity of a container that holds it. -/
  holder : ∀ x owner, (x, owner) ∈ l →
    ∃ c id, r.Within c (.ofEntity e) ∧ r.Held c id x ∧ owner = r.containerId c
  /-- No other container within `e` holds it. -/
  owner_eq : ∀ x owner, (x, owner) ∈ l →
    ∀ c id, r.Within c (.ofEntity e) → r.Held c id x → owner = r.containerId c
  parents_first : ∀ (i j : Nat) p q, l[i]? = some p → l[j]? = some q → r.Parent p.1 q.1 → i < j

/-- Once the loop has ended, each entity on the list has its children further down. -/
theorem Search.Listed.exists_child_after {s : Search} (h : s.Listed r e) (hdone : s.Done)
    {i : Nat} {p : EntityRef × Uuid} (hp : s.found[i]? = some p) {x : EntityRef}
    (hx : r.Parent p.1 x) : ∃ j owner, i < j ∧ s.found[j]? = some (x, owner) := by
  have hlt : i < s.next := (List.getElem?_eq_some_iff.1 hp).1.trans_le hdone
  obtain ⟨j, hij, hj⟩ := h.later i hlt p hp _ (mem_childrenOf.2 ⟨hx, rfl⟩)
  exact ⟨j, _, hij, hj⟩

omit [ValueTypes] in
/-- A list that names no entity twice has each at one position. -/
theorem index_unique {l : List (EntityRef × Uuid)} (hl : (l.map Prod.fst).Nodup) {i j : Nat}
    {p q : EntityRef × Uuid} (hi : l[i]? = some p) (hj : l[j]? = some q) (heq : p.1 = q.1) :
    i = j := by
  have hlt : i < (l.map Prod.fst).length := by
    rw [List.length_map]
    exact (List.getElem?_eq_some_iff.1 hi).1
  refine (List.getElem?_inj hlt hl).1 ?_
  rw [List.getElem?_map, List.getElem?_map, hi, hj, Option.map_some, Option.map_some, heq]

/-- In the enumeration of a subtree, the children of an entity stand behind it. -/
theorem NoReturnBelow.lt_of_parent (hac : r.NoReturnBelow e) (honce : r.HeldOnceBelow e) {i j : Nat}
    {p q : EntityRef × Uuid} (hi : (r.descendants e)[i]? = some p)
    (hj : (r.descendants e)[j]? = some q) (hparent : r.Parent p.1 q.1) : i < j := by
  obtain ⟨n, hdone, hfound⟩ := yields_iff.2 ⟨hac, Eq.refl (r.descendants e)⟩
  have hlisted := Search.listed_iterate r e n
  rw [← hfound] at hi hj
  obtain ⟨k, owner, hik, hk⟩ := hlisted.exists_child_after hdone hi hparent
  rw [hfound] at hj hk
  rwa [index_unique (hac.nodup honce) hj hk rfl]

theorem NoReturnBelow.listsBelow (hac : r.NoReturnBelow e) (honce : r.HeldOnceBelow e) :
    r.ListsBelow e (r.descendants e) where
  once := hac.nodup honce
  mem_iff _ := mem_map_fst.trans exists_mem_descendants
  holder _ _ := mem_descendants.1
  owner_eq x owner hmem c id hc hx := by
    obtain ⟨d, i, hd, hx', rfl⟩ := mem_descendants.1 hmem
    rw [(honce hc hd hx hx').1]
  parents_first _ _ _ _ := hac.lt_of_parent honce

/-- If containment below an entity has no cycle and every entity there is held once, the worklist
ends, and what it has listed is everything below the entity. -/
theorem worklist_lists_subtree (hac : r.NoReturnBelow e) (honce : r.HeldOnceBelow e) :
    (∃ l, r.Yields e l) ∧ ∀ l, r.Yields e l → l = r.descendants e ∧ r.ListsBelow e l := by
  refine ⟨⟨_, yields_iff.2 ⟨hac, rfl⟩⟩, fun l hl => ?_⟩
  obtain rfl := (yields_iff.1 hl).2
  exact ⟨rfl, hac.listsBelow honce⟩

end

open scoped PlainType

/-- The entity 1 holds 2 and 3; below them are 4 and 5, and 6. -/
def branches : List Call :=
  [.newFactory .unbounded, .newContainer (.ofNat 100) ⟨0⟩,
    .create (.standalone 0) (.ofNat 1) none ∅, .create (.ofEntity ⟨0⟩) (.ofNat 2) none ∅,
    .create (.ofEntity ⟨1⟩) (.ofNat 4) none ∅, .create (.ofEntity ⟨0⟩) (.ofNat 3) none ∅,
    .create (.ofEntity ⟨3⟩) (.ofNat 6) none ∅, .create (.ofEntity ⟨1⟩) (.ofNat 5) none ∅]

theorem coherent_branches : (trail branches).2.registry.Coherent :=
  coherent_trail (by decide +kernel) (by decide +kernel) (by decide +kernel) (by decide +kernel)
    (by decide +kernel) (withinLimits_iff.2 (by decide +kernel))

theorem worklist_lists_subtree_branches :
    (trail branches).2.registry.NoReturnBelow ⟨0⟩ ∧
      (trail branches).2.registry.Yields ⟨0⟩
        [(⟨1⟩, .ofNat 1), (⟨3⟩, .ofNat 1), (⟨2⟩, .ofNat 2), (⟨5⟩, .ofNat 2), (⟨4⟩, .ofNat 3)] ∧
      (trail branches).2.registry.ListsBelow ⟨0⟩
        [(⟨1⟩, .ofNat 1), (⟨3⟩, .ofNat 1), (⟨2⟩, .ofNat 2), (⟨5⟩, .ofNat 2), (⟨4⟩, .ofNat 3)] := by
  have hsound := coherent_branches.sound
  have hac : (trail branches).2.registry.NoReturnBelow ⟨0⟩ :=
    fun x _ => hsound.acyclic.not_below_self x
  have honce : (trail branches).2.registry.HeldOnceBelow ⟨0⟩ :=
    fun _ _ hx hy => ⟨hsound.once hx hy, hsound.id_eq hx hy⟩
  obtain ⟨⟨l, hl⟩, hlists⟩ := worklist_lists_subtree hac honce
  obtain ⟨heq, hbelow⟩ := hlists l hl
  have hlist : l =
      [(⟨1⟩, .ofNat 1), (⟨3⟩, .ofNat 1), (⟨2⟩, .ofNat 2), (⟨5⟩, .ofNat 2), (⟨4⟩, .ofNat 3)] := by
    rw [heq]
    decide +kernel
  rw [hlist] at hl hbelow
  exact ⟨hac, hl, hbelow⟩

end EntityForest.Registry
