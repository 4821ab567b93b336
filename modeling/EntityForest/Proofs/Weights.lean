import EntityForest.Proofs.Coherence
import Mathlib.Algebra.Order.BigOperators.Group.List

/-! # How much hangs on an entity

An entity that several containers hold is listed below another one as often as there are ways down
to it. Weights count like this, and where nothing is held twice they count entities. -/

namespace EntityForest.Registry

variable [ValueTypes] {r : Registry} {weight : EntityRef → Nat} {e p q x : EntityRef}

/-- No way down from `e` meets an entity twice. -/
def NoReturnBelow (r : Registry) (e : EntityRef) : Prop :=
  ∀ x, x = e ∨ r.Below e x → ¬ r.Below x x

/-- Within `e`, no entity is in two containers or under two identities. -/
def HeldOnceBelow (r : Registry) (e : EntityRef) : Prop :=
  ∀ {c d i j x}, r.Within c (.ofEntity e) → r.Within d (.ofEntity e) → r.Held c i x →
    r.Held d j x → c = d ∧ i = j

/-- Every entity at or below `e` weighs one more than all that it holds. -/
def Weighs (r : Registry) (weight : EntityRef → Nat) (e : EntityRef) : Prop :=
  ∀ x, x = e ∨ r.Below e x → weight x = ((r.held (.ofEntity x)).values.map weight).sum + 1

theorem parent_iff_mem_values : r.Parent p x ↔ x ∈ (r.held (.ofEntity p)).values :=
  Table.mem_values.symm

theorem ncard_atOrBelow (e : EntityRef) : {x | x = e ∨ r.Below e x}.ncard =
    (e :: (r.descendants e).map Prod.fst).toFinset.card := by
  have hset : {x | x = e ∨ r.Below e x} =
      ((e :: (r.descendants e).map Prod.fst).toFinset : Set EntityRef) := by
    rw [List.toFinset_cons, Finset.coe_insert, ← setOf_below]
    rfl
  rw [hset, Set.ncard_coe_finset]

/-- What is at or below something at or below `e` is at or below `e`. -/
theorem atOrBelow_trans {y : EntityRef} (hx : x = e ∨ r.Below e x) (hy : y = x ∨ r.Below x y) :
    y = e ∨ r.Below e y := by
  rcases hx with rfl | hx
  · exact hy
  · rcases hy with rfl | hy
    · exact .inr hx
    · exact .inr (hx.trans hy)

/-! ## The levels that are enumerated -/

theorem NoReturnBelow.of_below (h : r.NoReturnBelow e) (hx : x = e ∨ r.Below e x) :
    r.NoReturnBelow x := fun y hy => h y (atOrBelow_trans hx hy)

/-- A way down leaves more and more entities behind, so it has no more steps than there are child
containers. -/
theorem NoReturnBelow.lt_size_of_down {k : Nat} (h : r.NoReturnBelow p) (hq : r.Down k p q)
    (hx : r.Parent q x) : k < r.children.size := by
  classical
  suffices hcard : k < ((Finset.range r.children.size).filter
      fun i => ⟨i⟩ = p ∨ r.Below p ⟨i⟩).card by
    have hle := Finset.card_filter_le (Finset.range r.children.size)
      fun i => ⟨i⟩ = p ∨ r.Below p ⟨i⟩
    rw [Finset.card_range] at hle
    exact hcard.trans_le hle
  induction k generalizing p with
  | zero =>
    obtain rfl : p = q := hq
    refine Finset.card_pos.2 ⟨p.index, Finset.mem_filter.2 ⟨?_, .inl rfl⟩⟩
    exact Finset.mem_range.2 (index_lt_of_parent hx)
  | succ k ih =>
    obtain ⟨m, hm, hq⟩ := hq
    have hlower := ih (h.of_below (.inr (.child hm))) hq
    refine (Nat.succ_le_of_lt hlower).trans_lt (Finset.card_lt_card ?_)
    refine (Finset.ssubset_iff_of_subset fun i hi => ?_).2 ⟨p.index, ?_, fun hp => ?_⟩
    · obtain ⟨hi, hbelow⟩ := Finset.mem_filter.1 hi
      exact Finset.mem_filter.2 ⟨hi, .inr (.of_parent hm hbelow)⟩
    · exact Finset.mem_filter.2 ⟨Finset.mem_range.2 (index_lt_of_parent hm), .inl rfl⟩
    · exact h p (.inl rfl) (.of_parent hm (Finset.mem_filter.1 hp).2)

/-- Further levels add nothing once the last one has been listed. -/
theorem below_eq_of_le {depth depth' : Nat} {ps : List EntityRef}
    (hlast : ∀ p ∈ ps, ∀ {k q x}, r.Down k p q → r.Parent q x → k < depth)
    (hle : depth ≤ depth') : r.below depth' ps = r.below depth ps := by
  induction depth generalizing depth' ps with
  | zero =>
    have hnone : ps.flatMap r.childrenOf = [] := by
      refine List.eq_nil_iff_forall_not_mem.2 fun ⟨x, owner⟩ hx => ?_
      obtain ⟨p, hp, hx⟩ := List.mem_flatMap.1 hx
      have hdown : r.Down 0 p p := rfl
      exact absurd (hlast p hp hdown (mem_childrenOf.1 hx).1) (Nat.not_lt_zero 0)
    cases depth' with
    | zero => rfl
    | succ depth' =>
      rw [below_succ, hnone, List.map_nil, below_nil]
      rfl
  | succ depth ih =>
    obtain ⟨n, rfl⟩ := Nat.exists_eq_add_of_le' (Nat.one_le_of_lt hle)
    rw [below_succ, below_succ, ih ?_ (Nat.le_of_succ_le_succ hle)]
    intro m hm k q x hq hx
    obtain ⟨⟨m, owner⟩, hmem, rfl⟩ := List.mem_map.1 hm
    obtain ⟨p, hp, hchild⟩ := List.mem_flatMap.1 hmem
    exact Nat.lt_of_succ_lt_succ (hlast p hp ⟨m, (mem_childrenOf.1 hchild).1, hq⟩ hx)

/-- Each starting point adds what is listed below it. -/
theorem length_below (depth : Nat) (ps : List EntityRef) :
    (r.below depth ps).length = (ps.map fun p => (r.below depth [p]).length).sum := by
  induction depth generalizing ps with
  | zero =>
    induction ps with
    | nil => rfl
    | cons p ps ih => simp [below]
  | succ depth ih =>
    induction ps with
    | nil => rw [below_nil]; rfl
    | cons p ps ihps =>
      rw [List.map_cons, List.sum_cons, ← ihps]
      simp only [below_succ, List.flatMap_cons, List.flatMap_nil, List.append_nil,
        List.length_append, List.map_append]
      rw [ih ((r.childrenOf p).map Prod.fst ++ (ps.flatMap r.childrenOf).map Prod.fst),
        ih ((r.childrenOf p).map Prod.fst), ih ((ps.flatMap r.childrenOf).map Prod.fst),
        List.map_append, List.sum_append]
      omega

/-- Where no way down returns, the enumeration gives weights. -/
theorem NoReturnBelow.weighs (h : r.NoReturnBelow e) :
    r.Weighs (fun x => (r.descendants x).length + 1) e := by
  intro x hx
  have hbelow : r.NoReturnBelow x := h.of_below hx
  have hdeeper : r.below (r.children.size + 1) [x] = r.descendants x :=
    below_eq_of_le (fun p hp _ _ _ hq hy => by
      obtain rfl := List.mem_singleton.1 hp
      exact hbelow.lt_size_of_down hq hy) (Nat.le_succ _)
  have hsum : ∀ ys : List EntityRef, (ys.map fun y => (r.descendants y).length + 1).sum =
      ys.length + (ys.map fun y => (r.descendants y).length).sum := by
    intro ys
    induction ys with
    | nil => rfl
    | cons y ys ih =>
      rw [List.map_cons, List.sum_cons, ih, List.map_cons, List.sum_cons, List.length_cons]
      omega
  simp only
  rw [← hdeeper, below_succ, List.flatMap_singleton, map_fst_childrenOf, List.length_append,
    length_below, hsum]
  have hlength : (r.childrenOf x).length = (r.held (.ofEntity x)).values.length := by
    rw [← map_fst_childrenOf, List.length_map]
  rw [hlength]
  rfl

namespace Weighs

theorem of_below (h : r.Weighs weight e) (hx : x = e ∨ r.Below e x) : r.Weighs weight x :=
  fun y hy => h y (atOrBelow_trans hx hy)

theorem lt_of_parent (h : r.Weighs weight p) (hx : r.Parent p x) : weight x < weight p := by
  have hle : weight x ≤ ((r.held (.ofEntity p)).values.map weight).sum :=
    List.le_sum_of_mem (List.mem_map_of_mem (parent_iff_mem_values.1 hx))
  have hp := h p (.inl rfl)
  omega

theorem lt_of_below (h : r.Weighs weight e) (hx : r.Below e x) : weight x < weight e := by
  induction hx with
  | child hx => exact h.lt_of_parent hx
  | step hbelow hx ih => exact ((h.of_below (.inr hbelow)).lt_of_parent hx).trans ih

theorem noReturn (h : r.Weighs weight e) : r.NoReturnBelow e :=
  fun _ hx hself => Nat.lt_irrefl _ ((h.of_below hx).lt_of_below hself)

/-- There is only one way to weigh an entity. -/
theorem unique {weight' : EntityRef → Nat} (h : r.Weighs weight e) (k : r.Weighs weight' e) :
    weight e = weight' e := by
  induction hn : weight e using Nat.strong_induction_on generalizing e with
  | h n ih =>
    subst hn
    rw [h e (.inl rfl), k e (.inl rfl)]
    congr 2
    refine List.map_congr_left fun x hx => ?_
    have hchild := parent_iff_mem_values.2 hx
    have hbelow : x = e ∨ r.Below e x := .inr (.child hchild)
    exact ih (weight x) (h.lt_of_parent hchild) (h.of_below hbelow) (k.of_below hbelow) rfl

/-- An entity is listed below another one once for each way down to it. -/
theorem length_descendants (h : r.Weighs weight e) : (r.descendants e).length + 1 = weight e :=
  h.noReturn.weighs.unique h

end Weighs

/-- Where nothing is held twice, nothing is listed twice. -/
theorem NoReturnBelow.nodup (hac : r.NoReturnBelow e) (honce : r.HeldOnceBelow e) :
    ((r.descendants e).map Prod.fst).Nodup := by
  have hin : ∀ {p : EntityRef}, p = e ∨ r.Below e p → r.Within (.ofEntity p) (.ofEntity e) :=
    fun hp => within_ofEntity_iff.2 ⟨_, rfl, hp⟩
  refine nodup_descendants (S := fun p => p = e ∨ r.Below e p) ?_ ?_ ?_ (.inl rfl)
    (hac e (.inl rfl))
  · rintro p x (rfl | hp) hx
    · exact .inr (.child hx)
    · exact .inr (.step hp hx)
  · intro p hp
    rw [map_fst_childrenOf]
    exact Table.nodup_values fun hi hj => (honce (hin hp) (hin hp) hi hj).2
  · rintro p x q hp hq ⟨i, hi⟩ ⟨j, hj⟩
    exact ContainerRef.ofEntity.inj (honce (hin hp) (hin hq) hi hj).1

/-- Where nothing is held twice, the weight is the number of entities. -/
theorem NoReturnBelow.ncard (hac : r.NoReturnBelow e) (honce : r.HeldOnceBelow e) :
    (r.descendants e).length + 1 = {x | x = e ∨ r.Below e x}.ncard := by
  have hnew : e ∉ (r.descendants e).map Prod.fst := fun hmem =>
    hac e (.inl rfl) (exists_mem_descendants.1 (mem_map_fst.1 hmem))
  rw [ncard_atOrBelow, List.toFinset_card_of_nodup (List.nodup_cons.2 ⟨hnew, hac.nodup honce⟩),
    List.length_cons, List.length_map]

end EntityForest.Registry
