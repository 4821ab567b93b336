import EntityForest.Proofs.Records
import EntityForest.Proofs.Uniqueness
import Mathlib.Data.Set.Card

/-! # Coherent forests

In a coherent forest containers and factories say the same, so every check that a factory makes on
its records can be read as a statement about containment. -/

namespace EntityForest.Registry

open Relation (ReflTransGen TransGen)

variable [ValueTypes]

/-- A container that something is kept in, or may be: it stands alone, belongs to a held entity, or
holds something itself. -/
def InUse (r : Registry) (c : ContainerRef) : Prop :=
  match c with
  | .standalone _ => r.Exists c
  | .ofEntity e => (∃ d id, r.Held d id e) ∨ ∃ id x, r.Held c id x

/-- No factory records more entities than its settings allow. -/
def WithinLimits (r : Registry) : Prop :=
  ∀ f limit, (r.config f).entityLimit = some limit → (r.owners f).size ≤ limit

/-- Every held entity is alive, in one container only under its own identity, and recorded there,
and nothing else is recorded; trees are closed under containment, which has no cycle; and identities
are distinct. -/
structure Consistent (r : Registry) : Prop where
  placed : r.Placed
  child_id : ∀ {c id e}, r.Held c id e → r.containerId (.ofEntity e) = r.idOf e
  alive : ∀ {c id e}, r.Held c id e → r.lifecycle e = .alive
  keyed : ∀ {c id e}, r.Held c id e → r.idOf e = id
  once : ∀ {c d i j e}, r.Held c i e → r.Held d j e → c = d
  recorded : ∀ {c id e}, r.Held c id e →
    (r.owners (r.bound c)).find? id = some (r.containerId c)
  held_of_record : ∀ {f id owner}, (r.owners f).find? id = some owner →
    ∃ c e, r.bound c = f ∧ r.containerId c = owner ∧ r.Held c id e
  child_bound : ∀ {c id e}, r.Held c id e → r.bound (.ofEntity e) = r.bound c
  acyclic : r.Acyclic
  distinct : ∀ {c d}, r.InUse c → r.InUse d → r.containerId c = r.containerId d → c = d

/-- Moreover no tree is over its limit. -/
structure Coherent (r : Registry) : Prop extends r.Consistent where
  within_limits : r.WithinLimits

variable {r s : Registry}

/-! ## In terms of the invariants -/

theorem inUse_of_held (hplaced : r.Placed) {c : ContainerRef} {id : Uuid} {e : EntityRef}
    (h : r.Held c id e) : r.InUse c ∧ r.InUse (.ofEntity e) := by
  refine ⟨?_, .inl ⟨c, id, h⟩⟩
  cases c with
  | standalone i => exact (hplaced _ _ _ h).1
  | ofEntity x => exact .inr ⟨id, e, h⟩

namespace Consistent

theorem covers (h : r.Consistent) : r.Distinct r.InUse :=
  ⟨fun he => inUse_of_held h.placed he, h.distinct⟩

theorem sound (h : r.Consistent) : r.Sound where
  placed := h.placed
  child_id he := (h.child_id he).trans (h.keyed he)
  keyed := h.keyed
  once := h.once
  unique {c d id x y} hbound hx hy := by
    have hc := h.recorded hx
    rw [hbound, h.recorded hy] at hc
    exact h.distinct (h.covers.covers hx).1 (h.covers.covers hy).1 (Option.some.inj hc).symm
  child_bound := h.child_bound
  witnessed := h.held_of_record
  acyclic := h.acyclic

theorem full (h : r.Consistent) : r.Full := ⟨h.alive, h.recorded⟩

theorem of_sound_full (hsound : r.Sound) (hfull : r.Full)
    (hdistinct : ∀ {c d}, r.InUse c → r.InUse d → r.containerId c = r.containerId d → c = d) :
    r.Consistent where
  placed := hsound.placed
  child_id he := (hsound.child_id he).trans (hsound.keyed he).symm
  alive := hfull.alive
  keyed := hsound.keyed
  once := hsound.once
  recorded := hfull.recorded
  held_of_record := hsound.witnessed
  child_bound := hsound.child_bound
  acyclic := hsound.acyclic
  distinct := hdistinct

end Consistent

theorem InUse.exists (hplaced : r.Placed) {c : ContainerRef} (h : r.InUse c) : r.Exists c := by
  cases c with
  | standalone i => exact h
  | ofEntity e =>
    rcases h with ⟨d, id, he⟩ | ⟨id, x, hx⟩
    · exact (hplaced _ _ _ he).2
    · exact (hplaced _ _ _ hx).1

/-- Forests without repeated identities are coherent unless something is stranded. -/
theorem Known.coherent (h : r.Known) (hfull : r.Full) (hlimits : r.WithinLimits) : r.Coherent where
  toConsistent := .of_sound_full h.sound hfull fun hc hd =>
    h.distinct.eq_of_id (hc.exists h.sound.placed) (hd.exists h.sound.placed)
  within_limits := hlimits

/-! ## Checking which containers are in use -/

/-- Every container of which anything is known. -/
def stored (r : Registry) : List ContainerRef :=
  (List.range r.containers.size).map .standalone ++
    (List.range r.children.size).map fun i => .ofEntity ⟨i⟩

theorem container_of_not_stored {c : ContainerRef} (h : c ∉ r.stored) :
    r.container c = default := by
  cases c with
  | standalone i =>
    refine Store.get_of_size_le (Nat.not_lt.1 fun hlt => h ?_)
    exact List.mem_append_left _ (List.mem_map_of_mem (List.mem_range.2 hlt))
  | ofEntity e =>
    refine Store.get_of_size_le (Nat.not_lt.1 fun hlt => h ?_)
    exact List.mem_append_right _ (List.mem_map.2 ⟨e.index, List.mem_range.2 hlt, rfl⟩)

theorem stored_of_held {c : ContainerRef} {id : Uuid} {e : EntityRef} (h : r.Held c id e) :
    c ∈ r.stored := by
  by_contra hnone
  rw [Held, held, container_of_not_stored hnone] at h
  cases h

theorem exists_held_iff {e : EntityRef} :
    (∃ c id, r.Held c id e) ↔ ∃ c ∈ r.stored, e ∈ (r.held c).values := by
  constructor
  · rintro ⟨c, id, he⟩
    exact ⟨c, stored_of_held he, Table.mem_values.2 ⟨id, he⟩⟩
  · rintro ⟨c, -, he⟩
    exact ⟨c, Table.mem_values.1 he⟩

theorem holds_iff {c : ContainerRef} : (∃ id e, r.Held c id e) ↔ (r.held c).values ≠ [] := by
  constructor
  · rintro ⟨id, e, he⟩
    exact List.ne_nil_of_mem (Table.mem_values.2 ⟨id, he⟩)
  · intro hne
    obtain ⟨e, he⟩ := List.exists_mem_of_ne_nil _ hne
    obtain ⟨id, hheld⟩ := Table.mem_values.1 he
    exact ⟨id, e, hheld⟩

instance (r : Registry) : (c : ContainerRef) → Decidable (r.InUse c)
  | .standalone i => inferInstanceAs (Decidable (r.Exists (.standalone i)))
  | .ofEntity _ => decidable_of_iff _ (or_congr exists_held_iff holds_iff).symm

theorem distinct_of_listed (hplaced : r.Placed)
    (h : ∀ c ∈ r.allContainers, r.InUse c → ∀ d ∈ r.allContainers, r.InUse d →
      r.containerId c = r.containerId d → c = d)
    {c d : ContainerRef} (hc : r.InUse c) (hd : r.InUse d)
    (hid : r.containerId c = r.containerId d) : c = d := by
  have hlisted : ∀ {b}, r.InUse b → b ∈ r.allContainers :=
    fun hb => mem_allContainers.2 (hb.exists hplaced)
  exact h c (hlisted hc) hc d (hlisted hd) hd hid

/-- Of an identity that is not nil it can be checked that only one container in use has it. -/
theorem eq_of_stored {c d : ContainerRef} (hid : r.containerId c ≠ (default : Container).id)
    (h : ∀ d ∈ r.stored, r.InUse d → r.containerId d = r.containerId c → d = c)
    (hd : r.InUse d) (heq : r.containerId d = r.containerId c) : d = c := by
  refine h d ?_ hd heq
  by_contra hnone
  rw [← heq, containerId, container_of_not_stored hnone] at hid
  exact hid rfl

/-! ## Limits -/

/-- Only the factories that there are can be over their limits. -/
theorem withinLimits_iff : r.WithinLimits ↔ ∀ i ∈ List.range r.factories.size,
    ∀ limit ∈ (r.config ⟨i⟩).entityLimit, (r.owners ⟨i⟩).size ≤ limit := by
  constructor
  · intro h i _ limit hlimit
    exact h ⟨i⟩ limit hlimit
  · rintro h ⟨i⟩ limit hlimit
    by_cases hi : i < r.factories.size
    · exact h i (List.mem_range.2 hi) limit hlimit
    · have hblank : r.factory ⟨i⟩ = default := Store.get_of_size_le (Nat.not_lt.1 hi)
      rw [config, hblank] at hlimit
      cases hlimit

theorem overLimit_eq_some_iff {f : FactoryRef} {incoming limit : Nat} :
    r.overLimit f incoming = some limit ↔
      (r.config f).entityLimit = some limit ∧ limit < (r.owners f).size + incoming := by
  change (r.config f).overLimit (r.owners f).size incoming = some limit ↔ _
  rw [TreeConfig.overLimit, Option.filter_eq_some_iff, decide_eq_true_eq]

theorem overLimit_eq_none_iff {f : FactoryRef} {incoming : Nat} :
    r.overLimit f incoming = none ↔
      ∀ limit, (r.config f).entityLimit = some limit → (r.owners f).size + incoming ≤ limit := by
  change (r.config f).overLimit (r.owners f).size incoming = none ↔ _
  rw [TreeConfig.overLimit]
  cases (r.config f).entityLimit with
  | none => simp
  | some limit => simp

namespace WithinLimits

theorem of_size_le (h : r.WithinLimits) (hconfig : ∀ f, s.config f = r.config f)
    (hsize : ∀ f, (s.owners f).size ≤ (r.owners f).size) : s.WithinLimits := by
  intro f limit hlimit
  rw [hconfig] at hlimit
  exact Nat.le_trans (hsize f) (h f limit hlimit)

theorem of_sameForest (h : r.WithinLimits) (k : SameForest r s) : s.WithinLimits :=
  h.of_size_le k.config fun f => Nat.le_of_eq (congrArg Table.size (k.owners f))

/-- A record is erased. -/
theorem of_erase (h : r.WithinLimits) {f : FactoryRef} {id : Uuid}
    (hconfig : ∀ g, s.config g = r.config g)
    (howners : ∀ g, s.owners g = if g = f then (r.owners g).erase id else r.owners g) :
    s.WithinLimits := by
  refine h.of_size_le hconfig fun g => ?_
  rw [howners]
  split
  · exact (r.owners g).size_erase_le _
  · exact Nat.le_refl _

/-- A record is rewritten, or there is room for it. -/
theorem of_insert (h : r.WithinLimits) {f : FactoryRef} {id owner : Uuid}
    (hconfig : ∀ g, s.config g = r.config g) (hroom : id ∈ r.owners f ∨ r.overLimit f 1 = none)
    (howners : ∀ g, s.owners g = if g = f then (r.owners g).insert id owner else r.owners g) :
    s.WithinLimits := by
  intro g limit hlimit
  rw [hconfig] at hlimit
  rw [howners]
  split
  · rename_i hg
    subst hg
    rw [Table.size_insert]
    split
    · exact h g limit hlimit
    · rename_i hnew
      exact overLimit_eq_none_iff.1 (hroom.resolve_left hnew) limit hlimit
  · exact h g limit hlimit

/-- A whole subtree is recorded, for which there is room. -/
theorem of_insert_subtree (h : r.WithinLimits) {f : FactoryRef} {e : EntityRef} {owner : Uuid}
    (hconfig : ∀ g, s.config g = r.config g)
    (hroom : r.overLimit f ((r.descendants e).length + 1) = none)
    (howners : ∀ g, s.owners g =
      if g = f then
        (r.descendants e).foldl (fun t p => t.insert (r.idOf p.1) p.2)
          ((r.owners g).insert (r.idOf e) owner)
      else r.owners g) : s.WithinLimits := by
  intro g limit hlimit
  rw [hconfig] at hlimit
  rw [howners]
  split
  · rename_i hg
    subst hg
    have hroom := overLimit_eq_none_iff.1 hroom limit hlimit
    have hinsert : ((r.owners g).insert (r.idOf e) owner).size ≤ (r.owners g).size + 1 := by
      rw [Table.size_insert]
      split <;> omega
    have hfold := Table.size_foldl_insert_le (fun p : EntityRef × Uuid => r.idOf p.1) Prod.snd
      (r.descendants e) ((r.owners g).insert (r.idOf e) owner)
    omega
  · exact h g limit hlimit

theorem killed (h : r.WithinLimits) {c : ContainerRef} {id : Uuid} {e : EntityRef}
    (k : r.Killed c id e s) : s.WithinLimits := h.of_erase k.config k.owners

theorem created (h : r.WithinLimits) {c delegate : ContainerRef} {id : Uuid} {e : EntityRef}
    (k : r.Created c delegate id e s) : s.WithinLimits :=
  h.of_insert k.config (.inr k.room) k.owners

/-- A move inside a tree adds no record. -/
theorem taken (h : r.WithinLimits) {src dst : ContainerRef} {id : Uuid} {e : EntityRef}
    (k : r.Taken src id dst e s) : s.WithinLimits := by
  obtain ⟨_, hrec, -⟩ := mayRelocate_iff.1 k.may
  exact h.of_insert k.config (.inl (Table.mem_of_find? hrec)) k.owners

theorem released (h : r.WithinLimits) {f : FactoryRef} {e : EntityRef}
    (k : r.Released f e s) : s.WithinLimits := by
  refine h.of_size_le k.config fun g => ?_
  by_cases hg : g = f
  · rw [hg]
    exact k.size_le
  · rw [k.owners_other g hg]

/-- An import adds no more records than there is room for. -/
theorem imported (h : r.WithinLimits) {src dst : ContainerRef} {id : Uuid} {e : EntityRef}
    (k : r.Imported src id dst e s) : s.WithinLimits :=
  h.of_insert_subtree k.config k.may.room k.owners

/-- A new factory records nothing yet. -/
theorem newFactory (h : r.WithinLimits) (config : TreeConfig) :
    (r.newFactory config).2.WithinLimits := by
  intro f limit hlimit
  rw [(extends_newFactory r config).owners]
  by_cases hf : f.index = r.factories.size
  · have hblank : r.factory f = default := Store.get_of_size_le (Nat.le_of_eq hf.symm)
    rw [owners, hblank]
    exact Nat.zero_le limit
  · have hconfig : (r.newFactory config).2.config f = r.config f := by
      change ((r.factories.push ⟨config, ∅⟩).get f.index).config = (r.factories.get f.index).config
      rw [Store.get_push, if_neg hf]
    rw [hconfig] at hlimit
    exact h f limit hlimit

theorem newContainer (h : r.WithinLimits) (id : Uuid) (f : FactoryRef) :
    (r.newContainer id f).2.WithinLimits := by
  refine h.of_size_le (fun g => ?_) fun g => ?_
  · rw [Registry.newContainer, config, factory_setContainer, config]
  · rw [(extends_newContainer r id f).owners]

end WithinLimits

/-- After calls that all succeed, none of which crosses trees, a forest is coherent if its
identities are distinct and no tree is over its limit. -/
theorem coherent_trail {calls : List Call} (valid : AllValid .quiet calls ⟨.empty, ()⟩)
    (single : ∀ p ∈ (trail calls).1, p.2.IsSingle)
    (fresh : ∀ p ∈ (trail calls).1, p.2.Fresh .quiet p.1)
    (succeeds : ∀ p ∈ (trail calls).1, (p.2.perform .quiet p.1).1 = none)
    (stays : ∀ p ∈ (trail calls).1, ¬ p.2.Crosses .quiet p.1)
    (limits : (trail calls).2.registry.WithinLimits) : (trail calls).2.registry.Coherent := by
  have hrun : Run .quiet (trail calls).1 (trail calls).2 := run_trail valid
  have hstrands : ∀ p ∈ (trail calls).1, ¬ p.2.Strands .quiet p.1 := by
    intro p hp hstrands
    obtain ⟨id, hid⟩ := hstrands
    rw [succeeds p hp] at hid
    cases hid
  have hknown := hrun.known Observers.quiet_passive fresh _ List.mem_cons_self
  have htidy := hrun.tidy Observers.quiet_passive single hstrands stays _ List.mem_cons_self
  exact hknown.coherent htidy.full limits

theorem SameForest.inUse_iff (h : SameForest r s) {c : ContainerRef} : s.InUse c ↔ r.InUse c := by
  cases c with
  | standalone i => exact h.exists_iff (.standalone i)
  | ofEntity e => simp only [InUse, held_congr h.held]

theorem SameForest.consistent (h : SameForest r s) (hr : r.Consistent) : s.Consistent := by
  refine .of_sound_full (h.extends.sound hr.sound) (h.extends.full hr.sound hr.full) ?_
  intro c d hc hd hid
  rw [h.inUse_iff] at hc hd
  rw [h.containerId, h.containerId] at hid
  exact hr.distinct hc hd hid

theorem SameForest.coherent (h : SameForest r s) (hr : r.Coherent) : s.Coherent :=
  ⟨h.consistent hr.toConsistent, hr.within_limits.of_sameForest h⟩

/-! ## The number of entities below another one -/

omit [ValueTypes] in
theorem mem_map_fst {l : List (EntityRef × Uuid)} {x : EntityRef} :
    x ∈ l.map Prod.fst ↔ ∃ owner, (x, owner) ∈ l := by
  simp

theorem mem_children {p x : EntityRef} :
    x ∈ (r.childrenOf p).map Prod.fst ↔ r.Parent p x := by
  simp only [mem_map_fst, mem_childrenOf, exists_and_left, exists_eq, and_true]

theorem Sound.nodup_held (hr : r.Sound) (c : ContainerRef) : (r.held c).values.Nodup :=
  Table.nodup_values fun hi hj => (hr.keyed hi).symm.trans (hr.keyed hj)

theorem map_fst_childrenOf (p : EntityRef) :
    (r.childrenOf p).map Prod.fst = (r.held (.ofEntity p)).values := by
  simp only [childrenOf, List.map_map, Function.comp_def, List.map_id']

theorem Sound.nodup_children (hr : r.Sound) (p : EntityRef) :
    ((r.childrenOf p).map Prod.fst).Nodup := by
  rw [map_fst_childrenOf]
  exact hr.nodup_held _

/-- Everything below an entity that has a property has it, if what it holds has it. -/
theorem Below.closed {S : EntityRef → Prop} (hdown : ∀ {p x}, S p → r.Parent p x → S x)
    {e x : EntityRef} (he : S e) (h : r.Below e x) : S x := by
  induction h with
  | child hx => exact hdown he hx
  | step _ hx ih => exact hdown ih hx

section Once

/-! Where an entity is in one child container only, the enumeration lists everything once. -/

variable {S : EntityRef → Prop} (hdown : ∀ {p x}, S p → r.Parent p x → S x)
  (hchildren : ∀ {p}, S p → ((r.childrenOf p).map Prod.fst).Nodup)
  (hone : ∀ {p q x}, S p → S q → r.Parent p x → r.Parent q x → p = q)

include hdown hchildren hone

/-- So it does from several entities none of which is below another. -/
theorem nodup_below {depth : Nat} {ps : List EntityRef} (hS : ∀ p ∈ ps, S p) (hps : ps.Nodup)
    (hlevel : ∀ p ∈ ps, ∀ q ∈ ps, ¬ r.Below p q) : ((r.below depth ps).map Prod.fst).Nodup := by
  induction depth generalizing ps with
  | zero => exact List.nodup_nil
  | succ depth ih =>
    have hchild : ∀ x, x ∈ (ps.flatMap r.childrenOf).map Prod.fst ↔ ∃ p ∈ ps, r.Parent p x := by
      intro x
      rw [List.map_flatMap]
      simp only [List.mem_flatMap, mem_children]
    have hS' : ∀ x ∈ (ps.flatMap r.childrenOf).map Prod.fst, S x := by
      intro x hx
      obtain ⟨p, hp, hpx⟩ := (hchild x).1 hx
      exact hdown (hS p hp) hpx
    have hnext : ((ps.flatMap r.childrenOf).map Prod.fst).Nodup := by
      rw [List.map_flatMap, List.nodup_flatMap]
      refine ⟨fun p hp => hchildren (hS p hp), hps.imp_of_mem fun {p q} hp hq hpq x hx hy => hpq ?_⟩
      exact hone (hS p hp) (hS q hq) (mem_children.1 hx) (mem_children.1 hy)
    have hbelow : ∀ x ∈ (ps.flatMap r.childrenOf).map Prod.fst,
        ∀ y ∈ (ps.flatMap r.childrenOf).map Prod.fst, ¬ r.Below x y := by
      intro x hx y hy hxy
      obtain ⟨p, hp, hpx⟩ := (hchild x).1 hx
      obtain ⟨q, hq, hqy⟩ := (hchild y).1 hy
      obtain ⟨c, i, hw, hheld⟩ := below_iff_held.1 hxy
      obtain ⟨m, rfl, hm⟩ := within_ofEntity_iff.1 hw
      have hSm : S m := by
        rcases hm with rfl | hm
        · exact hS' m hx
        · exact hm.closed hdown (hS' x hx)
      obtain rfl := hone hSm (hS q hq) ⟨i, hheld⟩ hqy
      apply hlevel p hp m hq
      rcases hm with rfl | hm
      · exact .child hpx
      · exact (Below.child hpx).trans hm
    rw [below_succ, List.map_append, List.nodup_append]
    refine ⟨hnext, ih hS' hnext hbelow, ?_⟩
    rintro x hx _ hy rfl
    obtain ⟨⟨y, owner⟩, hmem, rfl⟩ := List.mem_map.1 hy
    obtain ⟨k, -, m, hm, q, hq, hparent, -⟩ := mem_below.1 hmem
    have hmy : r.Below m y := by
      rcases exists_down_iff.1 ⟨k, hq⟩ with rfl | hmq
      · exact .child hparent
      · exact .step hmq hparent
    exact hbelow m hm y hx hmy

theorem nodup_descendants {e : EntityRef} (he : S e) (hac : ¬ r.Below e e) :
    ((r.descendants e).map Prod.fst).Nodup := by
  refine nodup_below hdown hchildren hone (fun p hp => ?_) (List.nodup_singleton e)
    fun p hp q hq => ?_
  · rwa [List.mem_singleton.1 hp]
  · rwa [List.mem_singleton.1 hp, List.mem_singleton.1 hq]

end Once

theorem setOf_below (r : Registry) (e : EntityRef) :
    {x | r.Below e x} = (((r.descendants e).map Prod.fst).toFinset : Set EntityRef) := by
  ext x
  rw [List.coe_toFinset]
  exact exists_mem_descendants.symm.trans mem_map_fst.symm

theorem Sound.nodup_descendants (hr : r.Sound) (e : EntityRef) :
    ((r.descendants e).map Prod.fst).Nodup := by
  refine Registry.nodup_descendants (S := fun _ => True) (fun _ _ => trivial)
    (fun _ => hr.nodup_children _) (fun _ _ hp hq => ?_) trivial (hr.acyclic.not_below_self e)
  obtain ⟨_, hp⟩ := hp
  obtain ⟨_, hq⟩ := hq
  exact ContainerRef.ofEntity.inj (hr.once hp hq)

/-- The enumeration is as long as there are entities below. -/
theorem Sound.length_descendants (hr : r.Sound) (e : EntityRef) :
    (r.descendants e).length = {x | r.Below e x}.ncard := by
  rw [setOf_below, Set.ncard_coe_finset, List.toFinset_card_of_nodup (hr.nodup_descendants e),
    List.length_map]

/-- The identities below a held entity are all different, and different from its own. -/
theorem Sound.nodup_ids (hr : r.Sound) {src : ContainerRef} {id : Uuid} {e : EntityRef}
    (he : r.Held src id e) : (id :: (r.descendants e).map fun p => r.idOf p.1).Nodup := by
  refine List.nodup_cons.2 ⟨fun hmem => ?_, ?_⟩
  · obtain ⟨p, hp, hid⟩ := List.mem_map.1 hmem
    exact hr.key_ne_of_descendant he hp (hid.trans (hr.keyed he).symm)
  · have hnodup := hr.nodup_descendants e
    have hmap : ((r.descendants e).map fun p => r.idOf p.1) =
        ((r.descendants e).map Prod.fst).map r.idOf := by
      rw [List.map_map]
      rfl
    rw [hmap]
    refine hnodup.map_on fun x hx y hy hid => ?_
    obtain ⟨owner, hx⟩ := mem_map_fst.1 hx
    obtain ⟨owner', hy⟩ := mem_map_fst.1 hy
    obtain ⟨c, hc, hx, -⟩ := hr.mem_descendants_iff.1 hx
    obtain ⟨d, hd, hy, -⟩ := hr.mem_descendants_iff.1 hy
    have hbound := (hr.bound_of_within_held he hc).trans (hr.bound_of_within_held he hd).symm
    exact hr.eq_of_bound hbound hx (hid ▸ hy)

/-- What a tree releases it has recorded before, and does not any more. -/
theorem Full.mem_of_released (h : r.Full) (hr : r.Sound) {src : ContainerRef} {id : Uuid}
    {e : EntityRef} (he : r.Held src id e) {t : Registry} (k : r.Released (r.bound src) e t)
    {j : Uuid} (hj : j ∈ id :: (r.descendants e).map fun p => r.idOf p.1) :
    j ∈ r.owners (r.bound src) ∧ j ∉ t.owners (r.bound src) := by
  have hforgotten := k.forgotten hr
  rcases List.mem_cons.1 hj with rfl | hj
  · refine ⟨Table.mem_of_find? (h.recorded he), ?_⟩
    rw [← hr.keyed he, ← k.idOf]
    exact hforgotten.self
  · obtain ⟨⟨x, owner⟩, hmem, rfl⟩ := List.mem_map.1 hj
    obtain ⟨c, hw, hx, -⟩ := hr.mem_descendants_iff.1 hmem
    have hrec := h.recorded hx
    rw [hr.bound_of_within_held he hw] at hrec
    refine ⟨Table.mem_of_find? hrec, fun hleft => ?_⟩
    obtain ⟨owner', hrec'⟩ := Table.mem_iff_find?.1 hleft
    obtain rfl := Option.some.inj ((k.record_mono hrec').symm.trans hrec)
    have hnone := hforgotten.below (k.within_iff.2 hw) (k.held_iff.2 hx)
    rw [k.containerId] at hnone
    exact hnone hrec'

/-- A tree that releases an entity makes as much room as the entity takes with all that is below. -/
theorem Full.size_released (h : r.Full) (hr : r.Sound) {src : ContainerRef} {id : Uuid}
    {e : EntityRef} (he : r.Held src id e) {t : Registry} (k : r.Released (r.bound src) e t) :
    (t.owners (r.bound src)).size + ((r.descendants e).length + 1) ≤
      (r.owners (r.bound src)).size := by
  have hsub : ∀ j ∈ t.owners (r.bound src), j ∈ r.owners (r.bound src) := by
    intro j hj
    obtain ⟨owner, hrec⟩ := Table.mem_iff_find?.1 hj
    exact Table.mem_of_find? (k.record_mono hrec)
  have hle := Table.size_add_length_le (hr.nodup_ids he) hsub fun j hj =>
    (h.mem_of_released hr he k hj).symm
  rwa [List.length_cons, List.length_map] at hle

end EntityForest.Registry
