import EntityForest.Proofs.Tables
import EntityForest.Proofs.Trees
import EntityForest.Proofs.Views
import EntityForest.World.Create
import EntityForest.World.Kill
import EntityForest.World.Transfer

/-! # What an operation does to a registry

Each structure below says everything that one operation on a registry checks and changes; later
proofs read it instead of the definition. -/

namespace EntityForest.Registry

variable [ValueTypes]

/-- What containers hold has been handed out. -/
def Placed (r : Registry) : Prop :=
  ∀ c id e, r.Held c id e → r.Exists c ∧ r.Exists (.ofEntity e)

variable {r s : Registry}

theorem mem_held_iff {c : ContainerRef} {id : Uuid} : id ∈ r.held c ↔ ∃ e, r.Held c id e :=
  Table.mem_iff_find?

/-! ## Killing -/

structure Killed (r : Registry) (c : ContainerRef) (id : Uuid) (e : EntityRef) (s : Registry) :
    Prop where
  found : r.Held c id e
  recorded : r.idOf e ∈ r.owners (r.bound c)
  alive : r.lifecycle e = .alive
  names : r.Placed → SameNames r s
  held : ∀ d, s.held d = if d = c then (r.held c).erase id else r.held d
  owners : ∀ f, s.owners f =
    if f = r.bound c then (r.owners f).erase (r.idOf e) else r.owners f
  lifecycle : ∀ x, s.lifecycle x = if x = e then .dead else r.lifecycle x
  bound : ∀ d, s.bound d = r.bound d
  isClosed : ∀ d, s.isClosed d = r.isClosed d
  audience : ∀ d, s.audience d = r.audience d
  config : ∀ f, s.config f = r.config f
  marks : ∀ x, (s.entity x).marks = (r.entity x).marks
  bag : ∀ b, s.bag b = r.bag b

theorem retire_eq_true {f : FactoryRef} {e : EntityRef} (h : r.retire f e = (true, s)) :
    r.idOf e ∈ r.owners f ∧ r.lifecycle e = .alive ∧
      s = (r.setLifecycle e .dead).setOwners f ((r.owners f).erase (r.idOf e)) := by
  unfold retire at h
  simp only at h
  split at h
  · rename_i hcond
    cases h
    exact ⟨hcond.1, hcond.2, rfl⟩
  · cases h

theorem killed_of_kill {c : ContainerRef} {id : Uuid} {e : EntityRef}
    (h : r.kill c id = some (e, s)) : r.Killed c id e s := by
  unfold kill at h
  split at h
  · cases h
  · rename_i x hx
    split at h
    · cases h
    · rename_i t hretire
      cases h
      obtain ⟨hrec, halive, rfl⟩ := retire_eq_true hretire
      set owners := (r.owners (r.container c).factory).erase (r.idOf e)
      have hrecords : r.SameContents e
          ((r.setLifecycle e .dead).setOwners (r.container c).factory owners) :=
        (r.sameContents_setLifecycle e .dead).trans (sameContents_setOwners _ _ owners e)
      refine ⟨hx, hrec, halive, ?_, ?_, ?_, ?_, ?_, ?_, ?_, ?_, ?_, ?_⟩
      · intro hplaced
        obtain ⟨hc, he⟩ := hplaced c id e hx
        have hnames := hrecords.sameNames he
        exact hnames.trans (sameNames_setHeld _ ((hnames.exists_iff c).2 hc) _)
      · intro d
        simp only [held_setHeld, hrecords.held]
      · intro f
        rw [owners_setHeld, owners_setOwners]
        by_cases hf : f = r.bound c
        · subst hf
          rfl
        · rw [if_neg hf]
          exact if_neg hf
      · intro x
        rw [lifecycle_setHeld]
        exact r.lifecycle_setLifecycle e _ x
      · intro d
        rw [bound_setHeld]
        simp only [Registry.bound, container_setOwners, container_setLifecycle]
      · intro d
        rw [isClosed_setHeld, hrecords.isClosed]
      · intro d
        rw [audience_setHeld, hrecords.audience]
      · intro f
        rw [config_setHeld, hrecords.config]
      · intro x
        rw [setHeld, entity_setContainer]
        exact r.entity_setEntity_congr Entity.marks (by rfl) x
      · intro b
        rw [setHeld, bag_setContainer, setOwners, bag_setFactory, setLifecycle, bag_setEntity]

/-! ## Creating -/

structure Created (r : Registry) (c delegate : ContainerRef) (id : Uuid) (e : EntityRef)
    (s : Registry) : Prop where
  id_ne_nil : id ≠ .nil
  isOpen : r.isClosed c = false
  absent : id ∉ r.held c
  room : r.overLimit (r.bound c) 1 = none
  unrecorded : id ∉ r.owners (r.bound c)
  ref : e = ⟨r.entities.size⟩
  exists_iff : r.Exists c → ∀ d, s.Exists d ↔ r.Exists d ∨ d = .ofEntity e
  held : r.Exists c → ∀ d, s.held d =
    if d = c then (r.held c).insert id e else if d = .ofEntity e then ∅ else r.held d
  containerId : ∀ d, s.containerId d = if d = .ofEntity e then id else r.containerId d
  delegateOf : ∀ d, s.delegateOf d = if d = .ofEntity e then d else r.delegateOf d
  bound : ∀ d, s.bound d = if d = .ofEntity e then r.bound c else r.bound d
  isClosed : ∀ d, s.isClosed d = if d = .ofEntity e then false else r.isClosed d
  owners : ∀ f, s.owners f =
    if f = r.bound c then (r.owners f).insert id (r.containerId delegate) else r.owners f
  idOf : ∀ x, s.idOf x = if x = e then id else r.idOf x
  lifecycle : ∀ x, s.lifecycle x = if x = e then .alive else r.lifecycle x
  config : ∀ f, s.config f = r.config f

theorem mint_eq_ok {f : FactoryRef} {owner : ContainerRef} {id : Uuid} {e : EntityRef}
    (h : r.mint f owner id = .ok (e, s)) :
    r.overLimit f 1 = none ∧ id ∉ r.owners f ∧
      (e, s) = (r.setOwners f ((r.owners f).insert id (r.containerId owner))).newEntity id f := by
  unfold mint at h
  split at h
  · cases h
  · rename_i hroom
    split at h
    · cases h
    · rename_i hfree
      cases h
      exact ⟨hroom, hfree, rfl⟩

/-- Marks, listeners and attributes are not part of the forest. -/
theorem sameForest_setMarks (r : Registry) {e : EntityRef} (he : r.Exists (.ofEntity e))
    (ms : List Marker) : SameForest r (r.setEntity e { r.entity e with marks := ms }) where
  exists_iff c := r.exists_setEntity he _ c
  held c := by simp only [Registry.held, container_setEntity]
  containerId c := by simp only [Registry.containerId, container_setEntity]
  delegateOf c := by simp only [Registry.delegateOf, container_setEntity]
  bound c := by simp only [Registry.bound, container_setEntity]
  isClosed c := by simp only [Registry.isClosed, container_setEntity]
  owners f := rfl
  config f := rfl
  idOf x := r.entity_setEntity_congr Entity.id (by rfl) x
  lifecycle x := r.entity_setEntity_congr Entity.lifecycle (by rfl) x

theorem sameForest_mark (r : Registry) (e : EntityRef) (he : r.Exists (.ofEntity e)) (m : Marker) :
    SameForest r (r.mark e m).2 := by
  unfold mark
  simp only
  split
  · exact .refl r
  · exact sameForest_setMarks r he _

theorem sameForest_unmark (r : Registry) (e : EntityRef) (m : Marker) :
    SameForest r (r.unmark e m).2 := by
  unfold unmark
  simp only
  split
  · rename_i hmarked
    -- only an entity that there is can carry a mark
    have he : r.Exists (.ofEntity e) := by
      by_contra hnone
      have hblank : r.entity e = default := Store.get_of_size_le (Nat.not_lt.1 hnone)
      rw [hblank] at hmarked
      exact List.not_mem_nil hmarked
    exact sameForest_setMarks r he _
  · exact .refl r

theorem bag_newEntity (r : Registry) (id : Uuid) (f : FactoryRef) (b : BagRef) :
    (r.newEntity id f).2.bag b = if b = .ofEntity (r.newEntity id f).1 then ∅ else r.bag b := by
  refine (bag_setBag _ _ _ b).trans (if_congr Iff.rfl rfl ?_)
  rw [bag_setContainer, bag_setEntity]

theorem bag_mark (r : Registry) (e : EntityRef) (m : Marker) (b : BagRef) :
    (r.mark e m).2.bag b = r.bag b := by
  unfold mark
  simp only
  split
  · rfl
  · exact r.bag_setEntity e _ b

theorem sameForest_setListeners (r : Registry) {c : ContainerRef} (hc : r.Exists c)
    (ls : ListenerSet ListenerRef) : SameForest r (r.setListeners c ls) where
  exists_iff d := r.exists_setContainer hc _ d
  held d := r.container_setContainer_congr Container.entities (by rfl) d
  containerId d := r.container_setContainer_congr Container.id (by rfl) d
  delegateOf d := r.container_setContainer_congr Container.delegate (by rfl) d
  bound d := r.container_setContainer_congr Container.factory (by rfl) d
  isClosed d := r.container_setContainer_congr Container.closed (by rfl) d
  owners f := by rw [Registry.owners, setListeners, factory_setContainer, Registry.owners]
  config f := by rw [Registry.config, setListeners, factory_setContainer, Registry.config]
  idOf e := by rw [Registry.idOf, setListeners, entity_setContainer, Registry.idOf]
  lifecycle e := by rw [Registry.lifecycle, setListeners, entity_setContainer, Registry.lifecycle]

theorem sameForest_setBag (r : Registry) (b : BagRef) (x : Bag) : SameForest r (r.setBag b x) where
  exists_iff c := by cases b <;> cases c <;> exact Iff.rfl
  held c := by simp only [Registry.held, container_setBag]
  containerId c := by simp only [Registry.containerId, container_setBag]
  delegateOf c := by simp only [Registry.delegateOf, container_setBag]
  bound c := by simp only [Registry.bound, container_setBag]
  isClosed c := by simp only [Registry.isClosed, container_setBag]
  owners f := by simp only [Registry.owners, factory_setBag]
  config f := by simp only [Registry.config, factory_setBag]
  idOf e := by simp only [Registry.idOf, entity_setBag]
  lifecycle e := by simp only [Registry.lifecycle, entity_setBag]

theorem Created.of_sameForest {c delegate : ContainerRef} {id : Uuid} {e : EntityRef}
    {t : Registry} (h : r.Created c delegate id e s) (k : SameForest s t) :
    r.Created c delegate id e t where
  id_ne_nil := h.id_ne_nil
  isOpen := h.isOpen
  absent := h.absent
  room := h.room
  unrecorded := h.unrecorded
  ref := h.ref
  exists_iff hc d := (k.exists_iff d).trans (h.exists_iff hc d)
  held hc d := (k.held d).trans (h.held hc d)
  containerId d := (k.containerId d).trans (h.containerId d)
  delegateOf d := (k.delegateOf d).trans (h.delegateOf d)
  bound d := (k.bound d).trans (h.bound d)
  isClosed d := (k.isClosed d).trans (h.isClosed d)
  owners f := (k.owners f).trans (h.owners f)
  idOf x := (k.idOf x).trans (h.idOf x)
  lifecycle x := (k.lifecycle x).trans (h.lifecycle x)
  config f := (k.config f).trans (h.config f)

theorem exists_newEntity (id : Uuid) (f : FactoryRef) (d : ContainerRef) :
    (r.newEntity id f).2.Exists d ↔ r.Exists d ∨ d = .ofEntity (r.newEntity id f).1 := by
  cases d with
  | standalone i =>
    simp only [Exists, newEntity, reduceCtorEq, or_false]
    exact Iff.rfl
  | ofEntity e =>
    have hsize : (r.newEntity id f).2.entities.size = r.entities.size + 1 := by
      change (r.entities.set r.entities.size _).size = _
      rw [Store.size_set]
      omega
    change e.index < (r.newEntity id f).2.entities.size ↔ e.index < r.entities.size ∨ _
    rw [hsize, ContainerRef.ofEntity.injEq, ← EntityRef.index_inj]
    change _ ↔ _ ∨ e.index = r.entities.size
    omega

/-- The new entity with its records, before it is marked and seeded. -/
private theorem created_of_mint {c delegate : ContainerRef} {id : Uuid} {e : EntityRef}
    (hnil : id ≠ .nil) (hopen : r.isClosed c = false) (habsent : id ∉ r.held c)
    (h : r.mint (r.bound c) delegate id = .ok (e, s)) :
    r.Created c delegate id e (s.setHeld c ((s.held c).insert id e)) := by
  obtain ⟨hroom, hfree, heq⟩ := mint_eq_ok h
  set t := r.setOwners (r.bound c) ((r.owners (r.bound c)).insert id (r.containerId delegate))
    with ht
  obtain rfl : e = (t.newEntity id (r.bound c)).1 := congrArg Prod.fst heq
  obtain rfl : s = (t.newEntity id (r.bound c)).2 := congrArg Prod.snd heq
  have hexists : ∀ d, t.Exists d ↔ r.Exists d := fun d => r.exists_setOwners _ _ d
  have hcontainer : ∀ d, t.container d = r.container d := fun d => r.container_setOwners _ _ d
  have hfresh : r.Exists c → c ≠ .ofEntity (t.newEntity id (r.bound c)).1 := by
    intro hc heq
    rw [heq] at hc
    exact Nat.lt_irrefl _ hc
  refine {
    id_ne_nil := hnil
    isOpen := hopen
    absent := habsent
    room := hroom
    unrecorded := hfree
    ref := rfl
    exists_iff := ?_
    held := ?_
    containerId := ?_
    delegateOf := ?_
    bound := ?_
    isClosed := ?_
    owners := ?_
    idOf := ?_
    lifecycle := ?_
    config := ?_ }
  · intro hc d
    have hc' : (t.newEntity id (r.bound c)).2.Exists c := by
      rw [exists_newEntity, hexists]
      exact .inl hc
    rw [exists_setHeld _ _ hc', exists_newEntity, hexists]
  · intro hc d
    rw [held_setHeld]
    by_cases hd : d = c
    · rw [if_pos hd, if_pos hd, Registry.held, container_newEntity, if_neg (hfresh hc),
        hcontainer]
      rfl
    · rw [if_neg hd, if_neg hd, Registry.held, container_newEntity, hcontainer]
      split <;> rfl
  · intro d
    rw [containerId_setHeld, Registry.containerId, container_newEntity, hcontainer]
    split <;> rfl
  · intro d
    rw [delegateOf_setHeld, Registry.delegateOf, container_newEntity, hcontainer]
    split
    · rename_i hd
      exact hd.symm
    · rfl
  · intro d
    rw [bound_setHeld, Registry.bound, container_newEntity, hcontainer]
    split <;> rfl
  · intro d
    rw [isClosed_setHeld, Registry.isClosed, container_newEntity, hcontainer]
    split <;> rfl
  · intro f
    rw [owners_setHeld]
    change t.owners f = _
    rw [ht, owners_setOwners]
    by_cases hf : f = r.bound c
    · rw [if_pos hf, if_pos hf, hf]
    · rw [if_neg hf, if_neg hf]
  · intro x
    rw [idOf_setHeld, Registry.idOf, entity_newEntity]
    split <;> rfl
  · intro x
    rw [lifecycle_setHeld, Registry.lifecycle, entity_newEntity]
    split <;> rfl
  · intro f
    rw [config_setHeld]
    change t.config f = _
    rw [ht, config_setOwners]

theorem created_of_create {c delegate : ContainerRef} {id : Uuid} {marker : Option Marker}
    {seed : Table Slot Value} {made : Creation}
    (h : r.create c (.ok delegate) id marker seed = .ok made) :
    r.Created c delegate id made.entity made.registry ∧ made.delegate = delegate := by
  unfold create at h
  simp only at h
  split at h
  · cases h
  rename_i hnil
  split at h
  · cases h
  rename_i hopen
  split at h
  · cases h
  rename_i habsent
  split at h
  · cases h
  rename_i e s hmint
  cases h
  refine ⟨?_, rfl⟩
  have hcreated := created_of_mint hnil (Bool.eq_false_iff.2 hopen) habsent hmint
  set t := s.setHeld c ((s.held c).insert id e) with ht
  have he : t.Exists (.ofEntity e) := by
    obtain ⟨-, -, heq⟩ := mint_eq_ok hmint
    obtain rfl := congrArg Prod.fst heq
    obtain rfl := congrArg Prod.snd heq
    rw [ht]
    cases c <;> exact (exists_newEntity _ _ _).2 (.inr rfl)
  have hmark : SameForest t (marker.elim t fun m => (t.mark e m).2) := by
    cases marker with
    | none => exact .refl t
    | some m => exact sameForest_mark t e he m
  have hseed := hmark.trans (sameForest_setBag _ (.ofEntity e) (.ofValues seed))
  exact hcreated.of_sameForest hseed

end EntityForest.Registry
