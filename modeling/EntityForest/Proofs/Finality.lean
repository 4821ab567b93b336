import EntityForest.Attribute.Plain
import EntityForest.Proofs.Calls
import EntityForest.Proofs.Refusals

/-! # What is never undone

A dead entity stays dead and comes into no container again, and a closed container stays closed and
takes nothing in. An operation gives way to listeners before it is done, and these may begin
operations of their own, so that anything can happen between the death of an entity and the closing
of its child container. What is carried through it all is a list of the dead whose child containers
are still to be closed. -/

namespace EntityForest

open Relation (ReflTransGen)

/-! ## Before and after -/

section Pages

variable {α : Type} {R : α → α → Prop} {pages : List α} {a b : α}

/-- The last page of a chronicle may give way to a later one. -/
theorem pairwise_replace_last (htrans : ∀ {x y z}, R x y → R y z → R x z)
    (hpages : (pages ++ [a]).Pairwise R) (h : R a b) : (pages ++ [b]).Pairwise R := by
  rw [List.pairwise_append] at hpages ⊢
  obtain ⟨hold, -, hlast⟩ := hpages
  refine ⟨hold, List.pairwise_singleton _ _, fun p hp q hq => ?_⟩
  obtain rfl := List.mem_singleton.1 hq
  exact htrans (hlast p hp a (List.mem_singleton_self a)) h

theorem pairwise_repeat_last (hrefl : ∀ x, R x x) (hpages : (pages ++ [a]).Pairwise R) :
    (pages ++ [a] ++ [a]).Pairwise R := by
  rw [List.pairwise_append]
  refine ⟨hpages, List.pairwise_singleton _ _, fun p hp q hq => ?_⟩
  obtain rfl := List.mem_singleton.1 hq
  rcases List.mem_append.1 hp with hp | hp
  · exact (List.pairwise_append.1 hpages).2.2 p hp q (List.mem_singleton_self q)
  · obtain rfl := List.mem_singleton.1 hp
    exact hrefl p

end Pages

section

variable [ValueTypes]

namespace Registry

variable {r s t : Registry}

/-- What holds of any two states of a forest, the earlier one first. A closed container holds only
what it has held before, under the same identities. -/
structure Later (r s : Registry) : Prop where
  exists_mono : ∀ {c}, r.Exists c → s.Exists c
  dead : ∀ {e}, r.lifecycle e = .dead → s.lifecycle e = .dead
  not_inserted : ∀ {c id e}, r.lifecycle e = .dead → s.Held c id e → r.Held c id e
  closed : ∀ {c}, r.isClosed c = true → s.isClosed c = true
  shrinks : ∀ {c id e}, r.isClosed c = true → s.Held c id e → r.Held c id e

namespace Later

theorem refl (r : Registry) : r.Later r := ⟨id, id, fun _ h => h, id, fun _ h => h⟩

theorem trans (h : r.Later s) (k : s.Later t) : r.Later t where
  exists_mono hc := k.exists_mono (h.exists_mono hc)
  dead he := k.dead (h.dead he)
  not_inserted he hheld := h.not_inserted he (k.not_inserted (h.dead he) hheld)
  closed hc := k.closed (h.closed hc)
  shrinks hc hheld := h.shrinks hc (k.shrinks (h.closed hc) hheld)

end Later

/-! ## One change -/

/-- Only what has been handed out holds anything, is held or is closed. -/
structure Grounded (r : Registry) : Prop where
  placed : r.Placed
  closed : ∀ {c}, r.isClosed c = true → r.Exists c

theorem grounded_empty : Registry.empty.Grounded where
  placed _ _ _ h := absurd h not_held_empty
  closed {c} h := by cases c <;> cases h

theorem exists_of_dead {e : EntityRef} (h : r.lifecycle e = .dead) : r.Exists (.ofEntity e) := by
  by_contra hnone
  have hblank : r.entity e = default := Store.get_of_size_le (Nat.not_lt.1 hnone)
  rw [lifecycle, hblank] at h
  cases h

/-- What one change of a forest may do. An entity that comes into a container is not dead, and the
container is open. Of the entities, only the victims die. -/
structure Ages (r : Registry) (victims : List EntityRef) (s : Registry) : Prop where
  exists_mono : ∀ {c}, r.Exists c → s.Exists c
  held : ∀ {c id e}, s.Held c id e → r.Held c id e ∨
    (r.isClosed c = false ∧ r.lifecycle e ≠ .dead) ∧ s.Exists c ∧ s.Exists (.ofEntity e)
  closed : ∀ {c}, r.isClosed c = true → s.isClosed c = true
  shut : ∀ {c}, s.isClosed c = true → r.isClosed c = true ∨ s.Exists c
  dead_iff : ∀ e, s.lifecycle e = .dead ↔ r.lifecycle e = .dead ∨ e ∈ victims

namespace Ages

variable {victims : List EntityRef} (h : r.Ages victims s)

include h

theorem later : r.Later s where
  exists_mono := h.exists_mono
  dead he := (h.dead_iff _).2 (.inl he)
  not_inserted he hheld := (h.held hheld).resolve_right fun hnew => hnew.1.2 he
  closed := h.closed
  shrinks hc hheld := (h.held hheld).resolve_right fun hnew => by
    rw [hnew.1.1] at hc
    cases hc

theorem grounded (hr : r.Grounded) : s.Grounded where
  placed c id e hheld := by
    rcases h.held hheld with hold | ⟨-, hnew⟩
    · exact (hr.placed c id e hold).imp h.exists_mono h.exists_mono
    · exact hnew
  closed hc := (h.shut hc).elim (fun hold => h.exists_mono (hr.closed hold)) id

end Ages

theorem SameForest.ages (h : SameForest r s) : r.Ages [] s where
  exists_mono hc := (h.exists_iff _).2 hc
  held hheld := .inl ((held_congr h.held).1 hheld)
  closed hc := by rwa [h.isClosed]
  shut hc := .inl (by rwa [h.isClosed] at hc)
  dead_iff e := by rw [h.lifecycle, or_iff_left List.not_mem_nil]

/-- New objects hold nothing and are open. -/
theorem Extends.ages (h : Extends r s) (hr : r.Grounded)
    (hclosed : ∀ c, s.isClosed c = true ↔ r.Exists c ∧ r.isClosed c = true)
    (hlife : ∀ e, s.lifecycle e = r.lifecycle e) : r.Ages [] s where
  exists_mono hc := h.exists_mono _ hc
  held hheld := .inl (h.held_iff.1 hheld)
  closed hc := (hclosed _).2 ⟨hr.closed hc, hc⟩
  shut hc := .inl ((hclosed _).1 hc).2
  dead_iff e := by rw [hlife, or_iff_left List.not_mem_nil]

theorem ages_newFactory (hr : r.Grounded) (config : TreeConfig) :
    r.Ages [] (r.newFactory config).2 := by
  refine (extends_newFactory r config).ages hr (fun c => ?_) fun _ => rfl
  have hsame : (r.newFactory config).2.isClosed c = r.isClosed c := by
    cases c <;> rfl
  rw [hsame]
  exact ⟨fun hc => ⟨hr.closed hc, hc⟩, And.right⟩

/-- A new container is open. -/
theorem ages_setContainer (hr : r.Grounded) {x : Container} (hempty : x.entities = ∅)
    (hopen : x.closed = false) :
    r.Ages [] (r.setContainer (.standalone r.containers.size) x) := by
  refine (r.extends_setContainer hempty).ages hr (fun c => ?_) fun e => ?_
  · rw [isClosed, container_setContainer]
    split
    · rename_i hc
      rw [hopen]
      refine ⟨fun hclosed => absurd hclosed Bool.false_ne_true, fun hold => ?_⟩
      rw [hc] at hold
      exact absurd hold.1 (Nat.lt_irrefl _)
    · exact ⟨fun hc => ⟨hr.closed hc, hc⟩, And.right⟩
  · rw [lifecycle, entity_setContainer, lifecycle]

theorem ages_close {e : EntityRef} (he : r.Exists (.ofEntity e)) :
    r.Ages [] (r.close (.ofEntity e)) where
  exists_mono hc := ((sameNames_close r e).exists_iff _).2 hc
  held hheld := .inl ((held_congr (r.held_close _)).1 hheld)
  closed {c} hc := by
    rw [isClosed_close, hc, ite_self]
  shut {c} hc := by
    rw [isClosed_close] at hc
    split at hc
    · rename_i heq
      exact .inr (((sameNames_close r e).exists_iff c).2 (heq ▸ he))
    · exact .inl hc
  dead_iff x := by rw [lifecycle_close, or_iff_left List.not_mem_nil]

/-- An entity leaves a container. -/
theorem ages_leave (r : Registry) (c : ContainerRef) (id : Uuid) :
    r.Ages [] (r.setHeld c ((r.held c).erase id)) where
  exists_mono {d} hd := by
    cases c with
    | ofEntity x => cases d <;> exact hd
    | standalone i =>
      cases d with
      | ofEntity y => exact hd
      | standalone j =>
        have hj : j < r.containers.size := hd
        change j < (r.containers.set i _).size
        rw [Store.size_set]
        exact lt_max_of_lt_left hj
  held {d j x} hheld := by
    refine .inl ?_
    rw [Held, held_setHeld] at hheld
    split at hheld
    · rename_i hd
      rw [Table.find?_erase] at hheld
      split at hheld
      · cases hheld
      · exact hd ▸ hheld
    · exact hheld
  closed hc := by rwa [isClosed_setHeld]
  shut hc := .inl (by rwa [isClosed_setHeld] at hc)
  dead_iff x := by rw [lifecycle_setHeld, or_iff_left List.not_mem_nil]

theorem Killed.ages {c : ContainerRef} {id : Uuid} {e : EntityRef} (h : r.Killed c id e s)
    (hr : r.Placed) : r.Ages [e] s where
  exists_mono hc := ((h.names hr).exists_iff _).2 hc
  held hheld := .inl (h.held_mono hheld)
  closed hc := by rwa [h.isClosed]
  shut hc := .inl (by rwa [h.isClosed] at hc)
  dead_iff x := by
    rw [h.lifecycle, List.mem_singleton]
    by_cases hx : x = e <;> simp [hx]

theorem Created.ages {c delegate : ContainerRef} {id : Uuid} {e : EntityRef}
    (h : r.Created c delegate id e s) (hr : r.Grounded) (hc : r.Exists c) : r.Ages [] s where
  exists_mono hd := (h.exists_iff hc _).2 (.inl hd)
  held {d j x} hheld := by
    rcases h.held_or hc hheld with ⟨rfl, -, rfl⟩ | hold
    · refine .inr ⟨⟨h.isOpen, fun hdead => h.not_exists (exists_of_dead hdead)⟩, ?_⟩
      exact ⟨(h.exists_iff hc _).2 (.inl hc), (h.exists_iff hc _).2 (.inr rfl)⟩
    · exact .inl hold
  closed {d} hd := by
    rw [h.isClosed, if_neg]
    · exact hd
    · rintro rfl
      exact h.not_exists (hr.closed hd)
  shut {d} hd := by
    rw [h.isClosed] at hd
    split at hd
    · cases hd
    · exact .inl hd
  dead_iff x := by
    rw [h.lifecycle, or_iff_left List.not_mem_nil]
    split
    · rename_i hx
      subst hx
      exact ⟨nofun, fun hdead => absurd (exists_of_dead hdead) h.not_exists⟩
    · exact Iff.rfl

theorem Released.ages {f : FactoryRef} {e : EntityRef} (h : r.Released f e s)
    (he : r.Exists (.ofEntity e)) : r.Ages [] s := by
  have hlife : ∀ x, s.lifecycle x = .dead ↔ r.lifecycle x = .dead := by
    intro x
    by_cases hx : x = e
    · subst hx
      by_cases halive : r.lifecycle x = .alive
      · rw [h.lifecycle_of_alive halive, halive]
        exact ⟨nofun, nofun⟩
      · rw [h.lifecycle_of_not_alive halive]
    · rw [h.lifecycle_other x hx]
  exact {
    exists_mono := fun hc => (h.exists_iff he _).2 hc
    held := fun hheld => .inl (h.held_iff.1 hheld)
    closed := fun hc => by rwa [h.isClosed]
    shut := fun hc => .inl (by rwa [h.isClosed] at hc)
    dead_iff := fun x => by rw [hlife, or_iff_left List.not_mem_nil] }

/-- An entity that a container lets in is alive, or it has been exported and comes back to life. -/
theorem ages_receive {dst delegate : ContainerRef} {e : EntityRef} {arrival : Arrival}
    (hdst : r.Exists dst) (he : r.Exists (.ofEntity e))
    (h : r.receive dst delegate e = some (arrival, s)) : r.Ages [] s := by
  obtain ⟨hopen, -, t, rfl, harrival⟩ := receive_eq_some h
  obtain ⟨hsame, hready, hlife⟩ : r.SameContents e t ∧ r.lifecycle e ≠ .dead ∧
      ∀ x, t.lifecycle x = .dead ↔ r.lifecycle x = .dead := by
    cases arrival with
    | taken =>
      have hmay : r.mayRelocate (r.bound dst) e delegate = true := by
        rw [← fst_relocate, harrival]
      obtain ⟨_, -, halive, -⟩ := mayRelocate_iff.1 hmay
      rw [relocate_eq_true harrival]
      exact ⟨r.sameContents_setOwners _ _ e, by rw [halive]; nofun, fun x => Iff.rfl⟩
    | imported =>
      have hadopted := adopted_of_adopt harrival.2
      have hexported := hadopted.may.exported
      refine ⟨hadopted.toSameContents, by rw [hexported]; nofun, fun x => ?_⟩
      rw [hadopted.lifecycle]
      split
      · rename_i hx
        rw [hx, hexported]
        exact ⟨nofun, nofun⟩
      · exact Iff.rfl
  have hexists : ∀ c, (t.setHeld dst ((t.held dst).insert (r.idOf e) e)).Exists c ↔ r.Exists c :=
    fun c => (t.exists_setHeld _ ((hsame.exists_iff he dst).2 hdst) c).trans (hsame.exists_iff he c)
  exact {
    exists_mono := fun hc => (hexists _).2 hc
    held := fun {c id x} hheld => by
      rw [Held, held_setHeld] at hheld
      split at hheld
      · rename_i hc
        subst hc
        rw [Table.find?_insert] at hheld
        split at hheld
        · cases hheld
          exact .inr ⟨⟨hopen, hready⟩, (hexists _).2 hdst, (hexists _).2 he⟩
        · exact .inl (by rwa [hsame.held] at hheld)
      · exact .inl (by rwa [hsame.held] at hheld)
    closed := fun hc => by rwa [isClosed_setHeld, hsame.isClosed]
    shut := fun hc => .inl (by rwa [isClosed_setHeld, hsame.isClosed] at hc)
    dead_iff := fun x => by rw [lifecycle_setHeld, hlife, or_iff_left List.not_mem_nil] }

end Registry

open Registry World

variable {χ : Type} {diary : χ → List Registry}

/-! ## Operations that are interrupted -/

/-- The world has come from `r`, all that the clients have noted is in order, and every dead entity
has a closed child container or is among those that are to be seen to. -/
structure World.Aged (diary : χ → List Registry) (r : Registry) (pending : List EntityRef)
    (w : World χ) : Prop where
  grounded : w.registry.Grounded
  later : r.Later w.registry
  pages : (diary w.client ++ [w.registry]).Pairwise Later
  shut : ∀ {e}, w.registry.lifecycle e = .dead →
    w.registry.isClosed (.ofEntity e) = true ∨ e ∈ pending
  waiting : ∀ e ∈ pending, w.registry.lifecycle e = .dead

/-- Whatever the listeners do, the world only ages by it. -/
def Observers.Orderly (diary : χ → List Registry) (obs : Observers χ) : Prop :=
  ∀ holds l event r pending w, w.Aged diary r pending →
    (obs.lifecycle holds l event w).2.Aged diary r pending

namespace World

variable {r : Registry} {pending : List EntityRef} {w w' : World χ}

namespace Aged

variable (h : w.Aged diary r pending)

include h

theorem step {victims : List EntityRef} (hages : w.registry.Ages victims w'.registry)
    (hdiary : diary w'.client = diary w.client) : w'.Aged diary r (victims ++ pending) where
  grounded := hages.grounded h.grounded
  later := h.later.trans hages.later
  pages := hdiary ▸ pairwise_replace_last Later.trans h.pages hages.later
  shut {e} he := by
    rcases (hages.dead_iff e).1 he with hold | hnew
    · exact (h.shut hold).imp hages.closed (List.mem_append_right victims)
    · exact .inr (List.mem_append_left pending hnew)
  waiting e he := by
    rcases List.mem_append.1 he with hnew | hold
    · exact (hages.dead_iff e).2 (.inr hnew)
    · exact (hages.dead_iff e).2 (.inl (h.waiting e hold))

theorem commit {victims : List EntityRef} {s : Registry} (hages : w.registry.Ages victims s) :
    { w with registry := s : World χ }.Aged diary r (victims ++ pending) := h.step hages rfl

/-- Every state is a first one. -/
theorem restart : w.Aged diary w.registry pending := { h with later := .refl w.registry }

theorem congr {pending' : List EntityRef} (hpending : ∀ e, e ∈ pending' ↔ e ∈ pending) :
    w.Aged diary r pending' where
  grounded := h.grounded
  later := h.later
  pages := h.pages
  shut he := (h.shut he).imp_right (hpending _).2
  waiting e he := h.waiting e ((hpending e).1 he)

end Aged

/-- Closing the child container of a dead entity settles it. -/
theorem Aged.close {e : EntityRef} (h : w.Aged diary r (e :: pending)) :
    { w with registry := w.registry.close (.ofEntity e) : World χ }.Aged diary r pending := by
  have he := h.waiting e List.mem_cons_self
  have hclosed := h.commit (ages_close (exists_of_dead he))
  refine ⟨hclosed.grounded, hclosed.later, hclosed.pages, fun {x} hx => ?_, fun x hx =>
    hclosed.waiting x (List.mem_cons_of_mem e hx)⟩
  rcases hclosed.shut hx with hshut | hmem
  · exact .inl hshut
  · rcases List.mem_cons.1 hmem with rfl | hmem
    · refine .inl ?_
      rw [isClosed_close, if_pos rfl]
    · exact .inr hmem

variable {obs : Observers χ} (holds : Holds) (hobs : obs.Orderly diary)

include hobs

theorem aged_announce (c : ContainerRef) (event : Event) (h : w.Aged diary r pending) :
    (announce obs holds c event w).2.Aged diary r pending :=
  announce_induct holds (fun holds l w hw => hobs holds l event r pending w hw) c h

theorem aged_create (c : ContainerRef) (id : Uuid) (marker : Option Marker)
    (seed : Table Slot Value) (hc : w.registry.Exists c) (h : w.Aged diary r pending) :
    (create obs holds c id marker seed w).2.Aged diary r pending := by
  refine create_induct (P := fun v => v.Aged diary r pending) holds h fun made hmade => ?_
  have hcreated := (created_of_create hmade).1
  exact aged_announce (holds.lock c) hobs c _ (h.commit (hcreated.ages h.grounded hc))

theorem aged_newEntityOfType (c : ContainerRef) (id : Uuid) (marker : Marker)
    (seed : Table Slot Value) (hc : w.registry.Exists c) (h : w.Aged diary r pending) :
    (newEntityOfType obs holds c id marker seed w).2.Aged diary r pending := by
  rw [snd_newEntityOfType]
  exact aged_create holds hobs c id (some marker) seed hc h

/-! ### Killing -/

theorem aged_killHeld (c : ContainerRef) (id : Uuid) (h : w.Aged diary r pending) :
    (killHeld obs holds c id w).2.Aged diary r
      ((killHeld obs holds c id w).1.1.toList ++ pending) := by
  unfold killHeld
  split
  · exact h
  · rename_i e s hkill
    have hdead := h.commit ((killed_of_kill hkill).ages h.grounded.placed)
    simp only [announceKilled]
    split
    · exact hdead
    · exact aged_announce _ hobs c _ hdead

theorem aged_killEach (c : ContainerRef) (ids : List Uuid) (h : w.Aged diary r pending) :
    (killEach obs c holds ids w).2.Aged diary r ((killEach obs c holds ids w).1.1 ++ pending) :=
  killEach_collect (P := fun _ dead v => v.Aged diary r dead) holds
    (fun hperm hv => hv.congr fun _ => hperm.mem_iff)
    (fun holds id _ _ _ _ hv => aged_killHeld holds hobs c id hv) h

/-- The gate comes first. Whatever dies behind it, or elsewhere at the hands of listeners, is seen
to before the cascade is over. -/
theorem aged_shutDown (depth : Nat) (e : EntityRef) (h : w.Aged diary r (e :: pending)) :
    (shutDown obs depth holds e w).Aged diary r pending := by
  induction depth generalizing holds e w pending with
  | zero => exact h.close
  | succ depth ih =>
    have hkilled (ids : List Uuid) := aged_killEach
      ((holds.gate (.ofEntity e)).lock (.ofEntity e)) hobs (.ofEntity e) ids h.close
    exact eachOfDead_collect (P := fun dead v => v.Aged diary r dead) holds
      (fun x _ holds _ _ hv => ih holds x hv) (hkilled _)

theorem aged_shutDownEach (victims : List EntityRef) (h : w.Aged diary r (victims ++ pending)) :
    (shutDownEach obs holds victims w).Aged diary r pending :=
  eachOfDead_collect (P := fun dead v => v.Aged diary r dead) holds
    (fun x _ holds _ _ hv => aged_shutDown holds hobs _ x hv) h

theorem aged_kill (c : ContainerRef) (id : Uuid) (h : w.Aged diary r pending) :
    (kill obs holds c id w).2.Aged diary r pending :=
  aged_shutDownEach (holds.keep [c]) hobs _ (aged_killHeld (holds.lock c) hobs c id h)

theorem aged_killListed (c : ContainerRef) (ids : List Uuid) (h : w.Aged diary r pending) :
    (killListed obs holds c ids w).2.Aged diary r pending :=
  aged_shutDownEach (holds.keep [c]) hobs _ (aged_killEach (holds.lock c) hobs c ids h)

/-! ### Moving -/

theorem aged_receive (c : ContainerRef) (e : EntityRef) (h : w.Aged diary r pending)
    (hc : w.registry.Exists c) (he : w.registry.Exists (.ofEntity e)) :
    (receive obs holds c e w).2.Aged diary r pending := by
  refine receive_induct (P := fun v => v.Aged diary r pending) holds h
    (fun delegate s hreceive => ?_) fun delegate s hreceive => ?_
  · exact h.commit (ages_receive hc he hreceive)
  · exact aged_announce _ hobs c _ (h.commit (ages_receive hc he hreceive))

theorem aged_depart (src dst delegate : ContainerRef) (id : Uuid) (e : EntityRef)
    (arrival : Except ContainerError Unit) (h : w.Aged diary r pending) :
    (depart obs holds src dst delegate id e arrival w).2.Aged diary r pending :=
  aged_announce holds hobs src _ (h.commit (ages_leave w.registry src id))

theorem aged_transfer (src : ContainerRef) (id : Uuid) (dst : ContainerRef)
    (hdst : w.registry.Exists dst) (h : w.Aged diary r pending) :
    (transfer obs holds src id dst w).2.Aged diary r pending := by
  have htransit := transit_transfer holds obs src id dst w
  generalize transfer obs holds src id dst w = outcome at htransit
  cases htransit with
  | @handed e ready =>
    have he := (h.grounded.placed src id e ready.found).2
    have hages : w.registry.Ages [] (offered w.registry src dst e) := by
      cases hlocal : looksLocal w.registry src dst with
      | true =>
        rw [offered_of_local e hlocal]
        exact (SameForest.refl w.registry).ages
      | false => exact (released_offered e hlocal).ages he
    have hoffered : { w with registry := offered w.registry src dst e : World χ }.Aged diary r
        pending := h.commit hages
    have hreceived := aged_receive (holds.handing w.registry src dst e) hobs dst e hoffered
      (hages.exists_mono hdst) (hages.exists_mono he)
    exact settle_induct _ hreceived fun _ => aged_depart _ hobs src dst _ id e _ hreceived
  | _ => exact h

/-- The destination is there from the first move to the last. -/
theorem aged_transferEach (src dst : ContainerRef) (ids : List Uuid) (hdst : w.registry.Exists dst)
    (h : w.Aged diary r pending) :
    (transferEach obs holds src dst ids w).2.Aged diary r pending := by
  refine (transferEach_induct (P := fun v => v.Aged diary r pending ∧ v.registry.Exists dst)
    (fun id v hv => ⟨aged_transfer holds hobs src id dst hv.2 hv.1, ?_⟩) ids ⟨h, hdst⟩).1
  exact (aged_transfer holds hobs src id dst hv.2 hv.1.restart).later.exists_mono hv.2

end World

/-! ## What clients do -/

/-- The objects that a request names exist. -/
def Request.Valid (r : Registry) : Request → Prop
  | newEntity c .. | newEntityOfType c .. | kill c _ | killAll c _ => r.Exists c
  | transfer src _ dst => r.Exists src ∧ r.Exists dst
  | receive c e => r.Exists c ∧ r.Exists (.ofEntity e)

instance (r : Registry) (request : Request) : Decidable (request.Valid r) :=
  match request with
  | .newEntity c .. | .newEntityOfType c .. | .kill c _ | .killAll c _ =>
    inferInstanceAs (Decidable (r.Exists c))
  | .transfer src _ dst => inferInstanceAs (Decidable (r.Exists src ∧ r.Exists dst))
  | .receive c e => inferInstanceAs (Decidable (r.Exists c ∧ r.Exists (.ofEntity e)))

/-- What can be done to a forest, from outside or by a listener. -/
inductive Deed where
  | newFactory (config : TreeConfig)
  | newContainer (id : Uuid) (f : FactoryRef)
  | newDelegating (delegate : ContainerRef) (f : FactoryRef)
  | request (request : Request)
  | transferAll (src dst : ContainerRef) (order : List Uuid)

namespace Deed

def Valid (r : Registry) : Deed → Prop
  | newFactory _ | newContainer .. => True
  | newDelegating delegate _ => r.Exists delegate
  | request q => q.Valid r
  | transferAll src dst _ => r.Exists src ∧ r.Exists dst

instance (r : Registry) (deed : Deed) : Decidable (deed.Valid r) :=
  match deed with
  | newFactory _ | newContainer .. => inferInstanceAs (Decidable True)
  | newDelegating delegate _ => inferInstanceAs (Decidable (r.Exists delegate))
  | request q => inferInstanceAs (Decidable (q.Valid r))
  | transferAll src dst _ => inferInstanceAs (Decidable (r.Exists src ∧ r.Exists dst))

def perform (obs : Observers χ) (holds : Holds) (w : World χ) : Deed → World χ
  | newFactory config => { w with registry := (w.registry.newFactory config).2 }
  | newContainer id f => { w with registry := (w.registry.newContainer id f).2 }
  | newDelegating delegate f => { w with registry := (w.registry.newDelegating delegate f).2 }
  | request q => (q.perform obs holds w).2
  | transferAll src dst order => (w.transferEach obs holds src dst order).2

end Deed

/-- What a client does at a time: a deed whose listeners are allowed, a note of the state of the
forest, or something that leaves the forest alone. -/
inductive Doing (diary : χ → List Registry) (allowed : Observers χ → Prop) (w : World χ) :
    World χ → Prop
  | deed {obs : Observers χ} (listens : allowed obs) (holds : Holds) (deed : Deed)
      (valid : deed.Valid w.registry) : Doing diary allowed w (deed.perform obs holds w)
  | note {client : χ} (noted : diary client = diary w.client ++ [w.registry]) :
      Doing diary allowed w { w with client }
  | other {w' : World χ} (same : SameForest w.registry w'.registry)
      (kept : diary w'.client = diary w.client) : Doing diary allowed w w'

/-- Listeners that answer an event as they like, and before that do what clients can do. The
listeners of their own deeds are of the same kind, and so on to some depth. -/
inductive Observers.Reactive (diary : χ → List Registry) : Observers χ → Prop
  | intro {obs : Observers χ} (allowed : Observers χ → Prop)
      (inner : ∀ o, allowed o → Reactive diary o)
      (responds : ∀ holds l event w,
        ReflTransGen (Doing diary allowed) w (obs.lifecycle holds l event w).2) :
      Reactive diary obs

section Doings

variable {r : Registry} {pending : List EntityRef} {w w' : World χ}

theorem Request.aged {obs : Observers χ} (hobs : obs.Orderly diary) (holds : Holds)
    (request : Request) (valid : request.Valid w.registry) (h : w.Aged diary r pending) :
    (request.perform obs holds w).2.Aged diary r pending := by
  cases request with
  | newEntity c id seed => exact aged_create holds hobs c id none seed valid h
  | newEntityOfType c id marker seed =>
    exact aged_newEntityOfType holds hobs c id marker seed valid h
  | kill c id => exact aged_kill holds hobs c id h
  | killAll c order => exact aged_killListed holds hobs c order h
  | transfer src id dst => exact aged_transfer holds hobs src id dst valid.2 h
  | receive c e => exact aged_receive holds hobs c e h valid.1 valid.2

theorem Deed.aged {obs : Observers χ} (hobs : obs.Orderly diary) (holds : Holds) (deed : Deed)
    (valid : deed.Valid w.registry) (h : w.Aged diary r pending) :
    (deed.perform obs holds w).Aged diary r pending := by
  cases deed with
  | newFactory config => exact h.commit (ages_newFactory h.grounded config)
  | newContainer id f => exact h.commit (ages_setContainer h.grounded rfl rfl)
  | newDelegating delegate f => exact h.commit (ages_setContainer h.grounded rfl rfl)
  | request request => exact request.aged hobs holds valid h
  | transferAll src dst order => exact aged_transferEach holds hobs src dst order valid.2 h

theorem Doing.aged {allowed : Observers χ → Prop} (hallowed : ∀ o, allowed o → o.Orderly diary)
    (step : Doing diary allowed w w') (h : w.Aged diary r pending) : w'.Aged diary r pending := by
  cases step with
  | deed listens holds deed valid => exact deed.aged (hallowed _ listens) holds valid h
  | note noted => exact { h with pages := noted ▸ pairwise_repeat_last Later.refl h.pages }
  | other same kept => exact h.step same.ages kept

theorem aged_of_doings {allowed : Observers χ → Prop} (hallowed : ∀ o, allowed o → o.Orderly diary)
    (steps : ReflTransGen (Doing diary allowed) w w') (h : w.Aged diary r pending) :
    w'.Aged diary r pending := by
  induction steps with
  | refl => exact h
  | tail _ step ih => exact step.aged hallowed ih

/-- The listeners of a deed are orderly because those of their own deeds are. -/
theorem Observers.Reactive.orderly {obs : Observers χ} (h : obs.Reactive diary) :
    obs.Orderly diary := by
  induction h with
  | intro allowed _ responds ih =>
    exact fun holds l event _ _ w hw => aged_of_doings ih (responds holds l event w) hw

/-- Between any two states that clients have seen, within operations or between them, no dead entity
has come to life or into a container, and no closed container has opened or taken anything in. When
no operation is in progress, the child container of every dead entity is closed. -/
theorem death_is_final {client : χ} (blank : diary client = [])
    (steps : ReflTransGen (Doing diary (Observers.Reactive diary)) ⟨.empty, client⟩ w) :
    (diary w.client ++ [w.registry]).Pairwise Later ∧
      ∀ e, w.registry.lifecycle e = .dead → w.registry.isClosed (.ofEntity e) = true := by
  have hstart : World.Aged diary .empty [] ⟨.empty, client⟩ := by
    refine ⟨grounded_empty, .refl _, ?_, fun {e} he => ?_, fun e he => absurd he List.not_mem_nil⟩
    · rw [blank]
      exact List.pairwise_singleton _ _
    · exact absurd (exists_of_dead he) (not_exists_empty _)
  have hend := aged_of_doings (fun o ho => ho.orderly) steps hstart
  exact ⟨hend.pages, fun e he => (hend.shut he).resolve_right List.not_mem_nil⟩

end Doings

/-! ### A cascade that is interfered with -/

/-- Does those of some deeds that are possible. -/
def enact (obs : Observers χ) (holds : Holds) : List Deed → World χ → World χ
  | [], w => w
  | deed :: deeds, w =>
    enact obs holds deeds (if deed.Valid w.registry then deed.perform obs holds w else w)

theorem doings_enact {allowed : Observers χ → Prop} {obs : Observers χ} (listens : allowed obs)
    (holds : Holds) (deeds : List Deed) (w : World χ) :
    ReflTransGen (Doing diary allowed) w (enact obs holds deeds w) := by
  induction deeds generalizing w with
  | nil => exact .refl
  | cons deed deeds ih =>
    rw [enact]
    split
    · rename_i valid
      exact .head (.deed listens holds deed valid) (ih _)
    · exact ih w

namespace Observers

/-- Listeners that note what they see, and fail. -/
def noting : Observers (List Registry) where
  lifecycle _ _ _ w := (.error ⟨"no", none⟩, { w with client := w.client ++ [w.registry] })
  bag _ _ _ w := w
  slack _ := 0
  remains _ _ _ := true

theorem noting_reactive : noting.Reactive id :=
  .intro (fun _ => False) (fun _ => False.elim) fun _ _ _ _ => .single (.note rfl)

/-- Listeners that also do something whenever an entity is killed. -/
def meddling (deeds : List Deed) : Observers (List Registry) where
  lifecycle holds _ event w :=
    let noted := { w with client := w.client ++ [w.registry] }
    (.error ⟨"no", none⟩,
      if event.kind = .killed then enact noting holds deeds noted else noted)
  bag _ _ _ w := w
  slack _ := deeds.length
  remains _ _ _ := true

theorem meddling_reactive (deeds : List Deed) : (meddling deeds).Reactive id := by
  refine .intro (· = noting) (fun o ho => ho ▸ noting_reactive) fun holds l event w => ?_
  have hnoted : ReflTransGen (Doing id (· = noting)) w
      { w with client := w.client ++ [w.registry] } := .single (.note rfl)
  unfold meddling
  simp only
  split
  · have hdone : ReflTransGen (Doing id (· = noting)) { w with client := w.client ++ [w.registry] }
        (enact noting holds deeds { w with client := w.client ++ [w.registry] }) :=
      doings_enact (by rfl) holds deeds _
    exact hnoted.trans hdone
  · exact hnoted

end Observers

end

open Registry World
open scoped PlainType

/-- Two containers. The first holds the entity 1, which holds the entities 2 and 3. -/
def household : List Deed :=
  [.newFactory .unbounded, .newContainer (.ofNat 100) ⟨0⟩, .newContainer (.ofNat 200) ⟨0⟩,
    .request (.newEntity (.standalone 0) (.ofNat 1) ∅),
    .request (.newEntity (.ofEntity ⟨0⟩) (.ofNat 2) ∅),
    .request (.newEntity (.ofEntity ⟨0⟩) (.ofNat 3) ∅)]

/-- Moves the entity 2 to the second container, kills the entity 3 and puts an entity 4 in its
place. -/
def meddlings : List Deed :=
  [.request (.transfer (.ofEntity ⟨0⟩) (.ofNat 2) (.standalone 1)),
    .request (.kill (.ofEntity ⟨0⟩) (.ofNat 3)),
    .request (.newEntity (.ofEntity ⟨0⟩) (.ofNat 4) ∅)]

/-- Puts a listener at a container. -/
def World.listen (w : World χ) (c : ContainerRef) : World χ :=
  { w with registry := w.registry.setListeners c ⟨[⟨0⟩]⟩ }

theorem doing_listen {allowed : Observers χ → Prop} {w : World χ} {c : ContainerRef}
    (hc : w.registry.Exists c) : Doing diary allowed w (w.listen c) :=
  .other (sameForest_setListeners w.registry hc _) rfl

/-- The household with listeners at the first container and at the entity 1. -/
def overheard : World (List Registry) :=
  ((enact .noting .nothing household ⟨.empty, []⟩).listen (.standalone 0)).listen (.ofEntity ⟨0⟩)

/-- The entity 1 is killed, and its listeners meddle. -/
def uproar : World (List Registry) :=
  enact (.meddling meddlings) .nothing [.request (.kill (.standalone 0) (.ofNat 1))] overheard

/-- Three entities have died by the end, one of them inside a call inside the kill and one that was
not there when it began; the entity 2 got away. -/
theorem death_is_final_uproar :
    (uproar.client ++ [uproar.registry]).Pairwise Later ∧
      (∀ e, uproar.registry.lifecycle e = .dead →
        uproar.registry.isClosed (.ofEntity e) = true) ∧
      [0, 1, 2, 3].map (fun i => uproar.registry.lifecycle ⟨i⟩) = [.dead, .alive, .dead, .dead] ∧
      uproar.client.map (fun r => r.isClosed (.ofEntity ⟨0⟩)) =
        [false, false, false, false, true] := by
  have hbuilt : ReflTransGen (Doing id (Observers.Reactive id)) ⟨.empty, []⟩
      (enact .noting .nothing household ⟨.empty, []⟩) :=
    doings_enact Observers.noting_reactive .nothing household _
  have hlisten : ReflTransGen (Doing id (Observers.Reactive id))
      (enact .noting .nothing household ⟨.empty, []⟩) overheard :=
    .tail (.single (doing_listen (by decide +kernel))) (doing_listen (by decide +kernel))
  have hkilled : ReflTransGen (Doing id (Observers.Reactive id)) overheard uproar :=
    doings_enact (Observers.meddling_reactive meddlings) .nothing _ overheard
  obtain ⟨hpages, hshut⟩ := death_is_final (by rfl) ((hbuilt.trans hlisten).trans hkilled)
  exact ⟨hpages, hshut, by decide +kernel, by decide +kernel⟩

end EntityForest
