import EntityForest.Attribute.Plain
import EntityForest.Proofs.Ferries

/-! # Bulk transfers in any order

Every single move changes records, the room that is left and the shape of the forest. Whether all of
them succeed, how many entities move and what the forest is like in the end does not depend on the
order in which the entities are visited. -/

namespace EntityForest

open Registry World

section

variable [ValueTypes] {χ : Type} {obs : Observers χ} {w w' : World χ} {src dst : ContainerRef}

namespace Registry

/-- The entities that a container holds under the given identities. -/
def Named (r : Registry) (src : ContainerRef) (ids : List Uuid) : Set EntityRef :=
  {e | ∃ id ∈ ids, r.Held src id e}

/-- A bulk move took `n` entities out of one container and into the other. It left all where they
were if the destination is closed, and otherwise those that have it below them. -/
structure Shipped (r : Registry) (src dst : ContainerRef) (n : Nat) (s : Registry) : Prop where
  left : {e | (∃ id, r.Held src id e) ∧ ¬ ∃ id, s.Held src id e}.ncard = n
  entered : {e | (∃ id, s.Held dst id e) ∧ ¬ ∃ id, r.Held dst id e} =
    {e | (∃ id, r.Held src id e) ∧ ¬ ∃ id, s.Held src id e}
  stays_iff : ∀ id e, r.Held src id e →
    (s.Held src id e ↔ r.isClosed dst = true ∨ r.Within dst (.ofEntity e))
  arrives : ∀ id e, r.Held src id e → ¬ s.Held src id e → s.Held dst id e

variable {r s t : Registry} {S : Set EntityRef}

theorem named_cons {id : Uuid} {e : EntityRef} (he : r.Held src id e) (ids : List Uuid) :
    r.Named src (id :: ids) = insert e (r.Named src ids) := by
  ext x
  constructor
  · rintro ⟨j, hj, hx⟩
    rcases List.mem_cons.1 hj with rfl | hj
    · exact .inl (Option.some.inj (hx.symm.trans he))
    · exact .inr ⟨j, hj, hx⟩
  · rintro (rfl | ⟨j, hj, hx⟩)
    · exact ⟨id, List.mem_cons_self, he⟩
    · exact ⟨j, List.mem_cons_of_mem _ hj, hx⟩

/-- If everything is named, all that can move is. -/
theorem movers_inter_named {ids : List Uuid} (hids : ids.Perm (r.held src).keys) :
    r.Movers src dst ∩ r.Named src ids = r.Movers src dst := by
  refine Set.inter_eq_left.2 fun e he => ?_
  obtain ⟨id, hid⟩ := he.1
  exact ⟨id, hids.mem_iff.2 (Table.mem_def.1 (Table.mem_of_find? hid)), hid⟩

theorem Ferried.shipped (k : r.Ferried src dst (r.Movers src dst) s) (h : r.Coherent)
    (apart : ∀ {id e}, r.Held src id e → src ≠ dst) :
    r.Shipped src dst (r.Movers src dst).ncard s := by
  have hsrc : ∀ {id e}, r.Held src id e → (s.Held src id e ↔ e ∉ r.Movers src dst) := by
    intro id e he
    rw [k.held]
    constructor
    · rintro (⟨heq, -⟩ | ⟨-, hstays⟩)
      · exact absurd heq (apart he)
      · exact hstays
    · exact fun hstays => .inr ⟨he, hstays⟩
  have hleft : {e | (∃ id, r.Held src id e) ∧ ¬ ∃ id, s.Held src id e} = r.Movers src dst := by
    ext e
    constructor
    · rintro ⟨⟨id, he⟩, hgone⟩
      by_contra hstays
      exact hgone ⟨id, (hsrc he).2 hstays⟩
    · intro he
      obtain ⟨id, hid⟩ := he.1
      refine ⟨⟨id, hid⟩, fun ⟨j, hj⟩ => ?_⟩
      obtain rfl : j = id :=
        (k.coherent.keyed hj).symm.trans ((k.names.idOf e).trans (h.keyed hid))
      exact (hsrc hid).1 hj he
  have hentered : {e | (∃ id, s.Held dst id e) ∧ ¬ ∃ id, r.Held dst id e} = r.Movers src dst := by
    ext e
    constructor
    · rintro ⟨⟨id, he⟩, hnew⟩
      rcases (k.held _ _ _).1 he with ⟨-, -, hmover⟩ | ⟨hold, -⟩
      · exact hmover
      · exact absurd ⟨id, hold⟩ hnew
    · intro he
      obtain ⟨id, hid⟩ := he.1
      exact ⟨⟨id, k.held_dst he hid⟩, fun ⟨j, hj⟩ => apart hid (h.once hid hj)⟩
  refine ⟨hleft ▸ rfl, hentered.trans hleft.symm, fun id e he => ?_, fun id e he hgone => ?_⟩
  · rw [hsrc he]
    constructor
    · intro hstays
      by_contra hnone
      rw [not_or, Bool.not_eq_true] at hnone
      exact hstays ⟨⟨id, he⟩, hnone⟩
    · rintro (hclosed | hin) ⟨-, isOpen, hout⟩
      · exact Bool.false_ne_true (isOpen.symm.trans hclosed)
      · exact hout hin
  · exact k.held_dst (not_not.1 fun hstays => hgone ((hsrc he).2 hstays)) he

end Registry

/-! ## One move after another -/

section Moves

variable {r t : Registry} {S : Set EntityRef} {id : Uuid} {e : EntityRef}

/-- A transfer that does not fail moves what can be moved, and else does nothing. -/
theorem Registry.Ferried.of_transfer (k : r.Ferried src dst S w.registry) (h : r.Coherent)
    (accepting : obs.Accepting) (apart : r.containerId dst ≠ r.containerId src)
    (isOpen : r.isClosed dst = false) (he : r.Held src id e) (hnew : e ∉ S) {moved : Bool}
    (hdst : r.Addressable dst) (spec : TransferSpec obs w src id dst (.ok moved) w') :
    dst ≠ .ofEntity e ∧
      (moved = true ∧ e ∈ r.Movers src dst ∧ r.Ferried src dst (insert e S) w'.registry ∨
        moved = false ∧ e ∉ r.Movers src dst ∧ w' = w) := by
  have found : w.registry.Held src id e := (k.held _ _ _).2 (.inr ⟨he, hnew⟩)
  have apart' : w.registry.containerId dst ≠ w.registry.containerId src := by
    rwa [k.names.containerId, k.names.containerId]
  have isOpen' : w.registry.isClosed dst = false := (k.isClosed dst).trans isOpen
  have hself : dst ≠ .ofEntity e := fun hself => nomatch (spec.self e apart' isOpen' found hself).1
  refine ⟨hself, ?_⟩
  cases moved with
  | true =>
    obtain ⟨x, journey⟩ := spec.journey k.coherent (k.addressable_dst hdst)
    obtain rfl := journey.unique found
    have hmoved := k.step h journey
    exact .inl ⟨rfl, hmoved.movers (Set.mem_insert _ _), hmoved⟩
  | false =>
    have hin : w.registry.Within dst (.ofEntity e) := by
      by_contra hout
      by_cases hway : w.registry.SameRoot src dst ∨ w.registry.HasRoom src dst e
      · exact nomatch (spec.moves e apart' isOpen' found hout hway).2.2 accepting
      · rw [not_or] at hway
        exact nomatch (spec.strands e apart' isOpen' found hout hway.1 hway.2).1
    refine .inr ⟨rfl, fun hmover => hmover.2.2 (k.within_dst_iff.1 hin), ?_⟩
    exact (spec.below e apart' isOpen' found hself hin).2

/-- After a move that does not fail the others follow. -/
theorem transferEach_cons {holds : Holds} {ids : List Uuid} {moved : Bool}
    (h : w.transfer obs holds src id dst = (.ok moved, w')) :
    w.transferEach obs holds src dst (id :: ids) =
      ((w'.transferEach obs holds src dst ids).1.map (moved.toNat + ·),
        (w'.transferEach obs holds src dst ids).2) := by
  rw [transferEach, h]

/-- Where all moves succeed the first one does, and so do the others after it. -/
theorem exists_moves_of_ok {holds : Holds} {ids : List Uuid} {n : Nat}
    (h : (w.transferEach obs holds src dst (id :: ids)).1 = .ok n) :
    ∃ moved w' m, w.transfer obs holds src id dst = (.ok moved, w') ∧
      (w'.transferEach obs holds src dst ids).1 = .ok m ∧ n = moved.toNat + m := by
  cases hmove : w.transfer obs holds src id dst with
  | mk answer w' =>
    cases answer with
    | ok moved =>
      rw [transferEach_cons hmove] at h
      cases hrest : (w'.transferEach obs holds src dst ids).1 with
      | ok m =>
        rw [hrest] at h
        cases h
        exact ⟨moved, w', m, rfl, hrest, rfl⟩
      | error failure =>
        rw [hrest] at h
        cases h
    | error failure =>
      rw [transferEach, hmove] at h
      cases h

/-- The identities are those of entities that have not moved yet. -/
structure Pending (r : Registry) (src : ContainerRef) (S : Set EntityRef) (ids : List Uuid) :
    Prop where
  nodup : ids.Nodup
  held : ∀ id ∈ ids, ∃ e, r.Held src id e ∧ e ∉ S

/-- Once an entity has been dealt with the other ones are still to come. -/
theorem Pending.tail {ids : List Uuid} (h : r.Coherent) (k : Pending r src S (id :: ids))
    (he : r.Held src id e) : Pending r src S ids ∧ Pending r src (insert e S) ids := by
  obtain ⟨hid, hnodup⟩ := List.nodup_cons.1 k.nodup
  refine ⟨⟨hnodup, fun j hj => k.held j (List.mem_cons_of_mem _ hj)⟩, hnodup, fun j hj => ?_⟩
  obtain ⟨x, hx, hnew⟩ := k.held j (List.mem_cons_of_mem _ hj)
  refine ⟨x, hx, fun hmem => hmem.elim (fun heq => ?_) hnew⟩
  subst heq
  exact hid ((h.keyed he).symm.trans (h.keyed hx) ▸ hj)

theorem pending_of_perm {ids : List Uuid} (hids : ids.Perm (r.held src).keys) :
    Pending r src ∅ ids where
  nodup := hids.nodup_iff.2 (Table.nodup_keys _)
  held id hid := by
    obtain ⟨e, he⟩ := Table.mem_iff_find?.1 (Table.mem_def.2 (hids.mem_iff.1 hid))
    exact ⟨e, he, Set.notMem_empty e⟩

section Bulk

variable (hobs : obs.Passive) (accepting : obs.Accepting) (holds : Holds) (h : r.Coherent)
  (hsrc : r.delegateOf src = src) (hdst : r.Addressable dst)
  (apart : r.containerId dst ≠ r.containerId src) (isOpen : r.isClosed dst = false)

include hobs accepting h hsrc hdst apart isOpen

/-- Moves that all succeed have moved whatever can be moved. -/
theorem ferried_transferEach {ids : List Uuid} (k : r.Ferried src dst S w.registry)
    (pending : Pending r src S ids) {n : Nat}
    (hok : (w.transferEach obs holds src dst ids).1 = .ok n) :
    (∀ id ∈ ids, ∀ e, r.Held src id e → dst ≠ .ofEntity e) ∧
      n = (r.Movers src dst ∩ r.Named src ids).ncard ∧
      r.Ferried src dst (S ∪ r.Movers src dst ∩ r.Named src ids)
        (w.transferEach obs holds src dst ids).2.registry := by
  induction ids generalizing S w n with
  | nil =>
    have hnone : r.Named src [] = ∅ :=
      Set.eq_empty_of_forall_notMem fun e ⟨_, hid, _⟩ => nomatch hid
    rw [hnone, Set.inter_empty, Set.union_empty]
    cases hok
    exact ⟨nofun, (Set.ncard_empty _).symm, k⟩
  | cons id ids ih =>
    obtain ⟨moved, w', m, hmove, hm, rfl⟩ := exists_moves_of_ok hok
    obtain ⟨e, he, hnew⟩ := pending.held id List.mem_cons_self
    have spec := transferSpec_transfer holds hobs k.coherent
      ((k.names.delegateOf src).trans hsrc) (k.addressable_dst hdst) id
    rw [hmove] at spec
    rw [transferEach_cons hmove]
    obtain ⟨hself, hstep⟩ := k.of_transfer h accepting apart isOpen he hnew hdst spec
    have hothers : (∀ j ∈ ids, ∀ x, r.Held src j x → dst ≠ .ofEntity x) →
        ∀ j ∈ id :: ids, ∀ x, r.Held src j x → dst ≠ .ofEntity x := by
      intro hrest j hj x hx
      rcases List.mem_cons.1 hj with rfl | hj
      · rwa [Option.some.inj (hx.symm.trans he)]
      · exact hrest j hj x hx
    obtain ⟨hsame, hmore⟩ := pending.tail h he
    rw [named_cons he]
    rcases hstep with ⟨rfl, hmover, k'⟩ | ⟨rfl, hstays, rfl⟩
    · obtain ⟨hrest, rfl, hfinal⟩ := ih k' hmore hm
      have hfinite := (r.finite_movers src dst).subset
        (Set.inter_subset_left (t := r.Named src ids))
      have hnotin : e ∉ r.Movers src dst ∩ r.Named src ids := by
        rintro ⟨-, j, hj, hx⟩
        obtain ⟨x, hx', hne⟩ := hmore.held j hj
        exact hne (.inl (Option.some.inj (hx'.symm.trans hx)))
      refine ⟨hothers hrest, ?_, ?_⟩
      · rw [Set.inter_insert_of_mem hmover, Set.ncard_insert_of_notMem hnotin hfinite, Nat.add_comm]
        rfl
      · rwa [Set.inter_insert_of_mem hmover, Set.union_insert, ← Set.insert_union]
    · obtain ⟨hrest, rfl, hfinal⟩ := ih k hsame hm
      refine ⟨hothers hrest, ?_, ?_⟩
      · rw [Set.inter_insert_of_notMem hstays]
        exact Nat.zero_add _
      · rwa [Set.inter_insert_of_notMem hstays]

/-- If there is room in the end for all that can move, no move fails on the way. -/
theorem exists_ok_transferEach {ids : List Uuid} (k : r.Ferried src dst S w.registry)
    (last : r.Ferried src dst (r.Movers src dst) t)
    (other : ∀ id ∈ ids, ∀ e, r.Held src id e → dst ≠ .ofEntity e)
    (pending : Pending r src S ids) : ∃ n, (w.transferEach obs holds src dst ids).1 = .ok n := by
  induction ids generalizing S w with
  | nil => exact ⟨0, rfl⟩
  | cons id ids ih =>
    obtain ⟨e, he, hnew⟩ := pending.held id List.mem_cons_self
    have found : w.registry.Held src id e := (k.held _ _ _).2 (.inr ⟨he, hnew⟩)
    have spec := transferSpec_transfer holds hobs k.coherent
      ((k.names.delegateOf src).trans hsrc) (k.addressable_dst hdst) id
    have apart' : w.registry.containerId dst ≠ w.registry.containerId src := by
      rwa [k.names.containerId, k.names.containerId]
    have isOpen' : w.registry.isClosed dst = false := (k.isClosed dst).trans isOpen
    have hself := other id List.mem_cons_self e he
    obtain ⟨moved, w', hmove⟩ : ∃ moved w', w.transfer obs holds src id dst = (.ok moved, w') := by
      by_cases hin : w.registry.Within dst (.ofEntity e)
      · exact ⟨false, _, Prod.ext (spec.below e apart' isOpen' found hself hin).1 rfl⟩
      · have hmover : e ∈ r.Movers src dst :=
          ⟨⟨id, he⟩, isOpen, fun hw => hin (k.within_dst_iff.2 hw)⟩
        have hroom := k.hasRoom h last found hmover
        exact ⟨true, _, Prod.ext
          ((spec.moves e apart' isOpen' found hin (.inr hroom)).2.2 accepting) rfl⟩
    rw [hmove] at spec
    obtain ⟨hsame, hmore⟩ := pending.tail h he
    have hrest : ∃ n, (w'.transferEach obs holds src dst ids).1 = .ok n := by
      have hothers := fun j hj => other j (List.mem_cons_of_mem id hj)
      rcases (k.of_transfer h accepting apart isOpen he hnew hdst spec).2 with
        ⟨-, -, k'⟩ | ⟨-, -, rfl⟩
      · exact ih k' hothers hmore
      · exact ih k hothers hsame
    obtain ⟨n, hn⟩ := hrest
    exact ⟨moved.toNat + n, by rw [transferEach_cons hmove, hn]; rfl⟩

end Bulk

end Moves

/-! ## Transfers that come to nothing -/

section Nothing

variable {id : Uuid} {e : EntityRef}

theorem receive_of_voiceless (holds : Holds) (hgone : obs.Voiceless w.registry dst)
    (hother : w.registry.idOf e ≠ w.registry.containerId dst) :
    w.receive obs holds dst e =
      (.error (.delegateDropped (w.registry.containerId dst)), w) := by
  unfold World.receive
  simp only
  rw [delegate_of_voiceless hgone]
  exact if_neg hother

/-- Where one end cannot be named in events, no held entity is moved to an open destination. -/
theorem transfer_of_voiceless (holds : Holds)
    (hgone : obs.Voiceless w.registry src ∨ obs.Voiceless w.registry dst)
    (isOpen : w.registry.isClosed dst = false) (found : w.registry.Held src id e) :
    ∃ failure, (w.transfer obs holds src id dst).1 = .error failure := by
  have htransit := transit_transfer holds obs src id dst w
  generalize w.transfer obs holds src id dst = outcome at htransit
  cases htransit with
  | sameContainer => exact ⟨_, rfl⟩
  | closed _ hclosed =>
    rw [isOpen] at hclosed
    cases hclosed
  | absent _ _ hnone => exact absurd (mem_held_iff.2 ⟨e, found⟩) hnone
  | self => exact ⟨_, rfl⟩
  | dropped => exact ⟨_, rfl⟩
  | @handed x ready hfound =>
    have hdst : obs.Voiceless w.registry dst := hgone.resolve_left fun hsrc =>
      nomatch hfound.symm.trans (delegate_of_voiceless hsrc _)
    rw [receive_of_voiceless]
    · exact ⟨_, rfl⟩
    · rw [Observers.Voiceless, delegateOf_offered]
      exact hdst
    · rw [idOf_offered, containerId_offered]
      exact ready.other

theorem transferEach_of_closed (holds : Holds)
    (apart : w.registry.containerId dst ≠ w.registry.containerId src)
    (hclosed : w.registry.isClosed dst = true) (ids : List Uuid) :
    w.transferEach obs holds src dst ids = (.ok 0, w) := by
  induction ids with
  | nil => rfl
  | cons id ids ih =>
    have hmove : w.transfer obs holds src id dst = (.ok false, w) :=
      (if_neg apart).trans (if_pos hclosed)
    rw [transferEach_cons hmove, ih]
    rfl

theorem transferEach_error {holds : Holds} {ids : List Uuid} {failure : ContainerError}
    (h : (w.transfer obs holds src id dst).1 = .error failure) :
    (w.transferEach obs holds src dst (id :: ids)).1 = .error failure := by
  rw [transferEach]
  generalize w.transfer obs holds src id dst = outcome at h
  obtain ⟨answer, w'⟩ := outcome
  obtain rfl : answer = .error failure := h
  rfl

end Nothing

/-! ## The order does not matter -/

section Orders

variable (steady : obs.Steady) (accepting : obs.Accepting) (holds : Holds)
  (h : w.registry.Coherent)
  (hsrc : w.registry.delegateOf src = src ∨ obs.Voiceless w.registry src)
  (hdst : w.registry.delegateOf dst = dst ∨ obs.Voiceless w.registry dst)
  (present : w.registry.Exists dst)
  (alone : ∀ c, w.registry.InUse c → w.registry.containerId c = w.registry.containerId dst →
    c = dst)

/-- In every order a bulk transfer has nothing to do, or fails at once, or both ends are ready for
it. -/
inductive Prospect (obs : Observers χ) (holds : Holds) (w : World χ) (src dst : ContainerRef) : Prop
  | idle (none : w.registry.Movers src dst = ∅)
      (apart : ∀ {id e}, w.registry.Held src id e → src ≠ dst)
      (h : ∀ {order : List Uuid}, order.Perm (w.registry.held src).keys →
        w.transferEach obs holds src dst order = (.ok 0, w))
  | fails (h : ∀ {order : List Uuid}, order.Perm (w.registry.held src).keys →
      ∃ failure, (w.transferEach obs holds src dst order).1 = .error failure)
  | ready (apart : w.registry.containerId dst ≠ w.registry.containerId src)
      (isOpen : w.registry.isClosed dst = false) (hsrc : w.registry.delegateOf src = src)
      (hdst : w.registry.Addressable dst)

include hsrc hdst present alone in
theorem prospect : Prospect obs holds w src dst := by
  by_cases hempty : (w.registry.held src).keys = []
  · have hnone : ∀ {id e}, ¬ w.registry.Held src id e := by
      intro id e he
      have hmem := Table.mem_def.1 (Table.mem_of_find? he)
      rw [hempty] at hmem
      cases hmem
    refine .idle (Set.eq_empty_of_forall_notMem fun e he => ?_) (fun he => absurd he hnone)
      fun hperm => ?_
    · obtain ⟨id, hid⟩ := he.1
      exact hnone hid
    · rw [hempty] at hperm
      rw [hperm.eq_nil]
      rfl
  -- whatever fails for each held entity fails for the first one
  have hfails : (∀ id e, w.registry.Held src id e →
      ∃ failure, (w.transfer obs holds src id dst).1 = .error failure) →
      Prospect obs holds w src dst := by
    refine fun hall => .fails fun {order} hperm => ?_
    cases order with
    | nil => exact absurd hperm.nil_eq.symm hempty
    | cons id ids =>
      obtain ⟨e, he⟩ := Table.mem_iff_find?.1 (Table.mem_def.2 (hperm.subset List.mem_cons_self))
      obtain ⟨failure, hfailure⟩ := hall id e he
      exact ⟨failure, transferEach_error hfailure⟩
  by_cases hsame : w.registry.containerId dst = w.registry.containerId src
  · exact hfails fun id e _ => ⟨_, congrArg Prod.fst (if_pos hsame)⟩
  have hne : src ≠ dst := fun heq => hsame (heq ▸ rfl)
  cases hclosed : w.registry.isClosed dst with
  | true =>
    refine .idle (Set.eq_empty_of_forall_notMem fun e he => ?_) (fun _ => hne)
      fun _ => transferEach_of_closed holds hsame hclosed _
    exact Bool.false_ne_true (he.2.1.symm.trans hclosed)
  | false =>
    rcases hsrc with hsrc | hgone
    · rcases hdst with hdst | hgone
      · exact .ready hsame hclosed hsrc ⟨hdst, present, fun hc => alone _ hc⟩
      · exact hfails fun id e he => transfer_of_voiceless holds (.inr hgone) hclosed he
    · exact hfails fun id e he => transfer_of_voiceless holds (.inl hgone) hclosed he

include steady in
theorem sameFeatures_transferEach (ids : List Uuid) :
    w.registry.SameFeatures (w.transferEach obs holds src dst ids).2.registry :=
  transferEach_induct (P := fun v => w.registry.SameFeatures v.registry)
    (fun id v hv => hv.trans (sameFeatures_transfer steady holds src id dst v)) ids (.refl _)

include steady accepting h hsrc hdst present alone

/-- A bulk transfer that does not fail has moved all that can be moved. -/
theorem ferried_of_ok {order : List Uuid} (perm : order.Perm (w.registry.held src).keys) {n : Nat}
    (hok : (w.transferEach obs holds src dst order).1 = .ok n) :
    (∀ {id e}, w.registry.Held src id e → src ≠ dst) ∧ n = (w.registry.Movers src dst).ncard ∧
      w.registry.Ferried src dst (w.registry.Movers src dst)
        (w.transferEach obs holds src dst order).2.registry := by
  cases prospect holds hsrc hdst present alone with
  | idle none apart hidle =>
    rw [hidle perm] at hok ⊢
    cases hok
    rw [none]
    exact ⟨apart, (Set.ncard_empty _).symm, h.ferried src dst⟩
  | fails hfails =>
    obtain ⟨failure, hfailure⟩ := hfails perm
    cases hok.symm.trans hfailure
  | ready apart isOpen hsrc hdst =>
    obtain ⟨-, hcount, hferried⟩ := ferried_transferEach steady.passive accepting holds h hsrc hdst
      apart isOpen (h.ferried src dst) (pending_of_perm perm) hok
    rw [movers_inter_named perm] at hcount hferried
    rw [Set.empty_union] at hferried
    exact ⟨fun _ heq => apart (heq ▸ rfl), hcount, hferried⟩

/-- If a bulk transfer does not fail in one order, it does not fail in another one. -/
theorem exists_ok_of_perm {order order' : List Uuid}
    (perm : order.Perm (w.registry.held src).keys) (perm' : order'.Perm (w.registry.held src).keys)
    (hok : ∃ n, (w.transferEach obs holds src dst order).1 = .ok n) :
    ∃ n, (w.transferEach obs holds src dst order').1 = .ok n := by
  obtain ⟨n, hn⟩ := hok
  obtain ⟨-, -, last⟩ := ferried_of_ok steady accepting holds h hsrc hdst present alone perm hn
  cases prospect holds hsrc hdst present alone with
  | idle _ _ hidle => exact ⟨0, congrArg Prod.fst (hidle perm')⟩
  | fails hfails =>
    obtain ⟨failure, hfailure⟩ := hfails perm
    cases hn.symm.trans hfailure
  | ready apart isOpen hsrc hdst =>
    obtain ⟨hother, -, -⟩ := ferried_transferEach steady.passive accepting holds h hsrc hdst apart
      isOpen (h.ferried src dst) (pending_of_perm perm) hn
    exact exists_ok_transferEach steady.passive accepting holds h hsrc hdst apart isOpen
      (h.ferried src dst) last (fun id hid => hother id (perm.mem_iff.2 (perm'.mem_iff.1 hid)))
      (pending_of_perm perm')

/-- In the order in which a container goes through what it holds, a bulk transfer that does not fail
moves all that can be moved. -/
theorem shipped_transferAll {n : Nat} (hok : (w.transferAll obs holds src dst).1 = .ok n) :
    w.registry.Shipped src dst n (w.transferAll obs holds src dst).2.registry := by
  obtain ⟨apart, rfl, k⟩ := ferried_of_ok steady accepting holds h hsrc hdst present alone
    (w.heldInOrder_perm obs src) hok
  exact k.shipped h apart

/-- In a coherent forest a bulk transfer succeeds in every order or in none, and all orders lead to
the same number and to the same forest. -/
theorem bulk_transfer_order_independent {order order' : List Uuid}
    (perm : order.Perm (w.registry.held src).keys)
    (perm' : order'.Perm (w.registry.held src).keys) :
    ((∃ n, (w.transferEach obs holds src dst order).1 = .ok n) ↔
        ∃ n, (w.transferEach obs holds src dst order').1 = .ok n) ∧
      ∀ n n', (w.transferEach obs holds src dst order).1 = .ok n →
        (w.transferEach obs holds src dst order').1 = .ok n' →
        n = n' ∧
          (w.transferEach obs holds src dst order).2.registry.Restored
            (w.transferEach obs holds src dst order').2.registry ∧
          w.registry.Shipped src dst n (w.transferEach obs holds src dst order).2.registry := by
  refine ⟨⟨exists_ok_of_perm steady accepting holds h hsrc hdst present alone perm perm',
    exists_ok_of_perm steady accepting holds h hsrc hdst present alone perm' perm⟩, ?_⟩
  intro n n' hn hn'
  obtain ⟨apart, rfl, k⟩ := ferried_of_ok steady accepting holds h hsrc hdst present alone perm hn
  obtain ⟨-, rfl, k'⟩ := ferried_of_ok steady accepting holds h hsrc hdst present alone perm' hn'
  refine ⟨rfl, k.restored k' ?_, k.shipped h apart⟩
  exact (sameFeatures_transferEach steady holds order).symm.trans
    (sameFeatures_transferEach steady holds order')

end Orders

end

open scoped PlainType

/-! ## Two orders -/

/-- Two trees, the second for at most four entities. The first one holds the entity 1 with the
entity 2 below it and the entity 4, the second one the entity 3. -/
def twoLoads : List Call :=
  [.newFactory .unbounded, .newFactory ⟨some 4, 0⟩,
    .newContainer (.ofNat 100) ⟨0⟩, .newContainer (.ofNat 200) ⟨1⟩,
    .create (.standalone 0) (.ofNat 1) none ∅, .create (.ofEntity ⟨0⟩) (.ofNat 2) none ∅,
    .create (.standalone 1) (.ofNat 3) none ∅, .create (.standalone 0) (.ofNat 4) none ∅]

theorem coherent_twoLoads : (trail twoLoads).2.registry.Coherent :=
  coherent_trail (by decide +kernel) (by decide +kernel) (by decide +kernel) (by decide +kernel)
    (by decide +kernel) (withinLimits_iff.2 (by decide +kernel))

/-- All that the first tree holds moves to the second one, in this order. -/
def shipping (order : List Uuid) : Except ContainerError Nat × World Unit :=
  (trail twoLoads).2.transferEach .quiet .nothing (.standalone 0) (.standalone 1) order

/-- Both ways the second tree is full in the end. -/
theorem bulk_transfer_order_independent_twoLoads :
    (shipping [.ofNat 1, .ofNat 4]).1 = .ok 2 ∧ (shipping [.ofNat 4, .ofNat 1]).1 = .ok 2 ∧
      (shipping [.ofNat 1, .ofNat 4]).2.registry.Restored
        (shipping [.ofNat 4, .ofNat 1]).2.registry ∧
      (trail twoLoads).2.registry.Shipped (.standalone 0) (.standalone 1) 2
        (shipping [.ofNat 1, .ofNat 4]).2.registry := by
  have hfirst : (shipping [.ofNat 1, .ofNat 4]).1 = .ok 2 := by decide +kernel
  have hsecond : (shipping [.ofNat 4, .ofNat 1]).1 = .ok 2 := by decide +kernel
  have hdst : (trail twoLoads).2.registry.Usable (.standalone 1) :=
    ⟨by decide +kernel, by decide +kernel⟩
  have haddressable := hdst.addressable coherent_twoLoads
  exact ⟨hfirst, hsecond, ((bulk_transfer_order_independent (fun _ _ _ _ => rfl)
    (fun _ _ _ _ => rfl) .nothing coherent_twoLoads (.inl (by decide +kernel))
    (.inl hdst.self_named) haddressable.present (fun _ hc hid => haddressable.alone hc hid)
    (by decide +kernel) (by decide +kernel)).2 2 2 hfirst hsecond).2⟩

end EntityForest
