import EntityForest.Attribute.Plain
import EntityForest.Proofs.Coherence

/-! # Transfers from end to end

In a coherent forest the outcome of a transfer can be told from containment and limits alone. -/

namespace EntityForest

open Relation (ReflTransGen TransGen)
open Registry World

section

variable [ValueTypes]

namespace Registry

/-- A container that a transfer may start from or lead to: it names itself in events, and it stands
alone or belongs to a held entity. -/
structure Usable (r : Registry) (c : ContainerRef) : Prop where
  self_named : r.delegateOf c = c
  place : match c with
    | .standalone _ => r.Exists c
    | .ofEntity e => ∃ d id, r.Held d id e

/-- The two containers lie below one container. -/
def SameRoot (r : Registry) (c d : ContainerRef) : Prop := ∃ t, r.Within c t ∧ r.Within d t

/-- Once `e` has been exported, the factory of the destination may take it with everything below. -/
def HasRoom (r : Registry) (src dst : ContainerRef) (e : EntityRef) : Prop :=
  ∀ limit, (r.config (r.bound dst)).entityLimit = some limit →
    ((r.release (r.bound src) e).owners (r.bound dst)).size + ({x | r.Below e x}.ncard + 1) ≤ limit

/-- The entity has moved, and its subtree belongs to the tree of the destination. Since the forest
is consistent, this tells what is recorded as well. -/
structure Carried (r : Registry) (id : Uuid) (dst : ContainerRef) (e : EntityRef) (s : Registry) :
    Prop where
  names : SameNames r s
  held : ∀ c j x, s.Held c j x ↔ (c = dst ∧ j = id ∧ x = e) ∨ (r.Held c j x ∧ x ≠ e)
  bound_within : ∀ c, r.Within c (.ofEntity e) → s.bound c = r.bound dst
  bound_other : ∀ c, ¬ r.Within c (.ofEntity e) → s.bound c = r.bound c
  lifecycle : ∀ x, s.lifecycle x = r.lifecycle x
  isClosed : ∀ c, s.isClosed c = r.isClosed c
  config : ∀ f, s.config f = r.config f
  consistent : s.Consistent

/-- Moreover no tree is over its limit. -/
structure Arrived (r : Registry) (id : Uuid) (dst : ContainerRef) (e : EntityRef) (s : Registry) :
    Prop extends r.Carried id dst e s where
  within_limits : s.WithinLimits

/-- The entity is exported and stays where it was held, and its tree has forgotten the subtree. -/
structure Stranded (r : Registry) (src : ContainerRef) (e : EntityRef) (s : Registry) : Prop where
  names : SameNames r s
  held : ∀ c, s.held c = r.held c
  bound : ∀ c, s.bound c = r.bound c
  lifecycle : ∀ x, s.lifecycle x = if x = e then .exported else r.lifecycle x
  isClosed : ∀ c, s.isClosed c = r.isClosed c
  config : ∀ f, s.config f = r.config f
  record_iff : ∀ f id owner, (s.owners f).find? id = some owner ↔
    (r.owners f).find? id = some owner ∧
      (f = r.bound src → ∀ x, x = e ∨ r.Below e x → r.idOf x ≠ id)

variable {r s : Registry}

theorem Carried.of_sameForest {id : Uuid} {dst : ContainerRef} {e : EntityRef} {t : Registry}
    (h : r.Carried id dst e s) (k : SameForest s t) : r.Carried id dst e t where
  names := h.names.trans k.sameNames
  held c j x := (held_congr k.held).trans (h.held c j x)
  bound_within c hw := (k.bound c).trans (h.bound_within c hw)
  bound_other c hw := (k.bound c).trans (h.bound_other c hw)
  lifecycle x := (k.lifecycle x).trans (h.lifecycle x)
  isClosed c := (k.isClosed c).trans (h.isClosed c)
  config f := (k.config f).trans (h.config f)
  consistent := k.consistent h.consistent

theorem Arrived.coherent {id : Uuid} {dst : ContainerRef} {e : EntityRef}
    (h : r.Arrived id dst e s) :
    s.Coherent :=
  ⟨h.consistent, h.within_limits⟩

theorem Arrived.of_sameForest {id : Uuid} {dst : ContainerRef} {e : EntityRef} {t : Registry}
    (h : r.Arrived id dst e s) (k : SameForest s t) : r.Arrived id dst e t :=
  ⟨h.toCarried.of_sameForest k, h.within_limits.of_sameForest k⟩

/-- What a transfer needs of its destination: to be there, to name itself in events, and to share
its identity with no other container that is in use. It need not be in use itself. -/
structure Addressable (r : Registry) (c : ContainerRef) : Prop where
  self_named : r.delegateOf c = c
  present : r.Exists c
  alone : ∀ {d}, r.InUse d → r.containerId d = r.containerId c → d = c

theorem Usable.addressable {c : ContainerRef} (h : r.Usable c) (hr : r.Coherent) :
    r.Addressable c := by
  have hinUse : r.InUse c := by
    have hplace := h.place
    cases c with
    | standalone i => exact hplace
    | ofEntity e => exact .inl hplace
  exact ⟨h.self_named, hinUse.exists hr.placed, fun hd hid => hr.distinct hd hinUse hid⟩

/-- A destination within the entity has the root of its holder. -/
theorem sameRoot_of_within {src dst : ContainerRef} {id : Uuid} {e : EntityRef}
    (he : r.Held src id e) (hw : r.Within dst (.ofEntity e)) : r.SameRoot src dst :=
  ⟨src, .refl, hw.tail (up_of_held he)⟩

/-! ## Records and containment -/

namespace Consistent

variable (h : r.Consistent)

include h

/-- No way along records returns. -/
theorem no_link_cycle (f : FactoryRef) (id : Uuid) :
    ¬ TransGen (Owners.Link (r.owners f)) id id := by
  intro hcycle
  obtain ⟨_, hlink, hrest⟩ := TransGen.head'_iff.1 hcycle
  obtain ⟨d, e, -, hid, hheld⟩ := h.sound.witnessed hlink
  obtain ⟨hd, he⟩ := h.covers.covers hheld
  subst hid
  obtain ⟨t, ht, htid, hw⟩ := h.covers.within_of_reaches h.sound hd hrest
  obtain rfl := h.distinct ht he (htid.trans (h.sound.child_id hheld).symm)
  exact h.acyclic.not_within_of_held hheld hw

/-- With the destination of a transfer identities are still distinct. -/
theorem covers_dst {dst : ContainerRef} (hdst : r.Addressable dst) :
    r.Distinct fun c => r.InUse c ∨ c = dst where
  covers hx := (h.covers.covers hx).imp .inl .inl
  eq_of_id {c d} hc hd hid := by
    rcases hc with hc | rfl
    · rcases hd with hd | rfl
      · exact h.distinct hc hd hid
      · exact hdst.alone hc hid
    · rcases hd with hd | rfl
      · exact (hdst.alone hd hid.symm).symm
      · rfl

theorem looksLocal_iff {src dst : ContainerRef} {id : Uuid} {e : EntityRef} (he : r.Held src id e)
    (hsrc : r.delegateOf src = src) (hdst : r.Addressable dst) :
    looksLocal r src dst = true ↔ r.SameRoot src dst := by
  have hcovers := h.covers_dst hdst
  rw [looksLocal, sameTree, hsrc, decide_eq_true_eq]
  constructor
  · exact hcovers.common_of_rootOf_eq h.sound (hcovers.covers he).1 (.inr rfl)
  · intro hroot
    obtain ⟨t, hst, hdt⟩ := hroot
    have hbound : r.bound dst = r.bound src :=
      (h.sound.bound_of_within hdt).trans (h.sound.bound_of_within hst).symm
    have hup := h.full.reaches_of_within h.sound hst
    have hdown := h.full.reaches_of_within h.sound hdt
    rw [hbound] at hdown
    have hac := h.no_link_cycle (r.bound src)
    exact (Owners.rootOf_eq_rootOf hac hup).trans (Owners.rootOf_eq_rootOf hac hdown).symm

section Carried

variable {src dst : ContainerRef} {id : Uuid} {e : EntityRef} (he : r.Held src id e)
  (hdst : r.Addressable dst)

include he hdst

omit h hdst in
/-- Every container but the destination that is in use after a move was in use before. -/
theorem inUse_of_moved {t : Registry} {c : ContainerRef} (hnames : SameNames r t)
    (hheld : ∀ {c j x}, t.Held c j x → (c = dst ∧ j = id ∧ x = e) ∨ (r.Held c j x ∧ x ≠ e))
    (hc : t.InUse c) : r.InUse c ∨ c = dst := by
  cases c with
  | standalone i => exact .inl ((hnames.exists_iff (.standalone i)).1 hc)
  | ofEntity x =>
    rcases hc with ⟨d, j, hx⟩ | ⟨j, y, hy⟩
    · rcases hheld hx with ⟨-, -, rfl⟩ | ⟨hx, -⟩
      · exact .inl (.inl ⟨src, id, he⟩)
      · exact .inl (.inl ⟨d, j, hx⟩)
    · rcases hheld hy with ⟨rfl, -, -⟩ | ⟨hy, -⟩
      · exact .inr rfl
      · exact .inl (.inr ⟨j, y, hy⟩)

theorem carried (ready : Ready r src id dst e) (hsrc : r.delegateOf src = src)
    (hpassage : Passage r src id dst e s) : r.Carried id dst e s := by
  have hne := ready.ne
  have hexists := (h.placed _ _ _ he).2
  have hdst' : r.Exists dst := hdst.present
  have hself : r.containerId (r.delegateOf dst) = r.containerId dst := by
    rw [hdst.self_named]
  have hnames := hpassage.sameNames h.sound ready hdst'
  have hdistinct : (∀ {c j x}, s.Held c j x → (c = dst ∧ j = id ∧ x = e) ∨ (r.Held c j x ∧ x ≠ e)) →
      ∀ {c d}, s.InUse c → s.InUse d → s.containerId c = s.containerId d → c = d := by
    intro hheld c d hc hd hid
    rw [hnames.containerId, hnames.containerId] at hid
    exact (h.covers_dst hdst).eq_of_id (inUse_of_moved he hnames hheld hc)
      (inUse_of_moved he hnames hheld hd) hid
  cases hpassage with
  | adopted _ imported =>
    have halive := h.alive he
    rw [imported.may.exported] at halive
    cases halive
  | taken isLocal taken =>
    obtain ⟨t, hst, hdt⟩ := (h.looksLocal_iff he hsrc hdst).1 isLocal
    have hbound : r.bound src = r.bound dst :=
      (h.sound.bound_of_within hst).trans (h.sound.bound_of_within hdt).symm
    have hheld {c j x} := taken.toMoved.held_iff h.sound he hne (c := c) (j := j) (x := x)
    obtain ⟨hsound, hfull⟩ := h.full.taken h.sound he hdst' hself hne hbound taken
    exact {
      names := hnames
      held := fun c j x => hheld
      bound_within := fun c hw => by
        rw [taken.bound, h.sound.bound_of_within_held he hw, hbound]
      bound_other := fun c _ => taken.bound c
      lifecycle := taken.lifecycle
      isClosed := taken.isClosed
      config := taken.config
      consistent := .of_sound_full hsound hfull (hdistinct hheld.1) }
  | imported leaves imported =>
    have released := released_release r (r.bound src) e
    have ht := released.sound h.sound hexists
    have he' := released.held_iff.2 he
    have hheld {c j x} : s.Held c j x ↔ (c = dst ∧ j = id ∧ x = e) ∨ (r.Held c j x ∧ x ≠ e) := by
      rw [imported.toMoved.held_iff ht he' hne, released.held_iff]
    obtain ⟨hsound, hfull⟩ :=
      h.full.imported h.sound he hdst' hself hne ready.other released imported
    exact {
      names := hnames
      held := fun c j x => hheld
      bound_within := fun c hw => by
        rw [imported.bound_inside (released.within_iff.2 hw), released.bound]
      bound_other := fun c hw => by
        rw [imported.bound_outside fun hw' => hw (released.within_iff.1 hw'), released.bound]
      lifecycle := fun x => by
        rw [imported.lifecycle]
        split
        · rename_i hx
          rw [hx, h.alive he]
        · rename_i hx
          exact released.lifecycle_other x hx
      isClosed := fun c => (imported.isClosed c).trans (released.isClosed c)
      config := fun f => (imported.config f).trans (released.config f)
      consistent := .of_sound_full hsound hfull (hdistinct hheld.1) }

end Carried

end Consistent

namespace Coherent

variable (h : r.Coherent)

include h

section Move

variable {src dst : ContainerRef} {id : Uuid} {e : EntityRef} (he : r.Held src id e)
  (hdst : r.Addressable dst)

include he

theorem absent (hne : src ≠ dst) : r.idOf e ∉ r.held dst := by
  intro hmem
  obtain ⟨y, hy⟩ := mem_held_iff.1 hmem
  rw [h.keyed he] at hy
  obtain rfl := h.covers.eq_of_held h.sound he hy
  exact hne (h.once he hy)

include hdst

/-- Whatever the records are, a way from the destination to the entity shows that it is within. -/
theorem within_of_link (f : FactoryRef)
    (hreach : ReflTransGen (Owners.Link (r.owners f)) (r.containerId dst) (r.idOf e)) :
    r.Within dst (.ofEntity e) := by
  have hcovers := h.covers_dst hdst
  obtain ⟨t, ht, htid, hw⟩ := hcovers.within_of_reaches h.sound (.inr rfl) hreach
  obtain rfl := hcovers.eq_of_id ht (hcovers.covers he).2 (htid.trans (h.child_id he).symm)
  exact hw

/-- Below one root a factory moves every entity to every container outside of it. -/
theorem mayRelocate (hroot : r.SameRoot src dst) (hout : ¬ r.Within dst (.ofEntity e)) :
    r.mayRelocate (r.bound dst) e (r.delegateOf dst) = true := by
  obtain ⟨t, hst, hdt⟩ := hroot
  have hbound : r.bound src = r.bound dst :=
    (h.sound.bound_of_within hst).trans (h.sound.bound_of_within hdt).symm
  have hup := h.full.reaches_of_within h.sound hst
  have hdown := h.full.reaches_of_within h.sound hdt
  rw [hbound] at hup
  have hac := h.no_link_cycle (r.bound dst)
  refine mayRelocate_iff.2 ⟨r.containerId src, ?_, h.alive he, ?_, ?_⟩
  · rw [h.keyed he, ← hbound]
    exact h.recorded he
  · rw [hdst.self_named]
    exact (Owners.rootOf_eq_rootOf hac hup).trans (Owners.rootOf_eq_rootOf hac hdown).symm
  · rw [hdst.self_named]
    exact fun hreach => hout (h.within_of_link he hdst _ hreach)

/-- Between two roots nothing but the limit keeps a factory from adopting what has been released. -/
theorem mayAdopt_iff {t : Registry} (k : r.Released (r.bound src) e t)
    (hroot : ¬ r.SameRoot src dst) :
    t.MayAdopt (t.bound dst) e (t.delegateOf dst) ↔
      t.overLimit (t.bound dst) ((t.descendants e).length + 1) = none := by
  have hout : ¬ r.Within dst (.ofEntity e) := fun hw => hroot (sameRoot_of_within he hw)
  have hexists := (h.placed _ _ _ he).2
  have ht := k.sound h.sound hexists
  have he' := k.held_iff.2 he
  have hforgotten : t.Forgotten (t.bound src) e := by
    rw [k.bound]
    exact k.forgotten h.sound
  refine ⟨fun hmay => hmay.room, fun hroom => ?_⟩
  refine ⟨k.lifecycle_of_alive (h.alive he), ?_, hroom, ?_, ?_, ?_⟩
  · rintro ⟨p, owner⟩ hp hid
    rw [k.descendants] at hp
    rw [k.containerId, k.delegateOf, k.containerId, hdst.self_named] at hid
    obtain ⟨c, hw, hx, -⟩ := h.sound.mem_descendants_iff.1 hp
    obtain rfl := hdst.alone (h.covers.covers hx).2 hid
    exact hout ((h.sound.within_holder_iff hx (h.sound.ne_of_held_within hw hx)).2 hw)
  · intro hmem
    obtain ⟨owner, hrec⟩ := Table.mem_iff_find?.1 hmem
    obtain ⟨c, y, hc, -, hy⟩ := ht.witnessed hrec
    rw [k.idOf, h.keyed he] at hy
    obtain rfl := h.covers.eq_of_held h.sound he (k.held_iff.1 hy)
    obtain rfl := h.once he (k.held_iff.1 hy)
    rw [← hc] at hmem
    exact hforgotten.self hmem
  · rintro ⟨p, owner⟩ hp hmem
    obtain ⟨c, hw, hx, rfl⟩ := ht.mem_descendants_iff.1 hp
    obtain ⟨o, hrec⟩ := Table.mem_iff_find?.1 hmem
    obtain ⟨d, y, hd, rfl, hy⟩ := ht.witnessed hrec
    obtain rfl := h.covers.eq_of_held h.sound (k.held_iff.1 hx) (k.held_iff.1 hy)
    obtain rfl := ht.once hx hy
    rw [← hd, ht.bound_of_within_held he' hw] at hrec
    exact hforgotten.below hw hx hrec
  · intro hreach
    rw [k.delegateOf, k.containerId, k.idOf, hdst.self_named] at hreach
    refine hout (h.within_of_link he hdst (r.bound dst) ?_)
    rw [k.bound] at hreach
    exact ReflTransGen.mono (fun _ _ hlink => k.record_mono hlink) _ _ hreach

omit he hdst in
theorem overLimit_release_iff :
    (r.release (r.bound src) e).overLimit (r.bound dst)
      (((r.release (r.bound src) e).descendants e).length + 1) = none ↔ r.HasRoom src dst e := by
  have k := released_release r (r.bound src) e
  rw [overLimit_eq_none_iff, k.descendants, h.sound.length_descendants, HasRoom, k.config]

omit hdst in
/-- Where the factory stays the same it releases what it is to take. -/
theorem hasRoom_of_bound_eq (hbound : r.bound src = r.bound dst) : r.HasRoom src dst e := by
  have released := released_release r (r.bound src) e
  have hsize := h.full.size_released h.sound he released
  rw [h.sound.length_descendants] at hsize
  intro limit hlimit
  rw [← hbound] at hlimit ⊢
  exact hsize.trans (h.within_limits _ limit hlimit)

/-! ## The effect of a transfer -/

/-- A move adds no more records than there is room for. -/
theorem arrived (ready : Ready r src id dst e) (hsrc : r.delegateOf src = src)
    (hpassage : Passage r src id dst e s) : r.Arrived id dst e s := by
  refine ⟨h.carried he hdst ready hsrc hpassage, ?_⟩
  cases hpassage with
  | taken _ taken => exact h.within_limits.taken taken
  | adopted _ imported => exact h.within_limits.imported imported
  | imported _ imported =>
    exact (h.within_limits.released (released_release r (r.bound src) e)).imported imported

omit hdst in
theorem stranded {t : Registry} (k : r.Released (r.bound src) e t) : r.Stranded src e t where
  names := k.sameNames (h.placed _ _ _ he).2
  held := k.held
  bound := k.bound
  lifecycle x := by
    split
    · rename_i hx
      rw [hx, k.lifecycle_of_alive (h.alive he)]
    · rename_i hx
      exact k.lifecycle_other x hx
  isClosed := k.isClosed
  config := k.config
  record_iff f j owner := by
    by_cases hf : f = r.bound src
    · subst hf
      rw [k.record_iff, forall_prop_of_true rfl]
      refine and_congr_right fun hrec => ?_
      constructor
      · rintro ⟨hself, hbelow⟩ x (rfl | hx) rfl
        · exact hself rfl
        · obtain ⟨c, i, hw, hheld⟩ := below_iff_held.1 hx
          have hown := h.recorded hheld
          rw [h.sound.bound_of_within_held he hw, ← h.keyed hheld, hrec] at hown
          exact hbelow (x, r.containerId c) (h.sound.mem_descendants_iff.2
            ⟨c, hw, (h.keyed hheld).symm ▸ hheld, rfl⟩) rfl (Option.some.inj hown).symm
      · intro hnone
        refine ⟨fun hj => hnone e (.inl rfl) hj.symm, ?_⟩
        rintro ⟨x, o⟩ hmem hj
        exact absurd hj (hnone x (.inr (exists_mem_descendants.1 ⟨o, hmem⟩)))
    · rw [k.owners_other f hf]
      simp only [hf, false_implies, and_true]

end Move

end Coherent

end Registry

/-! ## The contract of a transfer -/

/-- What a transfer answers and does, case by case. -/
structure TransferSpec {χ : Type} (obs : Observers χ) (w : World χ) (src : ContainerRef) (id : Uuid)
    (dst : ContainerRef) (answer : Except ContainerError Bool) (w' : World χ) : Prop where
  sameContainer : w.registry.containerId dst = w.registry.containerId src →
    answer = .error (.sameContainer id (w.registry.containerId src)) ∧ w' = w
  closed : w.registry.containerId dst ≠ w.registry.containerId src →
    w.registry.isClosed dst = true → answer = .ok false ∧ w' = w
  absent : w.registry.containerId dst ≠ w.registry.containerId src →
    w.registry.isClosed dst = false → id ∉ w.registry.held src → answer = .ok false ∧ w' = w
  self : ∀ e, w.registry.containerId dst ≠ w.registry.containerId src →
    w.registry.isClosed dst = false → w.registry.Held src id e → dst = .ofEntity e →
    answer = .error (.selfTransfer id) ∧ w' = w
  below : ∀ e, w.registry.containerId dst ≠ w.registry.containerId src →
    w.registry.isClosed dst = false → w.registry.Held src id e → dst ≠ .ofEntity e →
    w.registry.Within dst (.ofEntity e) → answer = .ok false ∧ w' = w
  moves : ∀ e, w.registry.containerId dst ≠ w.registry.containerId src →
    w.registry.isClosed dst = false → w.registry.Held src id e →
    ¬ w.registry.Within dst (.ofEntity e) →
    w.registry.SameRoot src dst ∨ w.registry.HasRoom src dst e →
    w.registry.Arrived id dst e w'.registry ∧
      (answer = .ok true ∨ ∃ failure, answer = .error (.listener failure)) ∧
      (obs.Accepting → answer = .ok true)
  strands : ∀ e, w.registry.containerId dst ≠ w.registry.containerId src →
    w.registry.isClosed dst = false → w.registry.Held src id e →
    ¬ w.registry.Within dst (.ofEntity e) → ¬ w.registry.SameRoot src dst →
    ¬ w.registry.HasRoom src dst e →
    answer = .error (.exportedNotTransferred id) ∧ w'.client = w.client ∧
      w.registry.Stranded src e w'.registry

section Contract

variable {χ : Type} {obs : Observers χ} {w w' : World χ} {src dst : ContainerRef} {id : Uuid}
  {e : EntityRef}

namespace TransferSpec

theorem of_sameContainer (heq : w.registry.containerId dst = w.registry.containerId src) :
    TransferSpec obs w src id dst (.error (.sameContainer id (w.registry.containerId src))) w where
  sameContainer _ := ⟨rfl, rfl⟩
  closed hne := absurd heq hne
  absent hne := absurd heq hne
  self _ hne := absurd heq hne
  below _ hne := absurd heq hne
  moves _ hne := absurd heq hne
  strands _ hne := absurd heq hne

theorem of_closed (apart : w.registry.containerId dst ≠ w.registry.containerId src)
    (hclosed : w.registry.isClosed dst = true) : TransferSpec obs w src id dst (.ok false) w := by
  have hopen : ¬ w.registry.isClosed dst = false := by
    rw [hclosed]
    nofun
  exact {
    sameContainer := fun heq => absurd heq apart
    closed := fun _ _ => ⟨rfl, rfl⟩
    absent := fun _ ho => absurd ho hopen
    self := fun _ _ ho => absurd ho hopen
    below := fun _ _ ho => absurd ho hopen
    moves := fun _ _ ho => absurd ho hopen
    strands := fun _ _ ho => absurd ho hopen }

theorem of_absent (apart : w.registry.containerId dst ≠ w.registry.containerId src)
    (hnone : id ∉ w.registry.held src) : TransferSpec obs w src id dst (.ok false) w := by
  have hheld : ∀ x, ¬ w.registry.Held src id x := fun x hx => hnone (mem_held_iff.2 ⟨x, hx⟩)
  exact {
    sameContainer := fun heq => absurd heq apart
    closed := fun _ _ => ⟨rfl, rfl⟩
    absent := fun _ _ _ => ⟨rfl, rfl⟩
    self := fun x _ _ hx => absurd hx (hheld x)
    below := fun x _ _ hx => absurd hx (hheld x)
    moves := fun x _ _ hx => absurd hx (hheld x)
    strands := fun x _ _ hx => absurd hx (hheld x) }

theorem of_self (apart : w.registry.containerId dst ≠ w.registry.containerId src)
    (isOpen : w.registry.isClosed dst = false) (found : w.registry.Held src id e)
    (hdst : dst = .ofEntity e) :
    TransferSpec obs w src id dst (.error (.selfTransfer id)) w := by
  have hsame : ∀ {x}, w.registry.Held src id x → dst = .ofEntity x := fun hx => by
    rw [hdst, Option.some.inj (hx.symm.trans found)]
  have hin : ∀ {x}, w.registry.Held src id x → w.registry.Within dst (.ofEntity x) := fun hx => by
    rw [hsame hx]
    exact .refl
  exact {
    sameContainer := fun heq => absurd heq apart
    closed := fun _ hclosed => by
      rw [isOpen] at hclosed
      cases hclosed
    absent := fun _ _ hnone => absurd (mem_held_iff.2 ⟨e, found⟩) hnone
    self := fun _ _ _ _ _ => ⟨rfl, rfl⟩
    below := fun _ _ _ hx hother => absurd (hsame hx) hother
    moves := fun _ _ _ hx hout => absurd (hin hx) hout
    strands := fun _ _ _ hx hout => absurd (hin hx) hout }

/-- Beyond the checks the contract is about three cases. -/
theorem of_ready {answer : Except ContainerError Bool} (h : w.registry.Coherent)
    (ready : Ready w.registry src id dst e)
    (hbelow : w.registry.Within dst (.ofEntity e) → answer = .ok false ∧ w' = w)
    (hmoves : ¬ w.registry.Within dst (.ofEntity e) →
      w.registry.SameRoot src dst ∨ w.registry.HasRoom src dst e →
      w.registry.Arrived id dst e w'.registry ∧
        (answer = .ok true ∨ ∃ failure, answer = .error (.listener failure)) ∧
        (obs.Accepting → answer = .ok true))
    (hstrands : ¬ w.registry.Within dst (.ofEntity e) → ¬ w.registry.SameRoot src dst →
      ¬ w.registry.HasRoom src dst e →
      answer = .error (.exportedNotTransferred id) ∧ w'.client = w.client ∧
        w.registry.Stranded src e w'.registry) :
    TransferSpec obs w src id dst answer w' where
  sameContainer heq := absurd heq ready.apart
  closed _ hclosed := by
    rw [ready.isOpen] at hclosed
    cases hclosed
  absent _ _ hnone := absurd (mem_held_iff.2 ⟨e, ready.found⟩) hnone
  self x _ _ hx hdst := by
    obtain rfl := ready.unique hx
    subst hdst
    exact absurd (h.child_id hx).symm ready.other
  below x _ _ hx _ hw := by
    obtain rfl := ready.unique hx
    exact hbelow hw
  moves x _ _ hx := by
    obtain rfl := ready.unique hx
    exact hmoves
  strands x _ _ hx := by
    obtain rfl := ready.unique hx
    exact hstrands

end TransferSpec

namespace Registry.Coherent

variable {r s : Registry} (h : r.Coherent) (hdst : r.Addressable dst)

include h hdst

/-- Where an entity has the identity of the destination, the destination is its own container. -/
theorem eq_ofEntity (found : r.Held src id e) (hid : r.idOf e = r.containerId dst) :
    dst = .ofEntity e :=
  (hdst.alone (h.covers.covers found).2 ((h.child_id found).trans hid)).symm

/-- Below one root an entity is refused only by what lies within it. -/
theorem within_of_refused (ready : Ready r src id dst e) (hroot : r.SameRoot src dst)
    (hnone : r.receive dst (r.delegateOf dst) e = none) : r.Within dst (.ofEntity e) := by
  by_contra hout
  rcases receive_eq_none hnone with hclosed | hpresent | ⟨hstays, -⟩
  · rw [ready.isOpen] at hclosed
    cases hclosed
  · exact h.absent ready.found ready.ne hpresent
  · rw [h.mayRelocate ready.found hdst hroot hout] at hstays
    cases hstays

/-- Between two roots an entity is refused only where there is no room. -/
theorem not_hasRoom_of_refused (ready : Ready r src id dst e)
    (leaves : looksLocal r src dst = false) (hroot : ¬ r.SameRoot src dst)
    (hnone : (offered r src dst e).receive dst (r.delegateOf dst) e = none) :
    ¬ r.HasRoom src dst e := by
  intro hroom
  have hreleased := released_offered e leaves
  rw [← hreleased.delegateOf] at hnone
  rcases receive_eq_none hnone with hclosed | hpresent | ⟨-, hrefused⟩
  · rw [hreleased.isClosed, ready.isOpen] at hclosed
    cases hclosed
  · rw [hreleased.idOf, hreleased.held] at hpresent
    exact h.absent ready.found ready.ne hpresent
  · refine hrefused ((h.mayAdopt_iff ready.found hdst hreleased hroot).2 ?_)
    rw [hreleased.bound, offered_of_leaves e leaves]
    exact h.overLimit_release_iff.2 hroom

/-- What comes through lies outside the entity, and another tree had room for it. -/
theorem outside_of_passage (hsrc : r.delegateOf src = src) (ready : Ready r src id dst e)
    (hpassage : Passage r src id dst e s) :
    ¬ r.Within dst (.ofEntity e) ∧ (r.SameRoot src dst ∨ r.HasRoom src dst e) := by
  have he := ready.found
  have hself : r.containerId (r.delegateOf dst) = r.containerId dst := by
    rw [hdst.self_named]
  cases hpassage with
  | taken isLocal taken =>
    exact ⟨h.full.outside_of_mayRelocate h.sound he hself taken.may,
      .inl ((h.looksLocal_iff he hsrc hdst).1 isLocal)⟩
  | adopted _ imported =>
    have halive := h.alive he
    rw [imported.may.exported] at halive
    cases halive
  | imported leaves imported =>
    have hroot : ¬ r.SameRoot src dst := by
      rw [← h.looksLocal_iff he hsrc hdst, leaves]
      nofun
    refine ⟨fun hw => hroot (sameRoot_of_within he hw), .inr ?_⟩
    have released := released_release r (r.bound src) e
    have hroom := imported.may.room
    rw [released.bound] at hroom
    exact h.overLimit_release_iff.1 hroom

end Registry.Coherent

theorem transferSpec_transfer (holds : Holds) (hobs : obs.Passive) (h : w.registry.Coherent)
    (hsrc : w.registry.delegateOf src = src) (hdst : w.registry.Addressable dst) (id : Uuid) :
    TransferSpec obs w src id dst (w.transfer obs holds src id dst).1
      (w.transfer obs holds src id dst).2 := by
  have hmove := transferring_transfer holds hobs src id dst w
  generalize w.transfer obs holds src id dst = moved at hmove
  obtain ⟨answer, w'⟩ := moved
  change Transferring obs w src id dst answer w' at hmove
  cases hmove with
  | sameContainer heq => exact .of_sameContainer heq
  | closed apart hclosed => exact .of_closed apart hclosed
  | absent apart _ hnone => exact .of_absent apart hnone
  | self apart isOpen found hid => exact .of_self apart isOpen found (h.eq_ofEntity hdst found hid)
  | dropped _ hne => exact absurd hsrc hne
  | refused ready isLocal hrefused =>
    have hroot := (h.looksLocal_iff ready.found hsrc hdst).1 isLocal
    rcases hrefused with ⟨hnone, rfl⟩ | ⟨hne, -⟩
    · have hin := h.within_of_refused hdst ready hroot hnone
      exact .of_ready h ready (fun _ => ⟨rfl, rfl⟩) (fun hout _ => absurd hin hout)
        (fun hout _ => absurd hin hout)
    · exact absurd hdst.self_named hne
  | @stranded e ready leaves hrefused =>
    have hroot : ¬ w.registry.SameRoot src dst := by
      rw [← h.looksLocal_iff ready.found hsrc hdst, leaves]
      nofun
    rcases hrefused with hnone | hne
    · have hroom := h.not_hasRoom_of_refused hdst ready leaves hroot hnone
      exact .of_ready h ready (fun hw => absurd (sameRoot_of_within ready.found hw) hroot)
        (fun _ hway => absurd hway (not_or.2 ⟨hroot, hroom⟩))
        (fun _ _ _ => ⟨rfl, rfl, h.stranded ready.found (released_offered e leaves)⟩)
    · exact absurd hdst.self_named hne
  | moved ready received same told accepted =>
    have hpassage := passage_of_receive ready received
    obtain ⟨hout, hway⟩ := h.outside_of_passage hdst hsrc ready hpassage
    refine .of_ready h ready (fun hw => absurd hw hout) (fun _ _ => ⟨?_, told, accepted⟩)
      (fun _ hroot hroom => absurd hway (not_or.2 ⟨hroot, hroom⟩))
    exact (h.arrived ready.found hdst ready hsrc hpassage).of_sameForest same

end Contract

end

open scoped PlainType

/-! ## A coherent forest -/

/-- Two trees, the second for at most three entities. The first holds the entity 1 with the entity 2
below it, the second the entity 3. -/
def twoTrees : List Call :=
  [.newFactory .unbounded, .newFactory ⟨some 3, 0⟩,
    .newContainer (.ofNat 100) ⟨0⟩, .newContainer (.ofNat 200) ⟨1⟩,
    .create (.standalone 0) (.ofNat 1) none ∅, .create (.ofEntity ⟨0⟩) (.ofNat 2) none ∅,
    .create (.standalone 1) (.ofNat 3) none ∅]

theorem coherent_twoTrees : (trail twoTrees).2.registry.Coherent :=
  coherent_trail (by decide +kernel) (by decide +kernel) (by decide +kernel) (by decide +kernel)
    (by decide +kernel) (withinLimits_iff.2 (by decide +kernel))

end EntityForest
