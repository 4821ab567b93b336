import EntityForest.Attribute.Plain
import EntityForest.Proofs.Runs

/-! # Identities inside a tree

A factory knows entities and containers by identity alone. As long as no transfer is let in as a
move inside a tree that it does not stay in, a tree never holds an identity twice; and one such
transfer is enough to break this. -/

namespace EntityForest

open Registry World

section

variable [ValueTypes] {χ : Type} {obs : Observers χ}

/-- No two containers of one tree hold entities of one identity. -/
def Registry.UniqueInTrees (r : Registry) : Prop :=
  ∀ c d id, r.bound c = r.bound d → id ∈ r.held c → id ∈ r.held d → c = d

/-- A transfer crosses if the factory of the source takes the destination for a container of its own
tree, although it belongs to another factory, and the entity gets there nevertheless. -/
def Call.Crosses (obs : Observers χ) (w : World χ) : Call → Prop
  | transfer src id dst =>
    w.registry.bound src ≠ w.registry.bound dst ∧ looksLocal w.registry src dst = true ∧
      id ∉ w.registry.held dst ∧
      id ∈ ((Call.transfer src id dst).perform obs w).2.registry.held dst
  | _ => False

instance (w : World χ) (call : Call) : Decidable (call.Crosses obs w) :=
  match call with
  | .transfer src id dst => inferInstanceAs (Decidable (
      w.registry.bound src ≠ w.registry.bound dst ∧ looksLocal w.registry src dst = true ∧
        id ∉ w.registry.held dst ∧
        id ∈ ((Call.transfer src id dst).perform obs w).2.registry.held dst))
  | .newFactory _ | .newContainer .. | .create .. | .kill .. | .killAll .. | .transferAll .. =>
    inferInstanceAs (Decidable False)

/-- The call is one that works on a single entity, or kills. -/
def Call.IsSingle : Call → Prop
  | transferAll .. => False
  | _ => True

instance (call : Call) : Decidable call.IsSingle :=
  match call with
  | .transferAll .. => inferInstanceAs (Decidable False)
  | .newFactory _ | .newContainer .. | .create .. | .kill .. | .killAll .. | .transfer .. =>
    inferInstanceAs (Decidable True)

/-- The transfer released an entity that its destination refused. -/
def Call.Strands (obs : Observers χ) (w : World χ) (call : Call) : Prop :=
  ∃ id, (call.perform obs w).1 = some (.exportedNotTransferred id)

/-! ## The invariant -/

/-- A forest whose books are complete. -/
structure Registry.Tidy (r : Registry) : Prop where
  formed : r.Formed
  sound : r.Sound
  full : r.Full

namespace Registry

variable {r s : Registry}

theorem Tidy.uniqueInTrees (h : r.Tidy) : r.UniqueInTrees := by
  intro c d id hbound hc hd
  obtain ⟨x, hx⟩ := mem_held_iff.1 hc
  obtain ⟨y, hy⟩ := mem_held_iff.1 hd
  exact h.sound.unique hbound hx hy

theorem SameForest.uniqueInTrees (h : SameForest r s) (hr : s.UniqueInTrees) : r.UniqueInTrees := by
  intro c d id hbound hc hd
  rw [← h.bound, ← h.bound] at hbound
  rw [← h.held] at hc hd
  exact hr c d id hbound hc hd

theorem Extends.tidy (h : Extends r s) (hr : r.Tidy) (hformed : s.Formed) : s.Tidy :=
  ⟨hformed, h.sound hr.sound, h.full hr.sound hr.full⟩

theorem SameForest.tidy (h : SameForest r s) (hr : r.Tidy) : s.Tidy :=
  h.extends.tidy hr (hr.formed.of_sameNames h.sameNames)

theorem Created.tidy {c : ContainerRef} {id : Uuid} {e : EntityRef}
    (h : r.Created c (r.delegateOf c) id e s) (hc : r.Exists c) (hr : r.Tidy) : s.Tidy where
  formed := h.formed hc hr.formed
  sound := h.sound hr.sound hc (hr.formed.delegate_id hc) (h.free_of_full hr.full)
  full := h.full hr.sound hc (hr.formed.delegate_id hc) hr.full

end Registry

namespace World

variable {r s : Registry}

theorem Culls.tidy (h : Culls r s) (hr : r.Tidy) : s.Tidy := by
  cases h with
  | kill killed =>
    exact ⟨hr.formed.of_sameNames (killed.names hr.sound.placed), killed.sound hr.sound,
      killed.full hr.sound hr.full⟩
  | close e => exact (extends_close r e).tidy hr (hr.formed.of_sameNames (sameNames_close r e))
  | same same => exact same.tidy hr

theorem culled_tidy (h : Culled r s) (hr : r.Tidy) : s.Tidy := by
  induction h with
  | refl => exact hr
  | tail _ hstep ih => exact hstep.tidy ih

section Passage

variable {src dst : ContainerRef} {id : Uuid} {e : EntityRef} (hr : r.Tidy)
  (ready : Ready r src id dst e) (hdst : r.Exists dst)

include hr ready hdst

theorem Passage.tidy (h : Passage r src id dst e s)
    (hcross : looksLocal r src dst = true → r.bound src = r.bound dst) : s.Tidy := by
  have he := ready.found
  have hne := ready.ne
  have hself := hr.formed.delegate_id hdst
  have hformed := hr.formed.of_sameNames (h.sameNames hr.sound ready hdst)
  cases h with
  | taken isLocal taken =>
    obtain ⟨hsound, hfull⟩ := hr.full.taken hr.sound he hdst hself hne (hcross isLocal) taken
    exact ⟨hformed, hsound, hfull⟩
  | adopted _ imported =>
    have halive := hr.full.alive he
    rw [imported.may.exported] at halive
    cases halive
  | imported _ imported =>
    have released := released_release r (r.bound src) e
    obtain ⟨hsound, hfull⟩ :=
      hr.full.imported hr.sound he hdst hself hne ready.other released imported
    exact ⟨hformed, hsound, hfull⟩

omit hdst in
/-- A move inside a tree that leads out of it leaves its identity twice in the other tree. -/
theorem Passage.not_unique (h : Passage r src id dst e s) (hlocal : looksLocal r src dst = true)
    (hbound : r.bound src ≠ r.bound dst) : ¬ s.UniqueInTrees := by
  have he := ready.found
  have hne : src ≠ dst := fun heq => hbound (congrArg r.bound heq)
  intro hunique
  cases h with
  | taken _ taken =>
    -- the destination's factory has a record of the identity, hence holds another such entity
    obtain ⟨owner, hrec, -⟩ := mayRelocate_iff.1 taken.may
    obtain ⟨c, y, hc, -, hy⟩ := hr.sound.witnessed hrec
    rw [hr.sound.keyed he] at hy
    have hcdst : c ≠ dst := by
      rintro rfl
      exact taken.absent (mem_held_iff.2 ⟨y, hr.sound.keyed he ▸ hy⟩)
    have hye : y ≠ e := by
      rintro rfl
      exact hbound (hr.sound.once hy he ▸ hc)
    have hheld {c j x} := taken.toMoved.held_iff hr.sound he hne (c := c) (j := j) (x := x)
    refine hcdst (hunique c dst id ?_ (mem_held_iff.2 ⟨y, hheld.2 (.inr ⟨hy, hye⟩)⟩)
      (mem_held_iff.2 ⟨e, hheld.2 (.inl ⟨rfl, rfl, rfl⟩)⟩))
    rw [taken.bound, taken.bound, hc]
  | adopted _ imported =>
    have halive := hr.full.alive he
    rw [imported.may.exported] at halive
    cases halive
  | imported leaves _ =>
    rw [hlocal] at leaves
    cases leaves

end Passage

end World

/-! ## Calls and runs -/

namespace Call

variable {w : World χ} {call : Call}

theorem tidy_perform (hobs : obs.Passive) (hr : w.registry.Tidy) (valid : call.Valid w.registry)
    (single : call.IsSingle) (hstrands : ¬ call.Strands obs w) (hcrosses : ¬ call.Crosses obs w) :
    (call.perform obs w).2.registry.Tidy := by
  cases call with
  | newFactory config =>
    exact (extends_newFactory _ config).tidy hr
      (hr.formed.of_sameNames (sameNames_newFactory _ config))
  | newContainer id f =>
    exact (extends_newContainer _ id f).tidy hr (formed_newContainer hr.formed id f)
  | create c id marker seed =>
    rw [snd_perform_create]
    have hcreate := creating_create .nothing hobs c id marker seed w
    generalize World.create obs .nothing c id marker seed w = made at hcreate
    obtain ⟨answer, w'⟩ := made
    cases hcreate with
    | refused => exact hr
    | made created _ => exact created.tidy valid hr
  | kill c id =>
    rw [perform, snd_failure?]
    exact culled_tidy (culled_kill .nothing hobs c id w) hr
  | killAll c order =>
    rw [perform, snd_failure?]
    exact culled_tidy (culled_killListed .nothing hobs c order w) hr
  | transferAll => exact single.elim
  | transfer src id dst =>
    have hmove := transferring_transfer .nothing hobs src id dst w
    rw [perform, snd_failure?]
    rw [Strands, perform] at hstrands
    simp only [fst_failure?] at hstrands
    rw [Crosses, perform, snd_failure?] at hcrosses
    generalize World.transfer obs .nothing src id dst w = moved at *
    obtain ⟨answer, w'⟩ := moved
    change Transferring obs w src id dst answer w' at hmove
    cases hmove with
    | sameContainer => exact hr
    | closed => exact hr
    | absent => exact hr
    | self => exact hr
    | dropped => exact hr
    | refused => exact hr
    | stranded => exact absurd ⟨_, rfl⟩ hstrands
    | moved ready received same _ _ =>
      have hpassage := passage_of_receive ready received
      refine same.tidy (hpassage.tidy hr ready valid.2 fun hlocal => ?_)
      by_contra hbound
      obtain ⟨habsent, harrived⟩ := hpassage.arrives hr.sound ready
      refine hcrosses ⟨hbound, hlocal, habsent, ?_⟩
      rw [same.held]
      exact harrived

/-- After a crossing the tree of the destination holds the identity twice. -/
theorem not_unique_of_crosses (hobs : obs.Passive) (hr : w.registry.Tidy)
    (hcrosses : call.Crosses obs w) : ¬ (call.perform obs w).2.registry.UniqueInTrees := by
  cases call with
  | transfer src id dst =>
    obtain ⟨hbound, hlocal, habsent, harrived⟩ := hcrosses
    have hmove := transferring_transfer .nothing hobs src id dst w
    rw [perform, snd_failure?] at harrived ⊢
    generalize World.transfer obs .nothing src id dst w = moved at *
    obtain ⟨answer, w'⟩ := moved
    change Transferring obs w src id dst answer w' at hmove
    cases hmove with
    | sameContainer => exact absurd harrived habsent
    | closed => exact absurd harrived habsent
    | absent => exact absurd harrived habsent
    | self => exact absurd harrived habsent
    | dropped => exact absurd harrived habsent
    | refused => exact absurd harrived habsent
    | stranded _ leaves _ =>
      rw [hlocal] at leaves
      cases leaves
    | moved ready received same _ _ =>
      intro hunique
      exact (passage_of_receive ready received).not_unique hr ready hlocal hbound
        (same.uniqueInTrees hunique)
  | _ => exact hcrosses.elim

end Call

variable {past : List (World χ × Call)} {w : World χ}

theorem Run.tidy (hobs : obs.Passive) (run : Run obs past w) (single : ∀ p ∈ past, p.2.IsSingle)
    (hstrands : ∀ p ∈ past, ¬ p.2.Strands obs p.1) (hcrosses : ∀ p ∈ past, ¬ p.2.Crosses obs p.1) :
    ∀ v ∈ reached past w, v.registry.Tidy := by
  induction run with
  | start client =>
    intro v hv
    obtain rfl := List.mem_singleton.1 hv
    exact ⟨formed_empty, sound_empty, full_empty⟩
  | @call past w run call valid ih =>
    have hbefore := ih (List.forall_mem_cons.1 single).2 (List.forall_mem_cons.1 hstrands).2
      (List.forall_mem_cons.1 hcrosses).2
    intro v hv
    rcases List.mem_cons.1 hv with rfl | hv
    · exact Call.tidy_perform hobs (hbefore w List.mem_cons_self) valid
        (List.forall_mem_cons.1 single).1 (List.forall_mem_cons.1 hstrands).1
        (List.forall_mem_cons.1 hcrosses).1
    · exact hbefore v hv
  | @other past w w' run same ih =>
    have hbefore := ih single hstrands hcrosses
    intro v hv
    rcases List.mem_cons.1 hv with rfl | hv
    · exact same.tidy (hbefore w List.mem_cons_self)
    · exact hbefore v (List.mem_cons_of_mem w hv)

/-- A run keeps every identity unique in every tree exactly if none of its transfers crosses. -/
theorem unique_in_trees_iff_no_crossing (hobs : obs.Passive) (run : Run obs past w)
    (single : ∀ p ∈ past, p.2.IsSingle) (hstrands : ∀ p ∈ past, ¬ p.2.Strands obs p.1) :
    (∀ v ∈ reached past w, v.registry.UniqueInTrees) ↔ ∀ p ∈ past, ¬ p.2.Crosses obs p.1 := by
  constructor
  · intro hunique
    induction run with
    | start => exact fun _ hp => absurd hp List.not_mem_nil
    | @call past w run call valid ih =>
      have hbefore := ih (List.forall_mem_cons.1 single).2 (List.forall_mem_cons.1 hstrands).2
        (List.forall_mem_cons.1 hunique).2
      have htidy := run.tidy hobs (List.forall_mem_cons.1 single).2
        (List.forall_mem_cons.1 hstrands).2 hbefore w List.mem_cons_self
      refine List.forall_mem_cons.2 ⟨fun hcrosses => ?_, hbefore⟩
      exact Call.not_unique_of_crosses hobs htidy hcrosses (hunique _ List.mem_cons_self)
    | @other past w w' run same ih =>
      refine ih single hstrands (List.forall_mem_cons.2 ⟨?_, (List.forall_mem_cons.1 hunique).2⟩)
      exact same.uniqueInTrees (hunique w' List.mem_cons_self)
  · intro hcrosses v hv
    exact (run.tidy hobs single hstrands hcrosses v hv).uniqueInTrees

end

open scoped PlainType

/-! ## Two trees that share identities -/

/-- Two trees with one container each, whose identities are 100 and 200. Both hold entities with the
identities 1 and 5. -/
def twins : List Call :=
  [.newFactory .unbounded, .newFactory .unbounded,
    .newContainer (.ofNat 100) ⟨0⟩, .newContainer (.ofNat 200) ⟨1⟩,
    .create (.standalone 0) (.ofNat 1) none ∅, .create (.standalone 0) (.ofNat 5) none ∅,
    .create (.standalone 1) (.ofNat 1) none ∅, .create (.standalone 1) (.ofNat 5) none ∅]

/-- The second tree loses its entity 1, and gets that of the first tree. -/
def exchange : List Call :=
  twins ++ [.kill (.standalone 1) (.ofNat 1),
    .transfer (.standalone 0) (.ofNat 1) (.standalone 1)]

/-- The entity 1 of the first tree moves into the entity 5 of the second, which the first tree takes
for its own. -/
def mixUp : List Call := twins ++ [.transfer (.standalone 0) (.ofNat 1) (.ofEntity ⟨3⟩)]

theorem unique_in_trees_exchange :
    Run .quiet (trail exchange).1 (trail exchange).2 ∧
      ∀ v ∈ reached (trail exchange).1 (trail exchange).2, v.registry.UniqueInTrees := by
  have hrun : Run .quiet (trail exchange).1 (trail exchange).2 := run_trail (by decide +kernel)
  have hquiet : ∀ p ∈ (trail exchange).1, (p.2.perform .quiet p.1).1 = none := by decide +kernel
  have hstrands : ∀ p ∈ (trail exchange).1, ¬ p.2.Strands .quiet p.1 := by
    intro p hp hstrands
    obtain ⟨id, hid⟩ := hstrands
    rw [hquiet p hp] at hid
    cases hid
  refine ⟨hrun, ?_⟩
  exact (unique_in_trees_iff_no_crossing Observers.quiet_passive hrun (by decide +kernel)
    hstrands).2 (by decide +kernel)

theorem not_unique_in_trees_mixUp :
    Run .quiet (trail mixUp).1 (trail mixUp).2 ∧ (∀ p ∈ (trail mixUp).1, p.2.IsSingle) ∧
      (∀ p ∈ (trail mixUp).1, ¬ p.2.Strands .quiet p.1) ∧
      ¬ (trail mixUp).2.registry.UniqueInTrees := by
  have hquiet : ∀ p ∈ (trail mixUp).1, (p.2.perform .quiet p.1).1 = none := by decide +kernel
  refine ⟨run_trail (by decide +kernel), by decide +kernel, ?_, ?_⟩
  · intro p hp hstrands
    obtain ⟨id, hid⟩ := hstrands
    rw [hquiet p hp] at hid
    cases hid
  · intro hunique
    have heq := hunique (.standalone 1) (.ofEntity ⟨3⟩) (.ofNat 1) (by decide +kernel)
      (by decide +kernel) (by decide +kernel)
    cases heq

end EntityForest
