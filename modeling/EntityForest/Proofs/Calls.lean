import EntityForest.Proofs.Uniqueness

/-! # What a call does to a forest

With listeners that leave the forest alone, a call has one of a few effects. What each of them
keeps, a run keeps. -/

namespace EntityForest

open Registry World

variable [ValueTypes]

/-! ## Effects -/

/-- The effect of a call that works on a single entity, or kills. -/
inductive Call.Effect (r : Registry) : Call → Registry → Prop
  | refused (call : Call) : Effect r call r
  | newFactory (config : TreeConfig) : Effect r (.newFactory config) (r.newFactory config).2
  | newContainer (id : Uuid) (f : FactoryRef) :
      Effect r (.newContainer id f) (r.newContainer id f).2
  | created {c : ContainerRef} {id : Uuid} {marker : Option Marker} {seed : Table Slot Value}
      {e : EntityRef} {s : Registry} (created : r.Created c (r.delegateOf c) id e s) :
      Effect r (.create c id marker seed) s
  | killed {c : ContainerRef} {id : Uuid} {s : Registry} (culled : Culled r s) :
      Effect r (.kill c id) s
  | killedAll {c : ContainerRef} {order : List Uuid} {s : Registry} (culled : Culled r s) :
      Effect r (.killAll c order) s
  | stranded {src dst : ContainerRef} {id : Uuid} {e : EntityRef} (ready : Ready r src id dst e)
      (leaves : looksLocal r src dst = false)
      (h : (offered r src dst e).receive dst (r.delegateOf dst) e = none ∨ r.delegateOf dst ≠ dst) :
      Effect r (.transfer src id dst) (offered r src dst e)
  | moved {src dst : ContainerRef} {id : Uuid} {e : EntityRef} {t s : Registry}
      (ready : Ready r src id dst e) (passage : Passage r src id dst e t) (same : SameForest t s) :
      Effect r (.transfer src id dst) s

variable {χ : Type} {obs : Observers χ}

theorem Call.effect_perform (hobs : obs.Passive) {call : Call} (single : call.IsSingle)
    (w : World χ) : call.Effect w.registry (call.perform obs w).2.registry := by
  cases call with
  | newFactory config => exact .newFactory config
  | newContainer id f => exact .newContainer id f
  | create c id marker seed =>
    rw [snd_perform_create]
    have hcreate := creating_create .nothing hobs c id marker seed w
    generalize World.create obs .nothing c id marker seed w = made at hcreate
    obtain ⟨answer, w'⟩ := made
    cases hcreate with
    | refused => exact .refused _
    | made created _ => exact .created created
  | kill c id =>
    rw [perform, snd_failure?]
    exact .killed (culled_kill .nothing hobs c id w)
  | killAll c order =>
    rw [perform, snd_failure?]
    exact .killedAll (culled_killListed .nothing hobs c order w)
  | transferAll => exact single.elim
  | transfer src id dst =>
    have hmove := transferring_transfer .nothing hobs src id dst w
    rw [perform, snd_failure?]
    generalize World.transfer obs .nothing src id dst w = moved at hmove
    obtain ⟨answer, w'⟩ := moved
    change Transferring obs w src id dst answer w' at hmove
    cases hmove with
    | sameContainer => exact .refused _
    | closed => exact .refused _
    | absent => exact .refused _
    | self => exact .refused _
    | dropped => exact .refused _
    | refused => exact .refused _
    | stranded ready leaves h => exact .stranded ready leaves h
    | moved ready received same _ _ => exact .moved ready (passage_of_receive ready received) same

/-! ## Labels -/

namespace Registry

variable {r s : Registry}

/-- What a container holds after a creation it held before, but for the new entity. -/
theorem Created.held_or {c delegate : ContainerRef} {id : Uuid} {e : EntityRef}
    (h : r.Created c delegate id e s) (hc : r.Exists c) {d : ContainerRef} {j : Uuid}
    {x : EntityRef} (hx : s.Held d j x) : (d = c ∧ j = id ∧ x = e) ∨ r.Held d j x := by
  rw [Held, h.held hc] at hx
  split at hx
  · rename_i hd
    subst hd
    rw [Table.find?_insert] at hx
    split at hx
    · rename_i hj
      exact .inl ⟨rfl, hj, (Option.some.inj hx).symm⟩
    · exact .inr hx
  · split at hx
    · cases hx
    · exact .inr hx

/-- What a container holds after a move it held before, but for the entity that has moved. -/
theorem Moved.held_or {src dst : ContainerRef} {id : Uuid} {e : EntityRef}
    (h : r.Moved src id dst e s) {c : ContainerRef} {j : Uuid} {x : EntityRef}
    (hx : s.Held c j x) : (c = dst ∧ j = r.idOf e ∧ x = e) ∨ r.Held c j x := by
  rw [Held, h.held] at hx
  split at hx
  · rename_i hc
    subst hc
    rw [Table.find?_erase] at hx
    split at hx
    · cases hx
    · exact .inr hx
  · split at hx
    · rename_i hc
      subst hc
      rw [Table.find?_insert] at hx
      split at hx
      · rename_i hj
        exact .inl ⟨rfl, hj, (Option.some.inj hx).symm⟩
      · exact .inr hx
    · exact .inr hx

/-- What is held exists and is held under its own identity, and containers name themselves. -/
structure Labelled (r : Registry) : Prop where
  formed : r.Formed
  placed : r.Placed
  keyed : ∀ {c id e}, r.Held c id e → r.idOf e = id

namespace Labelled

/-- What is held afterwards was held before, or has entered under its own identity. -/
theorem of_held (h : r.Labelled) (formed : s.Formed) (exists_mono : ∀ c, r.Exists c → s.Exists c)
    (idOf : ∀ e, r.Exists (.ofEntity e) → s.idOf e = r.idOf e)
    (held : ∀ {c id e}, s.Held c id e →
      r.Held c id e ∨ s.Exists c ∧ s.Exists (.ofEntity e) ∧ s.idOf e = id) : s.Labelled where
  formed := formed
  placed c id e hheld := by
    rcases held hheld with hold | ⟨hc, he, -⟩
    · obtain ⟨hc, he⟩ := h.placed c id e hold
      exact ⟨exists_mono c hc, exists_mono _ he⟩
    · exact ⟨hc, he⟩
  keyed {c id e} hheld := by
    rcases held hheld with hold | ⟨-, -, hid⟩
    · rw [idOf e (h.placed c id e hold).2, h.keyed hold]
    · exact hid

theorem of_sameNames (h : r.Labelled) (names : SameNames r s)
    (held : ∀ {c id e}, s.Held c id e →
      r.Held c id e ∨ r.Exists c ∧ r.Exists (.ofEntity e) ∧ r.idOf e = id) : s.Labelled := by
  refine h.of_held (h.formed.of_sameNames names) (fun c => (names.exists_iff c).2)
    (fun e _ => names.idOf e) fun {c id e} hheld => ?_
  rw [names.exists_iff, names.exists_iff, names.idOf]
  exact held hheld

theorem of_extends (h : r.Labelled) (k : Extends r s) (formed : s.Formed) : s.Labelled :=
  h.of_held formed k.exists_mono k.idOf fun hheld => .inl (k.held_iff.1 hheld)

theorem of_sameForest (h : r.Labelled) (k : SameForest r s) : s.Labelled :=
  h.of_sameNames k.sameNames fun hheld => .inl ((held_congr k.held).1 hheld)

theorem killed (h : r.Labelled) {c : ContainerRef} {id : Uuid} {e : EntityRef}
    (k : r.Killed c id e s) : s.Labelled :=
  h.of_sameNames (k.names h.placed) fun hheld => .inl (k.held_mono hheld)

theorem close (h : r.Labelled) (e : EntityRef) : (r.close (.ofEntity e)).Labelled :=
  h.of_extends (extends_close r e) (h.formed.of_sameNames (sameNames_close r e))

theorem held_eq_empty (h : r.Labelled) {c : ContainerRef} (hc : ¬ r.Exists c) : r.held c = ∅ := by
  rw [Table.eq_empty_iff]
  intro id hid
  obtain ⟨e, he⟩ := mem_held_iff.1 hid
  exact hc (h.placed c id e he).1

theorem created (h : r.Labelled) {c delegate : ContainerRef} {id : Uuid} {e : EntityRef}
    (k : r.Created c delegate id e s) (hc : r.Exists c) : s.Labelled := by
  refine h.of_held (k.formed hc h.formed) (fun d hd => (k.exists_iff hc d).2 (.inl hd)) ?_ ?_
  · intro x hx
    have hne : x ≠ e := fun heq => k.ne_of_exists hx (congrArg _ heq)
    rw [k.idOf, if_neg hne]
  · intro d j x hheld
    rcases k.held_or hc hheld with ⟨rfl, rfl, rfl⟩ | hold
    · refine .inr ⟨(k.exists_iff hc _).2 (.inl hc), (k.exists_iff hc _).2 (.inr rfl), ?_⟩
      rw [k.idOf, if_pos rfl]
    · exact .inl hold

theorem moved (h : r.Labelled) {src dst : ContainerRef} {id : Uuid} {e : EntityRef}
    (he : r.Held src id e) (hdst : r.Exists dst) (k : r.Moved src id dst e s) : s.Labelled := by
  obtain ⟨hsrc, hexists⟩ := h.placed src id e he
  refine h.of_sameNames (k.names hsrc hdst hexists) fun {c j x} hheld => ?_
  rcases k.held_or hheld with ⟨rfl, rfl, rfl⟩ | hold
  · exact .inr ⟨hdst, hexists, rfl⟩
  · exact .inl hold

end Labelled

theorem labelled_empty : Registry.empty.Labelled where
  formed := formed_empty
  placed _ _ _ h := absurd h not_held_empty
  keyed h := absurd h not_held_empty

end Registry

namespace World

variable {r s : Registry}

theorem labelled_offered (h : r.Labelled) {src : ContainerRef} {id : Uuid} {e : EntityRef}
    (he : r.Held src id e) (dst : ContainerRef) :
    (offered r src dst e).Labelled ∧ SameNames r (offered r src dst e) := by
  cases hlocal : looksLocal r src dst with
  | true =>
    rw [offered_of_local e hlocal]
    exact ⟨h, (SameForest.refl r).sameNames⟩
  | false =>
    have hreleased := released_offered e hlocal
    have hnames := hreleased.sameNames (h.placed src id e he).2
    exact ⟨h.of_sameNames hnames fun hheld => .inl (hreleased.held_iff.1 hheld), hnames⟩

theorem culled_labelled (h : Culled r s) (hr : r.Labelled) : s.Labelled := by
  induction h with
  | refl => exact hr
  | tail _ hstep ih =>
    cases hstep with
    | kill killed => exact ih.killed killed
    | close e => exact ih.close e
    | same same => exact ih.of_sameForest same

/-- However an entity passes to another container, it enters the one and leaves the other. -/
theorem Passage.moved {src dst : ContainerRef} {id : Uuid} {e : EntityRef}
    (h : Passage r src id dst e s) : (offered r src dst e).Moved src id dst e s := by
  cases h with
  | taken isLocal taken => exact (offered_of_local e isLocal).symm ▸ taken.toMoved
  | adopted isLocal imported => exact (offered_of_local e isLocal).symm ▸ imported.toMoved
  | imported leaves imported => exact (offered_of_leaves e leaves).symm ▸ imported.toMoved

theorem Passage.labelled {src dst : ContainerRef} {id : Uuid} {e : EntityRef}
    (h : Passage r src id dst e s) (hr : r.Labelled) (ready : Ready r src id dst e)
    (hdst : r.Exists dst) : s.Labelled := by
  obtain ⟨hlabelled, hnames⟩ := labelled_offered hr ready.found dst
  exact hlabelled.moved ((held_congr (held_offered e)).2 ready.found)
    ((hnames.exists_iff dst).2 hdst) h.moved

end World

theorem Call.Effect.labelled {r s : Registry} {call : Call} (h : call.Effect r s)
    (hr : r.Labelled) (valid : call.Valid r) : s.Labelled := by
  cases h with
  | refused => exact hr
  | newFactory config =>
    exact hr.of_extends (extends_newFactory r config)
      (hr.formed.of_sameNames (sameNames_newFactory r config))
  | newContainer id f =>
    exact hr.of_extends (extends_newContainer r id f) (formed_newContainer hr.formed id f)
  | created created => exact hr.created created valid
  | killed culled => exact culled_labelled culled hr
  | killedAll culled => exact culled_labelled culled hr
  | stranded ready => exact (labelled_offered hr ready.found _).1
  | moved ready passage same => exact (passage.labelled hr ready valid.2).of_sameForest same

/-! ## Runs -/

section Run

variable (Inv P : Registry → Prop) (kind : Call → Prop) (breaks : World χ → Call → Prop)
  {past : List (World χ × Call)} {w : World χ}
  (keep : ∀ {w : World χ} {call : Call}, Inv w.registry → call.Valid w.registry →
    kind call → ¬ breaks w call → Inv (call.perform obs w).2.registry)
  (start : Inv .empty) (same : ∀ {r s}, SameForest r s → Inv r → Inv s)

include keep start same

/-- What all calls keep that are not of a certain kind, a run without such calls keeps. -/
theorem Run.forall_reached (run : Run obs past w) (hkind : ∀ p ∈ past, kind p.2)
    (hnone : ∀ p ∈ past, ¬ breaks p.1 p.2) : ∀ v ∈ reached past w, Inv v.registry := by
  induction run with
  | start client =>
    intro v hv
    obtain rfl := List.mem_singleton.1 hv
    exact start
  | @call past w run call valid ih =>
    obtain ⟨hlast, hnone⟩ := List.forall_mem_cons.1 hnone
    obtain ⟨hthis, hkind⟩ := List.forall_mem_cons.1 hkind
    have hbefore := ih hkind hnone
    intro v hv
    rcases List.mem_cons.1 hv with rfl | hv
    · exact keep (hbefore w List.mem_cons_self) valid hthis hlast
    · exact hbefore v hv
  | @other past w w' run hsame ih =>
    have hbefore := ih hkind hnone
    intro v hv
    rcases List.mem_cons.1 hv with rfl | hv
    · exact same hsame (hbefore w List.mem_cons_self)
    · exact hbefore v (List.mem_cons_of_mem w hv)

/-- If all other calls keep an invariant and these break what follows from it, a run has the
consequence throughout exactly if it makes no such call. -/
theorem Run.forall_reached_iff (holds : ∀ {r}, Inv r → P r)
    (broken : ∀ {w : World χ} {call : Call}, Inv w.registry → call.Valid w.registry →
      kind call → breaks w call → ¬ P (call.perform obs w).2.registry)
    (congr : ∀ {r s}, SameForest r s → P s → P r) (run : Run obs past w)
    (hkind : ∀ p ∈ past, kind p.2) :
    (∀ v ∈ reached past w, P v.registry) ↔ ∀ p ∈ past, ¬ breaks p.1 p.2 := by
  refine ⟨fun hall => ?_,
    fun hnone v hv => holds (run.forall_reached Inv kind breaks keep start same hkind hnone v hv)⟩
  induction run with
  | start => exact fun _ hp => absurd hp List.not_mem_nil
  | @call past w run call valid ih =>
    obtain ⟨hlast, hall⟩ := List.forall_mem_cons.1 hall
    obtain ⟨hthis, hkind⟩ := List.forall_mem_cons.1 hkind
    have hbefore := ih hkind hall
    have hinv :=
      run.forall_reached Inv kind breaks keep start same hkind hbefore w List.mem_cons_self
    exact List.forall_mem_cons.2 ⟨fun hbreaks => broken hinv valid hthis hbreaks hlast, hbefore⟩
  | @other past w w' run hsame ih =>
    obtain ⟨hlast, hall⟩ := List.forall_mem_cons.1 hall
    exact ih hkind (List.forall_mem_cons.2 ⟨congr hsame hlast, hall⟩)

end Run

end EntityForest
