import EntityForest.Proofs.Finality
import EntityForest.World.Build

/-! # What operations keep

An operation changes a forest step by step, and between the steps it gives way to listeners. What
every listener keeps and every such step keeps, the operation keeps wherever it ends. -/

namespace EntityForest

open Registry World

variable [ValueTypes] {χ : Type}

namespace Observers

/-- What is kept by listeners and by the steps of a move: the entity is released, enters a container
and leaves another one. -/
structure KeepsMoving (obs : Observers χ) (P : World χ → Prop) : Prop where
  heard : ∀ {holds l event w}, P w → P (obs.lifecycle holds l event w).2
  released : ∀ {w : World χ} {c id e}, P w → w.registry.Held c id e →
    P { w with registry := w.registry.release (w.registry.bound c) e }
  entered : ∀ {w : World χ} {c delegate e arrival s}, P w →
    (w.registry.Exists (.ofEntity e) ∨ ∃ d id, w.registry.Held d id e) →
    w.registry.receive c delegate e = some (arrival, s) → P { w with registry := s }
  left : ∀ {w : World χ} {c id}, P w →
    P { w with registry := w.registry.setHeld c ((w.registry.held c).erase id) }

/-- What is kept by all steps of all operations. -/
structure Keeps (obs : Observers χ) (P : World χ → Prop) : Prop extends obs.KeepsMoving P where
  founded : ∀ {w : World χ} {config}, P w →
    P { w with registry := (w.registry.newFactory config).2 }
  opened : ∀ {w : World χ} {x : Container}, P w → x.entities = ∅ →
    P { w with registry := w.registry.setContainer (.standalone w.registry.containers.size) x }
  created : ∀ {w : World χ} {c delegate id marker seed made}, P w →
    w.registry.create c (.ok delegate) id marker seed = .ok made →
    P { w with registry := made.registry }
  killed : ∀ {w : World χ} {c id e s}, P w → w.registry.kill c id = some (e, s) →
    P { w with registry := s }
  closed : ∀ {w : World χ} {e}, P w → P { w with registry := w.registry.close (.ofEntity e) }

end Observers

namespace World

variable {obs : Observers χ} {P : World χ → Prop} {w : World χ} (holds : Holds)

/-! ## Moving -/

section Moving

variable (h : obs.KeepsMoving P)

include h

theorem announce_keeps (c : ContainerRef) (event : Event) (hw : P w) :
    P (announce obs holds c event w).2 :=
  announce_induct holds (fun _ _ _ => h.heard) c hw

theorem notify_keeps (listeners : List ListenerRef) (event : Event) (hw : P w) :
    P (w.notify obs holds listeners event).2 := by
  have hfired : P (fire (fun l => obs.lifecycle (holds.keepEvent event listeners) l event)
      listeners w).2 := fire_induct (fun _ _ => h.heard) listeners hw
  unfold notify
  split
  all_goals
    rename_i heq
    rw [heq] at hfired
    exact hfired

theorem receive_keeps (c : ContainerRef) {e : EntityRef} (hw : P w)
    (he : w.registry.Exists (.ofEntity e) ∨ ∃ d id, w.registry.Held d id e) :
    P (receive obs holds c e w).2 := by
  refine receive_induct holds hw (fun delegate s hreceive => ?_) fun delegate s hreceive => ?_
  · exact h.entered hw he hreceive
  · exact announce_keeps _ h c _ (h.entered hw he hreceive)

theorem depart_keeps (src dst delegate : ContainerRef) (id : Uuid) (e : EntityRef)
    (arrival : Except ContainerError Unit) (hw : P w) :
    P (depart obs holds src dst delegate id e arrival w).2 :=
  announce_keeps holds h src _ (h.left hw)

theorem transfer_keeps (src : ContainerRef) (id : Uuid) (dst : ContainerRef) (hw : P w) :
    P (transfer obs holds src id dst w).2 := by
  have htransit := transit_transfer holds obs src id dst w
  generalize transfer obs holds src id dst w = outcome at htransit
  cases htransit with
  | @handed e ready =>
    have hoffered : P { w with registry := offered w.registry src dst e } := by
      cases hlocal : looksLocal w.registry src dst with
      | true =>
        rw [offered_of_local e hlocal]
        exact hw
      | false =>
        rw [offered_of_leaves e hlocal]
        exact h.released hw ready.found
    have hreceived := receive_keeps (holds.handing w.registry src dst e) h dst hoffered
      (.inr ⟨src, id, (held_congr (held_offered e)).2 ready.found⟩)
    exact settle_induct _ hreceived fun _ => depart_keeps _ h src dst _ id e _ hreceived
  | _ => exact hw

end Moving

/-! ## Creating and killing -/

section Keeping

variable (h : obs.Keeps P)

include h

theorem create_keeps (c : ContainerRef) (id : Uuid) (marker : Option Marker)
    (seed : Table Slot Value) (hw : P w) : P (create obs holds c id marker seed w).2 :=
  create_induct holds hw fun _ hmade => announce_keeps _ h.toKeepsMoving c _ (h.created hw hmade)

theorem newEntityOfType_keeps (c : ContainerRef) (id : Uuid) (marker : Marker)
    (seed : Table Slot Value) (hw : P w) : P (newEntityOfType obs holds c id marker seed w).2 := by
  rw [snd_newEntityOfType]
  exact create_keeps holds h c id (some marker) seed hw

theorem createStubs_keeps (c : ContainerRef) (stubs : List Stub) (hw : P w) :
    P (createStubs obs holds c stubs w).2 := by
  induction stubs generalizing w with
  | nil => exact hw
  | cons stub stubs ih =>
    have hstub : P (createStub obs holds c stub w).2 := by
      unfold createStub
      split
      · exact newEntityOfType_keeps holds h c _ _ _ hw
      · exact create_keeps holds h c _ _ _ hw
    rw [createStubs]
    split
    all_goals
      rename_i heq
      rw [heq] at hstub
    · exact ih hstub
    · exact hstub

theorem killHeld_keeps (c : ContainerRef) (id : Uuid) (hw : P w) :
    P (killHeld obs holds c id w).2 := by
  unfold killHeld
  split
  · exact hw
  · rename_i e s hkill
    have hdead := h.killed hw hkill
    simp only [announceKilled]
    split
    · exact hdead
    · exact announce_keeps _ h.toKeepsMoving c _ hdead

theorem kill_keeps (c : ContainerRef) (id : Uuid) (hw : P w) : P (kill obs holds c id w).2 :=
  kill_induct holds (fun holds c id _ => killHeld_keeps holds h c id) (fun _ _ => h.closed) c id hw

theorem killListed_keeps (c : ContainerRef) (ids : List Uuid) (hw : P w) :
    P (killListed obs holds c ids w).2 :=
  killListed_induct holds (fun holds c id _ => killHeld_keeps holds h c id) (fun _ _ => h.closed)
    c ids hw

end Keeping

end World

/-! ## All that clients do -/

variable {obs : Observers χ} {P : World χ → Prop} {w : World χ}

theorem Request.perform_keeps (h : obs.Keeps P) (holds : Holds) (request : Request)
    (valid : request.Valid w.registry) (hw : P w) : P (request.perform obs holds w).2 := by
  cases request with
  | newEntity c id seed => exact create_keeps holds h c id none seed hw
  | newEntityOfType c id marker seed => exact newEntityOfType_keeps holds h c id marker seed hw
  | kill c id => exact kill_keeps holds h c id hw
  | killAll c order => exact killListed_keeps holds h c order hw
  | transfer src id dst => exact transfer_keeps holds h.toKeepsMoving src id dst hw
  | receive c e => exact receive_keeps holds h.toKeepsMoving c hw (.inl valid.2)

theorem Deed.perform_keeps (h : obs.Keeps P) (holds : Holds) (deed : Deed)
    (valid : deed.Valid w.registry) (hw : P w) : P (deed.perform obs holds w) := by
  cases deed with
  | newFactory config => exact h.founded hw
  | newContainer id f => exact h.opened hw rfl
  | newDelegating delegate f => exact h.opened hw rfl
  | request request => exact request.perform_keeps h holds valid hw
  | transferAll src dst order =>
    exact transferEach_induct (fun id _ => transfer_keeps holds h.toKeepsMoving src id dst) order hw

end EntityForest
