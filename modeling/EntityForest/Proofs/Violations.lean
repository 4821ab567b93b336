import EntityForest.Attribute.Plain
import EntityForest.Proofs.Runs

/-! # Violated transfers

A transfer between trees releases the entity before the destination has its say. If the destination
then refuses, nothing is taken back: the factory of the source has forgotten the entity and what is
below it, and the entity stays in the map of the source. -/

namespace EntityForest

open Registry World

section

variable [ValueTypes]

namespace Registry

/-- What a violated transfer of `e` from `src` leaves behind. -/
structure LeftBehind (r : Registry) (src : ContainerRef) (e : EntityRef) (s : Registry) : Prop where
  /-- Every container is as it was, and so is what it holds. The source is no exception. -/
  container : ∀ c, s.container c = r.container c
  exported : r.lifecycle e ≠ .dead → s.lifecycle e = .exported
  dead : r.lifecycle e = .dead → s.lifecycle e = .dead
  lifecycle : ∀ x, x ≠ e → s.lifecycle x = r.lifecycle x
  /-- The records that are gone are those of the entity, and those of the entities below it that
  name the containers that really hold them. -/
  record_iff : ∀ f id owner, (s.owners f).find? id = some owner ↔
    (r.owners f).find? id = some owner ∧
      ¬ (f = r.bound src ∧ (id = r.idOf e ∨ ∃ c j x, r.Within c (.ofEntity e) ∧ r.Held c j x ∧
        r.idOf x = id ∧ r.containerId c = owner))

theorem LeftBehind.held_iff {r s : Registry} {src c : ContainerRef} {e x : EntityRef} {id : Uuid}
    (h : r.LeftBehind src e s) : s.Held c id x ↔ r.Held c id x := by
  rw [Held, Registry.held, h.container, ← Registry.held, Held]

/-- A release is all that has happened. -/
theorem Released.leftBehind {r s : Registry} {src : ContainerRef} {e : EntityRef}
    (h : r.Released (r.bound src) e s) : r.LeftBehind src e s where
  container := h.container
  exported hdead := by
    cases hlife : r.lifecycle e with
    | alive => exact h.lifecycle_of_alive hlife
    | exported =>
      rw [h.lifecycle_of_not_alive (by rw [hlife]; nofun)]
      exact hlife
    | dead => exact absurd hlife hdead
  dead hdead := by
    rw [h.lifecycle_of_not_alive (by rw [hdead]; nofun)]
    exact hdead
  lifecycle := h.lifecycle_other
  record_iff f id owner := by
    by_cases hf : f = r.bound src
    swap
    · rw [h.owners_other f hf]
      exact (and_iff_left fun hgone => hf hgone.1).symm
    subst hf
    rw [h.record_iff]
    refine and_congr_right fun _ => ?_
    simp only [true_and, not_or]
    refine and_congr_right fun _ => ?_
    constructor
    · intro hkept hbelow
      obtain ⟨c, j, x, hw, hx, hid, howner⟩ := hbelow
      exact hkept (x, r.containerId c) (mem_descendants.2 ⟨c, j, hw, hx, rfl⟩) hid howner
    · intro hkept p hp hid howner
      obtain ⟨c, j, hw, hx, hc⟩ := mem_descendants.1 hp
      exact hkept ⟨c, j, p.1, hw, hx, hid, hc ▸ howner⟩

end Registry

/-- Only where the destination refuses an entity that has been released is a transfer violated. -/
theorem World.Transferring.released_of_violated {χ : Type} {obs : Observers χ} {w w' : World χ}
    {src dst : ContainerRef} {id violated : Uuid} {answer : Except ContainerError Bool}
    (h : Transferring obs w src id dst answer w')
    (hanswer : answer = .error (.exportedNotTransferred violated)) :
    violated = id ∧ w'.client = w.client ∧ ∃ e, w.registry.Held src id e ∧
      w.registry.Released (w.registry.bound src) e w'.registry := by
  cases h with
  | @stranded e ready leaves _ =>
    cases hanswer
    exact ⟨rfl, rfl, e, ready.found, released_offered e leaves⟩
  | refused _ _ hwhy =>
    rcases hwhy with ⟨-, hanswer'⟩ | ⟨-, hanswer'⟩
    · cases hanswer'.symm.trans hanswer
    · cases hanswer'.symm.trans hanswer
  | moved _ _ _ told _ =>
    rcases told with htold | ⟨failure, htold⟩
    · cases htold.symm.trans hanswer
    · cases htold.symm.trans hanswer
  | _ => cases hanswer

/-- Where a transfer is violated, the source held the entity and still does. -/
theorem left_behind_of_exportedNotTransferred {χ : Type} {obs : Observers χ} (holds : Holds)
    (hobs : obs.Passive) {w : World χ} {src dst : ContainerRef} {id violated : Uuid}
    (h : (w.transfer obs holds src id dst).1 = .error (.exportedNotTransferred violated)) :
    violated = id ∧ (w.transfer obs holds src id dst).2.client = w.client ∧
      ∃ e, w.registry.Held src id e ∧ (w.transfer obs holds src id dst).2.registry.Held src id e ∧
        w.registry.LeftBehind src e (w.transfer obs holds src id dst).2.registry := by
  obtain ⟨hid, hclient, e, hheld, hreleased⟩ :=
    (transferring_transfer holds hobs src id dst w).released_of_violated h
  have hleft := hreleased.leftBehind
  exact ⟨hid, hclient, e, hheld, hleft.held_iff.2 hheld, hleft⟩

end

open scoped PlainType

/-- Two trees that both have an entity 1; below the first one there is an entity 2. -/
def namesakes : List Call :=
  [.newFactory .unbounded, .newFactory .unbounded,
    .newContainer (.ofNat 100) ⟨0⟩, .newContainer (.ofNat 200) ⟨1⟩,
    .create (.standalone 0) (.ofNat 1) none ∅, .create (.ofEntity ⟨0⟩) (.ofNat 2) none ∅,
    .create (.standalone 1) (.ofNat 1) none ∅]

theorem left_behind_namesakes :
    ((trail namesakes).2.transfer .quiet .nothing (.standalone 0) (.ofNat 1) (.standalone 1)).1 =
        .error (.exportedNotTransferred (.ofNat 1)) ∧
      ∃ e, (trail namesakes).2.registry.LeftBehind (.standalone 0) e
        ((trail namesakes).2.transfer .quiet .nothing (.standalone 0) (.ofNat 1)
          (.standalone 1)).2.registry := by
  have hanswer : ((trail namesakes).2.transfer .quiet .nothing (.standalone 0) (.ofNat 1)
      (.standalone 1)).1 = .error (.exportedNotTransferred (.ofNat 1)) := by decide +kernel
  obtain ⟨-, -, e, -, -, hleft⟩ :=
    left_behind_of_exportedNotTransferred .nothing Observers.quiet_passive hanswer
  exact ⟨hanswer, e, hleft⟩

/-- After a violated transfer a container still holds the entity. -/
theorem not_unheld_of_exportedNotTransferred :
    ¬ ∀ (past : List (World Unit × Call)) (w : World Unit) (src dst : ContainerRef) (id : Uuid)
        (e : EntityRef), Run .quiet past w → w.registry.Held src id e →
        (w.transfer .quiet .nothing src id dst).1 = .error (.exportedNotTransferred id) →
        ∀ c j, ¬ (w.transfer .quiet .nothing src id dst).2.registry.Held c j e := by
  intro hclaim
  have hrun : Run .quiet (trail namesakes).1 (trail namesakes).2 := run_trail (by decide +kernel)
  have hheld : (trail namesakes).2.registry.Held (.standalone 0) (.ofNat 1) ⟨0⟩ := by
    unfold Registry.Held
    decide +kernel
  have hstays : ((trail namesakes).2.transfer .quiet .nothing (.standalone 0) (.ofNat 1)
      (.standalone 1)).2.registry.Held (.standalone 0) (.ofNat 1) ⟨0⟩ := by
    unfold Registry.Held
    decide +kernel
  exact hclaim _ _ (.standalone 0) (.standalone 1) (.ofNat 1) ⟨0⟩ hrun hheld (by decide +kernel)
    _ _ hstays

end EntityForest
