import EntityForest.Proofs.Notices

/-! # What listeners see

A listener is called in the middle of an operation, and the forest lies open before it. With a log
of what every listener saw when it was called, one can say what had been committed by then. -/

namespace EntityForest

open Registry World

variable [ValueTypes]

/-- A listener was told of an event, saw the forest as it was at that moment, and gave an answer. -/
structure Sighting extends Notice where
  seen : Registry

variable {χ : Type}

namespace Observers

/-- A log of everything that listeners are told, see and answer. -/
def Watches (obs : Observers χ) (log : χ → List Sighting) : Prop :=
  ∀ holds l event w, log (obs.lifecycle holds l event w).2.client =
    log w.client ++ [⟨⟨l, event, (obs.lifecycle holds l event w).1⟩, w.registry⟩]

/-- The same listeners, with such a log kept beside their own state. -/
def witnessed (obs : Observers χ) : Observers (χ × List Sighting) where
  lifecycle holds l event w :=
    let (answer, v) := obs.lifecycle holds l event w.core
    (answer, ⟨v.registry, (v.client, w.client.2 ++ [⟨⟨l, event, answer⟩, w.registry⟩])⟩)
  bag holds l event w :=
    let v := obs.bag holds l event w.core
    ⟨v.registry, (v.client, w.client.2)⟩
  slack c := obs.slack c.1
  remains holds w c := obs.remains holds w.core c
  order w := obs.order w.core
  order_perm w := obs.order_perm w.core

theorem witnessed_watches (obs : Observers χ) : obs.witnessed.Watches Prod.snd :=
  fun _ _ _ _ => rfl

theorem Watches.logs {obs : Observers χ} {log : χ → List Sighting} (h : obs.Watches log) :
    obs.Logs fun x => (log x).map Sighting.toNotice := by
  intro holds l event w
  simp only [h holds l event w, List.map_append, List.map_cons, List.map_nil]

/-- What listeners may make of a forest. -/
def Confined (obs : Observers χ) (R : Registry → Registry → Prop) : Prop :=
  ∀ holds l event w, R w.registry (obs.lifecycle holds l event w).2.registry

theorem Confined.witnessed {obs : Observers χ} {R : Registry → Registry → Prop}
    (h : obs.Confined R) : obs.witnessed.Confined R :=
  fun holds l event w => h holds l event w.core

theorem Steady.confined {obs : Observers χ} (h : obs.Steady) : obs.Confined Eq :=
  fun holds l event w => (h holds l event w).symm

end Observers

/-- An event was handed to listeners in turn, up to the first that failed, and all of them saw a
forest that `r` leads to. -/
structure Witnessed (R : Registry → Registry → Prop) (r : Registry) (event : Event)
    (ls : List ListenerRef) (sightings : List Sighting) : Prop where
  delivery : Delivery event ls (sightings.map Sighting.toNotice)
  seen : ∀ sighting ∈ sightings, R r sighting.seen

/-- The first failure among the answers, if there is one. -/
def firstRefusal (sightings : List Sighting) : Except ContainerError Unit :=
  firstFailure (sightings.map Sighting.toNotice)

section Announce

variable {obs : Observers χ} {log : χ → List Sighting} {R : Registry → Registry → Prop}
  (hrefl : ∀ r, R r r) (htrans : ∀ {r s t}, R r s → R s t → R r t) (hobs : obs.Confined R)
  (hlog : obs.Watches log) (holds : Holds)

include hrefl htrans hobs hlog

theorem seen_fire (event : Event) (ls : List ListenerRef) (w : World χ) :
    ∃ sightings, log (fire (fun l => obs.lifecycle holds l event) ls w).2.client =
        log w.client ++ sightings ∧
      (∀ sighting ∈ sightings, R w.registry sighting.seen) ∧
      R w.registry (fire (fun l => obs.lifecycle holds l event) ls w).2.registry := by
  refine fire_induct (P := fun v => ∃ sightings, log v.client = log w.client ++ sightings ∧
    (∀ sighting ∈ sightings, R w.registry sighting.seen) ∧ R w.registry v.registry)
    (fun l v hv => ?_) ls ⟨[], (List.append_nil _).symm, nofun, hrefl _⟩
  obtain ⟨sightings, hlogged, hseen, hkept⟩ := hv
  have hcall := hlog holds l event v
  rw [hlogged, List.append_assoc] at hcall
  refine ⟨_, hcall, ?_, htrans hkept (hobs holds l event v)⟩
  intro sighting hmem
  rcases List.mem_append.1 hmem with hmem | hmem
  · exact hseen sighting hmem
  · rw [List.mem_singleton.1 hmem]
    exact hkept

theorem witnessed_fire (event : Event) (ls : List ListenerRef) (w : World χ) :
    ∃ sightings, Witnessed R w.registry event ls sightings ∧
      log (fire (fun l => obs.lifecycle holds l event) ls w).2.client =
        log w.client ++ sightings ∧
      firstRefusal sightings =
        (fire (fun l => obs.lifecycle holds l event) ls w).1.mapError .listener ∧
      R w.registry (fire (fun l => obs.lifecycle holds l event) ls w).2.registry := by
  obtain ⟨sightings, hlogged, hseen, hkept⟩ := seen_fire hrefl htrans hobs hlog holds event ls w
  obtain ⟨notices, hdelivery, hnoticed, hfirst⟩ := delivery_fire hlog.logs holds event ls w
  have hnotices : notices = sightings.map Sighting.toNotice := by
    rw [hlogged, List.map_append] at hnoticed
    exact (List.append_cancel_left hnoticed).symm
  subst hnotices
  exact ⟨sightings, ⟨hdelivery, hseen⟩, hlogged, hfirst, hkept⟩

/-- All listeners of a container are called with the forest as it is when the event is announced,
but for what listeners before them have done. -/
theorem witnessed_announce (c : ContainerRef) (event : Event) (w : World χ) :
    ∃ sightings, Witnessed R w.registry event (w.registry.audience c) sightings ∧
      log (announce obs holds c event w).2.client = log w.client ++ sightings ∧
      (announce obs holds c event w).1 = firstRefusal sightings ∧
      R w.registry (announce obs holds c event w).2.registry := by
  obtain ⟨sightings, hwitnessed, hlogged, hfirst, hsame⟩ := witnessed_fire hrefl htrans hobs hlog
    (holds.keepEvent event (w.registry.audience c)) event (w.registry.audience c) w
  rw [announce_eq]
  exact ⟨sightings, hwitnessed, hlogged, hfirst.symm, hsame⟩

end Announce

/-! ## Listeners that can be told apart -/

/-- Listeners that judge by their position: the first one accepts everything, the others fail. -/
def Observers.picky : Observers Unit where
  lifecycle _ l _ w := (if l.index = 0 then .ok () else .error ⟨"no", none⟩, w)
  bag _ _ _ w := w
  slack _ := 0
  remains _ _ _ := true

theorem Observers.picky_steady : Observers.picky.Steady := fun _ _ _ _ => rfl

end EntityForest
