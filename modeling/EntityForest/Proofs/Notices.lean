import EntityForest.Proofs.Verdicts

/-! # Who is told

An event goes to the listeners of one container in turn, up to the first that fails. With a log of
what listeners were told and what they answered, one can say who has heard of which death. -/

namespace EntityForest

open Registry World

/-- A listener was told of an event and gave an answer. -/
structure Notice where
  listener : ListenerRef
  event : Event
  answer : Except ListenerError Unit

/-- An event was handed to listeners in turn, up to the first that failed. -/
inductive Delivery (event : Event) : List ListenerRef → List Notice → Prop
  | done : Delivery event [] []
  | heard (l : ListenerRef) {ls : List ListenerRef} {notices : List Notice}
      (rest : Delivery event ls notices) :
      Delivery event (l :: ls) (⟨l, event, .ok ()⟩ :: notices)
  | failed (l : ListenerRef) (ls : List ListenerRef) (failure : ListenerError) :
      Delivery event (l :: ls) [⟨l, event, .error failure⟩]

/-- The first failure among the answers, if there is one. -/
def firstFailure : List Notice → Except ContainerError Unit
  | [] => .ok ()
  | notice :: notices =>
    match notice.answer with
    | .ok () => firstFailure notices
    | .error failure => .error (.listener failure)

/-- A failure is that of a listener, and all the answers before it are successes. -/
theorem firstFailure_eq_error_iff {notices : List Notice} {failure : ContainerError} :
    firstFailure notices = .error failure ↔ ∃ before notice after cause,
      notices = before ++ notice :: after ∧ (∀ n ∈ before, n.answer = .ok ()) ∧
        notice.answer = .error cause ∧ failure = .listener cause := by
  induction notices with
  | nil => simp [firstFailure]
  | cons notice notices ih =>
    rw [firstFailure]
    cases hanswer : notice.answer with
    | error cause =>
      constructor
      · intro h
        cases h
        exact ⟨[], notice, notices, cause, rfl, nofun, hanswer, rfl⟩
      · intro h
        obtain ⟨before, first, after, cause', hsplit, hbefore, hfirst, rfl⟩ := h
        cases before with
        | nil =>
          cases hsplit
          cases hanswer.symm.trans hfirst
          rfl
        | cons n before =>
          cases hsplit
          cases hanswer.symm.trans (hbefore _ List.mem_cons_self)
    | ok =>
      change firstFailure notices = .error failure ↔ _
      rw [ih]
      constructor
      · intro h
        obtain ⟨before, first, after, cause, rfl, hbefore, hfirst⟩ := h
        exact ⟨notice :: before, first, after, cause, rfl,
          List.forall_mem_cons.2 ⟨hanswer, hbefore⟩, hfirst⟩
      · intro h
        obtain ⟨before, first, after, cause, hsplit, hbefore, hfirst⟩ := h
        cases before with
        | nil =>
          cases hsplit
          cases hanswer.symm.trans hfirst.1
        | cons n before =>
          cases hsplit
          exact ⟨before, first, after, cause, rfl, (List.forall_mem_cons.1 hbefore).2, hfirst⟩

/-- If nobody fails, everybody is told. -/
theorem Delivery.eq_map {event : Event} {ls : List ListenerRef} {notices : List Notice}
    (h : Delivery event ls notices) (accepted : firstFailure notices = .ok ()) :
    notices = ls.map fun l => ⟨l, event, .ok ()⟩ := by
  induction h with
  | done => rfl
  | heard l _ ih => rw [ih accepted, List.map_cons]
  | failed => cases accepted

theorem firstFailure_append (first more : List Notice) :
    firstFailure (first ++ more) = (firstFailure first).bind fun _ => firstFailure more := by
  induction first with
  | nil => rfl
  | cons notice first ih =>
    rw [List.cons_append, firstFailure, firstFailure]
    split
    · exact ih
    · rfl

/-! ## Listeners with a log -/

variable [ValueTypes] {χ : Type}

namespace Observers

/-- The listeners do not call back: whatever they answer, the registry stays as it is. -/
def Steady (obs : Observers χ) : Prop :=
  ∀ holds l event w, (obs.lifecycle holds l event w).2.registry = w.registry

/-- A log of everything that listeners are told and answer. -/
def Logs (obs : Observers χ) (log : χ → List Notice) : Prop :=
  ∀ holds l event w, log (obs.lifecycle holds l event w).2.client =
    log w.client ++ [⟨l, event, (obs.lifecycle holds l event w).1⟩]

/-- The same listeners, with a log kept beside their own state. -/
def recorded (obs : Observers χ) : Observers (χ × List Notice) where
  lifecycle holds l event w :=
    let (answer, v) := obs.lifecycle holds l event w.core
    (answer, ⟨v.registry, (v.client, w.client.2 ++ [⟨l, event, answer⟩])⟩)
  bag holds l event w :=
    let v := obs.bag holds l event w.core
    ⟨v.registry, (v.client, w.client.2)⟩
  slack c := obs.slack c.1
  remains holds w c := obs.remains holds w.core c
  order w := obs.order w.core
  order_perm w := obs.order_perm w.core

theorem recorded_logs (obs : Observers χ) : obs.recorded.Logs Prod.snd := fun _ _ _ _ => rfl

theorem Steady.recorded {obs : Observers χ} (h : obs.Steady) : obs.recorded.Steady :=
  fun holds l event w => h holds l event w.core

end Observers

variable {obs : Observers χ} {log : χ → List Notice}

namespace World

section Fire

variable (hlog : obs.Logs log) (holds : Holds)

include hlog

theorem delivery_fire (event : Event) (ls : List ListenerRef) (w : World χ) :
    ∃ notices, Delivery event ls notices ∧
      log (fire (fun l => obs.lifecycle holds l event) ls w).2.client = log w.client ++ notices ∧
      firstFailure notices =
        (fire (fun l => obs.lifecycle holds l event) ls w).1.mapError .listener := by
  induction ls generalizing w with
  | nil => exact ⟨[], .done, (List.append_nil _).symm, rfl⟩
  | cons l ls ih =>
    have hcall := hlog holds l event w
    rw [fire]
    cases hanswer : obs.lifecycle holds l event w with
    | mk answer w' =>
      rw [hanswer] at hcall
      cases answer with
      | ok =>
        obtain ⟨notices, hrest, hlogged, hfirst⟩ := ih w'
        refine ⟨_, .heard l hrest, ?_, hfirst⟩
        rw [hlogged, hcall, List.append_assoc]
        rfl
      | error failure => exact ⟨_, .failed l ls failure, hcall, rfl⟩

/-- An announcement is a delivery to the audience of the container, and its answer is the first
failure. -/
theorem delivery_announce (hobs : obs.Steady) (c : ContainerRef) (event : Event) (w : World χ) :
    ∃ notices, Delivery event (w.registry.audience c) notices ∧
      log (announce obs holds c event w).2.client = log w.client ++ notices ∧
      (announce obs holds c event w).1 = firstFailure notices ∧
      (announce obs holds c event w).2.registry = w.registry := by
  obtain ⟨notices, hdelivery, hlogged, hfirst⟩ := delivery_fire hlog
    (holds.keepEvent event (w.registry.audience c)) event (w.registry.audience c) w
  have hsame : (announce obs holds c event w).2.registry = w.registry :=
    announce_induct (P := fun v => v.registry = w.registry) holds
      (fun holds l v hv => (hobs holds l event v).trans hv) c rfl
  rw [announce_eq] at hsame ⊢
  exact ⟨notices, hdelivery, hlogged, hfirst.symm, hsame⟩

end Fire

end World

/-! ## Announced deaths -/

/-- The death of an entity, with the container that had held it. -/
structure Death where
  container : ContainerRef
  entity : EntityRef

/-- A container can say where an event happens: it names itself, or a container that stays. -/
def Observers.Voiced (obs : Observers χ) (r : Registry) (c : ContainerRef) : Prop :=
  r.delegateOf c = c ∨ ∀ holds w, obs.remains holds w (r.delegateOf c) = true

/-- The container that another one names in events is gone. -/
def Observers.Voiceless (obs : Observers χ) (r : Registry) (c : ContainerRef) : Prop :=
  r.delegateOf c ≠ c ∧ ∀ holds w, obs.remains holds w (r.delegateOf c) = false

theorem Observers.Voiced.recorded {r : Registry} {c : ContainerRef} (h : obs.Voiced r c) :
    obs.recorded.Voiced r c :=
  h.imp_right fun hstays holds w => hstays holds w.core

theorem Observers.Voiceless.recorded {r : Registry} {c : ContainerRef} (h : obs.Voiceless r c) :
    obs.recorded.Voiceless r c :=
  ⟨h.1, fun holds w => h.2 holds w.core⟩

theorem World.delegate_of_voiceless {w : World χ} {c : ContainerRef}
    (h : obs.Voiceless w.registry c) (holds : Holds) :
    delegate obs holds c w = .error (.delegateDropped (w.registry.containerId c)) :=
  if_neg (not_or.2 ⟨h.1, Bool.eq_false_iff.1 (h.2 _ w)⟩)

namespace Registry

/-- Deaths were told, one after another, each to the listeners of the container that had held the
entity. -/
inductive Tolled (r : Registry) : List Death → List Notice → Prop
  | nil : Tolled r [] []
  | cons {c : ContainerRef} {x : EntityRef} {deaths : List Death} {report notices : List Notice}
      (delivery : Delivery ⟨.killed, r.delegateOf c, x, none⟩ (r.audience c) report)
      (rest : Tolled r deaths notices) : Tolled r (⟨c, x⟩ :: deaths) (report ++ notices)

/-- What becomes of deaths whose containers may have lost their delegates: each one is told, or it
is not, since nobody could say where it happened. The answer is the first failure of either kind. -/
inductive Announced (obs : Observers χ) (r : Registry) :
    List Death → List Notice → Except ContainerError Unit → Prop
  | nil : Announced obs r [] [] (.ok ())
  | told {c : ContainerRef} {x : EntityRef} {deaths : List Death}
      {report notices : List Notice} {answer : Except ContainerError Unit}
      (there : r.delegateOf c = c ∨ ∃ holds w, obs.remains holds w (r.delegateOf c) = true)
      (delivery : Delivery ⟨.killed, r.delegateOf c, x, none⟩ (r.audience c) report)
      (rest : Announced obs r deaths notices answer) :
      Announced obs r (⟨c, x⟩ :: deaths) (report ++ notices)
        ((firstFailure report).bind fun _ => answer)
  | untold {c : ContainerRef} {x : EntityRef} {deaths : List Death}
      {notices : List Notice} {answer : Except ContainerError Unit}
      (other : r.delegateOf c ≠ c) (gone : ∃ holds w, obs.remains holds w (r.delegateOf c) = false)
      (rest : Announced obs r deaths notices answer) :
      Announced obs r (⟨c, x⟩ :: deaths) notices (.error (.delegateDropped (r.containerId c)))

variable {r s : Registry} {deaths more : List Death}
  {notices later : List Notice} {answer : Except ContainerError Unit}

theorem Tolled.append (h : r.Tolled deaths notices) (k : r.Tolled more later) :
    r.Tolled (deaths ++ more) (notices ++ later) := by
  induction h with
  | nil => exact k
  | cons delivery _ ih =>
    rw [List.append_assoc]
    exact .cons delivery ih

theorem Tolled.congr (h : s.Tolled deaths notices)
    (hdelegate : ∀ c, s.delegateOf c = r.delegateOf c)
    (haudience : ∀ c, s.audience c = r.audience c) : r.Tolled deaths notices := by
  induction h with
  | nil => exact .nil
  | cons delivery _ ih =>
    rw [hdelegate, haudience] at delivery
    exact .cons delivery ih

theorem Announced.append {last : Except ContainerError Unit}
    (h : r.Announced obs deaths notices answer) (k : r.Announced obs more later last) :
    r.Announced obs (deaths ++ more) (notices ++ later) (answer.bind fun _ => last) := by
  induction h with
  | nil => exact k
  | @told _ _ _ report _ _ there delivery _ ih =>
    have hnext := Announced.told there delivery ih
    rw [← List.append_assoc] at hnext
    cases hreport : firstFailure report with
    | ok =>
      rw [hreport] at hnext
      exact hnext
    | error failure =>
      rw [hreport] at hnext
      exact hnext
  | untold other gone _ ih => exact .untold other gone ih

theorem Announced.congr (h : s.Announced obs deaths notices answer) (hnames : SameNames r s)
    (haudience : ∀ c, s.audience c = r.audience c) : r.Announced obs deaths notices answer := by
  induction h with
  | nil => exact .nil
  | told there delivery _ ih =>
    rw [hnames.delegateOf] at there
    rw [hnames.delegateOf, haudience] at delivery
    exact .told there delivery ih
  | untold other gone _ ih =>
    rw [hnames.delegateOf] at other gone
    rw [hnames.containerId]
    exact .untold other gone ih

/-- Where containers can say where they are, every death is told. -/
theorem Announced.tolled (h : r.Announced obs deaths notices answer)
    (there : ∀ p ∈ deaths, obs.Voiced r p.container) :
    r.Tolled deaths notices ∧ answer = firstFailure notices := by
  induction h with
  | nil => exact ⟨.nil, rfl⟩
  | told _ delivery _ ih =>
    obtain ⟨htolled, rfl⟩ := ih (List.forall_mem_cons.1 there).2
    exact ⟨.cons delivery htolled, (firstFailure_append _ _).symm⟩
  | untold other gone _ _ =>
    rcases (List.forall_mem_cons.1 there).1 with hself | hremains
    · exact absurd hself other
    · obtain ⟨holds, w, hgone⟩ := gone
      rw [hremains] at hgone
      cases hgone

/-- Where the delegate of the container is gone, no death is told. -/
theorem Announced.silent {c : ContainerRef} {victims : List EntityRef}
    (h : r.Announced obs (victims.map (Death.mk c)) notices answer)
    (hvoiceless : obs.Voiceless r c) :
    notices = [] ∧ (victims ≠ [] → answer = .error (.delegateDropped (r.containerId c))) := by
  induction victims generalizing notices answer with
  | nil =>
    cases h
    exact ⟨rfl, fun hne => absurd rfl hne⟩
  | cons x victims ih =>
    cases h with
    | told there _ _ =>
      rcases there with hself | ⟨holds, w, hremains⟩
      · exact absurd hself hvoiceless.1
      · rw [hvoiceless.2] at hremains
        cases hremains
    | untold _ _ rest => exact ⟨(ih rest).1, fun _ => rfl⟩

end Registry

namespace World

/-- The death of one entity, as its container announces it. -/
theorem announced_announceKilled (hobs : obs.Steady) (hlog : obs.Logs log) (holds : Holds)
    (c : ContainerRef) (e : EntityRef) (w : World χ) :
    ∃ notices, w.registry.Announced obs [⟨c, e⟩] notices (announceKilled obs holds c e w).1 ∧
      log (announceKilled obs holds c e w).2.client = log w.client ++ notices ∧
      (announceKilled obs holds c e w).2.registry = w.registry := by
  have hdelegate : (w.registry.delegateOf c = c ∨
        obs.remains (holds.keep [c]) w (w.registry.delegateOf c) = true) ∧
        delegate obs holds c w = .ok (w.registry.delegateOf c) ∨
      (w.registry.delegateOf c ≠ c ∧
        obs.remains (holds.keep [c]) w (w.registry.delegateOf c) = false) ∧
        delegate obs holds c w = .error (.delegateDropped (w.registry.containerId c)) := by
    unfold delegate
    simp only
    split
    · rename_i hthere
      exact .inl ⟨hthere, rfl⟩
    · rename_i hgone
      rw [not_or, Bool.not_eq_true] at hgone
      exact .inr ⟨hgone, rfl⟩
  unfold announceKilled
  rcases hdelegate with ⟨hthere, h⟩ | ⟨⟨hother, hgone⟩, h⟩
  · rw [h]
    obtain ⟨notices, hdelivery, hlogged, hanswer, hsame⟩ :=
      delivery_announce hlog holds hobs c ⟨.killed, w.registry.delegateOf c, e, none⟩ w
    have hannounced := Announced.told (x := e) (hthere.imp_right fun h => ⟨_, _, h⟩) hdelivery .nil
    refine ⟨notices, ?_, hlogged, hsame⟩
    rw [List.append_nil, ← hanswer] at hannounced
    convert hannounced using 1
    simp only
    cases (announce obs holds c _ w).1 <;> rfl
  · rw [h]
    exact ⟨[], .untold hother ⟨_, _, hgone⟩ .nil, (List.append_nil _).symm, rfl⟩

end World

end EntityForest
