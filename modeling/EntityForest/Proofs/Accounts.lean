import EntityForest.Attribute.Plain
import EntityForest.Proofs.BagDeeds

/-! # What clients tell of bags

Clients keep a log of what they do with bags and of what their listeners hear. Listeners may do
whatever clients do, so that deeds are nested in deeds to any depth. The log of a run can be parsed:
each deed is followed by the deliveries of its own changes and then ends, and nothing else is
delivered. -/

namespace EntityForest

open Relation (ReflTransGen)
open Registry

section

variable [ValueTypes]

/-- What is noted: that a deed begins and what there is at that time; which callback a listener is
called by, which event it is told, and what it sees; that the listener is done; and that the deed
ends, with its answer. -/
inductive BagLine where
  | begins (deed : BagDeed) (before : Registry)
  | hears (l : AttributeListenerRef) (called : Change) (event : AttributeEvent) (seen : Registry)
  | leaves (l : AttributeListenerRef)
  | ends (deed : BagDeed) (before : Registry) (answer : deed.Answer)

/-! ## Accounts -/

mutual

/-- These lines tell of deeds, one after the other, that lead from the first sheets to the last. All
changes of a deed are delivered before it ends, to the listeners at its beginning. -/
inductive Account : Sheets → List BagLine → Sheets → Prop
  | done (sheets : Sheets) : Account sheets [] sheets
  | deed {sheets after last : Sheets} {deed : BagDeed} {before : Registry}
      {changes : List SlotChange} {inner rest : List BagLine}
      (shown : before.Shows sheets) (commits : deed.Commits sheets changes)
      (once : (changes ×ˢ deed.audience sheets).Nodup)
      (delivered : Deliveries (changes ×ˢ deed.audience sheets) (deed.apply sheets) inner after)
      (more : Account after rest last) :
      Account sheets
        (.begins deed before :: (inner ++ .ends deed before (deed.answer sheets) :: rest)) last

/-- These lines tell of these deliveries, in this order, and of what the listeners do meanwhile. -/
inductive Deliveries :
    List (SlotChange × AttributeListenerRef) → Sheets → List BagLine → Sheets → Prop
  | done (sheets : Sheets) : Deliveries [] sheets [] sheets
  | next {due : List (SlotChange × AttributeListenerRef)} {sheets after last : Sheets}
      {change : SlotChange} {l : AttributeListenerRef} {seen : Registry}
      {inner rest : List BagLine} (shown : seen.Shows sheets)
      (response : Account sheets inner after) (more : Deliveries due after rest last) :
      Deliveries ((change, l) :: due) sheets
        (.hears l change.kind change.event seen :: (inner ++ .leaves l :: rest)) last

end

/-! ## Runs -/

section Runs

variable {χ : Type} (log : χ → List BagLine)

/-- What a client does at a time: a deed, which it notes before and after, and which is told to
listeners that are allowed; or something that leaves the bags alone. -/
inductive Handling (allowed : Observers χ → Prop) (w : World χ) : World χ → Prop
  | deed {obs : Observers χ} (listens : allowed obs) (holds : Holds) {deed : BagDeed}
      {begun done : χ} {answer : deed.Answer} {w' : World χ}
      (begins : log begun = log w.client ++ [.begins deed w.registry])
      (performs : deed.perform obs holds { w with client := begun } = (answer, w'))
      (ends : log done = log w'.client ++ [.ends deed w.registry answer]) :
      Handling allowed w { w' with client := done }
  | other {w' : World χ} (same : ∀ b, w'.registry.bag b = w.registry.bag b)
      (kept : log w'.client = log w.client) : Handling allowed w w'

/-- A listener is called. It notes what it is told, does something, and notes that it is done. -/
inductive Response (allowed : Observers χ → Prop) (l : AttributeListenerRef) (called : Change)
    (event : AttributeEvent) (w : World χ) : World χ → Prop
  | intro {heard left : χ} {w' : World χ}
      (hears : log heard = log w.client ++ [.hears l called event w.registry])
      (handles : ReflTransGen (Handling log allowed) { w with client := heard } w')
      (leaves : log left = log w'.client ++ [.leaves l]) :
      Response allowed l called event w { w' with client := left }

/-- Listeners whose callbacks do what clients can do. The listeners of their own deeds are of the
same kind, and so on to some depth. -/
inductive Observers.Responsive : Observers χ → Prop
  | intro {obs : Observers χ} (allowed : Observers χ → Prop)
      (inner : ∀ o, allowed o → Responsive o)
      (callback : Holds → AttributeListenerRef → Change → AttributeEvent → World χ → World χ)
      (dispatches : ∀ holds l,
        obs.bag holds l = (ChangeCallbacks.uniform (callback holds l)).dispatch)
      (responds : ∀ holds l called event w,
        Response log allowed l called event w (callback holds l called event w)) :
      Responsive obs

/-- Whatever listeners do when they are told of an event, the log accounts for it. -/
def Observers.Narrate (obs : Observers χ) : Prop :=
  ∀ holds l event (w : World χ) sheets, w.registry.Shows sheets →
    ∃ inner after,
      log (obs.bag holds l event w).client =
        log w.client ++ .hears l event.change event w.registry :: (inner ++ [.leaves l]) ∧
      Account sheets inner after ∧ (obs.bag holds l event w).registry.Shows after

variable {log} {w w' : World χ} {sheets : Sheets}

theorem Observers.Narrate.deliverDue {obs : Observers χ} (h : obs.Narrate log) (holds : Holds)
    (due : List (SlotChange × AttributeListenerRef)) (shown : w.registry.Shows sheets) :
    ∃ lines after, log (w.deliverDue obs holds due).client = log w.client ++ lines ∧
      Deliveries due sheets lines after ∧ (w.deliverDue obs holds due).registry.Shows after := by
  induction due generalizing w sheets with
  | nil => exact ⟨[], sheets, (List.append_nil _).symm, .done sheets, shown⟩
  | cons p due ih =>
    obtain ⟨change, l⟩ := p
    obtain ⟨inner, after, hlog, response, shown'⟩ := h holds l change.event w sheets shown
    obtain ⟨rest, last, hrest, more, shown''⟩ := ih shown'
    refine ⟨_, last, ?_, .next shown response more, shown''⟩
    change log ((obs.bag holds l change.event w).deliverDue obs holds due).client = _
    rw [hrest, hlog, SlotChange.event_change]
    simp only [List.append_assoc, List.cons_append, List.nil_append]

/-- What is noted between the beginning of a deed and its end are the deliveries of its changes. -/
theorem Observers.Narrate.deed {obs : Observers χ} (h : obs.Narrate log) (holds : Holds)
    {deed : BagDeed} {begun done : χ} {answer : deed.Answer} (shown : w.registry.Shows sheets)
    (begins : log begun = log w.client ++ [.begins deed w.registry])
    (performs : deed.perform obs holds { w with client := begun } = (answer, w'))
    (ends : log done = log w'.client ++ [.ends deed w.registry answer]) :
    ∃ changes inner after, deed.Commits sheets changes ∧
      Deliveries (changes ×ˢ deed.audience sheets) (deed.apply sheets) inner after ∧
      w'.registry.Shows after ∧
      log done = log w.client ++
        .begins deed w.registry :: (inner ++ [.ends deed w.registry (deed.answer sheets)]) := by
  have hperformed : deed.Performed obs sheets { w with client := begun }
      (deed.perform obs holds { w with client := begun }) :=
    BagDeed.performed (w := ⟨w.registry, begun⟩) holds shown deed
  rw [performs] at hperformed
  obtain ⟨rfl, changes, r, holds', commits, committed, rfl⟩ := hperformed
  obtain ⟨inner, after, hlog, delivered, shown'⟩ :=
    h.deliverDue (w := ⟨r, begun⟩) holds' _ committed
  refine ⟨changes, inner, after, commits, delivered, shown', ?_⟩
  rw [ends, hlog, begins]
  simp only [List.append_assoc, List.cons_append, List.nil_append]

/-- A run adds an account of itself to the log. -/
theorem exists_account {allowed : Observers χ → Prop} (hallowed : ∀ o, allowed o → o.Narrate log)
    (steps : ReflTransGen (Handling log allowed) w w') (shown : w.registry.Shows sheets) :
    ∃ lines last, log w'.client = log w.client ++ lines ∧ Account sheets lines last ∧
      w'.registry.Shows last := by
  induction steps using ReflTransGen.head_induction_on generalizing sheets with
  | refl => exact ⟨[], sheets, (List.append_nil _).symm, .done sheets, shown⟩
  | head step _ ih =>
    cases step with
    | deed listens holds begins performs ends =>
      obtain ⟨changes, inner, after, commits, delivered, shown', hdone⟩ :=
        (hallowed _ listens).deed holds shown begins performs ends
      obtain ⟨rest, last, hrest, more, shown''⟩ := ih shown'
      refine ⟨_, last, ?_, .deed shown commits commits.nodup_due delivered more, shown''⟩
      rw [hrest, hdone]
      simp only [List.append_assoc, List.cons_append, List.nil_append]
    | other same kept =>
      obtain ⟨lines, last, hlog, account, shown'⟩ := ih (shown.of_bag same)
      exact ⟨lines, last, by rw [hlog, kept], account, shown'⟩

/-- Listeners narrate because the listeners of their own deeds do. -/
theorem Observers.Responsive.narrate {obs : Observers χ} (h : obs.Responsive log) :
    obs.Narrate log := by
  induction h with
  | intro allowed _ callback dispatches responds ih =>
    intro holds l event w sheets shown
    rw [dispatches, ChangeCallbacks.dispatch_uniform]
    have hresponse := responds holds l event.change event w
    generalize callback holds l event.change event w = w' at hresponse ⊢
    obtain ⟨hears, handles, leaves⟩ := hresponse
    obtain ⟨inner, after, hlog, response, shown'⟩ := exists_account ih handles shown
    refine ⟨inner, after, ?_, response, shown'⟩
    rw [leaves, hlog, hears]
    simp only [List.append_assoc, List.cons_append, List.nil_append]

/-- In every run, however deep the deeds of listeners are nested, each change is delivered exactly
once to each listener that was registered when the change was made, in the order of registration,
through the callback for its kind, and nothing else is delivered. -/
theorem changes_are_delivered_once {client : χ} (blank : log client = [])
    (run : ReflTransGen (Handling log (Observers.Responsive log)) ⟨.empty, client⟩ w) :
    ∃ last, Account (fun _ => .blank) (log w.client) last ∧ w.registry.Shows last := by
  obtain ⟨lines, last, hlog, account, shown⟩ :=
    exists_account (fun o ho => ho.narrate) run Registry.shows_empty
  rw [blank, List.nil_append] at hlog
  exact ⟨last, hlog ▸ account, shown⟩

end Runs

/-! ### Listeners that react -/

/-- Adds a line to the log. -/
def World.note (line : BagLine) (w : World (List BagLine)) : World (List BagLine) :=
  { w with client := w.client ++ [line] }

/-- Does something with bags, noting its beginning and its end. -/
def BagDeed.carryOut (obs : Observers (List BagLine)) (w : World (List BagLine))
    (deed : BagDeed) : World (List BagLine) :=
  let result := deed.perform obs .nothing (w.note (.begins deed w.registry))
  result.2.note (.ends deed w.registry result.1)

/-- Listeners that do deeds when they are called. Events are nested at most as deep as the argument
says. -/
def Observers.reacting (reaction : AttributeListenerRef → Change → AttributeEvent → List BagDeed) :
    Nat → Observers (List BagLine)
  | 0 => hearing fun _ _ _ w => w
  | nesting + 1 =>
    hearing fun l called event w =>
      (reaction l called event).foldl (BagDeed.carryOut (reacting reaction nesting)) w
where
  hearing (respond : AttributeListenerRef → Change → AttributeEvent → World (List BagLine) →
      World (List BagLine)) : Observers (List BagLine) :=
    { lifecycle := fun _ _ _ w => (.ok (), w)
      bag := fun _ l => (ChangeCallbacks.uniform fun called event w =>
        (respond l called event (w.note (.hears l called event w.registry))).note
          (.leaves l)).dispatch
      slack := fun _ => 0
      remains := fun _ _ _ => true }

theorem handlings_carryOut {allowed : Observers (List BagLine) → Prop}
    {obs : Observers (List BagLine)} (listens : allowed obs) (deeds : List BagDeed)
    (w : World (List BagLine)) :
    ReflTransGen (Handling id allowed) w (deeds.foldl (BagDeed.carryOut obs) w) := by
  induction deeds generalizing w with
  | nil => exact .refl
  | cons deed deeds ih => exact .head (.deed listens .nothing rfl rfl rfl) (ih _)

theorem Observers.responsive_reacting
    (reaction : AttributeListenerRef → Change → AttributeEvent → List BagDeed) (nesting : Nat) :
    (reacting reaction nesting).Responsive id := by
  induction nesting with
  | zero =>
    exact .intro (fun _ => False) (fun _ => False.elim) _ (fun _ _ => rfl)
      fun _ _ _ _ _ => .intro rfl .refl rfl
  | succ nesting ih =>
    refine .intro (· = reacting reaction nesting) (fun o ho => ho ▸ ih) _ (fun _ _ => rfl)
      fun _ l called event w => ?_
    exact .intro rfl (handlings_carryOut (by rfl) (reaction l called event) _) rfl

end

open scoped PlainType

/-! ### A change within a change within a change -/

def health : Key .u32 := ⟨"health"⟩

def armour : Key .i64 := ⟨"armour"⟩

/-- The first listener takes over when it hears of a value that has been added: at `health` it
removes the second listener and adds `armour`, and at this it removes `health` again. -/
def takeOver (l : AttributeListenerRef) (called : Change) (event : AttributeEvent) :
    List BagDeed :=
  if l = ⟨0⟩ ∧ called = .added then
    if event.name = health.name then
      [.unlisten (.standalone 0) ⟨1⟩, .set (.standalone 0) armour (7 : Int64)]
    else [.remove (.standalone 0) health]
  else []

def takenOver : World (List BagLine) :=
  [.listen (.standalone 0) ⟨0⟩, .listen (.standalone 0) ⟨1⟩,
    .set (.standalone 0) health (10 : UInt32)].foldl
    (BagDeed.carryOut (.reacting takeOver 3)) ⟨.empty, []⟩

/-- What a line tells of a listener that is called. -/
def BagLine.heard : BagLine → Option (AttributeListenerRef × Change × AttributeEvent)
  | hears l called event _ => some (l, called, event)
  | _ => none

/-- The second listener hears of `health` last, when it is no longer registered and `health` is gone
again, but it hears of nothing else. -/
theorem changes_are_delivered_once_takenOver :
    (∃ last, Account (fun _ => .blank) takenOver.client last ∧ takenOver.registry.Shows last) ∧
      takenOver.client.filterMap BagLine.heard =
        [(⟨0⟩, .added, ⟨"health", "u32", .added⟩), (⟨0⟩, .added, ⟨"armour", "i64", .added⟩),
          (⟨0⟩, .removed, ⟨"health", "u32", .removed⟩),
          (⟨1⟩, .added, ⟨"health", "u32", .added⟩)] := by
  have run : ReflTransGen (Handling id (Observers.Responsive id)) ⟨.empty, []⟩ takenOver :=
    handlings_carryOut (Observers.responsive_reacting takeOver 3) _ _
  have hdelivered := changes_are_delivered_once (by rfl) run
  exact ⟨hdelivered, by decide +kernel⟩

end EntityForest
