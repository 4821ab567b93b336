import EntityForest.Proofs.Outcomes

/-! # Runs of a forest

A run starts with no objects and makes one call after another. Between calls clients may change
marks, attributes and listeners, and their own state. Where a container works through all of its
entities, the order is up to the run. -/

namespace EntityForest

variable [ValueTypes]

/-- What can be asked of a forest from outside. -/
inductive Call where
  | newFactory (config : TreeConfig)
  | newContainer (id : Uuid) (f : FactoryRef)
  | create (c : ContainerRef) (id : Uuid) (marker : Option Marker) (seed : Table Slot Value)
  | kill (c : ContainerRef) (id : Uuid)
  | killAll (c : ContainerRef) (order : List Uuid)
  | transfer (src : ContainerRef) (id : Uuid) (dst : ContainerRef)
  | transferAll (src dst : ContainerRef) (order : List Uuid)

namespace Call

/-- The containers that a call names exist, and an order lists exactly what is held. -/
def Valid (r : Registry) : Call → Prop
  | newFactory _ | newContainer .. => True
  | create c .. | kill c _ => r.Exists c
  | killAll c order => r.Exists c ∧ order.Perm (r.held c).keys
  | transfer src _ dst => r.Exists src ∧ r.Exists dst
  | transferAll src dst order => (r.Exists src ∧ r.Exists dst) ∧ order.Perm (r.held src).keys

instance (r : Registry) (call : Call) : Decidable (call.Valid r) :=
  match call with
  | newFactory _ | newContainer .. => inferInstanceAs (Decidable True)
  | create c .. | kill c _ => inferInstanceAs (Decidable (r.Exists c))
  | killAll c order => inferInstanceAs (Decidable (r.Exists c ∧ order.Perm (r.held c).keys))
  | transfer src _ dst => inferInstanceAs (Decidable (r.Exists src ∧ r.Exists dst))
  | transferAll src dst order =>
    inferInstanceAs (Decidable ((r.Exists src ∧ r.Exists dst) ∧ order.Perm (r.held src).keys))

variable {χ : Type} (obs : Observers χ)

/-- Performs a call; the answer is the error if there is one. -/
def perform (w : World χ) : Call → Option ContainerError × World χ
  | newFactory config => (none, { w with registry := (w.registry.newFactory config).2 })
  | newContainer id f => (none, { w with registry := (w.registry.newContainer id f).2 })
  | create c id none seed => failure? (w.newEntity obs .nothing c id seed)
  | create c id (some marker) seed => failure? (w.newEntityOfType obs .nothing c id marker seed)
  | kill c id => failure? (w.kill obs .nothing c id)
  | killAll c order => failure? (w.killListed obs .nothing c order)
  | transfer src id dst => failure? (w.transfer obs .nothing src id dst)
  | transferAll src dst order => failure? (w.transferEach obs .nothing src dst order)
where
  failure? {α : Type} : Except ContainerError α × World χ → Option ContainerError × World χ
    | (.ok _, w) => (none, w)
    | (.error failure, w) => (some failure, w)

theorem snd_failure? {α : Type} (x : Except ContainerError α × World χ) :
    (perform.failure? x).2 = x.2 := by
  obtain ⟨answer, w⟩ := x
  cases answer <;> rfl

theorem fst_failure? {α : Type} {x : Except ContainerError α × World χ}
    {failure : ContainerError} : (perform.failure? x).1 = some failure ↔ x.1 = .error failure := by
  obtain ⟨answer, w⟩ := x
  cases answer <;> simp [perform.failure?]

/-- Looking at the mark afterwards changes nothing. -/
theorem snd_perform_create (w : World χ) (c : ContainerRef) (id : Uuid) (marker : Option Marker)
    (seed : Table Slot Value) :
    ((create c id marker seed).perform obs w).2 = (w.create obs .nothing c id marker seed).2 := by
  cases marker with
  | none => exact snd_failure? _
  | some marker =>
    rw [perform, snd_failure?, World.newEntityOfType]
    cases w.create obs .nothing c id (some marker) seed with
    | mk answer w' => cases answer <;> rfl

end Call

/-- A run: the calls made, the latest first, each with the world it was made in, and the world at
the end. -/
inductive Run {χ : Type} (obs : Observers χ) : List (World χ × Call) → World χ → Prop
  | start (client : χ) : Run obs [] ⟨.empty, client⟩
  | call {past : List (World χ × Call)} {w : World χ} (run : Run obs past w) (call : Call)
      (valid : call.Valid w.registry) : Run obs ((w, call) :: past) (call.perform obs w).2
  | other {past : List (World χ × Call)} {w w' : World χ} (run : Run obs past w)
      (same : Registry.SameForest w.registry w'.registry) : Run obs past w'

/-- To kill everything is a call that lists it in the order that the container has for it. -/
theorem Run.killAll {χ : Type} {obs : Observers χ} {past : List (World χ × Call)} {w : World χ}
    (run : Run obs past w) {c : ContainerRef} (present : w.registry.Exists c) :
    Run obs ((w, .killAll c (w.heldInOrder obs c)) :: past) (w.killAll obs .nothing c).2 := by
  have hcall := run.call (.killAll c (w.heldInOrder obs c)) ⟨present, w.heldInOrder_perm obs c⟩
  rwa [Call.perform, Call.snd_failure?] at hcall

/-- So is to move everything. -/
theorem Run.transferAll {χ : Type} {obs : Observers χ} {past : List (World χ × Call)} {w : World χ}
    (run : Run obs past w) {src dst : ContainerRef} (hsrc : w.registry.Exists src)
    (hdst : w.registry.Exists dst) :
    Run obs ((w, .transferAll src dst (w.heldInOrder obs src)) :: past)
      (w.transferAll obs .nothing src dst).2 := by
  have hcall := run.call (.transferAll src dst (w.heldInOrder obs src))
    ⟨⟨hsrc, hdst⟩, w.heldInOrder_perm obs src⟩
  rwa [Call.perform, Call.snd_failure?] at hcall

/-- The worlds in which calls were made, and the last one. -/
def reached {χ : Type} (past : List (World χ × Call)) (w : World χ) : List (World χ) :=
  w :: past.map Prod.fst

/-- What every move of one entity preserves, moves of several preserve. -/
theorem World.transferEach_induct {χ : Type} {obs : Observers χ} {holds : Holds}
    {src dst : ContainerRef} {P : World χ → Prop}
    (h : ∀ id w, P w → P (w.transfer obs holds src id dst).2) (ids : List Uuid) {w : World χ}
    (hw : P w) : P (w.transferEach obs holds src dst ids).2 := by
  induction ids generalizing w with
  | nil => exact hw
  | cons id ids ih =>
    have hstep := h id w hw
    rw [transferEach]
    cases hmove : w.transfer obs holds src id dst with
    | mk answer w' =>
      rw [hmove] at hstep
      cases answer with
      | error => exact hstep
      | ok => exact ih hstep

/-! ## Concrete runs -/

/-- Listeners that accept everything and do nothing. -/
def Observers.quiet : Observers Unit where
  lifecycle _ _ _ w := (.ok (), w)
  bag _ _ _ w := w
  slack _ := 0
  remains _ _ _ := true

theorem Observers.quiet_passive : Observers.quiet.Passive :=
  ⟨fun _ _ _ w => .refl w.registry⟩

/-- What a run with these calls has made of a world. -/
def replay {χ : Type} (obs : Observers χ) :
    List Call → List (World χ × Call) × World χ → List (World χ × Call) × World χ
  | [], trail => trail
  | call :: calls, (past, w) => replay obs calls ((w, call) :: past, (call.perform obs w).2)

/-- Each of the calls is valid where it is made. -/
def AllValid {χ : Type} (obs : Observers χ) : List Call → World χ → Prop
  | [], _ => True
  | call :: calls, w => call.Valid w.registry ∧ AllValid obs calls (call.perform obs w).2

instance AllValid.decidable {χ : Type} (obs : Observers χ) :
    (calls : List Call) → (w : World χ) → Decidable (AllValid obs calls w)
  | [], _ => inferInstanceAs (Decidable True)
  | call :: calls, w =>
    have := AllValid.decidable obs calls (call.perform obs w).2
    inferInstanceAs (Decidable (call.Valid w.registry ∧ AllValid obs calls (call.perform obs w).2))

theorem Run.replay {χ : Type} {obs : Observers χ} {calls : List Call}
    {past : List (World χ × Call)} {w : World χ} (run : Run obs past w)
    (valid : AllValid obs calls w) :
    Run obs (replay obs calls (past, w)).1 (replay obs calls (past, w)).2 := by
  induction calls generalizing past w with
  | nil => exact run
  | cons call calls ih => exact ih (run.call call valid.1) valid.2

/-- The trail of a run from the start. -/
def trail (calls : List Call) : List (World Unit × Call) × World Unit :=
  replay .quiet calls ([], ⟨.empty, ()⟩)

theorem run_trail {calls : List Call} (valid : AllValid .quiet calls ⟨.empty, ()⟩) :
    Run .quiet (trail calls).1 (trail calls).2 :=
  (Run.start ()).replay valid

end EntityForest
