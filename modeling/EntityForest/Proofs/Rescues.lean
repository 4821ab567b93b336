import EntityForest.Proofs.Cascade
import EntityForest.Proofs.Finality
import EntityForest.Proofs.Transfers

/-! # Moves out of a cascade

While a cascade goes down a subtree, listeners that hear of a death may move entities out of what is
still to die. By then the parent of such an entity may be dead and forgotten by its tree, so that
the move looks like one from another tree. It comes to the same: what the tree releases on one side
of it has room on the other. -/

namespace EntityForest

open Relation (ReflTransGen TransGen)
open Registry World

variable [ValueTypes]

/-- A transfer that has been tried: the forest before it, its arguments and its answer. -/
structure Attempt where
  before : Registry
  src : ContainerRef
  id : Uuid
  dst : ContainerRef
  answer : Except ContainerError Bool

namespace Attempt

/-- The entity that is to be moved. -/
def Moves (a : Attempt) (x : EntityRef) : Prop := a.before.Held a.src a.id x

/-- An entity that a doomed entity still holds is to go to an open container of the same tree, which
is neither the one it is in nor within it, and whose identity is its own. -/
structure Rescues (a : Attempt) (r : Registry) (victims : List EntityRef) (p x : EntityRef) :
    Prop where
  doomed : r.Doomed victims p
  src : a.src = .ofEntity p
  moves : a.Moves x
  apart : a.dst ≠ a.src
  outside : ¬ a.before.Within a.dst (.ofEntity x)
  isOpen : a.before.isClosed a.dst = false
  same_tree : a.before.bound a.dst = a.before.bound a.src
  present : a.before.Exists a.dst
  alone : ∀ {d}, a.before.InUse d → a.before.containerId d = a.before.containerId a.dst → d = a.dst

/-- The attempt is to save an entity from the death of the victims. -/
def Fit (a : Attempt) (r : Registry) (victims : List EntityRef) : Prop :=
  ∃ p x, a.Rescues r victims p x

/-- The destination can say where it is. -/
def Named (a : Attempt) : Prop := a.before.delegateOf a.dst = a.dst

end Attempt

namespace Registry

variable {r s t : Registry}

/-! ## Steps -/

theorem Razed.later {gone shut : EntityRef → Prop} (h : r.Razed gone shut s) : r.Later s where
  exists_mono hc := (h.names.exists_iff _).2 hc
  dead {e} he := by
    by_cases hgone : gone e
    · exact h.dead hgone
    · rwa [h.lifecycle hgone]
  not_inserted _ hheld := h.held_mono hheld
  closed {c} hc := by
    by_cases hshut : ∃ x, shut x ∧ c = .ofEntity x
    · obtain ⟨x, hx, rfl⟩ := hshut
      exact h.closed hx
    · rw [h.isClosed fun x hx heq => hshut ⟨x, hx, heq⟩]
      exact hc
  shrinks _ hheld := h.held_mono hheld

theorem Arrived.later {id : Uuid} {dst : ContainerRef} {e : EntityRef} (h : r.Arrived id dst e s)
    (hopen : r.isClosed dst = false) (halive : r.lifecycle e = .alive) : r.Later s where
  exists_mono hc := (h.names.exists_iff _).2 hc
  dead he := by rwa [h.lifecycle]
  not_inserted hx hheld := by
    rcases (h.held _ _ _).1 hheld with ⟨-, -, rfl⟩ | ⟨hold, -⟩
    · rw [halive] at hx
      cases hx
    · exact hold
  closed hc := by rwa [h.isClosed]
  shrinks hc hheld := by
    rcases (h.held _ _ _).1 hheld with ⟨rfl, -, -⟩ | ⟨hold, -⟩
    · rw [hopen] at hc
      cases hc
    · exact hold

namespace Coherent

variable (h : r.Coherent)

include h

/-- What is left of a coherent forest is coherent. -/
theorem razed {gone shut : EntityRef → Prop} (k : r.Razed gone shut s)
    (hsize : ∀ f, (s.owners f).size ≤ (r.owners f).size) : s.Coherent := by
  have hinUse : ∀ {c}, s.InUse c → r.InUse c := by
    intro c hc
    cases c with
    | standalone i => exact (k.names.exists_iff (.standalone i)).1 hc
    | ofEntity e =>
      rcases hc with ⟨d, id, he⟩ | ⟨id, x, hx⟩
      · exact .inl ⟨d, id, k.held_mono he⟩
      · exact .inr ⟨id, x, k.held_mono hx⟩
  refine ⟨.of_sound_full (k.sound h.sound) (k.full h.sound h.full) ?_,
    h.within_limits.of_size_le k.config hsize⟩
  intro c d hc hd hid
  rw [k.names.containerId, k.names.containerId] at hid
  exact h.distinct (hinUse hc) (hinUse hd) hid

theorem killed {c : ContainerRef} {id : Uuid} {e : EntityRef} (k : r.Killed c id e s) :
    s.Coherent := by
  refine h.razed (k.razed h.sound) fun f => ?_
  rw [k.owners]
  split
  · exact (r.owners f).size_erase_le _
  · exact Nat.le_refl _

theorem close (e : EntityRef) : (r.close (.ofEntity e)).Coherent :=
  h.razed (razed_close r e) fun f => Nat.le_of_eq (congrArg Table.size (r.owners_close _ f))

end Coherent

/-! ## What holds throughout -/

/-- A container that is not the child container of anything doomed. -/
def Outside (r : Registry) (victims : List EntityRef) (b : ContainerRef) : Prop :=
  ∀ p, r.Doomed victims p → b ≠ .ofEntity p

/-- An entity was in a container from the start, or has been moved there. -/
def Came (r₀ : Registry) (log : List Attempt) (x : EntityRef) (b : ContainerRef) : Prop :=
  (∃ id, r₀.Held b id x) ∨ ∃ a ∈ log, a.Moves x ∧ a.dst = b

theorem Came.append {r₀ : Registry} {log : List Attempt} {x : EntityRef} {b : ContainerRef}
    (h : Came r₀ log x b) (more : List Attempt) : Came r₀ (log ++ more) x b := by
  refine h.imp_right fun hmoved => ?_
  obtain ⟨a, ha, hmoved⟩ := hmoved
  exact ⟨a, List.mem_append_left more ha, hmoved⟩

/-- What an entity dies of: it is a victim, or it is in the child container of a dead entity. -/
def Cause (r₀ : Registry) (victims : List EntityRef) (log : List Attempt) (r : Registry)
    (x : EntityRef) : Prop :=
  x ∈ victims ∨
    ∃ p, r₀.Doomed victims p ∧ r.lifecycle p = .dead ∧ Came r₀ log x (.ofEntity p)

/-- The state of a forest while the victims and what is below them are dying. Nothing has changed
but that some of the doomed entities have died and that others have been moved, all with success;
those that have been moved out are where they were moved to. Of the dead, those that are not pending
have nothing below them any more. -/
structure Ongoing (r₀ : Registry) (c : ContainerRef) (victims : List EntityRef)
    (log : List Attempt) (pending : List EntityRef) (r : Registry) : Prop where
  coherent : r.Coherent
  names : SameNames r₀ r
  bound : ∀ b, r.bound b = r₀.bound b
  held : ∀ {b id x}, r.Held b id x →
    r₀.Held b id x ∨ r₀.Doomed victims x ∧ ∃ a ∈ log, a.Moves x ∧ a.dst = b
  dead_or_held : ∀ {b id x}, r₀.Held b id x → r.lifecycle x = .dead ∨ ∃ d, r.Held d id x
  victim : ∀ {v}, v ∈ victims → r.lifecycle v = .dead ∨ ∃ id, r.Held c id v
  emptied : ∀ {x}, r₀.Doomed victims x → r.lifecycle x = .dead →
    x ∈ pending ∨ r.isClosed (.ofEntity x) = true ∧ ∀ id y, ¬ r.Held (.ofEntity x) id y
  waiting : ∀ {x}, x ∈ pending → r₀.Doomed victims x ∧ r.lifecycle x = .dead
  cause : ∀ {x}, r₀.Doomed victims x → r.lifecycle x = .dead → Cause r₀ victims log r x
  not_victim : ∀ a ∈ log, ∀ {x}, a.Moves x → x ∉ victims
  saved : ∀ a ∈ log, ∀ {x}, a.Moves x → r₀.Outside victims a.dst → ∃ id, r.Held a.dst id x
  answered : ∀ a ∈ log, a.answer = .ok true

/-- What a cascade takes: the victims, and what is in the child container of a dead one. -/
def Targeted (r₀ : Registry) (c : ContainerRef) (victims : List EntityRef) (r : Registry)
    (b : ContainerRef) (id : Uuid) : Prop :=
  b = c ∧ id ∈ victims.map r₀.idOf ∨
    ∃ p, r₀.Doomed victims p ∧ r.lifecycle p = .dead ∧ b = .ofEntity p

theorem Targeted.later {r₀ : Registry} {c b : ContainerRef} {victims : List EntityRef} {id : Uuid}
    (h : Targeted r₀ c victims r b id) (k : r.Later s) : Targeted r₀ c victims s b id := by
  refine h.imp_right fun hparent => ?_
  obtain ⟨p, hp, hdead, hb⟩ := hparent
  exact ⟨p, hp, k.dead hdead, hb⟩

theorem Siblings.held_of_doomed {c : ContainerRef} {victims : List EntityRef}
    (h : r.Siblings c victims) {x : EntityRef} (hx : r.Doomed victims x) :
    ∃ b id, r.Held b id x := by
  rcases hx with hx | ⟨v, -, hx⟩
  · exact ⟨c, h.held hx⟩
  · obtain ⟨b, id, -, hheld⟩ := below_iff_held.1 hx
    exact ⟨b, id, hheld⟩

theorem Siblings.index_lt {c : ContainerRef} {victims : List EntityRef} (h : r.Siblings c victims)
    (hr : r.Sound) {x : EntityRef} (hx : r.Doomed victims x) : x.index < r.entities.size := by
  obtain ⟨b, id, hheld⟩ := h.held_of_doomed hx
  exact (hr.placed b id x hheld).2

/-- Nothing that is doomed holds the victims. -/
theorem Siblings.not_held_by_doomed {c : ContainerRef} {victims : List EntityRef} (hr : r.Sound)
    (h : r.Siblings c victims) {p : EntityRef} (hp : r.Doomed victims p) {v : EntityRef}
    (hv : v ∈ victims) {id : Uuid} : ¬ r.Held (.ofEntity p) id v := by
  intro hheld
  rcases hp with hp | ⟨u, hu, hp⟩
  · exact h.not_below hr hp hv (.child ⟨id, hheld⟩)
  · exact h.not_below hr hu hv (.step hp ⟨id, hheld⟩)

theorem Siblings.not_dead_of_doomed {c : ContainerRef} {victims : List EntityRef}
    (h : r.Siblings c victims) (hr : r.Coherent) {x : EntityRef} (hx : r.Doomed victims x) :
    r.lifecycle x ≠ .dead := by
  obtain ⟨b, id, hheld⟩ := h.held_of_doomed hx
  rw [hr.alive hheld]
  nofun

theorem ongoing_start {c : ContainerRef} {victims : List EntityRef} (hr : r.Coherent)
    (hsiblings : r.Siblings c victims) : Ongoing r c victims [] [] r where
  coherent := hr
  names := (SameForest.refl r).sameNames
  bound _ := rfl
  held hheld := .inl hheld
  dead_or_held hheld := .inr ⟨_, hheld⟩
  victim hv := .inr (hsiblings.held hv)
  emptied hx hdead := absurd hdead (hsiblings.not_dead_of_doomed hr hx)
  waiting hx := absurd hx List.not_mem_nil
  cause hx hdead := absurd hdead (hsiblings.not_dead_of_doomed hr hx)
  not_victim _ ha := absurd ha List.not_mem_nil
  saved _ ha := absurd ha List.not_mem_nil
  answered _ ha := absurd ha List.not_mem_nil

/-- A dead entity whose child container is closed and empty need not wait any longer. -/
theorem Ongoing.settle {r₀ : Registry} {c : ContainerRef} {victims pending : List EntityRef}
    {log : List Attempt} {e : EntityRef} (k : Ongoing r₀ c victims log (e :: pending) r)
    (hclosed : r.isClosed (.ofEntity e) = true) (hempty : ∀ id y, ¬ r.Held (.ofEntity e) id y) :
    Ongoing r₀ c victims log pending r :=
  { k with
    emptied := fun hx hdead => by
      rcases k.emptied hx hdead with hmem | hdone
      · rcases List.mem_cons.1 hmem with rfl | hmem
        · exact .inr ⟨hclosed, hempty⟩
        · exact .inl hmem
      · exact .inr hdone
    waiting := fun hx => k.waiting (List.mem_cons_of_mem e hx) }

namespace Ongoing

variable {r₀ : Registry} {c : ContainerRef} {victims pending : List EntityRef} {log : List Attempt}
  (h : Ongoing r₀ c victims log pending r)

include h

theorem settled (hself : r₀.SelfNamed) : r.Settled :=
  ⟨h.coherent.sound, h.coherent.full, hself.of_sameNames h.names⟩

/-- What a doomed entity holds is doomed, wherever it has come from. -/
theorem doomed_of_held {p x : EntityRef} {id : Uuid} (hp : r₀.Doomed victims p)
    (hx : r.Held (.ofEntity p) id x) : r₀.Doomed victims x := by
  rcases h.held hx with hold | ⟨hdoomed, -⟩
  · exact hp.of_held hold
  · exact hdoomed

theorem perm {pending' : List EntityRef} (hperm : pending'.Perm pending) :
    Ongoing r₀ c victims log pending' r :=
  { h with
    emptied := fun hx hdead => (h.emptied hx hdead).imp_left hperm.mem_iff.2
    waiting := fun hx => h.waiting (hperm.mem_iff.1 hx) }

theorem sameForest (k : SameForest r s) : Ongoing r₀ c victims log pending s where
  coherent := k.coherent h.coherent
  names := h.names.trans k.sameNames
  bound b := (k.bound b).trans (h.bound b)
  held hheld := h.held ((held_congr k.held).1 hheld)
  dead_or_held hheld := by
    simp only [held_congr k.held, k.lifecycle]
    exact h.dead_or_held hheld
  victim hv := by
    simp only [held_congr k.held, k.lifecycle]
    exact h.victim hv
  emptied hx hdead := by
    rw [k.lifecycle] at hdead
    simp only [held_congr k.held, k.isClosed]
    exact h.emptied hx hdead
  waiting hx := by
    rw [k.lifecycle]
    exact h.waiting hx
  cause hx hdead := by
    rw [k.lifecycle] at hdead
    simp only [Cause, k.lifecycle]
    exact h.cause hx hdead
  not_victim := h.not_victim
  saved a ha := by
    simp only [held_congr k.held]
    exact h.saved a ha
  answered := h.answered

/-- Doomed entities die, or their child containers are closed. -/
theorem razed {dead : List EntityRef} {shut : EntityRef → Prop} (k : r.Razed (· ∈ dead) shut s)
    (hs : s.Coherent) (hdoomed : ∀ x ∈ dead, r₀.Doomed victims x)
    (hcause : ∀ x ∈ dead, Cause r₀ victims log r x)
    (hinside : ∀ a ∈ log, ∀ x ∈ dead, a.Moves x → ¬ r₀.Outside victims a.dst) :
    Ongoing r₀ c victims log (dead ++ pending) s where
  coherent := hs
  names := h.names.trans k.names
  bound b := (k.bound b).trans (h.bound b)
  held hheld := h.held (k.held_mono hheld)
  dead_or_held {_ _ x} hheld := by
    by_cases hx : x ∈ dead
    · exact .inl (k.dead hx)
    · rw [k.lifecycle hx]
      refine (h.dead_or_held hheld).imp_right fun hsome => ?_
      obtain ⟨d, hd⟩ := hsome
      exact ⟨d, k.held_iff.2 ⟨hd, hx⟩⟩
  victim {v} hv := by
    by_cases hx : v ∈ dead
    · exact .inl (k.dead hx)
    · rw [k.lifecycle hx]
      refine (h.victim hv).imp_right fun hsome => ?_
      obtain ⟨id, hheld⟩ := hsome
      exact ⟨id, k.held_iff.2 ⟨hheld, hx⟩⟩
  emptied {x} hx hdead := by
    by_cases hmem : x ∈ dead
    · exact .inl (List.mem_append_left pending hmem)
    · rw [k.lifecycle hmem] at hdead
      rcases h.emptied hx hdead with hold | ⟨hclosed, hempty⟩
      · exact .inl (List.mem_append_right dead hold)
      · exact .inr ⟨k.later.closed hclosed, fun id y hy => hempty id y (k.held_mono hy)⟩
  waiting {x} hx := by
    rcases List.mem_append.1 hx with hnew | hold
    · exact ⟨hdoomed x hnew, k.dead hnew⟩
    · exact ⟨(h.waiting hold).1, k.later.dead (h.waiting hold).2⟩
  cause {x} hx hdead := by
    have hbefore : Cause r₀ victims log r x := by
      by_cases hmem : x ∈ dead
      · exact hcause x hmem
      · rw [k.lifecycle hmem] at hdead
        exact h.cause hx hdead
    refine hbefore.imp_right fun hparent => ?_
    obtain ⟨p, hp, hpdead, hcame⟩ := hparent
    exact ⟨p, hp, k.later.dead hpdead, hcame⟩
  not_victim := h.not_victim
  saved a ha {x} hmoves hout := by
    obtain ⟨id, hheld⟩ := h.saved a ha hmoves hout
    exact ⟨id, k.held_iff.2 ⟨hheld, fun hx => hinside a ha x hx hmoves hout⟩⟩
  answered := h.answered

theorem close (e : EntityRef) : Ongoing r₀ c victims log pending (r.close (.ofEntity e)) :=
  h.razed ((razed_close r e).congr (fun _ => (iff_false_intro List.not_mem_nil).symm)
    fun _ => Iff.rfl) (h.coherent.close e) (fun _ hx => absurd hx List.not_mem_nil)
    (fun _ hx => absurd hx List.not_mem_nil) fun _ _ _ hx => absurd hx List.not_mem_nil

section Targets

variable (hr : r₀.Coherent) (hsiblings : r₀.Siblings c victims)

include hr hsiblings

/-- Nothing is held that was not held before. -/
theorem held_before {b : ContainerRef} {id : Uuid} {x : EntityRef} (hx : r.Held b id x) :
    ∃ d, r₀.Held d id x := by
  rcases h.held hx with hold | ⟨hdoomed, -⟩
  · exact ⟨b, hold⟩
  · obtain ⟨d, j, hold⟩ := hsiblings.held_of_doomed hdoomed
    obtain rfl : j = id := by
      rw [← hr.keyed hold, ← h.names.idOf, h.coherent.keyed hx]
    exact ⟨d, hold⟩

/-- What has the identity of a victim is the victim. -/
theorem mem_of_mem_ids {b : ContainerRef} {id : Uuid} {x : EntityRef} (hx : r.Held b id x)
    (hid : id ∈ victims.map r₀.idOf) : x ∈ victims := by
  obtain ⟨v, hv, rfl⟩ := List.mem_map.1 hid
  obtain ⟨d, hold⟩ := h.held_before hr hsiblings hx
  obtain ⟨j, hv'⟩ := hsiblings.held hv
  obtain rfl := hr.keyed hv'
  exact hr.covers.eq_of_held hr.sound hold hv' ▸ hv

theorem killed {b : ContainerRef} {id : Uuid} {e : EntityRef} (k : r.Killed b id e s)
    (ht : Targeted r₀ c victims r b id) : Ongoing r₀ c victims log (e :: pending) s := by
  have hdying : e ∈ victims ∨ ∃ p, r₀.Doomed victims p ∧ r.lifecycle p = .dead ∧ b = .ofEntity p :=
    ht.imp_left fun hid => h.mem_of_mem_ids hr hsiblings k.found hid.2
  have hrazed : r.Razed (· ∈ [e]) (fun _ => False) s :=
    (k.razed h.coherent.sound).congr (fun _ => List.mem_singleton.symm) fun _ => Iff.rfl
  refine h.razed hrazed (h.coherent.killed k) ?_ ?_ ?_
  all_goals simp only [List.mem_singleton, forall_eq]
  · rcases hdying with hvictim | ⟨p, hp, -, rfl⟩
    · exact .inl hvictim
    · exact h.doomed_of_held hp k.found
  · refine hdying.imp_right fun hparent => ?_
    obtain ⟨p, hp, hdead, rfl⟩ := hparent
    refine ⟨p, hp, hdead, ?_⟩
    rcases h.held k.found with hold | ⟨-, hmoved⟩
    · exact .inl ⟨id, hold⟩
    · exact .inr hmoved
  · intro a ha hmoves hout
    rcases hdying with hvictim | ⟨p, hp, -, rfl⟩
    · exact h.not_victim a ha hmoves hvictim
    · obtain ⟨j, hheld⟩ := h.saved a ha hmoves hout
      exact hout p hp (h.coherent.once hheld k.found)

end Targets

end Ongoing

end Registry

namespace Attempt.Rescues

variable {r₀ s : Registry} {c : ContainerRef} {victims pending : List EntityRef}
  {log : List Attempt} {a : Attempt} {p x : EntityRef} (k : a.Rescues r₀ victims p x)
  (h : Ongoing r₀ c victims log pending a.before) (hr : r₀.Sound)
  (hsiblings : r₀.Siblings c victims)

include k h

theorem doomed_moved : r₀.Doomed victims x := by
  have hheld : a.before.Held a.src a.id x := k.moves
  rw [k.src] at hheld
  exact h.doomed_of_held k.doomed hheld

include hr hsiblings

/-- The victims themselves are not moved. -/
theorem not_victim : x ∉ victims := by
  intro hx
  rcases h.victim hx with hdead | ⟨id, hc⟩
  · rw [h.coherent.alive k.moves] at hdead
    cases hdead
  · obtain ⟨i, hheld⟩ := hsiblings.held hx
    have hcp := h.coherent.once hc k.moves
    rw [k.src] at hcp
    subst hcp
    exact hsiblings.not_held_by_doomed hr k.doomed hx hheld

theorem ongoing (harrived : a.before.Arrived a.id a.dst x s) (hanswer : a.answer = .ok true) :
    Ongoing r₀ c victims (log ++ [a]) pending s := by
  have hkept : ∀ {b j y}, a.before.Held b j y → y ≠ x → s.Held b j y :=
    fun hy hne => (harrived.held _ _ _).2 (.inr ⟨hy, hne⟩)
  refine {
    coherent := harrived.coherent
    names := h.names.trans harrived.names
    bound := fun b => ?_
    held := fun {b j y} hy => ?_
    dead_or_held := fun {b j y} hy => ?_
    victim := fun {v} hv => ?_
    emptied := fun {y} hy hdead => ?_
    waiting := fun hy => ?_
    cause := fun {y} hy hdead => ?_
    not_victim := fun a' ha' {y} hmoves => ?_
    saved := fun a' ha' {y} hmoves hout => ?_
    answered := fun a' ha' => ?_ }
  · by_cases hw : a.before.Within b (.ofEntity x)
    · rw [harrived.bound_within b hw, k.same_tree,
        ← h.coherent.sound.bound_of_within_held k.moves hw, h.bound]
    · rw [harrived.bound_other b hw, h.bound]
  · rcases (harrived.held _ _ _).1 hy with ⟨rfl, -, rfl⟩ | ⟨hold, -⟩
    · exact .inr ⟨k.doomed_moved h, a, List.mem_append_right log (List.mem_singleton_self a),
        k.moves, rfl⟩
    · refine (h.held hold).imp_right fun hmoved => ⟨hmoved.1, ?_⟩
      obtain ⟨-, a', ha', hmoved⟩ := hmoved
      exact ⟨a', List.mem_append_left [a] ha', hmoved⟩
  · rw [harrived.lifecycle]
    rcases h.dead_or_held hy with hdead | ⟨d, hd⟩
    · exact .inl hdead
    · by_cases hne : y = x
      · subst hne
        obtain rfl := h.coherent.sound.id_eq hd k.moves
        exact .inr ⟨a.dst, (harrived.held _ _ _).2 (.inl ⟨rfl, rfl, rfl⟩)⟩
      · exact .inr ⟨d, hkept hd hne⟩
  · rw [harrived.lifecycle]
    refine (h.victim hv).imp_right fun ⟨id, hc⟩ => ⟨id, hkept hc ?_⟩
    rintro rfl
    exact k.not_victim h hr hsiblings hv
  · rw [harrived.lifecycle] at hdead
    refine (h.emptied hy hdead).imp_right fun ⟨hclosed, hempty⟩ => ⟨?_, fun j z hz => ?_⟩
    · rwa [harrived.isClosed]
    · rcases (harrived.held _ _ _).1 hz with ⟨heq, -, -⟩ | ⟨hold, -⟩
      · have hopen := k.isOpen
        rw [← heq, hclosed] at hopen
        cases hopen
      · exact hempty j z hold
  · rw [harrived.lifecycle]
    exact h.waiting hy
  · rw [harrived.lifecycle] at hdead
    refine (h.cause hy hdead).imp_right fun hparent => ?_
    obtain ⟨q, hq, hqdead, hcame⟩ := hparent
    exact ⟨q, hq, by rwa [harrived.lifecycle], hcame.append [a]⟩
  · rcases List.mem_append.1 ha' with hold | hnew
    · exact h.not_victim a' hold hmoves
    · obtain rfl := List.mem_singleton.1 hnew
      obtain rfl : y = x := Option.some.inj (hmoves.symm.trans k.moves)
      exact k.not_victim h hr hsiblings
  · rcases List.mem_append.1 ha' with hold | hnew
    · -- what is outside has not been moved again, since only what a doomed entity holds is moved
      obtain ⟨j, hheld⟩ := h.saved a' hold hmoves hout
      refine ⟨j, hkept hheld ?_⟩
      rintro rfl
      exact hout p k.doomed ((h.coherent.once hheld k.moves).trans k.src)
    · obtain rfl := List.mem_singleton.1 hnew
      obtain rfl : y = x := Option.some.inj (hmoves.symm.trans k.moves)
      exact ⟨a'.id, (harrived.held _ _ _).2 (.inl ⟨rfl, rfl, rfl⟩)⟩
  · rcases List.mem_append.1 ha' with hold | hnew
    · exact h.answered a' hold
    · rw [List.mem_singleton.1 hnew]
      exact hanswer

end Attempt.Rescues

/-! ## Listeners that move entities -/

variable {χ : Type}

namespace Observers

/-- On anything but a death listeners agree, and leave the forest as it is. -/
structure Calm (obs : Observers χ) : Prop where
  agrees : ∀ holds l event w, event.kind ≠ .killed → (obs.lifecycle holds l event w).1 = .ok ()
  sameForest : ∀ holds l event w, event.kind ≠ .killed →
    SameForest w.registry (obs.lifecycle holds l event w).2.registry

/-- The same listeners, who now leave it at that when somebody dies. -/
def calmed (obs : Observers χ) : Observers χ :=
  { obs with
    lifecycle := fun holds l event w =>
      if event.kind = .killed then (.ok (), w) else obs.lifecycle holds l event w }

theorem Calm.passive_calmed {obs : Observers χ} (h : obs.Calm) : obs.calmed.Passive := by
  refine ⟨fun holds l event w => ?_⟩
  simp only [calmed]
  split
  · exact .refl _
  · rename_i hkind
    exact h.sameForest holds l event w hkind

theorem Calm.accepting_calmed {obs : Observers χ} (h : obs.Calm) : obs.calmed.Accepting := by
  intro holds l event w
  simp only [calmed]
  split
  · rfl
  · rename_i hkind
    exact h.agrees holds l event w hkind

end Observers

namespace World

/-- Only the announcement of a death tells such listeners apart. -/
theorem announce_calmed (obs : Observers χ) (holds : Holds) (c : ContainerRef) {event : Event}
    (h : event.kind ≠ .killed) :
    announce obs.calmed holds c event = announce obs holds c event := by
  have hcall : ∀ holds l, obs.calmed.lifecycle holds l event = obs.lifecycle holds l event :=
    fun holds l => funext fun w => if_neg h
  funext w
  rw [announce_eq, announce_eq, tell, tell]
  simp only [hcall]

theorem delegate_calmed (obs : Observers χ) (holds : Holds) (c : ContainerRef) :
    delegate obs.calmed holds c = delegate obs holds c := rfl

theorem receive_calmed (obs : Observers χ) (holds : Holds) (c : ContainerRef) (e : EntityRef) :
    receive obs.calmed holds c e = receive obs holds c e := by
  funext w
  simp only [receive, delegate_calmed, announce_calmed, ne_eq, reduceCtorEq, not_false_eq_true]

theorem depart_calmed (obs : Observers χ) (holds : Holds) (src dst delegate : ContainerRef)
    (id : Uuid) (e : EntityRef) (arrival : Except ContainerError Unit) :
    depart obs.calmed holds src dst delegate id e arrival =
      depart obs holds src dst delegate id e arrival := by
  funext w
  simp only [depart, announce_calmed, ne_eq, reduceCtorEq, not_false_eq_true]

/-- No transfer announces a death. -/
theorem transfer_calmed (obs : Observers χ) (holds : Holds) (src : ContainerRef) (id : Uuid)
    (dst : ContainerRef) :
    transfer obs.calmed holds src id dst = transfer obs holds src id dst := by
  funext w
  simp only [transfer, delegate_calmed, receive_calmed, depart_calmed]

end World

section Success

variable {r₀ : Registry} {c : ContainerRef} {victims pending : List EntityRef} {log : List Attempt}
  {a : Attempt} {p x : EntityRef} {obs : Observers χ} {w : World χ}

/-- Whatever has died above it, an entity gets where it is to go. -/
theorem Attempt.Rescues.succeeds (k : a.Rescues r₀ victims p x) (hnamed : a.Named)
    (h : Ongoing r₀ c victims log pending w.registry) (hself : r₀.SelfNamed) (calm : obs.Calm)
    (holds : Holds) (hbefore : a.before = w.registry) :
    (w.transfer obs holds a.src a.id a.dst).1 = .ok true ∧
      w.registry.Arrived a.id a.dst x (w.transfer obs holds a.src a.id a.dst).2.registry := by
  have hmoves : w.registry.Held a.src a.id x := hbefore ▸ k.moves
  have hbound : w.registry.bound a.dst = w.registry.bound a.src := hbefore ▸ k.same_tree
  have hsrc : w.registry.delegateOf a.src = a.src := by
    have hexists := (h.coherent.placed _ _ _ hmoves).1
    rw [k.src] at hexists ⊢
    exact hself.of_sameNames h.names p hexists
  have hdst : w.registry.Addressable a.dst := by
    rw [← hbefore]
    exact ⟨hnamed, k.present, k.alone⟩
  have hinUse := (inUse_of_held h.coherent.placed hmoves).1
  have hspec := transferSpec_transfer holds calm.passive_calmed h.coherent hsrc hdst a.id
  rw [transfer_calmed] at hspec
  obtain ⟨harrived, -, haccepted⟩ := hspec.moves x
    (fun heq => k.apart (hdst.alone hinUse heq.symm).symm) (hbefore ▸ k.isOpen) hmoves
    (hbefore ▸ k.outside) (.inr (h.coherent.hasRoom_of_bound_eq hmoves hbound.symm))
  exact ⟨haccepted calm.accepting_calmed, harrived⟩

end Success

/-- What a listener does when it hears of a death: it tries to move something, and logs that, or it
does something that leaves the forest alone. -/
inductive Rescue (log : χ → List Attempt) (w : World χ) : World χ → Prop
  | transfer {obs : Observers χ} (calm : obs.Calm) (holds : Holds) (src : ContainerRef) (id : Uuid)
      (dst : ContainerRef) {client : χ}
      (logged : log client =
        log w.client ++ [⟨w.registry, src, id, dst, (w.transfer obs holds src id dst).1⟩]) :
      Rescue log w { (w.transfer obs holds src id dst).2 with client }
  | other {w' : World χ} (same : SameForest w.registry w'.registry)
      (kept : log w'.client = log w.client) : Rescue log w w'

/-- Whenever somebody dies, the listeners try to save others, and then agree or fail. -/
def Observers.Evacuates (log : χ → List Attempt) (obs : Observers χ) : Prop :=
  ∀ holds l event w, event.kind = .killed →
    ReflTransGen (Rescue log) w (obs.lifecycle holds l event w).2

namespace World

/-- All that listeners have tried is to save entities from the death of the victims, and each
destination can say where it is. -/
def AllFit (log : χ → List Attempt) (r₀ : Registry) (victims : List EntityRef) (w : World χ) :
    Prop :=
  ∀ a ∈ log w.client, a.Fit r₀ victims ∧ a.Named

/-- The death of the victims is under way, in a world that has come from `start`. -/
structure Underway (log : χ → List Attempt) (r₀ : Registry) (c : ContainerRef)
    (victims : List EntityRef) (start : World χ) (pending : List EntityRef) (w : World χ) :
    Prop where
  grows : log start.client <+: log w.client
  later : w.AllFit log r₀ victims → start.registry.Later w.registry
  ongoing : w.AllFit log r₀ victims → Ongoing r₀ c victims (log w.client) pending w.registry

section Underway

variable {log : χ → List Attempt} {r₀ : Registry} {c : ContainerRef}
  {victims pending : List EntityRef} {start w w' : World χ}

theorem AllFit.of_prefix (h : w'.AllFit log r₀ victims) (hgrows : log w.client <+: log w'.client) :
    w.AllFit log r₀ victims := fun a ha => h a (hgrows.subset ha)

namespace Underway

variable (h : Underway log r₀ c victims start pending w)

include h

theorem restart : Underway log r₀ c victims w pending w :=
  ⟨List.prefix_rfl, fun _ => .refl _, h.ongoing⟩

theorem trans {pending' : List EntityRef} (k : Underway log r₀ c victims w pending' w') :
    Underway log r₀ c victims start pending' w' where
  grows := h.grows.trans k.grows
  later hfit := (h.later (hfit.of_prefix k.grows)).trans (k.later hfit)
  ongoing := k.ongoing

theorem perm {pending' : List EntityRef} (hperm : pending'.Perm pending) :
    Underway log r₀ c victims start pending' w :=
  { h with ongoing := fun hfit => (h.ongoing hfit).perm hperm }

/-- A change of the forest alone. -/
theorem commit {pending' : List EntityRef} {s : Registry}
    (hs : w.AllFit log r₀ victims → w.registry.Later s ∧
      Ongoing r₀ c victims (log w.client) pending' s) :
    Underway log r₀ c victims start pending' { w with registry := s } where
  grows := h.grows
  later hfit := (h.later hfit).trans (hs hfit).1
  ongoing hfit := (hs hfit).2

variable (hr : r₀.Coherent) (hself : r₀.SelfNamed) (hsiblings : r₀.Siblings c victims)

include hr hself hsiblings

theorem rescue (step : Rescue log w w') : Underway log r₀ c victims start pending w' := by
  cases step with
  | @transfer obs calm holds src id dst client logged =>
    set a : Attempt := ⟨w.registry, src, id, dst, (w.transfer obs holds src id dst).1⟩
    have hgrows : log w.client <+: log client := ⟨[a], logged.symm⟩
    have hlast : a ∈ log client := by
      rw [logged]
      exact List.mem_append_right _ (List.mem_singleton_self a)
    have hmoved : (∀ b ∈ log client, b.Fit r₀ victims ∧ b.Named) →
        w.registry.Later (w.transfer obs holds src id dst).2.registry ∧
          Ongoing r₀ c victims (log client) pending
            (w.transfer obs holds src id dst).2.registry := by
      intro hfit
      obtain ⟨⟨p, x, k⟩, hnamed⟩ := hfit a hlast
      have hongoing := h.ongoing fun b hb => hfit b (hgrows.subset hb)
      obtain ⟨hanswer, harrived⟩ := k.succeeds hnamed hongoing hself calm holds rfl
      rw [logged]
      exact ⟨harrived.later k.isOpen (hongoing.coherent.alive k.moves),
        k.ongoing hongoing hr.sound hsiblings harrived hanswer⟩
    exact ⟨h.grows.trans hgrows, fun hfit => (h.later fun b hb => hfit b (hgrows.subset hb)).trans
      (hmoved hfit).1, fun hfit => (hmoved hfit).2⟩
  | other same kept =>
    have hfits : w'.AllFit log r₀ victims → w.AllFit log r₀ victims := fun hfit => by
      rw [AllFit, ← kept]
      exact hfit
    refine ⟨kept ▸ h.grows, fun hfit => (h.later (hfits hfit)).trans same.ages.later,
      fun hfit => ?_⟩
    rw [kept]
    exact (h.ongoing (hfits hfit)).sameForest same

end Underway

end Underway

end World

end EntityForest
