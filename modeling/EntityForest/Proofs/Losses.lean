import EntityForest.Proofs.Sound

/-! # What a forest can lose

Entities die and child containers are closed. A forest that only loses entities in this way stays
sound and keeps everything else as it was. -/

namespace EntityForest.Registry

variable [ValueTypes] {r s t : Registry}

/-- Some entities have died and some child containers have been closed, and nothing else has
changed. -/
structure Razed (r : Registry) (gone shut : EntityRef → Prop) (s : Registry) : Prop where
  names : SameNames r s
  dead : ∀ {x}, gone x → s.lifecycle x = .dead
  lifecycle : ∀ {x}, ¬ gone x → s.lifecycle x = r.lifecycle x
  held_iff : ∀ {c id x}, s.Held c id x ↔ r.Held c id x ∧ ¬ gone x
  held : ∀ {c}, (∀ id x, r.Held c id x → ¬ gone x) → s.held c = r.held c
  closed : ∀ {x}, shut x → s.isClosed (.ofEntity x) = true
  isClosed : ∀ {c}, (∀ x, shut x → c ≠ .ofEntity x) → s.isClosed c = r.isClosed c
  record_iff : ∀ {f id owner}, (s.owners f).find? id = some owner ↔
    (r.owners f).find? id = some owner ∧ ∀ c x, r.Held c id x → r.bound c = f → ¬ gone x
  bound : ∀ c, s.bound c = r.bound c
  audience : ∀ c, s.audience c = r.audience c
  config : ∀ f, s.config f = r.config f
  marks : ∀ x, (s.entity x).marks = (r.entity x).marks
  bag : ∀ b, s.bag b = r.bag b

theorem Razed.refl (r : Registry) : r.Razed (fun _ => False) (fun _ => False) r where
  names := (SameForest.refl r).sameNames
  dead := False.elim
  lifecycle _ := rfl
  held_iff {_ _ _} := by simp only [not_false_eq_true, and_true]
  held _ := rfl
  closed := False.elim
  isClosed _ := rfl
  record_iff {_ _ _} := by simp only [not_false_eq_true, implies_true, and_true]
  bound _ := rfl
  audience _ := rfl
  config _ := rfl
  marks _ := rfl
  bag _ := rfl

theorem razed_close (r : Registry) (e : EntityRef) :
    r.Razed (fun _ => False) (· = e) (r.close (.ofEntity e)) where
  names := sameNames_close r e
  dead := False.elim
  lifecycle _ := r.lifecycle_close _ _
  held_iff {_ _ _} := by
    simp only [held_congr (r.held_close (.ofEntity e)), not_false_eq_true, and_true]
  held _ := r.held_close _ _
  closed hx := by rw [isClosed_close, if_pos (congrArg _ hx)]
  isClosed hc := by rw [isClosed_close, if_neg (hc e rfl)]
  record_iff {_ _ _} := by
    simp only [owners_close, not_false_eq_true, implies_true, and_true]
  bound c := r.bound_close _ c
  audience c := r.audience_close _ c
  config f := r.config_close _ f
  marks x := by rw [close, entity_setContainer]
  bag b := by rw [close, bag_setContainer]

namespace Razed

variable {gone shut gone' shut' : EntityRef → Prop} (h : r.Razed gone shut s)

include h

theorem congr (hgone : ∀ x, gone x ↔ gone' x) (hshut : ∀ x, shut x ↔ shut' x) :
    r.Razed gone' shut' s := by
  obtain rfl : gone = gone' := funext fun x => propext (hgone x)
  obtain rfl : shut = shut' := funext fun x => propext (hshut x)
  exact h

theorem held_mono {c : ContainerRef} {id : Uuid} {x : EntityRef} (hx : s.Held c id x) :
    r.Held c id x := (h.held_iff.1 hx).1

/-- One part of a cascade after another. -/
theorem trans (k : s.Razed gone' shut' t) :
    r.Razed (fun x => gone x ∨ gone' x) (fun x => shut x ∨ shut' x) t where
  names := h.names.trans k.names
  dead {x} hx := by
    by_cases hx' : gone' x
    · exact k.dead hx'
    · rw [k.lifecycle hx']
      exact h.dead (hx.resolve_right hx')
  lifecycle {x} hx := by
    rw [not_or] at hx
    rw [k.lifecycle hx.2, h.lifecycle hx.1]
  held_iff {_ _ _} := by rw [k.held_iff, h.held_iff, not_or, and_assoc]
  held {c} hc := by
    rw [k.held fun id x hx => fun hgone => hc id x (h.held_mono hx) (.inr hgone),
      h.held fun id x hx => fun hgone => hc id x hx (.inl hgone)]
  closed {x} hx := by
    by_cases hx' : shut' x
    · exact k.closed hx'
    · have hkept : ∀ y, shut' y → ContainerRef.ofEntity x ≠ .ofEntity y := by
        rintro y hy heq
        cases heq
        exact hx' hy
      rw [k.isClosed hkept]
      exact h.closed (hx.resolve_right hx')
  isClosed {c} hc := by
    rw [k.isClosed fun x hx => hc x (.inr hx), h.isClosed fun x hx => hc x (.inl hx)]
  bound c := (k.bound c).trans (h.bound c)
  audience c := (k.audience c).trans (h.audience c)
  config f := (k.config f).trans (h.config f)
  marks x := (k.marks x).trans (h.marks x)
  bag b := (k.bag b).trans (h.bag b)
  record_iff {f id owner} := by
    rw [k.record_iff, h.record_iff, and_assoc]
    refine and_congr_right fun _ => ?_
    constructor
    · intro hkept c x hx hc hgone
      rcases hgone with hgone | hgone
      · exact hkept.1 c x hx hc hgone
      · by_cases hx' : gone x
        · exact hkept.1 c x hx hc hx'
        · exact hkept.2 c x (h.held_iff.2 ⟨hx, hx'⟩) ((h.bound c).trans hc) hgone
    · intro hkept
      refine ⟨fun c x hx hc hgone => hkept c x hx hc (.inl hgone), fun c x hx hc hgone => ?_⟩
      exact hkept c x (h.held_mono hx) ((h.bound c).symm.trans hc) (.inr hgone)

theorem sound (hr : r.Sound) : s.Sound where
  placed c id x hx := by
    obtain ⟨hc, he⟩ := hr.placed c id x (h.held_mono hx)
    exact ⟨(h.names.exists_iff c).2 hc, (h.names.exists_iff _).2 he⟩
  child_id {_ _ _} hx := by rw [h.names.containerId, hr.child_id (h.held_mono hx)]
  keyed {_ _ _} hx := by rw [h.names.idOf, hr.keyed (h.held_mono hx)]
  once hc hd := hr.once (h.held_mono hc) (h.held_mono hd)
  unique hbound hc hd := by
    rw [h.bound, h.bound] at hbound
    exact hr.unique hbound (h.held_mono hc) (h.held_mono hd)
  child_bound {_ _ _} hx := by rw [h.bound, h.bound, hr.child_bound (h.held_mono hx)]
  witnessed {f id owner} hrec := by
    obtain ⟨hold, hkept⟩ := h.record_iff.1 hrec
    obtain ⟨c, x, hbound, hid, hx⟩ := hr.witnessed hold
    exact ⟨c, x, (h.bound c).trans hbound, (h.names.containerId c).trans hid,
      h.held_iff.2 ⟨hx, hkept c x hx hbound⟩⟩
  acyclic := by
    apply hr.acyclic.mono
    rintro _ b ⟨x, j, rfl, hx⟩
    exact up_of_held (h.held_mono hx)

theorem full (hr : r.Sound) (hfull : r.Full) : s.Full where
  alive {_ _ _} hx := by
    obtain ⟨hold, hkept⟩ := h.held_iff.1 hx
    rw [h.lifecycle hkept, hfull.alive hold]
  recorded {c id x} hx := by
    obtain ⟨hold, hkept⟩ := h.held_iff.1 hx
    rw [h.bound, h.names.containerId, h.record_iff]
    refine ⟨hfull.recorded hold, fun d y hy hbound => ?_⟩
    obtain rfl := hr.unique hbound hy hold
    obtain rfl := Option.some.inj (hy.symm.trans hold)
    exact hkept

theorem below_mono {e x : EntityRef} (hx : s.Below e x) : r.Below e x := by
  induction hx with
  | child hx =>
    obtain ⟨id, hx⟩ := hx
    exact .child ⟨id, h.held_mono hx⟩
  | step _ hx ih =>
    obtain ⟨id, hx⟩ := hx
    exact .step ih ⟨id, h.held_mono hx⟩

/-- A subtree of which nothing has gone is as it was. -/
theorem below_iff {e : EntityRef} (hkept : ∀ x, r.Below e x → ¬ gone x) {x : EntityRef} :
    s.Below e x ↔ r.Below e x := by
  refine ⟨h.below_mono, fun hx => ?_⟩
  induction hx with
  | child hparent =>
    have ⟨id, hheld⟩ := hparent
    exact .child ⟨id, h.held_iff.2 ⟨hheld, hkept _ (.child hparent)⟩⟩
  | step hy hparent ih =>
    have ⟨id, hheld⟩ := hparent
    exact .step ih ⟨id, h.held_iff.2 ⟨hheld, hkept _ (.step hy hparent)⟩⟩

/-- A container everything in which has gone is empty. -/
theorem held_eq_empty {c : ContainerRef} (hgone : ∀ id x, r.Held c id x → gone x) :
    s.held c = ∅ := by
  rw [Table.eq_empty_iff]
  intro id hid
  obtain ⟨x, hx⟩ := mem_held_iff.1 hid
  obtain ⟨hheld, hkept⟩ := h.held_iff.1 hx
  exact hkept (hgone id x hheld)

theorem down_mono {k : Nat} {p q : EntityRef} (hq : s.Down k p q) : r.Down k p q := by
  induction k generalizing p with
  | zero => exact hq
  | succ k ih =>
    obtain ⟨m, ⟨id, hm⟩, hq⟩ := hq
    exact ⟨m, ⟨id, h.held_mono hm⟩, ih hq⟩

end Razed

/-! ## Killing -/

namespace Killed

variable {c : ContainerRef} {id : Uuid} {e : EntityRef} (h : r.Killed c id e s)

include h

theorem held_iff {d : ContainerRef} {j : Uuid} {x : EntityRef} :
    s.Held d j x ↔ r.Held d j x ∧ ¬ (d = c ∧ j = id) := by
  rw [Held, h.held, Held]
  by_cases hd : d = c
  · subst hd
    rw [if_pos rfl, Table.find?_erase]
    by_cases hj : j = id <;> simp [hj]
  · simp [hd]

theorem held_mono {d : ContainerRef} {j : Uuid} {x : EntityRef} (hheld : s.Held d j x) :
    r.Held d j x := (h.held_iff.1 hheld).1

theorem ne_of_held (hr : r.Sound) {d : ContainerRef} {j : Uuid} {x : EntityRef}
    (hheld : s.Held d j x) : x ≠ e := by
  rintro rfl
  obtain ⟨hd, hne⟩ := h.held_iff.1 hheld
  exact hne ⟨hr.once hd h.found, hr.id_eq hd h.found⟩

theorem razed (hr : r.Sound) : r.Razed (· = e) (fun _ => False) s where
  names := h.names hr.placed
  dead hx := by rw [h.lifecycle, if_pos hx]
  lifecycle hx := by rw [h.lifecycle, if_neg hx]
  held_iff {d j x} := by
    rw [h.held_iff]
    refine and_congr_right fun hheld => not_congr ⟨?_, ?_⟩
    · rintro ⟨rfl, rfl⟩
      exact Option.some.inj (hheld.symm.trans h.found)
    · rintro rfl
      exact ⟨hr.once hheld h.found, hr.id_eq hheld h.found⟩
  held {d} hd := by
    rw [h.held, if_neg]
    rintro rfl
    exact hd id e h.found rfl
  closed := False.elim
  isClosed _ := h.isClosed _
  record_iff {f j owner} := by
    have hlost : (∀ d x, r.Held d j x → r.bound d = f → ¬ x = e) ↔ ¬ (f = r.bound c ∧ j = id) := by
      constructor
      · rintro hkept ⟨rfl, rfl⟩
        exact hkept c e h.found rfl rfl
      · rintro hne d x hx rfl rfl
        obtain rfl := hr.once hx h.found
        exact hne ⟨rfl, hr.id_eq hx h.found⟩
    rw [hlost, h.owners, hr.keyed h.found]
    by_cases hf : f = r.bound c
    · rw [if_pos hf, Table.find?_erase]
      by_cases hj : j = id <;> simp [hf, hj]
    · simp [hf]
  bound := h.bound
  audience := h.audience
  config := h.config
  marks := h.marks
  bag := h.bag

theorem sound (hr : r.Sound) : s.Sound := (h.razed hr).sound hr

theorem full (hr : r.Sound) (hfull : r.Full) : s.Full := (h.razed hr).full hr hfull

end Killed

end EntityForest.Registry
