import EntityForest.Attribute.Plain
import EntityForest.Proofs.Roots
import EntityForest.Proofs.Runs

/-! # Records and containers

Where no identity is ever used twice, the records of the factories agree with the containers, up to
what transfers have left stranded. A stranded entity takes its subtree with it, except what has been
created below it since. -/

namespace EntityForest

open Relation (ReflTransGen TransGen)
open Registry World

section

variable [ValueTypes]

namespace Registry

/-- What a stranded entity and the unrecorded entities below it have in common. -/
inductive Stray (r : Registry) : EntityRef → Prop
  | exported {c : ContainerRef} {id : Uuid} {e : EntityRef} (held : r.Held c id e)
      (exported : r.lifecycle e = .exported) : Stray r e
  | child {p e : EntityRef} {id : Uuid} (parent : Stray r p) (held : r.Held (.ofEntity p) id e)
      (unrecorded : id ∉ r.owners (r.bound (.ofEntity p))) : Stray r e

/-- The invariant of a forest without repeated identities. -/
structure Known (r : Registry) : Prop where
  formed : r.Formed
  sound : r.Sound
  distinct : r.Distinct r.Exists
  not_dead : ∀ {c id e}, r.Held c id e → r.lifecycle e ≠ .dead
  stray : ∀ {c id e}, r.Held c id e → id ∉ r.owners (r.bound c) → r.Stray e

/-- How the records of the factories agree with the containers. -/
structure Agreement (r : Registry) : Prop where
  /-- Every record names the one container that holds the one entity of that identity. -/
  recorded : ∀ {f id owner}, (r.owners f).find? id = some owner →
    ∃ c e, r.containerId c = owner ∧ r.bound c = f ∧ r.Held c id e ∧ r.idOf e = id
  distinct : ∀ {c d}, r.Exists c → r.Exists d → r.containerId c = r.containerId d → c = d
  unrecorded : ∀ {c id e}, r.Held c id e → id ∉ r.owners (r.bound c) →
    r.lifecycle e = .exported ∨ ∃ p, r.lifecycle p = .exported ∧ r.Below p e
  child_bound : ∀ {c id e}, r.Held c id e → r.bound (.ofEntity e) = r.bound c
  dead : ∀ {e}, r.Exists (.ofEntity e) → r.lifecycle e = .dead →
    (∀ c id, ¬ r.Held c id e) ∧ ∀ f, r.idOf e ∉ r.owners f

variable {r s : Registry}

/-! ## Strays -/

namespace Stray

theorem held {e : EntityRef} (h : r.Stray e) : ∃ c id, r.Held c id e := by
  cases h with
  | exported held _ => exact ⟨_, _, held⟩
  | child _ held _ => exact ⟨_, _, held⟩

theorem exported_or_below {e : EntityRef} (h : r.Stray e) :
    r.lifecycle e = .exported ∨ ∃ p, r.lifecycle p = .exported ∧ r.Below p e := by
  induction h with
  | exported _ exported => exact .inl exported
  | child _ held _ ih =>
    rcases ih with hp | ⟨q, hq, hbelow⟩
    · exact .inr ⟨_, hp, .child ⟨_, held⟩⟩
    · exact .inr ⟨q, hq, .step hbelow ⟨_, held⟩⟩

/-- An entity that is alive and recorded is not astray. -/
theorem not_of_recorded (hr : r.Sound) {c : ContainerRef} {id : Uuid} {e : EntityRef}
    (he : r.Held c id e) (halive : r.lifecycle e = .alive) (hrec : id ∈ r.owners (r.bound c)) :
    ¬ r.Stray e := by
  intro h
  cases h with
  | exported _ exported =>
    rw [halive] at exported
    cases exported
  | child _ held unrecorded =>
    obtain rfl := hr.once he held
    obtain rfl := hr.id_eq he held
    exact unrecorded hrec

/-- A change that leaves the strays where they are leaves them strays. -/
theorem mono (hheld : ∀ {c id x}, r.Stray x → r.Held c id x → s.Held c id x)
    (hexp : ∀ {x}, r.Stray x → r.lifecycle x = .exported → s.lifecycle x = .exported)
    (hrec : ∀ {p id x}, r.Stray x → r.Held (.ofEntity p) id x →
      id ∉ r.owners (r.bound (.ofEntity p)) → id ∉ s.owners (s.bound (.ofEntity p)))
    {e : EntityRef} (h : r.Stray e) : s.Stray e := by
  induction h with
  | exported held exported =>
    exact .exported (hheld (.exported held exported) held) (hexp (.exported held exported) exported)
  | child parent held unrecorded ih =>
    have hstray := Stray.child parent held unrecorded
    exact .child ih (hheld hstray held) (hrec hstray held unrecorded)

end Stray

/-- Strays outside the subtree of an imported entity stay astray. -/
theorem Imported.stray_outside {src dst : ContainerRef} {id : Uuid} {e : EntityRef}
    (k : r.Imported src id dst e s) (hr : r.Sound) (he : r.Held src id e) (hne : src ≠ dst)
    (hapart : r.Apart (r.bound dst) e) {x : EntityRef} (hx : r.Stray x) (hxe : x ≠ e)
    (hw : ¬ r.Within (.ofEntity x) (.ofEntity e)) : s.Stray x := by
  have hheld {c j x} := k.toMoved.held_iff hr he hne (c := c) (j := j) (x := x)
  induction hx with
  | exported held exported =>
    refine .exported (hheld.2 (.inr ⟨held, hxe⟩)) ?_
    rw [k.lifecycle, if_neg hxe, exported]
  | @child p x j _ held unrecorded ih =>
    have hp : ¬ r.Within (.ofEntity p) (.ofEntity e) := fun hp =>
      hw ((hr.within_holder_iff held hxe).2 hp)
    have hpe : p ≠ e := by
      rintro rfl
      exact hp .refl
    refine .child (ih hpe hp) (hheld.2 (.inr ⟨held, hxe⟩)) ?_
    rw [← Table.isSome_find?, k.record_outside hr hapart held hxe hp, Table.isSome_find?]
    exact unrecorded

namespace Known

theorem eq_of_idOf (h : r.Known) {x y : EntityRef} (hx : r.Exists (.ofEntity x))
    (hy : r.Exists (.ofEntity y)) (hid : r.idOf x = r.idOf y) : x = y := by
  rw [← h.formed.child_id x hx, ← h.formed.child_id y hy] at hid
  exact ContainerRef.ofEntity.inj (h.distinct.eq_of_id hx hy hid)

theorem agreement (h : r.Known) : r.Agreement where
  recorded hrec := by
    obtain ⟨c, e, hbound, hid, he⟩ := h.sound.witnessed hrec
    exact ⟨c, e, hid, hbound, he, h.sound.keyed he⟩
  distinct := h.distinct.eq_of_id
  unrecorded he hrec := (h.stray he hrec).exported_or_below
  child_bound := h.sound.child_bound
  dead {e} hexists hdead := by
    refine ⟨fun c id he => h.not_dead he hdead, fun f hmem => ?_⟩
    obtain ⟨owner, hrec⟩ := Table.mem_iff_find?.1 hmem
    obtain ⟨c, x, -, -, hx⟩ := h.sound.witnessed hrec
    have hxe := h.eq_of_idOf (h.sound.placed _ _ _ hx).2 hexists (h.sound.keyed hx)
    exact h.not_dead (hxe ▸ hx) hdead

/-! ## What keeps the books in agreement -/

theorem of_extends (h : r.Known) (k : Extends r s) (hformed : s.Formed)
    (hdistinct : ∀ {c d}, s.Exists c → s.Exists d → s.containerId c = s.containerId d → c = d) :
    s.Known where
  formed := hformed
  sound := k.sound h.sound
  distinct := ⟨fun he => (k.sound h.sound).placed _ _ _ he, hdistinct⟩
  not_dead {c id e} he := by
    rw [k.held_iff] at he
    rw [k.lifecycle e (h.sound.placed _ _ _ he).2]
    exact h.not_dead he
  stray {c id e} he hrec := by
    rw [k.held_iff] at he
    rw [k.bound c (h.sound.placed _ _ _ he).1, k.owners] at hrec
    refine (h.stray he hrec).mono (fun _ => k.held_iff.2) ?_ ?_
    · intro x hx hexp
      obtain ⟨_, _, hheld⟩ := hx.held
      rw [k.lifecycle x (h.sound.placed _ _ _ hheld).2, hexp]
    · intro p j x _ hheld hnone
      rw [k.bound _ (h.sound.placed _ _ _ hheld).1, k.owners]
      exact hnone

theorem sameNames_distinct (h : r.Known) (k : SameNames r s) {c d : ContainerRef} (hc : s.Exists c)
    (hd : s.Exists d) (hid : s.containerId c = s.containerId d) : c = d := by
  rw [k.exists_iff] at hc hd
  rw [k.containerId, k.containerId] at hid
  exact h.distinct.eq_of_id hc hd hid

theorem of_extends_sameNames (h : r.Known) (k : Extends r s) (l : SameNames r s) : s.Known :=
  h.of_extends k (h.formed.of_sameNames l) fun hc hd hid => h.sameNames_distinct l hc hd hid

theorem of_sameForest (h : r.Known) (k : SameForest r s) : s.Known :=
  h.of_extends_sameNames k.extends k.sameNames

theorem newContainer (h : r.Known) {id : Uuid} (hfresh : ∀ c, r.Exists c → r.containerId c ≠ id)
    (f : FactoryRef) : (r.newContainer id f).2.Known := by
  have hnew : (r.newContainer id f).2.containerId (r.newContainer id f).1 = id := by
    rw [containerId, container_newContainer, if_pos rfl]
  apply h.of_extends (extends_newContainer r id f) (formed_newContainer h.formed id f)
  intro c d hc hd hid
  rcases (exists_newContainer id f c).1 hc with hc | rfl
  · rw [(extends_newContainer r id f).containerId c hc] at hid
    rcases (exists_newContainer id f d).1 hd with hd | rfl
    · rw [(extends_newContainer r id f).containerId d hd] at hid
      exact h.distinct.eq_of_id hc hd hid
    · exact absurd (hid.trans hnew) (hfresh c hc)
  · rcases (exists_newContainer id f d).1 hd with hd | rfl
    · rw [(extends_newContainer r id f).containerId d hd] at hid
      exact absurd (hid.symm.trans hnew) (hfresh d hd)
    · rfl

/-- A fresh identity keeps identities distinct. -/
theorem eq_of_created (h : r.Known) {c delegate : ContainerRef} {id : Uuid} {e : EntityRef}
    (k : r.Created c delegate id e s) (hc : r.Exists c)
    (hfresh : ∀ c, r.Exists c → r.containerId c ≠ id) {d d' : ContainerRef} (hd : s.Exists d)
    (hd' : s.Exists d') (hid : s.containerId d = s.containerId d') : d = d' := by
  have hnew : s.containerId (.ofEntity e) = id := by
    rw [k.containerId, if_pos rfl]
  rcases (k.exists_iff hc d).1 hd with hd | rfl
  · rw [k.containerId_of_ne (k.ne_of_exists hd)] at hid
    rcases (k.exists_iff hc d').1 hd' with hd' | rfl
    · rw [k.containerId_of_ne (k.ne_of_exists hd')] at hid
      exact h.distinct.eq_of_id hd hd' hid
    · exact absurd (hid.trans hnew) (hfresh d hd)
  · rcases (k.exists_iff hc d').1 hd' with hd' | rfl
    · rw [k.containerId_of_ne (k.ne_of_exists hd')] at hid
      exact absurd (hid.symm.trans hnew) (hfresh d' hd')
    · rfl

theorem created (h : r.Known) {c : ContainerRef} {id : Uuid} {e : EntityRef}
    (k : r.Created c (r.delegateOf c) id e s) (hc : r.Exists c)
    (hfresh : ∀ c, r.Exists c → r.containerId c ≠ id) : s.Known := by
  have hself := h.formed.delegate_id hc
  have hnone : ∀ {d x}, ¬ r.Held d id x := fun hx =>
    hfresh _ (h.sound.placed _ _ _ hx).2 (h.sound.child_id hx)
  have hsound := k.sound h.sound hc hself fun _ _ _ => hnone
  have hheld {d j x} := k.held_iff h.sound hc (d := d) (j := j) (x := x)
  have hbound : ∀ {d j x}, r.Held d j x → s.bound d = r.bound d :=
    fun hx => k.bound_of_ne (k.ne_of_held h.sound hx).2
  have hlife : ∀ {d j x}, r.Held d j x → s.lifecycle x = r.lifecycle x := fun hx => by
    rw [k.lifecycle, if_neg (k.ne_of_held h.sound hx).1]
  -- no record but that of the new identity is new
  have hrecord : ∀ {d j x f}, r.Held d j x → (j ∈ s.owners f ↔ j ∈ r.owners f) := by
    intro d j x f hx
    have hj : j ≠ id := by
      rintro rfl
      exact hnone hx
    rw [k.owners]
    split
    · rw [Table.mem_insert, or_iff_right hj]
    · rfl
  refine ⟨k.formed hc h.formed, hsound, ⟨fun he => hsound.placed _ _ _ he,
    fun hd hd' hid => h.eq_of_created k hc hfresh hd hd' hid⟩, ?_, ?_⟩
  · intro d j x hx
    rcases hheld.1 hx with ⟨-, -, rfl⟩ | hx
    · rw [k.lifecycle, if_pos rfl]
      nofun
    · rw [hlife hx]
      exact h.not_dead hx
  · intro d j x hx hrec
    rcases hheld.1 hx with ⟨rfl, rfl, rfl⟩ | hx
    · refine absurd ?_ hrec
      rw [k.bound_of_ne (k.ne_of_exists hc), k.owners, if_pos rfl, Table.mem_insert]
      exact .inl rfl
    · rw [hbound hx, hrecord hx] at hrec
      refine (h.stray hx hrec).mono (fun _ hy => hheld.2 (.inr hy)) ?_ ?_
      · intro y hy hexp
        obtain ⟨_, _, hy⟩ := hy.held
        rw [hlife hy, hexp]
      · intro p i y _ hy hnone
        rw [hbound hy, hrecord hy]
        exact hnone

theorem killed (h : r.Known) {c : ContainerRef} {id : Uuid} {e : EntityRef}
    (k : r.Killed c id e s) : s.Known where
  formed := h.formed.of_sameNames (k.names h.sound.placed)
  sound := k.sound h.sound
  distinct := ⟨fun he => (k.sound h.sound).placed _ _ _ he,
    fun hc hd hid => h.sameNames_distinct (k.names h.sound.placed) hc hd hid⟩
  not_dead {d j x} hx := by
    rw [k.lifecycle, if_neg (k.ne_of_held h.sound hx)]
    exact h.not_dead (k.held_mono hx)
  stray {d j x} hx hrec := by
    obtain ⟨hold, hne⟩ := k.held_iff.1 hx
    have hkept : j ∉ r.owners (r.bound d) := by
      intro hmem
      rw [k.bound, k.owners] at hrec
      split at hrec
      · rename_i hbound
        rw [Table.mem_erase, not_and', not_not] at hrec
        have hj : j = id := (hrec hmem).trans (h.sound.keyed k.found)
        subst hj
        exact hne ⟨h.sound.unique hbound hold k.found, rfl⟩
      · exact hrec hmem
    have hnot : ∀ {y}, r.Stray y → y ≠ e := by
      rintro y hy rfl
      exact Stray.not_of_recorded h.sound k.found k.alive (h.sound.keyed k.found ▸ k.recorded) hy
    refine (h.stray hold hkept).mono ?_ ?_ ?_
    · intro d i y hy hheld
      refine k.held_iff.2 ⟨hheld, ?_⟩
      intro hsame
      obtain ⟨rfl, rfl⟩ := hsame
      exact hnot hy (Option.some.inj (hheld.symm.trans k.found))
    · intro y hy hexp
      rw [k.lifecycle, if_neg (hnot hy), hexp]
    · intro p i y _ _ hnone
      rw [k.bound, k.owners]
      split
      · exact fun hmem => hnone (Table.mem_erase.1 hmem).2
      · exact hnone

section Move

variable {src dst : ContainerRef} {id : Uuid} {e : EntityRef} (h : r.Known) (he : r.Held src id e)
  (hdst : r.Exists dst) (hne : src ≠ dst)

include h he hdst hne

theorem taken (k : r.Taken src id dst e s) (hbound : r.bound src = r.bound dst) : s.Known := by
  have hself := h.formed.delegate_id hdst
  have hout := h.distinct.outside_of_mayRelocate h.sound he hdst hself k.may
  have hnames := k.toMoved.sameNames h.sound he hdst
  have hsound := k.sound h.sound he hne hbound hdst hout hself
  obtain ⟨_, hrecorded, halive, -⟩ := mayRelocate_iff.1 k.may
  have hnot : ∀ {y}, r.Stray y → y ≠ e := by
    rintro y hy rfl
    refine Stray.not_of_recorded h.sound he halive ?_ hy
    rw [hbound, ← h.sound.keyed he]
    exact Table.mem_of_find? hrecorded
  have hheld {c j x} := k.toMoved.held_iff h.sound he hne (c := c) (j := j) (x := x)
  have hrecord : ∀ {c j x}, r.Held c j x → x ≠ e →
      (j ∈ s.owners (s.bound c) ↔ j ∈ r.owners (r.bound c)) := by
    intro c j x hx hxe
    rw [k.bound, ← Table.isSome_find?, k.record_other h.sound he hbound hx hxe,
      Table.isSome_find?]
  refine ⟨h.formed.of_sameNames hnames, hsound, ⟨fun hx => hsound.placed _ _ _ hx,
    fun hc hd hid => h.sameNames_distinct hnames hc hd hid⟩, ?_, ?_⟩
  · intro c j x hx
    rw [k.lifecycle]
    rcases hheld.1 hx with ⟨-, -, rfl⟩ | ⟨hx, -⟩
    · exact h.not_dead he
    · exact h.not_dead hx
  · intro c j x hx hrec
    rcases hheld.1 hx with ⟨rfl, rfl, rfl⟩ | ⟨hx, hxe⟩
    · refine absurd ?_ hrec
      rw [k.bound, k.owners, if_pos rfl, Table.mem_insert]
      exact .inl (h.sound.keyed he).symm
    · rw [hrecord hx hxe] at hrec
      refine (h.stray hx hrec).mono (fun hy hheld' => hheld.2 (.inr ⟨hheld', hnot hy⟩)) ?_ ?_
      · intro y _ hexp
        rw [k.lifecycle, hexp]
      · intro p i y hy hheld' hnone
        rw [hrecord hheld' (hnot hy)]
        exact hnone

end Move

/-- Below a forgotten stray everything that its tree does not record is astray. -/
theorem stray_of_within (hr : r.Sound) {src c : ContainerRef} {id : Uuid} {e : EntityRef}
    (he : r.Held src id e) (hstray : r.Stray e) (hforgotten : r.Forgotten (r.bound src) e)
    (hw : r.Within c (.ofEntity e)) : ∃ p, c = .ofEntity p ∧ r.Stray p := by
  induction hw using ReflTransGen.head_induction_on with
  | refl => exact ⟨e, rfl, hstray⟩
  | @head c d hup hw ih =>
    obtain ⟨q, rfl, hq⟩ := ih
    obtain ⟨x, j, rfl, hx⟩ := hup
    refine ⟨x, rfl, .child hq hx fun hmem => ?_⟩
    have hbound := hr.bound_of_within_held he hw
    obtain ⟨owner, hrec⟩ := Table.mem_iff_find?.1 hmem
    obtain ⟨d, y, hd, rfl, hy⟩ := hr.witnessed hrec
    obtain rfl := hr.unique hd hy hx
    rw [hbound] at hrec
    exact hforgotten.below hw hx hrec

theorem released (h : r.Known) {src : ContainerRef} {id : Uuid} {e : EntityRef}
    (he : r.Held src id e) (k : r.Released (r.bound src) e s) : s.Known := by
  have hexists := (h.sound.placed _ _ _ he).2
  have hsound := k.sound h.sound hexists
  have hnames : SameNames r s := k.sameNames hexists
  have he' : s.Held src id e := k.held_iff.2 he
  have hforgotten : s.Forgotten (s.bound src) e := by
    rw [k.bound]
    exact k.forgotten h.sound
  have hexported : s.lifecycle e = .exported := by
    cases hlife : r.lifecycle e with
    | alive => exact k.lifecycle_of_alive hlife
    | exported =>
      have hnot : r.lifecycle e ≠ .alive := by
        rw [hlife]
        nofun
      rw [k.lifecycle_of_not_alive hnot, hlife]
    | dead => exact absurd hlife (h.not_dead he)
  have hstray : s.Stray e := .exported he' hexported
  have hlife : ∀ {x}, x ≠ e → s.lifecycle x = r.lifecycle x := fun hx => k.lifecycle_other _ hx
  refine ⟨h.formed.of_sameNames hnames, hsound, ⟨fun hx => hsound.placed _ _ _ hx,
    fun hc hd hid => h.sameNames_distinct hnames hc hd hid⟩, ?_, ?_⟩
  · intro c j x hx
    by_cases hxe : x = e
    · rw [hxe, hexported]
      nofun
    · rw [hlife hxe]
      exact h.not_dead (k.held_iff.1 hx)
  · intro c j x hx hrec
    have hx' := k.held_iff.1 hx
    by_cases hxe : x = e
    · rw [hxe]
      exact hstray
    by_cases hw : r.Within c (.ofEntity e)
    · obtain ⟨p, rfl, hp⟩ := stray_of_within hsound he' hstray hforgotten (k.within_iff.2 hw)
      exact .child hp hx hrec
    · have hkept : j ∉ r.owners (r.bound c) := by
        intro hmem
        obtain ⟨owner, hold⟩ := Table.mem_iff_find?.1 hmem
        rw [k.bound] at hrec
        exact hrec (Table.mem_of_find?
          (k.record_outside h.sound he rfl hw hx' hxe hold))
      refine (h.stray hx' hkept).mono (fun _ => k.held_iff.2) ?_ ?_
      · intro y _ hexp
        by_cases hye : y = e
        · rw [hye, hexported]
        · rw [hlife hye, hexp]
      · intro p i y _ _ hnone hmem
        rw [k.bound] at hmem
        obtain ⟨owner, hrec'⟩ := Table.mem_iff_find?.1 hmem
        exact hnone (Table.mem_of_find? (k.record_mono hrec'))

section Import

variable {src dst : ContainerRef} {id : Uuid} {e : EntityRef} (h : r.Known) (he : r.Held src id e)
  (hdst : r.Exists dst) (hne : src ≠ dst) (hother : r.idOf e ≠ r.containerId dst)

include h he hdst hne hother

theorem imported (k : r.Imported src id dst e s) (hforgotten : r.Forgotten (r.bound src) e) :
    s.Known := by
  have hself := h.formed.delegate_id hdst
  have hchild := h.formed.child_id e (h.sound.placed _ _ _ he).2
  have hout := k.may.outside hchild hself hother
  have hnames := k.toMoved.sameNames h.sound he hdst
  have hapart : r.Apart (r.bound dst) e := h.distinct.apart h.sound he
  have hsound := k.sound h.sound he hne hdst hself hout hforgotten hapart
  have hheld {c j x} := k.toMoved.held_iff h.sound he hne (c := c) (j := j) (x := x)
  have hrecord : ∀ {c j x}, r.Held c j x → x ≠ e → ¬ r.Within c (.ofEntity e) →
      (j ∈ s.owners (s.bound c) ↔ j ∈ r.owners (r.bound c)) := by
    intro c j x hx hxe hw
    rw [← Table.isSome_find?, k.record_outside h.sound hapart hx hxe hw, Table.isSome_find?]
  refine ⟨h.formed.of_sameNames hnames, hsound, ⟨fun hx => hsound.placed _ _ _ hx,
    fun hc hd hid => h.sameNames_distinct hnames hc hd hid⟩, ?_, ?_⟩
  · intro c j x hx
    rw [k.lifecycle]
    rcases hheld.1 hx with ⟨-, -, rfl⟩ | ⟨hx, hxe⟩
    · rw [if_pos rfl]
      nofun
    · rw [if_neg hxe]
      exact h.not_dead hx
  · intro c j x hx hrec
    rcases hheld.1 hx with ⟨rfl, rfl, rfl⟩ | ⟨hx, hxe⟩
    · refine absurd ?_ hrec
      rw [k.bound_outside hout]
      exact Table.mem_of_find? (k.record_self h.sound he)
    · by_cases hw : r.Within c (.ofEntity e)
      · refine absurd ?_ hrec
        rw [k.bound_inside hw]
        exact Table.mem_of_find? (k.record_inside h.sound he hw hx)
      · rw [hrecord hx hxe hw] at hrec
        exact k.stray_outside h.sound he hne hapart (h.stray hx hrec) hxe fun hw' =>
          hw ((h.sound.within_holder_iff hx hxe).1 hw')

end Import

end Known

end Registry

/-! ## Calls and runs -/

namespace World

variable {r s : Registry}

/-- With distinct identities a factory takes only containers of its own tree for such. -/
theorem bound_eq_of_looksLocal (h : r.Known) {src dst : ContainerRef} (hsrc : r.Exists src)
    (hdst : r.Exists dst) (hlocal : looksLocal r src dst = true) : r.bound src = r.bound dst := by
  have hroot : r.rootOf (r.bound src) (r.delegateOf src) = r.rootOf (r.bound src) dst :=
    of_decide_eq_true hlocal
  rw [h.formed.self_named src hsrc] at hroot
  exact h.distinct.bound_eq_of_rootOf_eq h.sound hsrc hdst hroot

theorem Passage.known {src dst : ContainerRef} {id : Uuid} {e : EntityRef}
    (k : Passage r src id dst e s) (h : r.Known) (ready : Ready r src id dst e)
    (hdst : r.Exists dst) : s.Known := by
  have he := ready.found
  have hsrc := (h.sound.placed _ _ _ he).1
  have hne := ready.ne
  cases k with
  | taken isLocal taken =>
    exact h.taken he hdst hne taken (bound_eq_of_looksLocal h hsrc hdst isLocal)
  | adopted isLocal imported =>
    apply h.imported he hdst hne ready.other imported
    rw [bound_eq_of_looksLocal h hsrc hdst isLocal]
    exact imported.may.forgotten h.sound
  | imported _ imported =>
    have released := released_release r (r.bound src) e
    have hexists := (h.sound.placed _ _ _ he).2
    have hother : (r.release (r.bound src) e).idOf e ≠
        (r.release (r.bound src) e).containerId dst := by
      rw [released.idOf, released.containerId]
      exact ready.other
    refine (h.released he released).imported (released.held_iff.2 he)
      ((released.exists_iff hexists dst).2 hdst) hne hother imported ?_
    rw [released.bound]
    exact released.forgotten h.sound

variable {χ : Type} {obs : Observers χ}

theorem culled_known (h : Culled r s) (hr : r.Known) : s.Known := by
  induction h with
  | refl => exact hr
  | tail _ hstep ih =>
    cases hstep with
    | kill killed => exact ih.killed killed
    | close e => exact ih.of_extends_sameNames (extends_close _ e) (sameNames_close _ e)
    | same same => exact ih.of_sameForest same

/-- Transfers, also where they end with a stranded entity, keep the books in agreement. -/
theorem known_transfer (holds : Holds) (hobs : obs.Passive) (src : ContainerRef) (id : Uuid)
    {dst : ContainerRef} {w : World χ} (h : w.registry.Known) (hdst : w.registry.Exists dst) :
    (w.transfer obs holds src id dst).2.registry.Known ∧
      SameNames w.registry (w.transfer obs holds src id dst).2.registry := by
  have hmove := transferring_transfer holds hobs src id dst w
  generalize w.transfer obs holds src id dst = moved at hmove
  obtain ⟨answer, w'⟩ := moved
  change Transferring obs w src id dst answer w' at hmove
  have hstay : w.registry.Known ∧ SameNames w.registry w.registry :=
    ⟨h, (SameForest.refl _).sameNames⟩
  cases hmove with
  | sameContainer => exact hstay
  | closed => exact hstay
  | absent => exact hstay
  | self => exact hstay
  | dropped => exact hstay
  | refused => exact hstay
  | @stranded e ready leaves _ =>
    have hreleased := released_offered e leaves
    exact ⟨h.released ready.found hreleased,
      hreleased.sameNames (h.sound.placed _ _ _ ready.found).2⟩
  | moved ready received same _ _ =>
    have hpassage := passage_of_receive ready received
    exact ⟨(hpassage.known h ready hdst).of_sameForest same,
      (hpassage.sameNames h.sound ready hdst).trans same.sameNames⟩

end World

variable {χ : Type} {obs : Observers χ}

/-- Every object that the call makes gets an identity that none had before. -/
def Call.Fresh (obs : Observers χ) (w : World χ) (call : Call) : Prop :=
  ∀ c, (call.perform obs w).2.registry.Exists c → ¬ w.registry.Exists c → ∀ d,
    w.registry.Exists d → w.registry.containerId d ≠ (call.perform obs w).2.registry.containerId c

/-- Every container that there is. -/
def Registry.allContainers (r : Registry) : List ContainerRef :=
  (List.range r.containers.size).map .standalone ++
    (List.range r.entities.size).map fun i => .ofEntity ⟨i⟩

theorem Registry.mem_allContainers {r : Registry} {c : ContainerRef} :
    c ∈ r.allContainers ↔ r.Exists c := by
  cases c with
  | standalone i => simp [allContainers, Exists]
  | ofEntity e =>
    obtain ⟨i⟩ := e
    simp [allContainers, Exists]

instance (w : World χ) (call : Call) : Decidable (call.Fresh obs w) :=
  decidable_of_iff (∀ c ∈ (call.perform obs w).2.registry.allContainers, ¬ w.registry.Exists c →
    ∀ d ∈ w.registry.allContainers,
      w.registry.containerId d ≠ (call.perform obs w).2.registry.containerId c)
    (by simp only [mem_allContainers, Call.Fresh])

theorem Call.known_perform (hobs : obs.Passive) {w : World χ} {call : Call} (h : w.registry.Known)
    (valid : call.Valid w.registry) (fresh : call.Fresh obs w) :
    (call.perform obs w).2.registry.Known := by
  cases call with
  | newFactory config =>
    exact h.of_extends_sameNames (extends_newFactory _ config) (sameNames_newFactory _ config)
  | newContainer id f =>
    refine h.newContainer (fun d hd hid => ?_) f
    refine fresh (w.registry.newContainer id f).1 ((exists_newContainer id f _).2 (.inr rfl))
      (fun hc => ne_newContainer id f hc rfl) d hd (hid.trans ?_)
    change id = (w.registry.newContainer id f).2.containerId (w.registry.newContainer id f).1
    rw [containerId, container_newContainer, if_pos rfl]
  | create c id marker seed =>
    unfold Fresh at fresh
    rw [snd_perform_create] at fresh ⊢
    have hcreate := creating_create .nothing hobs c id marker seed w
    generalize World.create obs .nothing c id marker seed w = made at hcreate fresh
    obtain ⟨answer, w'⟩ := made
    change Creating w c id answer w' at hcreate
    cases hcreate with
    | refused => exact h
    | @made e _ _ created _ =>
      refine h.created created valid fun d hd hid => ?_
      refine fresh (.ofEntity e) ((created.exists_iff valid _).2 (.inr rfl)) created.not_exists d
        hd (hid.trans ?_)
      rw [created.containerId, if_pos rfl]
  | kill c id =>
    rw [perform, snd_failure?]
    exact culled_known (culled_kill .nothing hobs c id w) h
  | killAll c order =>
    rw [perform, snd_failure?]
    exact culled_known (culled_killListed .nothing hobs c order w) h
  | transfer src id dst =>
    rw [perform, snd_failure?]
    exact (known_transfer .nothing hobs src id h valid.2).1
  | transferAll src dst order =>
    rw [perform, snd_failure?]
    refine (World.transferEach_induct (P := fun w => w.registry.Known ∧ w.registry.Exists dst)
      ?_ order ⟨h, valid.1.2⟩).1
    intro id w hw
    obtain ⟨hknown, hnames⟩ := known_transfer .nothing hobs src id hw.1 hw.2
    exact ⟨hknown, (hnames.exists_iff dst).2 hw.2⟩

theorem known_empty : Registry.empty.Known where
  formed := formed_empty
  sound := sound_empty
  distinct := ⟨fun h => absurd h not_held_empty, fun h => absurd h (not_exists_empty _)⟩
  not_dead h := absurd h not_held_empty
  stray h := absurd h not_held_empty

theorem Run.known {past : List (World χ × Call)} {w : World χ} (hobs : obs.Passive)
    (run : Run obs past w) (fresh : ∀ p ∈ past, p.2.Fresh obs p.1) :
    ∀ v ∈ reached past w, v.registry.Known := by
  induction run with
  | start client =>
    intro v hv
    obtain rfl := List.mem_singleton.1 hv
    exact known_empty
  | @call past w run call valid ih =>
    have hbefore := ih (List.forall_mem_cons.1 fresh).2
    refine List.forall_mem_cons.2 ⟨?_, hbefore⟩
    exact Call.known_perform hobs (hbefore w List.mem_cons_self) valid
      (List.forall_mem_cons.1 fresh).1
  | @other past w w' run same ih =>
    have hbefore := ih fresh
    refine List.forall_mem_cons.2 ⟨(hbefore w List.mem_cons_self).of_sameForest same, ?_⟩
    exact fun v hv => hbefore v (List.mem_cons_of_mem w hv)

/-- In every state that a run without repeated identities reaches, the records of the factories
agree with the containers. -/
theorem records_agree {past : List (World χ × Call)} {w : World χ} (hobs : obs.Passive)
    (run : Run obs past w) (fresh : ∀ p ∈ past, p.2.Fresh obs p.1) :
    ∀ v ∈ reached past w, v.registry.Agreement :=
  fun v hv => (run.known hobs fresh v hv).agreement

end

open scoped PlainType

/-! ## An export that fails -/

/-- A container of an unlimited tree, and one of a tree of at most two entities that holds one
already. The entity 1 with the entity 2 below it is refused there and stays behind, astray. Once the
small tree is empty it takes the entity 2 together with the entity 4, which has been created
since. -/
def stranding : List Call :=
  [.newFactory .unbounded, .newFactory ⟨some 2, 0⟩,
    .newContainer (.ofNat 100) ⟨0⟩, .newContainer (.ofNat 200) ⟨1⟩,
    .create (.standalone 0) (.ofNat 1) none ∅, .create (.ofEntity ⟨0⟩) (.ofNat 2) none ∅,
    .create (.standalone 1) (.ofNat 3) none ∅,
    .transfer (.standalone 0) (.ofNat 1) (.standalone 1),
    .create (.ofEntity ⟨1⟩) (.ofNat 4) none ∅, .killAll (.standalone 1) [.ofNat 3],
    .transferAll (.ofEntity ⟨0⟩) (.standalone 1) [.ofNat 2]]

theorem records_agree_stranding :
    (trail stranding).2.registry.lifecycle ⟨0⟩ = .exported ∧
      .ofNat 4 ∈ (trail stranding).2.registry.owners ⟨1⟩ ∧
      ∀ v ∈ reached (trail stranding).1 (trail stranding).2, v.registry.Agreement :=
  ⟨by decide +kernel, by decide +kernel,
    records_agree Observers.quiet_passive (run_trail (by decide +kernel)) (by decide +kernel)⟩

end EntityForest
