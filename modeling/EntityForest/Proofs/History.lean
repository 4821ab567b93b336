import EntityForest.Attribute.Plain
import EntityForest.Proofs.Calls
import EntityForest.Proofs.Records
import Mathlib.Logic.Function.Basic

/-! # The history of a forest

A listener that is registered with every container before the container holds anything, and writes
down every event it hears, knows what the containers hold: every change of a map is told by one
event, and the events come in the order of the changes. -/

namespace EntityForest

open Registry World

/-! ## Events as changes of maps -/

/-- What a listener writes down about an event: the event, and what its entity is called. -/
structure Entry where
  event : Event
  id : Uuid
  deriving DecidableEq

/-- What each container holds. -/
abbrev Contents := ContainerRef → Table Uuid EntityRef

namespace Contents

def insert (m : Contents) (c : ContainerRef) (id : Uuid) (e : EntityRef) : Contents :=
  Function.update m c ((m c).insert id e)

def erase (m : Contents) (c : ContainerRef) (id : Uuid) : Contents :=
  Function.update m c ((m c).erase id)

theorem insert_apply (m : Contents) (c : ContainerRef) (id : Uuid) (e : EntityRef)
    (d : ContainerRef) : m.insert c id e d = if d = c then (m c).insert id e else m d :=
  Function.update_apply m c _ d

theorem erase_apply (m : Contents) (c : ContainerRef) (id : Uuid) (d : ContainerRef) :
    m.erase c id d = if d = c then (m c).erase id else m d :=
  Function.update_apply m c _ d

end Contents

/-- Plays an event back. An arrival has no effect: the container that an entity leaves tells of the
move. -/
def Entry.play (m : Contents) (n : Entry) : Contents :=
  match n.event.kind with
  | .created => m.insert n.event.container n.id n.event.entity
  | .killed => m.erase n.event.container n.id
  | .received => m
  | .transferred =>
    let left := m.erase n.event.container n.id
    match n.event.destination with
    | some d => left.insert d n.id n.event.entity
    | none => left

/-- Plays a history back on containers that are empty at first. -/
def contentsAfter (history : List Entry) : Contents := history.foldl Entry.play fun _ => ∅

theorem contentsAfter_append (past more : List Entry) :
    contentsAfter (past ++ more) = more.foldl Entry.play (contentsAfter past) :=
  List.foldl_append

/-! ## The recorder -/

section

variable [ValueTypes]

def Event.entry (event : Event) (r : Registry) : Entry := ⟨event, r.idOf event.entity⟩

/-- Listeners that write down every event they hear of, and do nothing else. -/
def Observers.recorder : Observers (List Entry) where
  lifecycle _ _ event w := (.ok (), { w with client := w.client ++ [event.entry w.registry] })
  bag _ _ _ w := w
  slack _ := 0
  remains _ _ _ := true

theorem Observers.recorder_passive : Observers.recorder.Passive :=
  ⟨fun _ _ _ w => .refl w.registry⟩

/-- Wherever something is held, `l` is the one listener. -/
def Registry.Watched (l : ListenerRef) (r : Registry) : Prop :=
  ∀ c, r.Exists c → (r.held c).keys ≠ [] → r.audience c = [l]

instance (l : ListenerRef) (r : Registry) : Decidable (r.Watched l) :=
  decidable_of_iff (∀ c ∈ r.allContainers, (r.held c).keys ≠ [] → r.audience c = [l])
    (by simp only [mem_allContainers, Watched])

/-- A forest under the eyes of a recorder that is registered with every container before the
container holds anything: calls, and changes between calls that leave the forest alone. -/
inductive Recording (l : ListenerRef) : World (List Entry) → Prop
  | start : Recording l ⟨.empty, []⟩
  | call {w : World (List Entry)} (recording : Recording l w) (call : Call)
      (valid : call.Valid w.registry) (watched : (call.perform .recorder w).2.registry.Watched l) :
      Recording l (call.perform .recorder w).2
  | other {w : World (List Entry)} {s : Registry} (recording : Recording l w)
      (same : SameForest w.registry s) (watched : s.Watched l) : Recording l ⟨s, w.client⟩

namespace Registry

variable {r : Registry} {l : ListenerRef}

theorem Watched.audience_of_held (h : r.Watched l) (hr : r.Labelled) {c : ContainerRef} {id : Uuid}
    {e : EntityRef} (he : r.Held c id e) : r.audience c = [l] := by
  refine h c (hr.placed c id e he).1 fun hnone => ?_
  have hid : id ∈ (r.held c).keys := mem_held_iff.2 ⟨e, he⟩
  rw [hnone] at hid
  exact List.not_mem_nil hid

end Registry

/-! ## What is written down -/

namespace World

variable (holds : Holds)

theorem announce_recorder (c : ContainerRef) (event : Event) (w : World (List Entry)) :
    announce .recorder holds c event w =
      (.ok (), { w with client :=
        w.client ++ List.replicate (w.registry.audience c).length (event.entry w.registry) }) := by
  have hfire : ∀ holds ls (w : World (List Entry)),
      fire (fun l => Observers.recorder.lifecycle holds l event) ls w =
        (.ok (), { w with client :=
          w.client ++ List.replicate ls.length (event.entry w.registry) }) := by
    intro holds ls w
    induction ls generalizing w with
    | nil => simp [fire]
    | cons l ls ih =>
      rw [fire]
      simp only [Observers.recorder] at ih ⊢
      rw [ih]
      simp [List.replicate_succ]
  rw [announce, notify, hfire]
  rfl

theorem delegate_recorder (c : ContainerRef) (w : World (List Entry)) :
    delegate .recorder holds c w = .ok (w.registry.delegateOf c) := if_pos (.inr rfl)

/-- The recorder's history tells what the containers hold. -/
structure Chronicled (w : World (List Entry)) : Prop where
  labelled : w.registry.Labelled
  contents : ∀ c, contentsAfter w.client c = w.registry.held c

variable {l : ListenerRef} {w : World (List Entry)}

theorem Chronicled.of_held (h : Chronicled w) {s : Registry} (labelled : s.Labelled)
    (held : ∀ c, s.held c = w.registry.held c) : Chronicled ⟨s, w.client⟩ :=
  ⟨labelled, fun c => (h.contents c).trans (held c).symm⟩

/-! ### Killing -/

/-- A death is told at once, by the container that held the entity. -/
theorem chronicled_killHeld (c : ContainerRef) (id : Uuid)
    (h : Chronicled w ∧ w.registry.Watched l) :
    Chronicled (killHeld .recorder holds c id w).2 ∧
      (killHeld .recorder holds c id w).2.registry.Watched l := by
  obtain ⟨hw, hwatched⟩ := h
  unfold killHeld
  cases hkill : w.registry.kill c id with
  | none => exact ⟨hw, hwatched⟩
  | some victim =>
    obtain ⟨e, s⟩ := victim
    have hkilled := killed_of_kill hkill
    have hlabelled := hw.labelled.killed hkilled
    have hnames := hkilled.names hw.labelled.placed
    have hc := (hw.labelled.placed c id e hkilled.found).1
    have hself : s.delegateOf c = c := hlabelled.formed.self_named c ((hnames.exists_iff c).2 hc)
    have hid : s.idOf e = id := (hnames.idOf e).trans (hw.labelled.keyed hkilled.found)
    have haudience : s.audience c = [l] :=
      (hkilled.audience c).trans (hwatched.audience_of_held hw.labelled hkilled.found)
    simp only [announceKilled, delegate_recorder, announce_recorder, haudience, hself, Event.entry,
      hid]
    refine ⟨⟨hlabelled, fun d => ?_⟩, fun d hd hheld => ?_⟩
    · rw [contentsAfter_append]
      change (contentsAfter w.client).erase c id d = s.held d
      rw [Contents.erase_apply, hw.contents, hw.contents, hkilled.held]
    · rw [hkilled.audience]
      refine hwatched d ((hnames.exists_iff d).1 hd) fun hnone => hheld ?_
      rw [hkilled.held]
      split
      · rename_i heq
        subst heq
        rw [Table.keys_erase, hnone]
        rfl
      · exact hnone

theorem chronicled_close (e : EntityRef) (h : Chronicled w ∧ w.registry.Watched l) :
    Chronicled { w with registry := w.registry.close (.ofEntity e) } ∧
      (w.registry.close (.ofEntity e)).Watched l := by
  obtain ⟨hw, hwatched⟩ := h
  have hnames := sameNames_close w.registry e
  have hlabelled := hw.labelled.of_extends (extends_close _ e)
    (hw.labelled.formed.of_sameNames hnames)
  refine ⟨hw.of_held hlabelled (w.registry.held_close _), fun d hd hheld => ?_⟩
  rw [audience_close]
  rw [held_close] at hheld
  exact hwatched d ((hnames.exists_iff d).1 hd) hheld

/-! ### Creating -/

theorem chronicled_create {c : ContainerRef} (hc : w.registry.Exists c) (id : Uuid)
    (marker : Option Marker) (seed : Table Slot Value) (h : Chronicled w)
    (hwatched : (create .recorder holds c id marker seed w).2.registry.Watched l) :
    Chronicled (create .recorder holds c id marker seed w).2 := by
  unfold create at hwatched ⊢
  rw [delegate_recorder] at hwatched ⊢
  cases hmade : w.registry.create c (.ok (w.registry.delegateOf c)) id marker seed with
  | error refusal => exact h
  | ok made =>
    rw [hmade] at hwatched
    simp only [announce_recorder, Event.entry] at hwatched ⊢
    obtain ⟨hcreated, hdelegate⟩ := created_of_create hmade
    have hlabelled := h.labelled.created hcreated hc
    have hfound : made.registry.Held c id made.entity := by
      rw [Held, hcreated.held hc, if_pos rfl, Table.find?_insert_self]
    have hid : made.registry.idOf made.entity = id := hlabelled.keyed hfound
    rw [hwatched.audience_of_held hlabelled hfound, hid, hdelegate,
      h.labelled.formed.self_named c hc]
    refine ⟨hlabelled, fun d => ?_⟩
    rw [contentsAfter_append]
    change (contentsAfter w.client).insert c id made.entity d = made.registry.held d
    rw [Contents.insert_apply, h.contents, h.contents, hcreated.held hc]
    split
    · rfl
    · split
      · rename_i hd
        rw [hd]
        exact h.labelled.held_eq_empty hcreated.not_exists
      · rfl

/-! ### Moving -/

theorem receive_recorder {c : ContainerRef} {e : EntityRef} {arrival : Arrival} {s : Registry}
    (hother : w.registry.idOf e ≠ w.registry.containerId c)
    (hreceive : w.registry.receive c (w.registry.delegateOf c) e = some (arrival, s)) :
    ∃ times, receive .recorder holds c e w = (.ok true, ⟨s, w.client ++ List.replicate times
      (Event.entry ⟨.received, w.registry.delegateOf c, e, none⟩ s)⟩) := by
  have hother' : ¬ (w.registry.entity e).id = (w.registry.container c).id := hother
  unfold receive
  simp only
  rw [if_neg hother', delegate_recorder]
  simp only [hreceive]
  cases arrival with
  | taken => exact ⟨0, by simp⟩
  | imported =>
    simp only [announce_recorder]
    exact ⟨_, rfl⟩

/-- A move is told by the source, after whatever the destination has told. -/
theorem transfer_recorder {src dst : ContainerRef} {id : Uuid} {e : EntityRef} {arrival : Arrival}
    {s : Registry} (ready : Ready w.registry src id dst e)
    (hreceive : (offered w.registry src dst e).receive dst (w.registry.delegateOf dst) e =
      some (arrival, s)) :
    ∃ times, (transfer .recorder holds src id dst w).2 =
      ⟨s.setHeld src ((s.held src).erase id),
        w.client ++ List.replicate times
            (Event.entry ⟨.received, w.registry.delegateOf dst, e, none⟩ s) ++
          List.replicate (s.audience src).length
            (Event.entry ⟨.transferred, w.registry.delegateOf src, e, some dst⟩ s)⟩ := by
  have hother : (offered w.registry src dst e).idOf e ≠
      (offered w.registry src dst e).containerId dst := by
    rw [idOf_offered, containerId_offered]
    exact ready.other
  have hdelegate : (offered w.registry src dst e).delegateOf dst = w.registry.delegateOf dst :=
    delegateOf_offered e dst
  rw [← hdelegate] at hreceive ⊢
  obtain ⟨times, hin⟩ := receive_recorder (holds.handing w.registry src dst e)
    (w := { w with registry := offered w.registry src dst e }) hother hreceive
  rw [transfer_of_found holds ready (delegate_recorder ..), hin]
  refine ⟨times, ?_⟩
  simp only [settle, depart, announce_recorder, audience_setHeld, Event.entry, idOf_setHeld]

/-- An arrival that is played back any number of times changes nothing. -/
theorem play_received (times : Nat) (m : Contents) (c : ContainerRef) (e : EntityRef)
    (s : Registry) :
    (List.replicate times (Event.entry ⟨.received, c, e, none⟩ s)).foldl Entry.play m = m := by
  induction times with
  | zero => rfl
  | succ times ih =>
    rw [List.replicate_succ, List.foldl_cons]
    exact ih

/-- What a transfer needs and keeps: the recorder knows the contents, the destination is there, and
the source is watched if it holds anything. -/
structure Departing (l : ListenerRef) (src dst : ContainerRef) (w : World (List Entry)) : Prop where
  chronicled : Chronicled w
  destination : w.registry.Exists dst
  source : ∀ {id e}, w.registry.Held src id e → w.registry.audience src = [l]

theorem Departing.transfer {src dst : ContainerRef} (h : Departing l src dst w) (id : Uuid) :
    Departing l src dst (w.transfer .recorder holds src id dst).2 := by
  have hmove := transferring_transfer holds Observers.recorder_passive src id dst w
  cases hresult : w.transfer .recorder holds src id dst with
  | mk answer w' =>
  rw [hresult] at hmove
  change Transferring .recorder w src id dst answer w' at hmove
  cases hmove with
  | sameContainer => exact h
  | closed => exact h
  | absent => exact h
  | self => exact h
  | dropped => exact h
  | refused => exact h
  | @stranded e ready leaves _ =>
    obtain ⟨hlabelled, hnames⟩ := labelled_offered h.chronicled.labelled ready.found dst
    exact ⟨h.chronicled.of_held hlabelled (held_offered e), (hnames.exists_iff dst).2 h.destination,
      fun hsrc => (audience_offered e src).trans
        (h.source ((held_congr (held_offered e)).1 hsrc))⟩
  | @moved e arrival s _ _ ready received _ _ _ =>
    obtain ⟨hlabelled, hnames⟩ := labelled_offered h.chronicled.labelled ready.found dst
    have haudience : (offered w.registry src dst e).audience src = [l] :=
      (audience_offered e src).trans (h.source ready.found)
    obtain ⟨times, hworld⟩ := transfer_recorder holds ready received
    rw [← delegateOf_offered e dst] at received
    have hmoved := moved_of_receive id ready.ne received
    have hdst := (hnames.exists_iff dst).2 h.destination
    have hfound : (offered w.registry src dst e).Held src id e :=
      (held_congr (held_offered e)).2 ready.found
    obtain ⟨hsrc, hexists⟩ := hlabelled.placed src id e hfound
    have hafter := hlabelled.moved hfound hdst hmoved
    have hid : (offered w.registry src dst e).idOf e = id := hlabelled.keyed hfound
    have hnames' := hmoved.names hsrc hdst hexists
    rw [hresult] at hworld
    obtain rfl := hworld
    refine ⟨⟨hafter, fun d => ?_⟩, (hnames'.exists_iff dst).2 hdst, fun _ => ?_⟩
    · rw [contentsAfter_append, contentsAfter_append, play_received, ← audience_setHeld,
        hmoved.audience, haudience]
      have hentry : s.idOf e = id := by
        rw [← hid, ← hnames'.idOf, idOf_setHeld]
      rw [Event.entry, hentry, h.chronicled.labelled.formed.self_named src
        (h.chronicled.labelled.placed src id e ready.found).1]
      change ((contentsAfter w.client).erase src id).insert dst id e d = _
      have hne := ready.ne
      rw [Contents.insert_apply, Contents.erase_apply, Contents.erase_apply, if_neg hne.symm,
        h.chronicled.contents, h.chronicled.contents, h.chronicled.contents, hmoved.held, hid,
        held_offered, held_offered, held_offered]
      by_cases hd : d = src
      · rw [if_neg (hd ▸ hne), if_pos hd, if_pos hd]
      · rw [if_neg hd, if_neg hd]
    · exact (hmoved.audience src).trans haudience

/-! ## Runs under the eyes of a recorder -/

theorem chronicled_perform {call : Call} (h : Chronicled w) (hwatched : w.registry.Watched l)
    (valid : call.Valid w.registry)
    (hafter : (call.perform .recorder w).2.registry.Watched l) :
    Chronicled (call.perform .recorder w).2 := by
  cases call with
  | newFactory config =>
    exact h.of_held (h.labelled.of_extends (extends_newFactory _ config)
      (h.labelled.formed.of_sameNames (sameNames_newFactory _ config)))
      (extends_newFactory _ config).held
  | newContainer id f =>
    exact h.of_held (h.labelled.of_extends (extends_newContainer _ id f)
      (formed_newContainer h.labelled.formed id f)) (extends_newContainer _ id f).held
  | create c id marker seed =>
    rw [Call.snd_perform_create] at hafter ⊢
    exact chronicled_create .nothing valid id marker seed h hafter
  | kill c id =>
    rw [Call.perform, Call.snd_failure?]
    exact (kill_induct (P := fun v => Chronicled v ∧ v.registry.Watched l) .nothing
      (fun holds c id _ => chronicled_killHeld holds c id) (fun e _ => chronicled_close e) c id
      ⟨h, hwatched⟩).1
  | killAll c order =>
    rw [Call.perform, Call.snd_failure?]
    exact (killListed_induct (P := fun v => Chronicled v ∧ v.registry.Watched l) .nothing
      (fun holds c id _ => chronicled_killHeld holds c id) (fun e _ => chronicled_close e) c order
      ⟨h, hwatched⟩).1
  | transfer src id dst =>
    rw [Call.perform, Call.snd_failure?]
    have hdeparting : Departing l src dst w :=
      ⟨h, valid.2, fun hheld => hwatched.audience_of_held h.labelled hheld⟩
    exact (hdeparting.transfer .nothing id).chronicled
  | transferAll src dst order =>
    rw [Call.perform, Call.snd_failure?]
    have hdeparting : Departing l src dst w :=
      ⟨h, valid.1.2, fun hheld => hwatched.audience_of_held h.labelled hheld⟩
    exact (transferEach_induct (fun id v hv => hv.transfer .nothing id) order hdeparting).chronicled

end World

namespace Recording

variable {l : ListenerRef} {w : World (List Entry)}

theorem watched (recording : Recording l w) : w.registry.Watched l := by
  cases recording with
  | start => exact fun c hc => absurd hc (not_exists_empty c)
  | call _ _ _ watched => exact watched
  | other _ _ watched => exact watched

theorem chronicled (recording : Recording l w) : Chronicled w := by
  induction recording with
  | start => exact ⟨labelled_empty, fun c => by cases c <;> rfl⟩
  | call recording call valid watched ih =>
    exact chronicled_perform ih recording.watched valid watched
  | other _ same _ ih => exact ih.of_held (ih.labelled.of_sameForest same) same.held

end Recording

/-- At any time between two calls, the history played back gives what each container holds. -/
theorem held_eq_contentsAfter {l : ListenerRef} {w : World (List Entry)}
    (recording : Recording l w) (c : ContainerRef) :
    w.registry.held c = contentsAfter w.client c :=
  (recording.chronicled.contents c).symm

/-! ## A recording -/

/-- A call, or the registration of the recorder with a container. -/
abbrev Scene := Call ⊕ ContainerRef

namespace Scene

def shoot (l : ListenerRef) (w : World (List Entry)) : Scene → World (List Entry)
  | .inl call => (call.perform .recorder w).2
  | .inr c => { w with registry := w.registry.setListeners c ⟨[l]⟩ }

def Valid (l : ListenerRef) (w : World (List Entry)) (scene : Scene) : Prop :=
  (match scene with
    | .inl call => call.Valid w.registry
    | .inr c => w.registry.Exists c) ∧ (scene.shoot l w).registry.Watched l

instance (l : ListenerRef) (w : World (List Entry)) : (scene : Scene) → Decidable (scene.Valid l w)
  | .inl call => inferInstanceAs (Decidable (call.Valid w.registry ∧ _))
  | .inr c => inferInstanceAs (Decidable (w.registry.Exists c ∧ _))

/-- Each scene is valid where it is shot. -/
def AllValid (l : ListenerRef) : List Scene → World (List Entry) → Prop
  | [], _ => True
  | scene :: scenes, w => scene.Valid l w ∧ AllValid l scenes (scene.shoot l w)

instance AllValid.decidable (l : ListenerRef) :
    (scenes : List Scene) → (w : World (List Entry)) → Decidable (AllValid l scenes w)
  | [], _ => inferInstanceAs (Decidable True)
  | scene :: scenes, w =>
    have := AllValid.decidable l scenes (scene.shoot l w)
    inferInstanceAs (Decidable (scene.Valid l w ∧ AllValid l scenes (scene.shoot l w)))

end Scene

theorem Recording.shoot {l : ListenerRef} {w : World (List Entry)} {scenes : List Scene}
    (recording : Recording l w) (valid : Scene.AllValid l scenes w) :
    Recording l (scenes.foldl (Scene.shoot l) w) := by
  induction scenes generalizing w with
  | nil => exact recording
  | cons scene scenes ih =>
    obtain ⟨⟨hscene, hwatched⟩, hrest⟩ := valid
    refine ih ?_ hrest
    cases scene with
    | inl call => exact recording.call call hscene hwatched
    | inr c => exact recording.other (sameForest_setListeners _ hscene _) hwatched

end

open scoped PlainType

/-- Two trees. The entity 1 of the first one comes to hold the entity 2, which holds the entity 3;
it moves to the second tree with both, and there the entity 2 is killed. -/
def film : World (List Entry) :=
  [.inl (.newFactory .unbounded), .inl (.newFactory .unbounded),
    .inl (.newContainer (.ofNat 100) ⟨0⟩), .inr (.standalone 0),
    .inl (.newContainer (.ofNat 200) ⟨1⟩), .inr (.standalone 1),
    .inl (.create (.standalone 0) (.ofNat 1) none ∅), .inr (.ofEntity ⟨0⟩),
    .inl (.create (.ofEntity ⟨0⟩) (.ofNat 2) none ∅), .inr (.ofEntity ⟨1⟩),
    .inl (.create (.ofEntity ⟨1⟩) (.ofNat 3) none ∅),
    .inl (.transfer (.standalone 0) (.ofNat 1) (.standalone 1)),
    .inl (.kill (.ofEntity ⟨0⟩) (.ofNat 2))].foldl (Scene.shoot ⟨0⟩) ⟨.empty, []⟩

theorem held_eq_contentsAfter_film :
    film.client.map (fun n => n.event.kind) =
        [.created, .created, .created, .received, .transferred, .killed, .killed] ∧
      ∀ c, film.registry.held c = contentsAfter film.client c :=
  ⟨by decide +kernel,
    held_eq_contentsAfter (Recording.start.shoot (by decide +kernel) : Recording ⟨0⟩ film)⟩

end EntityForest
