import EntityForest.Attribute.Plain
import EntityForest.Proofs.Accounts

/-! # What the log of a run shows of bags

Read from its start, the log tells at each line what every bag holds: what the deeds that have begun
by then make of finite maps that are empty at first. -/

namespace EntityForest

open Relation (ReflTransGen)

section

variable [ValueTypes]

/-- The sheets of all bags after a line, if they were these before. -/
def BagLine.after (sheets : Sheets) : BagLine → Sheets
  | begins deed _ => deed.apply sheets
  | hears .. | leaves _ | ends .. => sheets

/-- What the deeds that have begun make of blank sheets. -/
def sheetsAfter (lines : List BagLine) : Sheets :=
  lines.foldl BagLine.after fun _ => .blank

/-- A line is true if all bags have been seen as the lines before it tell, and if the answer that a
deed ends with is the one of finite maps at its beginning. -/
def BagLine.TrueAfter (earlier : List BagLine) : BagLine → Prop
  | begins _ before => before.Shows (sheetsAfter earlier)
  | hears _ _ _ seen => seen.Shows (sheetsAfter earlier)
  | leaves _ => True
  | ends deed before answer => ∃ start inner, earlier = start ++ begins deed before :: inner ∧
      answer = deed.answer (sheetsAfter start)

/-- All these lines are true where they stand. -/
def AllTrue (earlier : List BagLine) : List BagLine → Prop
  | [] => True
  | line :: rest => line.TrueAfter earlier ∧ AllTrue (earlier ++ [line]) rest

theorem allTrue_append {earlier first second : List BagLine} :
    AllTrue earlier (first ++ second) ↔
      AllTrue earlier first ∧ AllTrue (earlier ++ first) second := by
  induction first generalizing earlier with
  | nil => simp [AllTrue]
  | cons line first ih => simp [AllTrue, ih, and_assoc]

theorem sheetsAfter_concat (earlier : List BagLine) (line : BagLine) :
    sheetsAfter (earlier ++ [line]) = line.after (sheetsAfter earlier) :=
  List.foldl_append

section Enclosed

variable {earlier inner rest : List BagLine} {opening closing : BagLine}

/-- What happens between two lines is read from the first of them on. -/
theorem allTrue_enclosed (hopening : opening.TrueAfter earlier)
    (hinner : AllTrue (earlier ++ [opening]) inner)
    (hclosing : closing.TrueAfter (earlier ++ opening :: inner))
    (hrest : AllTrue (earlier ++ opening :: (inner ++ [closing])) rest) :
    AllTrue earlier (opening :: (inner ++ closing :: rest)) := by
  refine ⟨hopening, allTrue_append.2 ⟨hinner, ?_, ?_⟩⟩
  · rwa [List.append_assoc, List.singleton_append]
  · rwa [List.append_assoc, List.append_assoc, List.singleton_append]

theorem sheetsAfter_enclosed (closing : BagLine) {sheets : Sheets}
    (h : sheetsAfter (earlier ++ [opening] ++ inner) = sheets) :
    sheetsAfter (earlier ++ opening :: (inner ++ [closing])) = closing.after sheets := by
  rw [← h, ← sheetsAfter_concat, List.append_assoc, List.append_assoc, List.singleton_append]

end Enclosed

mutual

theorem Account.allTrue {first last : Sheets} {lines : List BagLine} :
    Account first lines last → ∀ {earlier : List BagLine}, sheetsAfter earlier = first →
      AllTrue earlier lines ∧ sheetsAfter (earlier ++ lines) = last
  | .done _, earlier, h => ⟨trivial, by rw [List.append_nil, h]⟩
  | @Account.deed _ _ _ _ deed before _ inner _ shown _ _ delivered more, earlier, h => by
    subst h
    obtain ⟨hinner, hafter⟩ := delivered.allTrue (sheetsAfter_concat earlier (.begins deed before))
    obtain ⟨hrest, hlast⟩ := more.allTrue
      (sheetsAfter_enclosed (.ends deed before (deed.answer (sheetsAfter earlier))) hafter)
    refine ⟨allTrue_enclosed shown hinner ⟨earlier, inner, rfl, rfl⟩ hrest, ?_⟩
    simpa only [List.append_assoc, List.cons_append, List.nil_append] using hlast
termination_by lines.length

theorem Deliveries.allTrue {due : List (SlotChange × AttributeListenerRef)}
    {first last : Sheets} {lines : List BagLine} :
    Deliveries due first lines last → ∀ {earlier : List BagLine}, sheetsAfter earlier = first →
      AllTrue earlier lines ∧ sheetsAfter (earlier ++ lines) = last
  | .done _, earlier, h => ⟨trivial, by rw [List.append_nil, h]⟩
  | @Deliveries.next _ _ _ _ _ change l seen _ _ shown response more, earlier, h => by
    subst h
    obtain ⟨hinner, hafter⟩ :=
      response.allTrue (sheetsAfter_concat earlier (.hears l change.kind change.event seen))
    obtain ⟨hrest, hlast⟩ := more.allTrue (sheetsAfter_enclosed (.leaves l) hafter)
    refine ⟨allTrue_enclosed shown hinner trivial hrest, ?_⟩
    simpa only [List.append_assoc, List.cons_append, List.nil_append] using hlast
termination_by lines.length

end

theorem AllTrue.trueAfter {earlier before later : List BagLine} {line : BagLine}
    (h : AllTrue earlier (before ++ line :: later)) : line.TrueAfter (earlier ++ before) :=
  (allTrue_append.1 h).2.1

/-- In every run each bag behaves as a finite map of its own from slots to values of their types:
whatever bags and views are asked, before a deed or within it, the answer is that of the map. -/
theorem bags_are_finite_maps {χ : Type} {log : χ → List BagLine} {client : χ} {w : World χ}
    (blank : log client = [])
    (run : ReflTransGen (Handling log (Observers.Responsive log)) ⟨.empty, client⟩ w) :
    (∀ earlier line later, log w.client = earlier ++ line :: later → line.TrueAfter earlier) ∧
      w.registry.Shows (sheetsAfter (log w.client)) := by
  obtain ⟨lines, last, hlog, account, shown⟩ :=
    exists_account (fun o ho => ho.narrate) run Registry.shows_empty
  rw [blank, List.nil_append] at hlog
  have hread : AllTrue [] lines ∧ sheetsAfter ([] ++ lines) = last := account.allTrue rfl
  rw [List.nil_append] at hread
  obtain ⟨htrue, hlast⟩ := hread
  refine ⟨fun earlier line later hsplit => ?_, ?_⟩
  · rw [← hlog, hsplit] at htrue
    exact htrue.trueAfter
  · rwa [hlog, hlast]

end

open scoped PlainType

/-- Two keys of one name. -/
def speed : Key .u32 := ⟨"speed"⟩

def speedy : Key .bool := ⟨"speed"⟩

/-- A bag with both gives its values to an entity and loses one of them. -/
def handedDown : World (List BagLine) :=
  [.set (.standalone 0) speed (3 : UInt32), .set (.standalone 0) speedy true,
    .seed ⟨0⟩ (.standalone 0), .remove (.standalone 0) speed,
    .copy (.standalone 0) (.standalone 0), .ask (.ofEntity ⟨0⟩) .names,
    .look ⟨some (.standalone 0)⟩ (.contains speed), .look ⟨none⟩ .size].foldl
    (BagDeed.carryOut (.reacting (fun _ _ _ => []) 0)) ⟨.empty, []⟩

theorem bags_are_finite_maps_handedDown :
    (∀ earlier line later, handedDown.client = earlier ++ line :: later →
        line.TrueAfter earlier) ∧
      handedDown.registry.Shows (sheetsAfter handedDown.client) ∧
      (handedDown.registry.bag (.ofEntity ⟨0⟩)).names = ["speed", "speed"] ∧
      ((handedDown.registry.bag (.ofEntity ⟨0⟩)).get speed).map UInt32.toNat = some 3 ∧
      (handedDown.registry.bag (.standalone 0)).get speed = none ∧
      (handedDown.registry.bag (.standalone 0)).contains speedy = true := by
  have run : ReflTransGen (Handling id (Observers.Responsive id)) ⟨.empty, []⟩ handedDown :=
    handlings_carryOut (Observers.responsive_reacting (fun _ _ _ => []) 0) _ _
  have hnames : (handedDown.registry.bag (.ofEntity ⟨0⟩)).values.keys.map Slot.name =
      ["speed", "speed"] := by decide +kernel
  obtain ⟨htrue, hshown⟩ := bags_are_finite_maps (by rfl) run
  refine ⟨htrue, hshown, ?_, by decide +kernel, by decide +kernel, by decide +kernel⟩
  rw [Bag.names, hnames]
  exact List.mergeSort_of_pairwise (by simp)

end EntityForest
