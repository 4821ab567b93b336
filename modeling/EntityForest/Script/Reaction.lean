import EntityForest.Attribute.Listener
import EntityForest.Script.Liveness
import EntityForest.Script.Perform

/-! How the listeners of a script respond to events. A scripted listener logs the event, runs the
reactions it has left for it, and then gives its verdict. A reaction is counted down before it runs,
so reactions that cause further events come to an end. -/

namespace EntityForest.Script

open scoped PlainType

open Text (Json)

/-- Appends a line to the log. -/
def log (line : String) : Action Unit :=
  Action.modifySession fun s => { s with logged := line :: s.logged }

/-- The outcome of an action, also where it fails. -/
def outcome {α : Type} (action : Action α) : Action (Except Failure α) :=
  fun w =>
    let (result, w) := action w
    (.ok result, w)

/-! ### Reactions -/

/-- The step of the reaction at a position, if it belongs to this kind of event and has runs left,
and the reactions after counting it down. -/
def claimRun {κ : Type} [DecidableEq κ] (kind : κ) (reactions : List (κ × Nat × Step)) (i : Nat) :
    Option (Step × List (κ × Nat × Step)) :=
  match reactions[i]? with
  | some (on, times + 1, step) =>
    if on = kind then some (step, reactions.set i (on, times, step)) else none
  | _ => none

/-- Where the reactions of a listener are kept. -/
structure ReactionStore (κ : Type) where
  read : Session → List (κ × Nat × Step)
  write : List (κ × Nat × Step) → Session → Session

def Listener.reactions : Listener → List (EventKind × Nat × Step)
  | .scripted _ _ reactions => reactions
  | _ => []

def BagListener.reactions : BagListener → List (Change × Nat × Step)
  | .scripted _ reactions => reactions
  | .silent => []

def listenerReactions (l : ListenerRef) : ReactionStore EventKind where
  read s := (s.madeListeners.get l.index).reactions
  write reactions s :=
    match s.madeListeners.get l.index with
    | .scripted name verdicts _ =>
      { s with madeListeners := s.madeListeners.set l.index (.scripted name verdicts reactions) }
    | _ => s

def bagListenerReactions (l : AttributeListenerRef) : ReactionStore Change where
  read s := (s.madeBagListeners.get l.index).reactions
  write reactions s :=
    match s.madeBagListeners.get l.index with
    | .scripted name _ =>
      { s with madeBagListeners := s.madeBagListeners.set l.index (.scripted name reactions) }
    | .silent => s

/-- Runs the reactions at the given positions and logs what comes of each. -/
def runReactions {κ : Type} [DecidableEq κ] (run : Step → Action Json) (name : String) (kind : κ)
    (store : ReactionStore κ) : List Nat → Action Unit
  | [] => return
  | i :: rest => do
    if let some (step, reactions) := claimRun kind (store.read (← Action.session)) i then
      Action.modifySession (store.write reactions)
      match ← outcome (run step) with
      | .ok answer => log (name ++ " > " ++ answer.compact)
      | .error failure => log (name ++ " > " ++ failure.name)
    runReactions run name kind store rest

/-! ### Lifecycle listeners -/

def eventLine (name : String) (event : Event) : Action String := do
  let r ← Action.registry
  let write ← Action.writer
  let id (c : ContainerRef) : String := write (r.containerId c)
  let e := event.entity
  let words :=
    [name, event.kind.name, "c=" ++ id event.container, "e=" ++ write (r.entity e).id,
     "s=" ++ (r.lifecycle e).name,
     "t=" ++ ",".intercalate (speciesNames (← Action.session) r e),
     "a=" ++ ",".intercalate (r.bag (.ofEntity e)).names,
     "n=" ++ toString (r.held (.ofEntity e)).size]
  return " ".intercalate (words ++ (event.destination.map fun d => "d=" ++ id d).toList)

/-- The verdict of a scripted listener, which uses up one of the failures it skips. -/
def judge (l : ListenerRef) (kind : EventKind) : Action (Except ListenerError Unit) := do
  match (← Action.session).madeListeners.get l.index with
  | .scripted name verdicts reactions =>
    if kind ∈ verdicts.failing then
      match verdicts.skip with
      | 0 => return .error verdicts.failure
      | skip + 1 =>
        let l' : Listener := .scripted name { verdicts with skip } reactions
        Action.modifySession fun s =>
          { s with madeListeners := s.madeListeners.set l.index l' }
        return .ok ()
    else return .ok ()
  | _ => return .ok ()

/-- Where a script keeps one of its buses. -/
def busPlace (bus : Nat) : BusPlace (Queue Event) Session where
  bus s := s.madeBuses.get bus
  setBus b s := { s with madeBuses := s.madeBuses.set bus b }
  bus_setBus _ _ := by simp
  write := Session.write

def sendTo (bus : Nat) (event : Event) : Action (Except ListenerError Unit) :=
  Action.run (World.sendTo Queue.channel (busPlace bus) event)

def respond (run : Step → Action Json) (l : ListenerRef) (event : Event) :
    Action (Except ListenerError Unit) := do
  match (← Action.session).madeListeners.get l.index with
  | .silent => return .ok ()
  | .sender bus => sendTo bus event
  | .scripted name _ reactions =>
    log (← eventLine name event)
    runReactions run name event.kind (listenerReactions l) (List.range reactions.length)
    judge l event.kind

/-! ### Attribute listeners -/

/-- The callback that is called, and the event that it is told. -/
def changeLine (name : String) (called : Change) (event : AttributeEvent) : String :=
  " ".intercalate
    [name, called.name, event.name, event.typeName, event.change.title]

def respondToChange (run : Step → Action Json) (l : AttributeListenerRef) (called : Change)
    (event : AttributeEvent) : Action Unit := do
  match (← Action.session).madeBagListeners.get l.index with
  | .silent => return
  | .scripted name reactions =>
    log (changeLine name called event)
    runReactions run name called (bagListenerReactions l) (List.range reactions.length)

def changeCallbacks (run : Step → Action Json) (l : AttributeListenerRef) :
    ChangeCallbacks (World Session) :=
  .uniform fun called event w => (respondToChange run l called event w).2

/-! ### Observers -/

/-- How many entities the listeners made so far can still bring to life. -/
def remainingWeight (s : Session) : Nat :=
  s.madeListeners.items.foldl (fun n l => n + reactionsWeight l.reactions) 0 +
    s.madeBagListeners.items.foldl (fun n l => n + bagReactionsWeight l.reactions) 0

/-- The listeners of a script, with events nested at most as deep as the argument says. -/
def observers : Nat → Observers Session
  | 0 =>
    { lifecycle := fun _ _ _ w => (.ok (), w)
      bag := fun _ _ _ w => w
      slack := remainingWeight
      remains }
  | nesting + 1 =>
    { lifecycle := fun holds l event w =>
        match respond (perform ⟨observers nesting, holds, some event.entity⟩) l event w with
        | (.ok verdict, w) => (verdict, w)
        | (.error _, w) => (.ok (), w)
      bag := fun holds l =>
        (changeCallbacks (perform ⟨observers nesting, holds, none⟩) l).dispatch
      slack := remainingWeight
      remains }

end EntityForest.Script
