import EntityForest.Uuid
import EntityForest.Text.Quoted
import EntityForest.Text.Record

/-! The ways in which an operation on the forest fails. A refusal that is part of normal operation,
such as killing an unknown entity, is not an error. -/

namespace EntityForest

/-- What a listener reports when it rejects an event. -/
structure ListenerError where
  message : String
  source : Option String
  deriving DecidableEq, Repr

inductive ErrorKind where
  | invalidArgument
  | conflict
  | protocolViolation
  | listener
  | capacity
  | configuration
  deriving DecidableEq, Repr

inductive ContainerError where
  | nilId
  | alreadyAssociated (entity : Uuid)
  /-- The destination of a transfer is its source. -/
  | sameContainer (entity container : Uuid)
  /-- An entity was to move into its own child container. -/
  | selfTransfer (entity : Uuid)
  | typeMismatch (entity : Uuid) (expected : String)
  /-- The entity has left its tree and no other tree has taken it. -/
  | exportedNotTransferred (entity : Uuid)
  /-- The container belongs to a dead entity. -/
  | closed (container : Uuid)
  | entityLimitReached (limit : Nat)
  | delegateDropped (container : Uuid)
  | factoryDropped
  /-- A listener failed after the operation had taken effect. -/
  | listener (failure : ListenerError)
  | invalidConfig (reason : String)
  deriving DecidableEq

namespace ListenerError

def text (e : ListenerError) : String := "listener failed: " ++ e.message

def describe (e : ListenerError) : String :=
  Text.record "ListenerError" [("message", Text.quote e.message),
    ("source", Text.optional (e.source.map Text.quote))]

end ListenerError

namespace ContainerError

def kind : ContainerError → ErrorKind
  | nilId | delegateDropped _ | factoryDropped => .invalidArgument
  | alreadyAssociated _ | sameContainer .. | selfTransfer _ | typeMismatch .. | closed _ =>
    .conflict
  | exportedNotTransferred _ => .protocolViolation
  | entityLimitReached _ => .capacity
  | listener _ => .listener
  | invalidConfig _ => .configuration

/-- A protocol violation leaves the forest with an entity that no tree knows. -/
def isProtocolViolation (e : ContainerError) : Bool := e.kind = .protocolViolation

def source : ContainerError → Option String
  | listener failure => failure.source
  | _ => none

/-- The message for users; `write` writes the identities in it. -/
def text (write : Uuid → String) : ContainerError → String
  | nilId => "entity id must not be nil"
  | alreadyAssociated e => "entity " ++ write e ++ " is already associated"
  | sameContainer e c => "cannot transfer " ++ write e ++ " to the same container " ++ write c
  | selfTransfer e => "cannot transfer " ++ write e ++ " to itself"
  | typeMismatch e expected => "entity " ++ write e ++ " is not marked as " ++ expected
  | exportedNotTransferred e => "entity " ++ write e ++ " exported but not transferred"
  | closed c => "container " ++ write c ++ " belongs to a dead entity"
  | entityLimitReached limit => "entity limit of " ++ toString limit ++ " has been reached"
  | delegateDropped c => "delegate of container " ++ write c ++ " has been dropped"
  | factoryDropped => "entity factory has been dropped"
  | listener failure => failure.text
  | invalidConfig reason => "invalid configuration: " ++ reason

/-- The name of the variant. -/
def variant : ContainerError → String
  | nilId => "NilId"
  | alreadyAssociated _ => "AlreadyAssociated"
  | sameContainer .. => "SameContainer"
  | selfTransfer _ => "SelfTransfer"
  | typeMismatch .. => "TypeMismatch"
  | exportedNotTransferred _ => "ExportedNotTransferred"
  | closed _ => "Closed"
  | entityLimitReached _ => "EntityLimitReached"
  | delegateDropped _ => "DelegateDropped"
  | factoryDropped => "FactoryDropped"
  | listener _ => "Listener"
  | invalidConfig _ => "InvalidConfig"

/-- The description for developers. -/
def describe (write : Uuid → String) (e : ContainerError) : String :=
  let container (c : Uuid) : String := Text.wrapped "ContainerId" (write c)
  match e with
  | nilId | factoryDropped => e.variant
  | alreadyAssociated id | selfTransfer id | exportedNotTransferred id =>
    Text.wrapped e.variant (write id)
  | sameContainer id c => Text.record e.variant [("entity", write id), ("container", container c)]
  | typeMismatch id expected =>
    Text.record e.variant [("id", write id), ("expected", Text.quote expected)]
  | closed c | delegateDropped c => Text.wrapped e.variant (container c)
  | entityLimitReached limit => Text.wrapped e.variant (toString limit)
  | listener failure => Text.wrapped e.variant failure.describe
  | invalidConfig reason => Text.wrapped e.variant (Text.quote reason)

end ContainerError

/-- The name of a kind of error. -/
def ErrorKind.name : ErrorKind → String
  | invalidArgument => "InvalidArgument"
  | conflict => "Conflict"
  | protocolViolation => "ProtocolViolation"
  | listener => "Listener"
  | capacity => "Capacity"
  | configuration => "Configuration"

end EntityForest
