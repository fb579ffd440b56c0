import Statechart.Event
import Statechart.Text.Blank
import Statechart.Text.Quoted

/-!
# Services

A service is what a state invokes while it is active.  It is started when its
state becomes active, told of external events, and cancelled when the state is
exited.  Whatever it is asked, it may send events to the machine and it may
fail.  Its answer may depend on everything that services were asked before.
-/

namespace Statechart

/-- What a service is asked to do. -/
inductive Service.Request where
  | start (source : String) (parameters : List (String × Json.Value))
  | forward (event : Event)
  | cancel
deriving Repr

/-- A request to one instance of a service. -/
structure Service.Call where
  /-- Instances are numbered in the order of their creation. -/
  number : Nat
  /-- The id of the state that invokes the service. -/
  state : String
  request : Service.Request
deriving Repr

/-- Why a service could not do what it was asked. -/
inductive ServiceFault where
  | unknownType (service : String)
  | start (reason : String)
  | forward (reason : String)
  | cancel (reason : String)
deriving DecidableEq, Repr

def ServiceFault.message : ServiceFault → String
  | .unknownType service => s!"no invoker registered for type '{service}'"
  | .start reason => s!"invoker failed to start: {reason}"
  | .forward reason => s!"invoker rejected forwarded events: {reason}"
  | .cancel reason => s!"invoker failed to cancel: {reason}"

/-- What a service does in answer to a request: it sends events, and then it may
fail. -/
structure Service.Reply where
  sends : List Event := []
  fault : Option ServiceFault := none
deriving Repr

/-- The events that the service of a state sends by convention. -/
def servicePrefix (state : String) : String :=
  state ++ ".invoke."

/-- The behaviour of the services of one type. -/
structure Service where
  /-- The answer to a request, given all earlier ones. -/
  respond : List Service.Call → Service.Call → Service.Reply
  /-- Whether the finalize block of a state runs for an event. -/
  awaits : List Service.Call → String → Event → Bool :=
    fun _ state event => Text.startsWith (servicePrefix state) event.name

/-- The services that states may invoke, by their types. -/
abbrev Registry :=
  List (String × Service)

namespace Registry

/-- Registers a service, in place of the one its type had. -/
def register (registry : Registry) (type : String) (service : Service) : Registry :=
  Entries.insert type service registry

def contains (registry : Registry) (type : String) : Bool :=
  Entries.contains type registry

def create (registry : Registry) (type : String) : Except ServiceFault Service :=
  match Entries.find? type registry with
  | some service => .ok service
  | none => .error (.unknownType type)

def inspect (registry : Registry) : String :=
  "InvokerRegistry \x7b types: " ++ Text.quotedList (Entries.keys registry) ++ " \x7d"

end Registry

end Statechart
