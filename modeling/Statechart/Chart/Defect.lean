/-!
# Defects of charts

A defect is a reason why a chart cannot be run.  Each has a code for
diagnostics and a wording.
-/

namespace Statechart

/-- Why a chart cannot be run. -/
inductive Defect where
  | emptyDocument
  | noInitialState (initial : String)
  | badInitialState (state : String)
  | targetNotFound (target : String)
  | illegalTargets (state next : String)
  | historyOfAtomicState (state : String)
  | badShallowHistory (history owner : String)
  | badDeepHistory (history owner : String)
  | historyWithoutDefault (history owner : String)
  | ambiguousSource (state : String)
  | missingSource (state : String)
  | missingService (state : String)
  | atomicRegion (parallel region : String)
  | initialOfParallel (parallel : String)
  | duplicateId (id : String)
  | notValidated
deriving DecidableEq, Repr

namespace Defect

def code : Defect → String
  | emptyDocument => "EMPTY_DOCUMENT"
  | noInitialState _ => "NO_INITIAL_STATE"
  | badInitialState _ => "BAD_INITIAL_STATE"
  | targetNotFound _ => "TARGET_NOT_FOUND"
  | illegalTargets _ _ => "ILLEGAL_TRANSITION_TARGETS"
  | historyOfAtomicState _ => "HISTORY_SIMPLE_STATE"
  | badShallowHistory _ _ => "BAD_SHALLOW_HISTORY"
  | badDeepHistory _ _ => "BAD_DEEP_HISTORY"
  | historyWithoutDefault _ _ => "HISTORY_NO_DEFAULT"
  | ambiguousSource _ => "AMBIGUOUS_INVOKE_SOURCE"
  | missingSource _ => "MISSING_INVOKE_SOURCE"
  | missingService _ => "MISSING_INVOKE_TYPE"
  | atomicRegion _ _ => "ATOMIC_REGION"
  | initialOfParallel _ => "PARALLEL_INITIAL"
  | duplicateId _ => "DUPLICATE_ID"
  | notValidated => "NOT_VALIDATED"

def message : Defect → String
  | emptyDocument => "document declares no states"
  | noInitialState initial => s!"initial state '{initial}' not found"
  | badInitialState state => s!"initial target of state '{state}' is not a descendant of it"
  | targetNotFound target => s!"transition target '{target}' not found"
  | illegalTargets state next => s!"illegal targets '{next}' for transition from '{state}'"
  | historyOfAtomicState state => s!"atomic state '{state}' cannot declare history"
  | badShallowHistory history owner =>
    s!"shallow history '{history}' must target direct children of '{owner}'"
  | badDeepHistory history owner =>
    s!"deep history '{history}' must target descendants of '{owner}'"
  | historyWithoutDefault history owner =>
    s!"history '{history}' of '{owner}' has no default transition target"
  | ambiguousSource state => s!"invoke in state '{state}' declares both src and srcexpr"
  | missingSource state => s!"invoke in state '{state}' declares neither src nor srcexpr"
  | missingService state => s!"invoke in state '{state}' has no type"
  | atomicRegion parallel region =>
    s!"region '{region}' of parallel '{parallel}' must be composite or parallel"
  | initialOfParallel parallel => s!"parallel '{parallel}' cannot declare an initial state"
  | duplicateId id => s!"duplicate id '{id}'"
  | notValidated => "document has not been validated"

end Defect

end Statechart
