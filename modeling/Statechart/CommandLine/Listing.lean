import Statechart.CommandLine.Problem
import Statechart.Machine.Basic

/-!
# Listings of charts and macrosteps

A chart is listed with one line for each state, indented by its depth.  A
macrostep is listed with the events it processed and the configuration it led
to, after what the observers were told while it ran.
-/

namespace Statechart

namespace CommandLine

def commaSeparated (names : List String) : String :=
  ", ".intercalate names

/-- The word for a kind of node, none for the root and histories. -/
def kindOfNode? (node : Node) : Option String :=
  match node.kind with
  | .parallel => some "parallel"
  | .state _ true => some "final"
  | .state _ false => some (if node.isAtomic then "state" else "compound")
  | .history _ _ | .root _ => none

def nodeLine? (node : Node) : Option String :=
  (kindOfNode? node).map (fun kind =>
    String.ofList (List.replicate (2 * node.depth) ' ') ++ node.id ++ " " ++ kind)

def chartLines (chart : Chart) : List Line :=
  let heading := "Valid " ++ chart.idOf rootId ++
    s!" ({chart.nodeCount - 1} nodes, {chart.transitions.size} transitions)"
  let nodes := chart.documentWalk.filterMap (fun node => nodeLine? (chart.node node))
  (heading :: nodes ++ ["checksum: " ++ chart.checksum]).map Line.text

/-- The line of what listeners were told, none for what is not for them. -/
def observationLine? : Observation → Option String
  | .entered state => some ("  enter " ++ state)
  | .exited state => some ("  exit " ++ state)
  | .taken source target event =>
    some ("  take " ++ source ++ " -> " ++ target ++ " [" ++ event.getD "" ++ "]")
  | _ => none

/-- The lines of what the listeners of a machine were told. -/
def observationLines (machine : Machine) : List Line :=
  machine.world.observations.toList.filterMap (fun observation =>
    (observationLine? observation).map Line.text)

/-- The lines of a macrostep that led to a configuration. -/
def macrostepLines (label : String) (done : Macrostep) (configuration : List String) :
    List Line :=
  let heading := label ++ s!" {done.microsteps} microstep(s)"
  let names := done.events.toList.map Event.name
  let events := if names.isEmpty then [] else ["  events: " ++ commaSeparated names]
  (heading :: events ++ ["  configuration: " ++ commaSeparated configuration]).map Line.text

end CommandLine

end Statechart
