import Statechart.Action
import Statechart.Chart.Ancestry
import Statechart.Chart.Basic
import Statechart.Chart.Defect
import Statechart.Chart.OfDefinition
import Statechart.Chart.Validation
import Statechart.Checksum
import Statechart.CommandLine.Arguments
import Statechart.CommandLine.Command
import Statechart.CommandLine.Listing
import Statechart.CommandLine.Problem
import Statechart.CommandLine.Session
import Statechart.Configuration
import Statechart.DataModel
import Statechart.Decimal.Shortest
import Statechart.Definition
import Statechart.Definition.OfYaml
import Statechart.Definition.Outline
import Statechart.Entries
import Statechart.Event
import Statechart.Fault
import Statechart.Guard.Basic
import Statechart.Guard.Reader
import Statechart.Invoking
import Statechart.Json.Number
import Statechart.Json.Reader
import Statechart.Json.Tree
import Statechart.Json.Value
import Statechart.Json.Writer
import Statechart.Machine.Basic
import Statechart.Machine.Macrostep
import Statechart.Machine.Restoring
import Statechart.Main
import Statechart.Microstep.Execution
import Statechart.Microstep.Resolution
import Statechart.Microstep.Route
import Statechart.Microstep.Selection
import Statechart.Node
import Statechart.Report
import Statechart.Scope
import Statechart.Service
import Statechart.Settings
import Statechart.Settings.Loading
import Statechart.Snapshot
import Statechart.Text.Alphanumeric
import Statechart.Text.Blank
import Statechart.Text.Digits
import Statechart.Text.Quoted
import Statechart.World
import Statechart.Yaml.Cursor
import Statechart.Yaml.Gap
import Statechart.Yaml.Lines
import Statechart.Yaml.Node
import Statechart.Yaml.Plain
import Statechart.Yaml.Quoted
import Statechart.Yaml.Reader
import Statechart.Yaml.Scalar
import Statechart.Yaml.Token
import Statechart.Yaml.Writer
import Statechart.Proofs.Chart.Descent
import Statechart.Proofs.NodeSet
import Statechart.Proofs.Chart.Building
import Statechart.Proofs.Chart.OfDefinition
import Statechart.Proofs.Chart.Naming
import Statechart.Proofs.Chart.Preparation
import Statechart.Proofs.Chart.Linking
import Statechart.Proofs.Chart.Evaluation
import Statechart.Proofs.Configuration.Order
import Statechart.Proofs.Machine.Legality
import Statechart.Proofs.Machine.Presence
import Statechart.Proofs.Microstep.ExposedEvent
import Statechart.Proofs.Machine.Completion
import Statechart.Proofs.Machine.Returning
import Statechart.Proofs.Machine.Resuming
import Statechart.Proofs.Chart.Editing
import Statechart.Proofs.Machine.Services
import Statechart.Proofs.Machine.Coherence
import Statechart.Proofs.Machine.Instances
import Statechart.Proofs.Machine.Suppression
import Statechart.Proofs.Machine.Reporting
import Statechart.Proofs.Microstep.Finalizing
import Statechart.Proofs.Microstep.Entrance
import Statechart.Proofs.Machine.Forwarding
import Statechart.Proofs.Machine.Quiescence
import Statechart.Proofs.Machine.Resetting
import Statechart.Proofs.Microstep.Frame
import Statechart.Proofs.Chart.DocumentOrder
import Statechart.Proofs.Microstep.Priority
import Statechart.Proofs.Microstep.Locality
import Statechart.Proofs.Microstep.Independence
import Statechart.Proofs.Machine.Expansions
import Statechart.Proofs.Machine.TargetLists
import Statechart.Proofs.Microstep.Deeds
import Statechart.Proofs.Microstep.Visits
import Statechart.Proofs.Microstep.Following
import Statechart.Proofs.Machine.Following
import Statechart.Proofs.Chart.Diagnosis
import Statechart.Proofs.Words
import Statechart.Proofs.Chart.MissingInitials
import Statechart.Proofs.Configuration.Choice
import Statechart.Proofs.Blanks
import Statechart.Proofs.Assignment
import Statechart.Proofs.Guard.Numerals
import Statechart.Proofs.Guard.Grammar
import Statechart.Proofs.Guard.Soundness
import Statechart.Proofs.Guard.Completeness
import Statechart.Proofs.Guard.Scanner
import Statechart.Proofs.Guard.Scanning
import Statechart.Proofs.Guard.Literals
import Statechart.Proofs.Guard.Parsing
import Statechart.Proofs.World.FlatRun
import Statechart.Proofs.Chart.DocumentWalk
import Statechart.Proofs.Chart.Places
import Statechart.Proofs.Chart.Filing
import Statechart.Proofs.Chart.Validated
import Statechart.Proofs.Chart.Numbering
import Statechart.Proofs.Chart.Settling
import Statechart.Proofs.Chart.Revalidation
import Statechart.Proofs.Json.Alike
import Statechart.Proofs.Json.Writing
import Statechart.Proofs.Json.Reading
import Statechart.Proofs.Definition
import Statechart.Proofs.Caching
import Statechart.Proofs.Chart.Ancestry
import Statechart.Proofs.Microstep.Routes
import Statechart.Proofs.Configuration.Ancestors
