import Errand.Form.Rehearsal
import Errand.Form.Settings
import Errand.Json.Writer
import Errand.Main
import Errand.Script.Outline
import Errand.Proofs.Script.Program
import Errand.Proofs.Script.Rules
import Errand.Proofs.Script.Soundness
import Errand.Proofs.Application.Claims
import Errand.Proofs.Application.Membership
import Errand.Proofs.Script.BigStep
import Errand.Proofs.Script.Refinement
import Errand.Proofs.Script.Shape
import Errand.Proofs.Script.Waiting
import Errand.Proofs.Task.History
import Errand.Proofs.Task.Action
import Errand.Proofs.Application.Lives
import Errand.Proofs.Application.Pending
import Errand.Proofs.Sandbox.Status
import Errand.Proofs.Application.Attendance
import Errand.Proofs.Host.Logged
import Errand.Proofs.Task.InFlight
import Errand.Proofs.Application.Assignment
import Errand.Proofs.Application.Report
import Errand.Proofs.Sandbox.Conservation
import Errand.Proofs.Scenario.Setup
import Errand.Proofs.Scenario.Completion
import Errand.Proofs.Form.Scenario
import Errand.Proofs.Script.Effects
import Errand.Proofs.Script.Chance
import Errand.Proofs.Application.Chance
import Errand.Proofs.Scheduler.Claiming
import Errand.Proofs.Application.Exchange
import Errand.Proofs.Script.Paths
import Errand.Proofs.Sandbox.Death
import Errand.Proofs.Sandbox.Stuck
import Errand.Proofs.Application.Turns
import Errand.Proofs.Script.Evaluation
import Errand.Proofs.Script.Bindings
import Errand.Proofs.Script.Kinds
import Errand.Proofs.Script.Lookups
import Errand.Proofs.Cube.Distance
import Errand.Proofs.Script.Nearest
import Errand.Proofs.Sandbox.Incidents
import Errand.Proofs.Sandbox.Walking
import Errand.Proofs.Sandbox.Arrival
import Errand.Proofs.Sandbox.Labour
import Errand.Proofs.Script.Draws
import Errand.Proofs.Script.Traces
import Errand.Proofs.Script.Nesting
import Errand.Proofs.Script.Cost
import Errand.Proofs.Scenario.Staffing
import Errand.Proofs.Cube.Touching
