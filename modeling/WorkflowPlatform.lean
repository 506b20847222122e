import WorkflowPlatform.Access.Accounts
import WorkflowPlatform.Access.Authority
import WorkflowPlatform.Access.Origins
import WorkflowPlatform.Access.Password
import WorkflowPlatform.Access.RbacService
import WorkflowPlatform.Access.Sessions
import WorkflowPlatform.Api.Dashboard
import WorkflowPlatform.Api.Endpoints
import WorkflowPlatform.Api.RequestView
import WorkflowPlatform.Cases.Automaton
import WorkflowPlatform.Cases.Closable
import WorkflowPlatform.Cases.Forward
import WorkflowPlatform.Cases.Interleaving
import WorkflowPlatform.Cases.Refinement
import WorkflowPlatform.Cases.WorkedOff
import WorkflowPlatform.Client.Blueprint
import WorkflowPlatform.Client.BlueprintOrder
import WorkflowPlatform.Client.BlueprintRoles
import WorkflowPlatform.Client.Displayed
import WorkflowPlatform.Client.Pages
import WorkflowPlatform.Client.Payload
import WorkflowPlatform.Client.Timeline
import WorkflowPlatform.Client.Wizard
import WorkflowPlatform.Concurrency.DoubleDecision
import WorkflowPlatform.Concurrency.DoubleEscalation
import WorkflowPlatform.Concurrency.Scans
import WorkflowPlatform.Concurrency.Transactions
import WorkflowPlatform.Deciding.Taken
import WorkflowPlatform.Deciding.Target
import WorkflowPlatform.Deciding.TaskList
import WorkflowPlatform.Deciding.Vocabulary
import WorkflowPlatform.Definitions.Deletion
import WorkflowPlatform.Definitions.RoundTrip
import WorkflowPlatform.Engine.CallEffect
import WorkflowPlatform.Engine.Condition
import WorkflowPlatform.Engine.DecisionEffect
import WorkflowPlatform.Engine.Definition
import WorkflowPlatform.Engine.DefinitionEffect
import WorkflowPlatform.Engine.Process
import WorkflowPlatform.Engine.ProcessLaws
import WorkflowPlatform.Engine.ScanEffect
import WorkflowPlatform.Engine.SlaMonitor
import WorkflowPlatform.Engine.StartEffect
import WorkflowPlatform.Engine.Transaction
import WorkflowPlatform.Foundation.Admission
import WorkflowPlatform.Foundation.Attributes
import WorkflowPlatform.Foundation.Batch
import WorkflowPlatform.Foundation.Cascade
import WorkflowPlatform.Foundation.FlagGuard
import WorkflowPlatform.Foundation.Interleaving
import WorkflowPlatform.Foundation.Journey
import WorkflowPlatform.Foundation.Keyed
import WorkflowPlatform.Foundation.Line
import WorkflowPlatform.Foundation.Outputs
import WorkflowPlatform.Foundation.Paging
import WorkflowPlatform.Foundation.Potential
import WorkflowPlatform.Foundation.Projection
import WorkflowPlatform.Foundation.RowOrder
import WorkflowPlatform.Foundation.Run
import WorkflowPlatform.Foundation.Sweep
import WorkflowPlatform.Foundation.Trail
import WorkflowPlatform.Foundation.UnitOfWork
import WorkflowPlatform.Guards.Comparisons
import WorkflowPlatform.Guards.Interference
import WorkflowPlatform.Ledger.AuditTrail
import WorkflowPlatform.Ledger.Frame
import WorkflowPlatform.Ledger.HistoryOrder
import WorkflowPlatform.Ledger.Pages
import WorkflowPlatform.Ledger.Requests
import WorkflowPlatform.Ledger.StateTrail
import WorkflowPlatform.Lifecycle.Conduct
import WorkflowPlatform.Lifecycle.Decisions
import WorkflowPlatform.Lifecycle.DefinitionChanges
import WorkflowPlatform.Lifecycle.Definitions
import WorkflowPlatform.Lifecycle.History
import WorkflowPlatform.Lifecycle.Kept
import WorkflowPlatform.Lifecycle.Path
import WorkflowPlatform.Lifecycle.Preservation
import WorkflowPlatform.Lifecycle.Reachable
import WorkflowPlatform.Lifecycle.Shapes
import WorkflowPlatform.Lifecycle.StoredGraph
import WorkflowPlatform.Monitoring.Deadlines
import WorkflowPlatform.Monitoring.Decided
import WorkflowPlatform.Monitoring.Marks
import WorkflowPlatform.Monitoring.Scan
import WorkflowPlatform.Notify.Announced
import WorkflowPlatform.Notify.Handover
import WorkflowPlatform.Notify.Mails
import WorkflowPlatform.Notify.Recipients
import WorkflowPlatform.Python.Json
import WorkflowPlatform.Python.LetterCase
import WorkflowPlatform.Python.Number
import WorkflowPlatform.Routing.Linear
import WorkflowPlatform.Routing.Orders
import WorkflowPlatform.Routing.Passage
import WorkflowPlatform.Routing.Verdict
import WorkflowPlatform.Service.Accountability
import WorkflowPlatform.Service.Bootstrap
import WorkflowPlatform.Service.Escalation
import WorkflowPlatform.Service.Lifetime
import WorkflowPlatform.Service.Requests
import WorkflowPlatform.Service.Sessions
import WorkflowPlatform.Service.Standing
import WorkflowPlatform.Service.UserList
import WorkflowPlatform.Store.Columns
import WorkflowPlatform.Store.Status
import WorkflowPlatform.Store.Tables
import WorkflowPlatform.Store.Write
import WorkflowPlatform.Deciding.Answers
