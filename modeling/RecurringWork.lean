import RecurringWork.Actor.System
import RecurringWork.Backlog.Change
import RecurringWork.Cluster.Coordinator
import RecurringWork.Cluster.Group
import RecurringWork.Dispatch.Run
import RecurringWork.Dispatch.Writer
import RecurringWork.Settings.EnvFile
import RecurringWork.Simulation.Run
import RecurringWork.Proofs.Actor.Aftermath
import RecurringWork.Proofs.Actor.Chains
import RecurringWork.Proofs.Actor.Exclusion
import RecurringWork.Proofs.Actor.Folding
import RecurringWork.Proofs.Actor.Retirement
import RecurringWork.Proofs.Actor.Retries
import RecurringWork.Proofs.Backlog.Bookkeeping
import RecurringWork.Proofs.Backlog.Budget
import RecurringWork.Proofs.Backlog.Deadlines
import RecurringWork.Proofs.Backlog.Finality
import RecurringWork.Proofs.Backlog.Queries
import RecurringWork.Proofs.Backlog.Refusals
import RecurringWork.Proofs.Backlog.Repetition
import RecurringWork.Proofs.Backlog.Succession
import RecurringWork.Proofs.Cluster.Charges
import RecurringWork.Proofs.Cluster.Deliveries
import RecurringWork.Proofs.Cluster.Duty
import RecurringWork.Proofs.Cluster.Incumbency
import RecurringWork.Proofs.Cluster.Requests
import RecurringWork.Proofs.Cluster.Views
import RecurringWork.Proofs.Cron.Enumeration
import RecurringWork.Proofs.Dispatch.Pauses
import RecurringWork.Proofs.Dispatch.Postponement
import RecurringWork.Proofs.Dispatch.Processing
import RecurringWork.Proofs.Dispatch.Routing
import RecurringWork.Proofs.Dispatch.Snapshots
import RecurringWork.Proofs.Dispatch.Submissions
import RecurringWork.Proofs.Dispatch.Turnover
import RecurringWork.Proofs.Dispatch.Wakeups
import RecurringWork.Proofs.Json.RoundTrip
import RecurringWork.Proofs.Transaction.Enactment
import RecurringWork.Proofs.Actor.Window
import RecurringWork.Proofs.Cron.Forward
import RecurringWork.Proofs.Cron.Totality
import RecurringWork.Proofs.Cluster.Subscriptions
import RecurringWork.Proofs.Cluster.Hearings
import RecurringWork.Proofs.Settings.Loaders
import RecurringWork.Proofs.Actor.Accounting
import RecurringWork.Proofs.Scheduler.Lifecycle
