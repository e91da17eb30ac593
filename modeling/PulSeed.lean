import PulSeed.AgentLoop.Coverage
import PulSeed.AgentLoop.Resumption
import PulSeed.AgentLoop.RunnerBudgets
import PulSeed.AgentLoop.ToolRouter
import PulSeed.AgentLoop.Turns
import PulSeed.Approval.Agreement
import PulSeed.Budget.Exact
import PulSeed.Budget.Status
import PulSeed.Context.Budget
import PulSeed.Context.Slots
import PulSeed.Drive.Agreement
import PulSeed.Drive.Confirmation
import PulSeed.Drive.GlobalStall
import PulSeed.Drive.TreeCompletion
import PulSeed.Executor.Activation
import PulSeed.Executor.Capacity
import PulSeed.Executor.Exclusivity
import PulSeed.Goals.CompletionCascade
import PulSeed.Goals.DependencySave
import PulSeed.Goals.LongestChains
import PulSeed.Goals.PropagateDown
import PulSeed.Goals.WriteBack
import PulSeed.Guardrails.AdapterRegistry
import PulSeed.Guardrails.Backpressure
import PulSeed.Guardrails.CircuitBreaker
import PulSeed.Llm.ExtractJson
import PulSeed.Loop.Checkpoints
import PulSeed.Loop.FailureRows
import PulSeed.Loop.RootCompletion
import PulSeed.Loop.TreeIteration
import PulSeed.Loop.TreeResume
import PulSeed.Memory.Retention
import PulSeed.Observation.AcquisitionOrder
import PulSeed.Observation.Apply
import PulSeed.Permission.Lifecycle
import PulSeed.Permission.PlanDiff
import PulSeed.Pipeline.Resumption
import PulSeed.Pipeline.Verdicts
import PulSeed.Pipeline.Workers
import PulSeed.Portfolio.Allocation
import PulSeed.Portfolio.RebalancePersistence
import PulSeed.Portfolio.Transitions
import PulSeed.Queue.Fifo
import PulSeed.Queue.Revival
import PulSeed.Runtime.BackgroundRuns
import PulSeed.Runtime.RetentionOrder
import PulSeed.Schedule.Enabled
import PulSeed.Schedule.Escalation
import PulSeed.Schedule.Reconciliation
import PulSeed.Spool.Delivery
import PulSeed.Store.ConflictSets
import PulSeed.Store.ExperimentQueue
import PulSeed.Store.Forgotten
import PulSeed.Store.GoalWriteLock
import PulSeed.Store.OutboxSequence
import PulSeed.Store.TaskMap
import PulSeed.Stream.Delivery
import PulSeed.Time.Projection
import PulSeed.Tools.Concurrency
import PulSeed.Tools.FileEdit
import PulSeed.Tools.HttpFetch
import PulSeed.Tools.JoinedCommands
import PulSeed.Tools.PatchCheck
import PulSeed.Tools.PatchLines
import PulSeed.Traits.TrustRate
