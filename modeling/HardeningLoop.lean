import HardeningLoop.Lib.Fold
import HardeningLoop.Lib.Lists
import HardeningLoop.Lib.Machine
import HardeningLoop.Devin.Rest
import HardeningLoop.Models.Tables
import HardeningLoop.Classify.Rules
import HardeningLoop.Classify.Group
import HardeningLoop.Ingest.Normalization
import HardeningLoop.Ingest.Vex
import HardeningLoop.Ingest.Checksums
import HardeningLoop.Ingest.Chronology
import HardeningLoop.Ingest.Discovery
import HardeningLoop.Orchestrator.Policy
import HardeningLoop.Orchestrator.Assess
import HardeningLoop.Orchestrator.Launch
import HardeningLoop.Orchestrator.Verification
import HardeningLoop.Orchestrator.Engine.Dispatch
import HardeningLoop.Orchestrator.Engine.Closure
import HardeningLoop.Orchestrator.Engine.PullRequests
import HardeningLoop.Orchestrator.Engine.Labels
import HardeningLoop.Orchestrator.System
import HardeningLoop.Orchestrator.Engine.Units
import HardeningLoop.Orchestrator.Transactions
import HardeningLoop.Orchestrator.Intake
import HardeningLoop.Orchestrator.ClosingEvidence
import HardeningLoop.Orchestrator.Reopening
import HardeningLoop.Orchestrator.Overruling
import HardeningLoop.Orchestrator.Verified
import HardeningLoop.Orchestrator.Merging
import HardeningLoop.Orchestrator.Holding
import HardeningLoop.Orchestrator.Capacity
import HardeningLoop.Orchestrator.Accepting
import HardeningLoop.Orchestrator.Budget
import HardeningLoop.Orchestrator.Audit
import HardeningLoop.Orchestrator.Priority
import HardeningLoop.Orchestrator.Ownership
import HardeningLoop.Orchestrator.Raising
import HardeningLoop.Orchestrator.Settling
import HardeningLoop.Orchestrator.Binding
import HardeningLoop.Orchestrator.Adoption
import HardeningLoop.Orchestrator.Approval
import HardeningLoop.Orchestrator.Disposition
import HardeningLoop.Orchestrator.Families
import HardeningLoop.Gate
import HardeningLoop.Orchestrator.GateAgreement
import HardeningLoop.Orchestrator.Grouping
import HardeningLoop.Orchestrator.Retries
import HardeningLoop.Ci.Agreement
import HardeningLoop.Orchestrator.DiffPolicy
import HardeningLoop.Orchestrator.Resolution
import HardeningLoop.Orchestrator.Ladder
import HardeningLoop.Orchestrator.Advancing
import HardeningLoop.Orchestrator.Reviews
import HardeningLoop.Orchestrator.Cancelling
import HardeningLoop.Orchestrator.Questions
import HardeningLoop.Orchestrator.Triggers
import HardeningLoop.Devin.Assets
import HardeningLoop.Orchestrator.Regressed
import HardeningLoop.Classify.PackageNames
import HardeningLoop.Orchestrator.MergeOrder
import HardeningLoop.Orchestrator.Seen
import HardeningLoop.Orchestrator.Ledger
import HardeningLoop.Metrics
import HardeningLoop.Orchestrator.Launching
import HardeningLoop.Migrations
import HardeningLoop.Ingest.Backlog
import HardeningLoop.Negative
import HardeningLoop.Logging
import HardeningLoop.Ci.VexLint
