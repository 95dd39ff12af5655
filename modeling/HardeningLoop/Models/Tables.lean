import HardeningLoop.Lib.Table
import HardeningLoop.Lib.Dict
import HardeningLoop.Devin.Enums
import HardeningLoop.Github.Protocol
import HardeningLoop.Orchestrator.State

/-!
# The database

The tables of the controller, one structure per row type, and the database `Db` made of them. Ids are positions (see
`Rows.Table`). The event log is the list of its rows, oldest first; an event keeps the typed name of a transition.
-/

namespace HardeningLoop

open Rows (Table)

/-- A date as it was written: the instant, and the ISO text that keeps its offset. -/
structure Stamp where
  at_ : DateTime
  iso : String
  deriving DecidableEq, Repr

/-- The `tools` block of a scan run. -/
structure RunTools where
  syft : String
  trivy : String
  grype : String
  trivyDbUpdatedAt : Option String
  grypeDbBuiltAt : Option String
  deriving DecidableEq, Repr

/-- `repr` of the `tools` dictionary. -/
def RunTools.text (t : RunTools) : String :=
  "\x7b'syft': " ++ reprText t.syft ++ ", 'trivy': " ++ reprText t.trivy ++ ", 'grype': " ++ reprText t.grype ++
    ", 'trivy_db_updated_at': " ++ reprOption t.trivyDbUpdatedAt ++ ", 'grype_db_built_at': " ++
    reprOption t.grypeDbBuiltAt ++ "\x7d"

structure ScanRun where
  externalRunId : String
  trigger : Trigger
  sourceRepo : String
  sourceBranch : String
  sourceSha : String
  platform : String
  leanDigest : Option String
  tools : RunTools
  scanGateMode : GateMode := .report
  vexDocuments : List Json
  status : ScanRunStatus
  finishedAt : Option DateTime
  ingestedAt : DateTime
  isBaseline : Bool := false
  closureAppliedAt : Option DateTime := none

structure ScanJob where
  scanRunId : Nat
  name : String
  imageTarget : Option ImageTarget := none
  success : Bool
  toolVersion : Option String := none
  dbBuiltAt : Option DateTime := none
  deriving DecidableEq, Repr

structure Finding where
  dedupeKey : String
  vulnId : String
  purl : Option String := none
  pkgName : Option String := none
  pkgVersion : Option String := none
  ecosystem : Ecosystem := .unknown
  layer : Layer
  imageTarget : Option ImageTarget := none
  platform : String := "linux/amd64"
  resource : Option String := none
  title : Option String := none
  severity : Severity := .unknown
  severityByScanner : List (String × String) := []
  severityDisagreement : Bool := false
  fixVersionsByScanner : List (String × List String) := []
  reportedByTrivy : Bool := false
  reportedByGrype : Bool := false
  openedByTrivy : Bool := false
  openedByGrype : Bool := false
  kind : Option Kind := none
  risk : Risk := .normal
  boundBlocked : Bool := false
  classificationTrace : Option String := none
  unclassifiedReason : Option String := none
  state : FindingState := .«open»
  firstSeenRunId : Nat
  lastSeenRunId : Nat
  openingDbBuiltAt : Option DateTime := none
  workItemId : Option Nat := none
  closedByRunId : Option Nat := none
  createdAt : DateTime
  updatedAt : DateTime
  deriving DecidableEq, Repr

structure Sighting where
  findingId : Nat
  scanRunId : Nat
  scanner : Scanner
  mode : ScanMode
  present : Bool
  severity : Option Severity := none
  fixedVersions : List String := []
  deriving DecidableEq, Repr

structure WorkItem where
  kind : Kind
  groupKey : String
  title : String
  sourceBranch : String := remediationBranch
  severity : Severity
  risk : Risk
  state : WorkItemState := .queued
  acuCap : Acu
  retriesUsed : Nat := 0
  budgetWarningSent : Bool := false
  activeSessionId : Option String := none
  issueNumber : Option Nat := none
  issueUrl : Option String := none
  prNumber : Option Nat := none
  prUrl : Option String := none
  prHeadSha : Option String := none
  mergeSha : Option String := none
  lifecycleLevel : LifecycleLevel := .none
  verificationDepth : Option VerificationDepth := none
  blockedReason : Option String := none
  humanResolution : Option String := none
  dispatchFailures : Nat := 0
  regressionOfWorkItemId : Option Nat := none
  createdAt : DateTime
  updatedAt : DateTime
  issueOpenedAt : Option DateTime := none
  prOpenedAt : Option DateTime := none
  mergedAt : Option DateTime := none
  verifiedAt : Option DateTime := none
  deriving DecidableEq, Repr

/-- What a work item is, apart from what becomes of it. -/
def WorkItem.core (w : WorkItem) : Kind × String × String × String × Severity × Risk × Acu × Option Nat × DateTime :=
  (w.kind, w.groupKey, w.title, w.sourceBranch, w.severity, w.risk, w.acuCap, w.regressionOfWorkItemId, w.createdAt)

structure Session where
  devinId : String
  workItemId : Nat
  url : String
  playbookId : Option String
  maxAcuLimit : Acu
  status : DevinStatus
  statusDetail : Option DevinStatusDetail
  acusConsumed : Acu
  structuredOutput : Option Json := none
  pullRequests : List SessionPullRequest := []
  messagesSent : Nat := 0
  createdAt : DateTime
  lastPolledAt : Option DateTime := none
  finishedAt : Option DateTime := none

structure SessionPoll where
  sessionId : Nat
  polledAt : DateTime
  status : DevinStatus
  statusDetail : Option DevinStatusDetail
  acusConsumed : Acu
  decision : String
  reason : String

structure PullRequest where
  workItemId : Nat
  repo : String
  number : Nat
  url : String
  baseBranch : String
  headBranch : String
  headSha : String
  state : String
  mergeSha : Option String := none
  firstHeadSha : Option String
  firstHeadChecksGreen : Option Bool := none
  diffPolicyOk : Option Bool
  lifecycleLevel : LifecycleLevel := .prOpened
  verificationDepth : Option VerificationDepth := none
  depthRungs : List (String × String) := []
  reviewStatus : Option String := none
  reviewId : Option String := none
  reviewHeadSha : Option String := none
  approvedBy : Option String := none
  openedAt : DateTime
  mergedAt : Option DateTime := none
  updatedAt : DateTime
  deriving DecidableEq, Repr

structure PRCheck where
  pullRequestId : Nat
  headSha : String
  name : String
  status : String
  conclusion : Option String
  url : Option String
  observedAt : DateTime
  deriving DecidableEq, Repr

structure VerificationCheck where
  pullRequestId : Nat
  headSha : String
  depth : VerificationDepth
  name : String
  source : CheckSource
  status : CheckStatus
  detail : String
  url : Option String
  observedAt : DateTime
  deriving DecidableEq, Repr

inductive EntityType where
  | workItem | finding | session | pullRequest | scanRun
  deriving DecidableEq, Repr

/-- The name of an event: a transition of one of the two tables, or an entry of the log that is none. -/
inductive EventName where
  | workItem (e : WorkItemEvent)
  | finding (e : FindingEvent)
  | log (name : String)
  deriving DecidableEq, Repr

def EventName.value : EventName → String
  | .workItem e => e.value
  | .finding e => e.value
  | .log name => name

structure Event where
  ts : DateTime
  actor : String
  entityType : EntityType
  entityId : Nat
  event : EventName
  fromState : Option String
  toState : Option String
  reason : Option String
  evidenceIds : List Nat
  deriving DecidableEq, Repr

structure Db where
  scanRuns : Table ScanRun
  scanJobs : Table ScanJob
  findings : Table Finding
  sightings : Table Sighting
  workItems : Table WorkItem
  sessions : Table Session
  sessionPolls : Table SessionPoll
  pullRequests : Table PullRequest
  prChecks : Table PRCheck
  verificationChecks : Table VerificationCheck
  events : List Event

/-- A fresh database. -/
def Db.empty : Db :=
  ⟨.empty, .empty, .empty, .empty, .empty, .empty, .empty, .empty, .empty, .empty, []⟩

/-- What a finding is and which runs reported it: the finding without what the engine writes. -/
def Finding.core (f : Finding) : Finding :=
  { f with state := .«open», workItemId := none, closedByRunId := none, updatedAt := 0 }

/-- What is read off the core is the same of findings with the same core. -/
theorem Finding.of_core {α : Type*} {f f' : Finding} (g : Finding → α) (hg : ∀ f, g f.core = g f)
    (h : f'.core = f.core) : g f' = g f := by rw [← hg f', h, hg]

/-- Hand a finding to a work item, or to none. -/
def Finding.giveTo (owner : Option Nat) (f : Finding) : Finding := { f with workItemId := owner }

/-- The ids of the findings a work item owns. -/
def Db.members (db : Db) (wid : Nat) : List Nat := db.findings.select fun f => f.workItemId == some wid

/-- The state of a work item. -/
def Db.itemState (db : Db) (wid : Nat) : Option WorkItemState := (db.workItems.get? wid).map WorkItem.state

/-- The state of a finding. -/
def Db.findingState (db : Db) (fid : Nat) : Option FindingState := (db.findings.get? fid).map Finding.state

/-- The jobs of a scan run. -/
def Db.jobsOf (db : Db) (rid : Nat) : List ScanJob := db.scanJobs.rows.filter fun j => j.scanRunId == rid

/-- The sightings of a scan run. -/
def Db.sightingsOf (db : Db) (rid : Nat) : List Sighting := db.sightings.rows.filter fun s => s.scanRunId == rid

theorem Db.mem_members {db : Db} {wid i : Nat} :
    i ∈ db.members wid ↔ ∃ f, db.findings.get? i = some f ∧ f.workItemId = some wid := by
  simp [members, Table.mem_select]

end HardeningLoop
