import HardeningLoop.Domain.Json
import Mathlib.Data.Int.Order.Basic

/-!
# Domain enumerations and configuration constants

The typed enumerations shared by the whole controller, each with the text (`value`) the source stores and prints for it,
and the constants and settings the orchestrator reads. A date is an instant, and need not be one that the source can
show in UTC; ACUs are doubles, and what is computed with them is rounded.
-/

namespace HardeningLoop

/-- A date: the microseconds from `datetime.min` in UTC. The offset of a date takes it up to a day out of what UTC can
show. -/
abbrev DateTime := Int

instance : Preorder DateTime := Int.instLinearOrder.toPreorder

/-- `datetime.max` in UTC, and one microsecond. -/
def DateTime.bound : Int := 315537897600000000

/-- `astimezone(timezone.utc)` does not raise `OverflowError`. -/
def DateTime.inRange (t : DateTime) : Prop := 0 ≤ t ∧ t < DateTime.bound

instance (t : DateTime) : Decidable (DateTime.inRange t) := inferInstanceAs (Decidable (_ ∧ _))

/-- ACUs, a quantity of Devin's compute: the number a finite double stands for. -/
abbrev Acu := Rat

inductive Scanner where
  | trivy | grype
  deriving DecidableEq, Repr

def Scanner.value : Scanner → String
  | .trivy => "trivy"
  | .grype => "grype"

inductive GateMode where
  | report | enforce
  deriving DecidableEq, Repr

def GateMode.value : GateMode → String
  | .report => "report"
  | .enforce => "enforce"

inductive ScanMode where
  | raw | policy
  deriving DecidableEq, Repr

def ScanMode.value : ScanMode → String
  | .raw => "raw"
  | .policy => "policy"

inductive ImageTarget where
  | lean | ci
  deriving DecidableEq, Repr

def ImageTarget.value : ImageTarget → String
  | .lean => "lean"
  | .ci => "ci"

inductive Severity where
  | critical | high | medium | low | unknown
  deriving DecidableEq, Repr

def Severity.value : Severity → String
  | .critical => "CRITICAL"
  | .high => "HIGH"
  | .medium => "MEDIUM"
  | .low => "LOW"
  | .unknown => "UNKNOWN"

def Severity.rank : Severity → Nat
  | .unknown => 0
  | .low => 1
  | .medium => 2
  | .high => 3
  | .critical => 4

inductive Layer where
  | python | os | binary | dockerfile | helm | compose
  deriving DecidableEq, Repr

def Layer.value : Layer → String
  | .python => "python"
  | .os => "os"
  | .binary => "binary"
  | .dockerfile => "dockerfile"
  | .helm => "helm"
  | .compose => "compose"

/-- `CONFIG_LAYERS` of the closer and of the grouper. -/
def configLayers : List Layer := [.dockerfile, .helm, .compose]

inductive Ecosystem where
  | pypi | deb | npm | golang | binary | config | unknown
  deriving DecidableEq, Repr

def Ecosystem.value : Ecosystem → String
  | .pypi => "pypi"
  | .deb => "deb"
  | .npm => "npm"
  | .golang => "golang"
  | .binary => "binary"
  | .config => "config"
  | .unknown => "unknown"

/-- `SCANNER_ECOSYSTEMS`: what each pinned scanner can match vulnerabilities for. -/
def scannerEcosystems : Scanner → List Ecosystem
  | .trivy => [.pypi, .deb, .npm, .golang]
  | .grype => [.pypi, .deb, .npm, .golang, .binary]

inductive Kind where
  | dependencyUpgrade | noFixReachability | containerHardening | scannerDisagreement | helmDeployConfig
  deriving DecidableEq, Repr

/-- The number of a kind in the brief, by which kinds are ordered. -/
def Kind.number : Kind → Nat
  | .dependencyUpgrade => 1
  | .noFixReachability => 2
  | .containerHardening => 3
  | .scannerDisagreement => 4
  | .helmDeployConfig => 5

def Kind.acuCap : Kind → Nat
  | .dependencyUpgrade => 5
  | .noFixReachability => 8
  | .containerHardening => 20
  | .scannerDisagreement => 3
  | .helmDeployConfig => 6

def Kind.playbookSlug : Kind → String
  | .dependencyUpgrade => "pb-dependency-upgrade"
  | .noFixReachability => "pb-no-fix-openvex"
  | .containerHardening => "pb-container-hardening"
  | .scannerDisagreement => "pb-scanner-disagreement"
  | .helmDeployConfig => "pb-helm-security"

/-- `KIND_LABELS`. -/
def Kind.label : Kind → String
  | .dependencyUpgrade => "kind:dependency-upgrade"
  | .noFixReachability => "kind:no-fix-reachability"
  | .containerHardening => "kind:container-hardening"
  | .scannerDisagreement => "kind:scanner-disagreement"
  | .helmDeployConfig => "kind:helm-deploy-config"

inductive Risk where
  | normal | high
  deriving DecidableEq, Repr

def Risk.value : Risk → String
  | .normal => "normal"
  | .high => "high"

inductive FindingState where
  | «open» | unclassified | grouped | inRemediation | awaitingRescan | fixed | approvedDisposition
  | scannerDisagreementResolved | regression | humanBlocked
  deriving DecidableEq, Repr

def FindingState.value : FindingState → String
  | .«open» => "open"
  | .unclassified => "unclassified"
  | .grouped => "grouped"
  | .inRemediation => "in_remediation"
  | .awaitingRescan => "awaiting_rescan"
  | .fixed => "fixed"
  | .approvedDisposition => "approved_disposition"
  | .scannerDisagreementResolved => "scanner_disagreement_resolved"
  | .regression => "regression"
  | .humanBlocked => "human_blocked"

/-- `CLOSING_FINDING_STATES` (and `_CLOSED_STATES` of the intake): the finding is settled. -/
def closingFindingStates : List FindingState := [.fixed, .approvedDisposition, .scannerDisagreementResolved]

/-- The finding is in a closing state. -/
def FindingState.isClosing (s : FindingState) : Bool := s ∈ closingFindingStates

inductive WorkItemState where
  | queued | issueOpen | dispatching | sessionActive | prOpen | checksRunning | checksFailed | reviewPending
  | readyForHuman | merged | awaitingRescan | verified | needsHuman | abandoned | failed
  deriving DecidableEq, Repr

def WorkItemState.value : WorkItemState → String
  | .queued => "queued"
  | .issueOpen => "issue_open"
  | .dispatching => "dispatching"
  | .sessionActive => "session_active"
  | .prOpen => "pr_open"
  | .checksRunning => "checks_running"
  | .checksFailed => "checks_failed"
  | .reviewPending => "review_pending"
  | .readyForHuman => "ready_for_human"
  | .merged => "merged"
  | .awaitingRescan => "awaiting_rescan"
  | .verified => "verified"
  | .needsHuman => "needs_human"
  | .abandoned => "abandoned"
  | .failed => "failed"

/-- `ACTIVE_WORK_ITEM_STATES`. -/
def activeWorkItemStates : List WorkItemState :=
  [.dispatching, .sessionActive, .prOpen, .checksRunning, .checksFailed, .reviewPending]

/-- `TERMINAL_WORK_ITEM_STATES`. -/
def terminalWorkItemStates : List WorkItemState := [.verified, .abandoned]

/-- `LifecycleLevel`, an integer enumeration. -/
inductive LifecycleLevel where
  | none | prOpened | ciGreen | reviewCompleted | humanApproved | merged | rescanVerified
  deriving DecidableEq, Repr

def LifecycleLevel.toNat : LifecycleLevel → Nat
  | .none => 0
  | .prOpened => 1
  | .ciGreen => 2
  | .reviewCompleted => 3
  | .humanApproved => 4
  | .merged => 5
  | .rescanVerified => 6

def LifecycleLevel.label : LifecycleLevel → String
  | .none => "none"
  | .prOpened => "pr_opened"
  | .ciGreen => "ci_green"
  | .reviewCompleted => "review_completed"
  | .humanApproved => "human_approved"
  | .merged => "merged"
  | .rescanVerified => "rescan_verified"

/-- `VerificationDepth`, an integer enumeration; the list `depths` has them in order. -/
inductive VerificationDepth where
  | requirementsPip | importMigrations | targetedUnit | immutableImageRuntime | dbSubset | playwright | canary
  deriving DecidableEq, Repr

def VerificationDepth.toNat : VerificationDepth → Nat
  | .requirementsPip => 0
  | .importMigrations => 1
  | .targetedUnit => 2
  | .immutableImageRuntime => 3
  | .dbSubset => 4
  | .playwright => 5
  | .canary => 6

def VerificationDepth.name : VerificationDepth → String
  | .requirementsPip => "requirements_pip"
  | .importMigrations => "import_migrations"
  | .targetedUnit => "targeted_unit"
  | .immutableImageRuntime => "immutable_image_runtime"
  | .dbSubset => "db_subset"
  | .playwright => "playwright"
  | .canary => "canary"

def depths : List VerificationDepth :=
  [.requirementsPip, .importMigrations, .targetedUnit, .immutableImageRuntime, .dbSubset, .playwright, .canary]

inductive CheckStatus where
  | pending | passed | failed | partial_ | unavailable
  deriving DecidableEq, Repr

def CheckStatus.value : CheckStatus → String
  | .pending => "pending"
  | .passed => "passed"
  | .failed => "failed"
  | .partial_ => "partial"
  | .unavailable => "unavailable"

inductive CheckSource where
  | githubCheck | ladder | devinClaim
  deriving DecidableEq, Repr

inductive ScanRunStatus where
  | complete | incomplete | failed
  deriving DecidableEq, Repr

def ScanRunStatus.value : ScanRunStatus → String
  | .complete => "complete"
  | .incomplete => "incomplete"
  | .failed => "failed"

inductive Trigger where
  | push | pullRequest | schedule | workflowDispatch | replay | fixture
  deriving DecidableEq, Repr

def Trigger.value : Trigger → String
  | .push => "push"
  | .pullRequest => "pull_request"
  | .schedule => "schedule"
  | .workflowDispatch => "workflow_dispatch"
  | .replay => "replay"
  | .fixture => "fixture"

/-- `CLOSING_TRIGGERS`. -/
def closingTriggers : List Trigger := [.push, .schedule, .workflowDispatch, .replay, .fixture]

inductive HumanLabel where
  | needsHuman | dispatchApproved | dispositionApproved | disagreementResolved | retry | verifyNoChange
  deriving DecidableEq, Repr

def HumanLabel.value : HumanLabel → String
  | .needsHuman => "needs-human"
  | .dispatchApproved => "dispatch:approved"
  | .dispositionApproved => "disposition:approved"
  | .disagreementResolved => "disagreement:resolved"
  | .retry => "retry"
  | .verifyNoChange => "verify-no-change"

/-! ## Configuration -/

/-- `FORK_REPO`. -/
def forkRepo : String := "Hunter-1298/superset"

/-- `CONTROLLER_REPO`. -/
def controllerRepo : String := "Hunter-1298/superset-hardening-loop"

/-- `REPO_ALLOWLIST`. -/
def repoAllowlist : List String := [forkRepo, controllerRepo]

/-- `REMEDIATION_BRANCH`. -/
def remediationBranch : String := "main"

/-- `PINNED_VERSIONS`: the scanner versions the controller is pinned to. -/
def pinnedVersion : Scanner → String
  | .trivy => "0.71.2"
  | .grype => "0.114.0"

/-- `CONTROLLER_LABEL` and `AWAITING_DISPATCH_LABEL`. -/
def controllerLabel : String := "hardening-loop"

def awaitingDispatchLabel : String := "awaiting-dispatch-approval"

/-- The settings the orchestrator reads, with their defaults. -/
structure Settings where
  repo : String := forkRepo
  maxConcurrentSessions : Nat := 2
  globalAcuBudget : Acu := 60
  retriesPerWorkItem : Nat := 2
  sessionWallClockMax : DateTime := 3 * 3600 * 1000000
  reviewTimeoutMinutes : Nat := 30
  approverLogins : List String := ["Hunter-1298"]
  requiredCheckNames : List String := []
  maxDispatchFailures : Nat := 3
  autoOpenIssues : Bool := true
  deriving DecidableEq, Repr

/-- What the controller asks of libraries outside the repository and of the Unicode tables. `versionGe a b` is
`Version(a) >= Version(b)`, `none` when `a` does not parse; `specContains spec v` says whether the specifier set
`spec` contains `Version(v)`, prereleases excluded, `none` when `v` does not parse, and `specRaises spec v` that this
raises another exception (the language does not convert the numbers of a version that have more than 4300 digits);
`dumpable` says that `json.dumps` of a value does not come to the recursion limit; `validateOutput` is the JSON-schema
validation of a session's structured output; `wordChar` is the class `\w` of the regular expressions, `digitValue`
the value of a character of the class `\d`, and `spaceChar` says what `strip` removes. -/
structure External where
  versionGe : String → String → Option Bool
  specContains : String → String → Option Bool
  specRaises : String → String → Bool := fun _ _ => false
  dumpable : Json → Bool := fun _ => true
  validateOutput : Kind → Json → List String
  wordChar : Char → Bool
  digitValue : Char → Option Nat
  spaceChar : Char → Bool

end HardeningLoop
