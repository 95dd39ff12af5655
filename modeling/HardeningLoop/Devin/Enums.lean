import HardeningLoop.Domain.Enums
import HardeningLoop.Domain.Text

/-!
# Devin sessions and reviews

The statuses of a Devin session, the snapshot of one the controller polls (`SessionSnapshot`) with its predicates, and
the snapshot of a pull-request review.
-/

namespace HardeningLoop

inductive DevinStatus where
  | new | claimed | running | exit | error | suspended | resuming
  deriving DecidableEq, Repr

def DevinStatus.value : DevinStatus → String
  | .new => "new"
  | .claimed => "claimed"
  | .running => "running"
  | .exit => "exit"
  | .error => "error"
  | .suspended => "suspended"
  | .resuming => "resuming"

inductive DevinStatusDetail where
  | working | waitingForUser | waitingForApproval | finished | inactivity | userRequest | usageLimitExceeded
  | outOfCredits | outOfQuota | noQuotaAllocation | paymentDeclined | orgUsageLimitExceeded | userUsageLimitExceeded
  | totalSessionLimitExceeded | error
  deriving DecidableEq, Repr

def DevinStatusDetail.value : DevinStatusDetail → String
  | .working => "working"
  | .waitingForUser => "waiting_for_user"
  | .waitingForApproval => "waiting_for_approval"
  | .finished => "finished"
  | .inactivity => "inactivity"
  | .userRequest => "user_request"
  | .usageLimitExceeded => "usage_limit_exceeded"
  | .outOfCredits => "out_of_credits"
  | .outOfQuota => "out_of_quota"
  | .noQuotaAllocation => "no_quota_allocation"
  | .paymentDeclined => "payment_declined"
  | .orgUsageLimitExceeded => "org_usage_limit_exceeded"
  | .userUsageLimitExceeded => "user_usage_limit_exceeded"
  | .totalSessionLimitExceeded => "total_session_limit_exceeded"
  | .error => "error"

/-- `BUDGET_STOP_DETAILS`. -/
def budgetStopDetails : List DevinStatusDetail :=
  [.usageLimitExceeded, .outOfCredits, .outOfQuota, .noQuotaAllocation, .paymentDeclined, .orgUsageLimitExceeded,
    .userUsageLimitExceeded, .totalSessionLimitExceeded]

/-- `RESUMABLE_SUSPENSION_DETAILS`. -/
def resumableSuspensionDetails : List DevinStatusDetail := [.inactivity, .userRequest]

/-- The `outcome` field of a structured output. -/
inductive Outcome where
  | prOpened | blocked | noChangeNeeded
  deriving DecidableEq, Repr

/-- `Outcome(raw)`; `none` is `ValueError`. -/
def Outcome.parse : String → Option Outcome
  | "pr_opened" => some .prOpened
  | "blocked" => some .blocked
  | "no_change_needed" => some .noChangeNeeded
  | _ => none

structure SessionPullRequest where
  prUrl : String
  prState : Option String := none
  deriving DecidableEq, Repr

structure SessionSnapshot where
  sessionId : String
  url : String := ""
  status : DevinStatus
  statusDetail : Option DevinStatusDetail := none
  acusConsumed : Acu := 0
  pullRequests : List SessionPullRequest := []
  structuredOutput : Option Json := none
  createdAt : Nat := 0

namespace SessionSnapshot

variable (snap : SessionSnapshot)

def isDone : Bool :=
  snap.status ∈ [DevinStatus.exit, .error] || (snap.status == .running && snap.statusDetail == some .finished)

/-- The structured output, when it is a non-empty dictionary. -/
def output? : Option Json :=
  match snap.structuredOutput with
  | some (.obj (kv :: fields)) => some (.obj (kv :: fields))
  | _ => none

def outcome : Option Outcome := (snap.output?.bind (·.getStr? "outcome")).bind Outcome.parse

/-- The blocked reason, when it is text that is not blank. -/
def blockedReason (ext : External) : Option String :=
  (snap.output?.bind (·.getStr? "blocked_reason")).filter (notBlank ext)

def noChangeNeeded : Bool := snap.outcome == some .noChangeNeeded

def isInactivitySuspension : Bool := snap.status == .suspended && snap.statusDetail == some .inactivity

def isResumableSuspension : Bool :=
  snap.status == .suspended && snap.statusDetail.any (· ∈ resumableSuspensionDetails)

def isWaitingForUser : Bool := snap.status == .running && snap.statusDetail == some .waitingForUser

def isWaitingForApproval : Bool := snap.status == .running && snap.statusDetail == some .waitingForApproval

def isBudgetStop : Bool := snap.statusDetail.any (· ∈ budgetStopDetails)

def isError : Bool := snap.status == .error || snap.statusDetail == some .error

/-- The session finished, or it declared `pr_opened` and idles. -/
def isFinalReport : Bool :=
  snap.isDone || ((snap.isWaitingForUser || snap.isInactivitySuspension) && snap.outcome == some .prOpened)

/-- The session may still produce work. -/
def isActive : Bool :=
  snap.status ∈ [DevinStatus.new, .claimed, .running, .resuming] || snap.isResumableSuspension

end SessionSnapshot

inductive ReviewStatus where
  | pending | running | completed | errored | cancelled
  deriving DecidableEq, Repr

def ReviewStatus.value : ReviewStatus → String
  | .pending => "pending"
  | .running => "running"
  | .completed => "completed"
  | .errored => "errored"
  | .cancelled => "cancelled"

structure ReviewSnapshot where
  status : ReviewStatus
  repoPath : String
  prNumber : Nat
  commitSha : String
  deriving DecidableEq, Repr

end HardeningLoop
