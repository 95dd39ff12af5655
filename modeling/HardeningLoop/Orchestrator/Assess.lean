import HardeningLoop.Devin.Enums

/-!
# What a polled session means

`assess` decides what the controller does with a session snapshot, from the snapshot and a few facts the caller knows.
-/

namespace HardeningLoop

inductive Decision where
  | continuePolling | answerQuestion | budgetWarning | readyForVerification | needsHuman
  deriving DecidableEq, Repr

def Decision.value : Decision → String
  | .continuePolling => "continue_polling"
  | .answerQuestion => "answer_question"
  | .budgetWarning => "budget_warning"
  | .readyForVerification => "ready_for_verification"
  | .needsHuman => "needs_human"

structure Assessment where
  decision : Decision
  reason : String
  reply : Option String := none
  deriving DecidableEq, Repr

/-- `BUDGET_WARNING_FRACTION`: the double of the literal `0.9`. -/
def budgetWarningFraction : Acu := Binary64.round (9 / 10)

structure SessionFacts where
  acuCap : Acu
  schemaValid : Bool
  prVerified : Bool
  diffPolicyOk : Bool
  wallClockExceeded : Bool := false
  budgetWarningSent : Bool := false
  deriving DecidableEq, Repr

/-- Simple case folding, on the characters a case-insensitive ASCII pattern can match. -/
def foldChar (c : Char) : Char :=
  if c = 'İ' || c = 'ı' then 'i' else if c = 'ſ' then 's' else if c.toNat = 0x212A then 'k' else c.toLower

/-- The texts `a b c ..` with one choice from each list. -/
def phrases : List (List String) → List String
  | [] => [""]
  | choices :: rest => choices.flatMap fun c => (phrases rest).map (c ++ ·)

/-- `QUESTION_WHITELIST`: the texts a pattern matches, in lower case, and the reply. -/
def questionWhitelist : List (List String × String) := [
  (phrases [["which "], ["", "base "], ["branch"]], "Use `main` (the 6.1.0 remediation branch) as the base branch."),
  (phrases [["may", "can", "should"], [" i "], ["open", "create"], [" the ", " a "], ["pull request", "pr"]],
    "Yes. Open the PR against `main` in Hunter-1298/superset only."),
  (phrases [["may", "can", "should"], [" i "], ["run", "execute"], [" "], ["", "the "], ["tests"]],
    "Yes. Run the tests and attach the logs; never report tests you did not run.")]

/-- `whitelisted_reply`. -/
def whitelistedReply (question : Option String) : Option String :=
  match question with
  | none => none
  | some q =>
    let folded := String.ofList (q.toList.map foldChar)
    (questionWhitelist.find? fun entry => entry.1.any fun text => hasInfix text folded).map Prod.snd

def needsHuman (reason : String) : Assessment := { decision := .needsHuman, reason := reason }

/-- The verdict on a final report. -/
def assessReport (ext : External) (snap : SessionSnapshot) (facts : SessionFacts) : Assessment :=
  if !facts.schemaValid then needsHuman "final_output_missing_or_invalid"
  else match snap.outcome with
    | some .blocked => needsHuman ("blocked_reason:" ++ (snap.blockedReason ext).getD "missing")
    | some .noChangeNeeded => needsHuman "no_change_needed_requires_human_verification"
    | some .prOpened =>
      if snap.pullRequests = [] then needsHuman "pr_opened_claimed_but_no_pull_request"
      else if !facts.prVerified then needsHuman "pull_request_failed_verification"
      else if !facts.diffPolicyOk then needsHuman "diff_policy_violation"
      else { decision := .readyForVerification, reason := "pr_opened" }
    | none => needsHuman "unknown_outcome"

/-- `f"{status_detail}"`. -/
def detailText (snap : SessionSnapshot) : String := snap.statusDetail.elim "None" DevinStatusDetail.value

/-- `assess`: hard stops first, then questions, then a final report, then a session still at work. -/
def assess (ext : External) (snap : SessionSnapshot) (facts : SessionFacts) (pendingQuestion : Option String) :
    Assessment :=
  if snap.isBudgetStop then needsHuman ("devin_budget_stop:" ++ detailText snap)
  else if snap.isError then needsHuman "devin_error"
  else if snap.acusConsumed > facts.acuCap then
    needsHuman ("acu_cap_exceeded:" ++ formatFixed 2 snap.acusConsumed ++ ">" ++ formatFixed 2 facts.acuCap)
  else if facts.wallClockExceeded && !snap.isFinalReport then needsHuman "session_wall_clock_exceeded"
  else if snap.isWaitingForApproval then needsHuman "devin_action_approval_required"
  else if snap.isWaitingForUser && !snap.isFinalReport then
    match whitelistedReply pendingQuestion with
    | none => needsHuman ("devin_question_not_whitelisted:" ++ takeText 200 (pendingQuestion.getD ""))
    | some reply => { decision := .answerQuestion, reason := "whitelisted_question", reply := some reply }
  else if snap.isFinalReport then assessReport ext snap facts
  else if !facts.budgetWarningSent && snap.acusConsumed ≥ Binary64.mul budgetWarningFraction facts.acuCap then
    { decision := .budgetWarning, reason := "acu_budget_90pct" }
  else { decision := .continuePolling, reason := snap.status.value ++ ":" ++ detailText snap }

end HardeningLoop
