import HardeningLoop.Orchestrator.Assess
import HardeningLoop.Orchestrator.Engine.Closure
import HardeningLoop.Orchestrator.Engine.Dispatch

/-!
# Session polls

`pollSession` applies a polled snapshot to the work item that owns the session: the session row, the assessment, and
what the assessment decides.
-/

namespace HardeningLoop

open Rows (Table)

/-- What Devin and GitHub answer while a snapshot is applied: the pull request behind the session, its files and the
session's question. -/
structure SessionAnswers where
  pullRequest : Except String PullRequestInfo := .error ""
  files : List DiffFile := []
  question : Option String := none

/-- The pull request a session's output claims. -/
def claimedUrl (snap : SessionSnapshot) : Option String := snap.output?.bind (·.getStr? "pr_url")

/-- `_resolve_pr`: exactly one pull request of the fork, as GitHub describes it, with its problems. -/
def resolvePr (env : Env) (snap : SessionSnapshot) (answer : Except String PullRequestInfo) :
    Option PullRequestInfo × List String :=
  let claimed := (claimedUrl snap).filter (· ≠ "")
  let urls := ((snap.pullRequests.map fun p => rstripChar '/' p.prUrl) ++ claimed.toList.map (rstripChar '/')).eraseDups
  match urls with
  | [url] =>
    match parsePrUrl env.ext url with
    | none => (none, ["unparseable PR url " ++ url])
    | some (repo, _) =>
      if repo ≠ env.settings.repo then (none, ["PR repo " ++ repo ++ " is not " ++ env.settings.repo])
      else match answer with
        | .error exc => (none, ["get_pull_request failed: " ++ exc])
        | .ok pr => (some pr, verifyPullRequest pr (claimedUrl snap))
  | _ => (none, ["expected exactly one PR, got " ++ reprList (sortTexts urls)])

/-- `_record_pr`: the row of the pull request and the item's link to it. -/
def recordPr (env : Env) (tx : Tx) (wid : Nat) (pr : PullRequestInfo) : Tx :=
  let existing := tx.db.pullRequests.first fun row => row.repo == pr.repo && row.number == pr.number
  let pid := existing.getD tx.db.pullRequests.nextId
  let tx := if existing.isSome then tx
    else tx.insertPullRequest { workItemId := wid, repo := pr.repo, number := pr.number, url := pr.url
                                baseBranch := pr.baseRef, headBranch := pr.headRef, headSha := pr.headSha
                                state := "open"
                                firstHeadSha := some pr.headSha, diffPolicyOk := some true, openedAt := env.now
                                updatedAt := env.now }
  let tx := tx.modifyItem wid fun w =>
    { w with prNumber := some pr.number, prUrl := some pr.url, prHeadSha := some pr.headSha
             prOpenedAt := w.prOpenedAt.orElse fun _ => some env.now }
  raiseLevel env tx wid pid .prOpened "pr_opened"

/-- What is known of a snapshot besides the snapshot: the pull request, and what is wrong with the report. -/
structure SnapshotFacts where
  pr : Option PullRequestInfo
  problems : List String
  violations : List String
  schemaErrors : List String

/-- The facts of a snapshot of an item's session. -/
def snapshotFacts (env : Env) (kind : Kind) (snap : SessionSnapshot) (answers : SessionAnswers) : SnapshotFacts :=
  let schemaErrors := if snap.isFinalReport then env.ext.validateOutput kind (snap.structuredOutput.getD .null) else []
  if snap.isFinalReport && schemaErrors = [] && snap.outcome = some .prOpened then
    let (pr, problems) := resolvePr env snap answers.pullRequest
    let violations := if pr.isSome && problems = [] then diffPolicyViolations answers.files kind else []
    ⟨pr, problems, violations, schemaErrors⟩
  else ⟨none, [], [], schemaErrors⟩

/-- The facts `assess` is given. -/
def sessionFacts (env : Env) (item : WorkItem) (session : Session) (snap : SessionSnapshot) (facts : SnapshotFacts) :
    SessionFacts :=
  let verified : Bool := facts.pr.isSome && facts.problems = []
  { acuCap := item.acuCap
    schemaValid := snap.isFinalReport && facts.schemaErrors = []
    prVerified := verified
    diffPolicyOk := verified && facts.violations = []
    wallClockExceeded := env.now - session.createdAt > env.settings.sessionWallClockMax
    budgetWarningSent := item.budgetWarningSent }

/-- The reason of an assessment, with what was wrong when a human is needed. -/
def assessmentDetail (facts : SnapshotFacts) (result : Assessment) : String :=
  let note (texts : List String) :=
    if texts ≠ [] && result.decision = .needsHuman then " | " ++ "; ".intercalate (texts.take 5) else ""
  result.reason ++ note facts.schemaErrors ++ note facts.problems ++ note facts.violations

/-- `_post_disagreement_verdict`. -/
def postDisagreementVerdict (tx : Tx) (item : WorkItem) (snap : SessionSnapshot) : Tx :=
  match item.issueNumber, snap.output? with
  | some n, some out =>
    let text (key : String) := ((out.get? key).map strJson).getD "None"
    tx.must (.commentIssue n ("Scanner-disagreement analysis finished: verdict=`" ++ text "verdict" ++
      "`, recommended_action=`" ++ text "recommended_action" ++ "`.\n\n" ++ ((out.get? "reason").map strJson).getD "" ++
      "\n\nApply label `disagreement:resolved` to accept this verdict; the finding closes only after the next " ++
      "successful scan of `main` still shows it in exactly one scanner."))
  | _, _ => tx

/-- `sess.messages_sent += 1`, with the message. -/
def sendMessage (tx : Tx) (row : Nat) (session message : String) : Tx :=
  (tx.must (.sendMessage session message)).modifySession row fun s => { s with messagesSent := s.messagesSent + 1 }

/-- The last part of `_apply_snapshot`: what the assessment decides. -/
def applyDecision (env : Env) (tx : Tx) (wid row : Nat) (item : WorkItem) (snap : SessionSnapshot)
    (facts : SnapshotFacts) (result : Assessment) : Tx :=
  match result.decision with
  | .continuePolling => tx
  | .answerQuestion => sendMessage tx row snap.sessionId (result.reply.getD "")
  | .budgetWarning =>
    (sendMessage tx row snap.sessionId ("You have used " ++ formatFixed 1 snap.acusConsumed ++ " of " ++
      formatFixed 0 item.acuCap ++
      " ACU. Wrap up: either open the PR now or finish with outcome=blocked and a blocked_reason.")).modifyItem wid
        fun w => { w with budgetWarningSent := true }
  | .needsHuman =>
    let tx := tx.wi env wid .blocked (takeText 500 (assessmentDetail facts result)) "controller"
    if snap.isDone && snap.noChangeNeeded && item.kind = .scannerDisagreement then postDisagreementVerdict tx item snap
    else tx
  | .readyForVerification =>
    match facts.pr with
    | none => tx
    | some pr =>
      let tx := recordPr env tx wid pr
      let tx := tx.wi env wid .prOpened pr.url "controller"
      let tx := tx.wi env wid .checksStarted pr.headSha "controller"
      match item.issueNumber with
      | some n => tx.must (.commentIssue n ("PR opened: " ++ pr.url))
      | none => tx

/-- `_apply_snapshot`. -/
def applySnapshot (env : Env) (tx : Tx) (wid row : Nat) (item : WorkItem) (session : Session) (snap : SessionSnapshot)
    (answers : SessionAnswers) : Tx :=
  let tx := tx.modifySession row fun s =>
    { snapshotRow snap env.now s with
      finishedAt := if snap.isDone && s.finishedAt.isNone then some env.now else s.finishedAt }
  let facts := snapshotFacts env item.kind snap answers
  let question := if snap.isWaitingForUser then answers.question else none
  let result := assess env.ext snap (sessionFacts env item session snap facts) question
  let tx := tx.insertPoll { sessionId := row, polledAt := env.now, status := snap.status,
                            statusDetail := snap.statusDetail
                            acusConsumed := snap.acusConsumed, decision := result.decision.value
                            reason := takeText 500 (assessmentDetail facts result) }
  applyDecision env tx wid row item snap facts result

/-- One item of `poll_sessions`: the item must still be active on the session that was polled. -/
def pollSession (env : Env) (wid : Nat) (sid : String) (snap : SessionSnapshot) (answers : SessionAnswers) (tx : Tx) :
    Tx :=
  match tx.db.workItems.get? wid with
  | none => tx
  | some item =>
    if item.state ≠ .sessionActive || item.activeSessionId ≠ some sid then tx
    else match tx.db.sessions.first fun s => s.devinId == sid with
      | none => tx.wi env wid .blocked "session_row_missing" "controller"
      | some row =>
        match tx.db.sessions.get? row with
        | some session => applySnapshot env tx wid row item session snap answers
        | none => tx

end HardeningLoop
