import HardeningLoop.Orchestrator.Engine.Sessions
import HardeningLoop.Orchestrator.Verification

/-!
# Pull request polls

`applyPr` applies a pull request as GitHub describes it, with its head's check runs, to the work item that tracks it: a
new head, a merge, a close, the checks, Devin's review and the human approval.
-/

namespace HardeningLoop

open Rows (Table)

/-- What Devin and GitHub answer while a pull request is applied. -/
structure PrAnswers where
  review : Except String (Option ReviewSnapshot) := .error ""
  triggered : Except String ReviewSnapshot := .error ""
  reviews : List Review := []
  compare : Compare := fun _ _ _ => none

/-- `_PR_STATES`. -/
def prStates : List WorkItemState := [.prOpen, .checksRunning, .reviewPending, .readyForHuman, .needsHuman]

/-- `_reset_level`. -/
def resetLevel (env : Env) (tx : Tx) (wid pid : Nat) (level : LifecycleLevel) (why : String) : Tx :=
  let tx := match tx.db.workItems.get? wid with
    | some item =>
      if level.toNat < item.lifecycleLevel.toNat then
        (tx.event env .workItem wid (.log "lifecycle_level") (some item.lifecycleLevel.label) (some level.label) why
          "controller" []).modifyItem wid fun w => { w with lifecycleLevel := level }
      else tx
    | none => tx
  tx.modifyPullRequest pid fun row => if level.toNat < row.lifecycleLevel.toNat then
    { row with lifecycleLevel := level }
    else row

/-- `_reverify_new_head`: the evidence was about the old commit. -/
def reverifyNewHead (env : Env) (tx : Tx) (wid pid : Nat) (headSha : String) : Tx :=
  let why := "new head " ++ takeText 12 headSha
  let tx := if (tx.db.itemState wid).any (· ∈ [WorkItemState.reviewPending, .readyForHuman]) then
      tx.wi env wid .newHeadPushed why "controller"
    else tx
  let tx := resetLevel env tx wid pid .prOpened why
  (tx.modifyPullRequest pid fun row => { row with verificationDepth := none, depthRungs := [] }).modifyItem wid
    fun w => { w with verificationDepth := none }

/-- A new head of the tracked pull request. -/
def applyNewHead (env : Env) (tx : Tx) (wid pid : Nat) (row : PullRequest) (pr : PullRequestInfo) : Tx :=
  if pr.headSha = row.headSha then tx
  else
    let tx := tx.event env .pullRequest pid (.log "head_changed") (some row.headSha) (some pr.headSha) "new push"
      "controller" []
    let tx := (tx.modifyPullRequest pid fun row =>
      { row with headSha := pr.headSha, reviewStatus := none, approvedBy := none }).modifyItem wid
        fun w => { w with prHeadSha := some pr.headSha }
    if !pr.merged && pr.state ≠ "closed" then reverifyNewHead env tx wid pid pr.headSha else tx

/-- A member of a merged item. -/
def mergeMember (env : Env) (sha : String) (tx : Tx) (fid : Nat) : Tx :=
  (tx.finding env fid .prMerged sha "controller" none).1

/-- `wi.state in (READY_FOR_HUMAN, NEEDS_HUMAN)`: a merge is accepted there. -/
def mergeAccepted (db : Db) (wid : Nat) : Bool :=
  (db.itemState wid).any (· ∈ [WorkItemState.readyForHuman, .needsHuman])

/-- The merge as GitHub reports it, on the pull request and on the item. -/
def recordMerge (env : Env) (tx : Tx) (wid pid : Nat) (pr : PullRequestInfo) : Tx :=
  let mergedAt := pr.mergedAt.getD env.now
  (tx.modifyPullRequest pid fun row =>
    { row with state := "merged", mergeSha := pr.mergeCommitSha, mergedAt := some mergedAt }).modifyItem wid
      fun w => { w with mergeSha := pr.mergeCommitSha, mergedAt := some mergedAt }

/-- A merge before the item was verified is handed to a human. -/
def blockUnverified (env : Env) (tx : Tx) (wid : Nat) : Tx :=
  if mergeAccepted tx.db wid then tx
  else tx.wi env wid .blocked ("merged_before_verification:" ++ ((tx.db.itemState wid).map WorkItemState.value).getD "")
    "controller"

/-- A merge that is accepted. -/
def completeMerge (env : Env) (tx : Tx) (wid pid : Nat) (sha : String) (cmp : Compare) : Tx :=
  let tx := tx.wi env wid .humanMerged sha "human"
  let tx := raiseLevel env tx wid pid .merged "merged"
  let tx := (tx.db.members wid).foldl (mergeMember env sha) tx
  closeFromAppliedRuns env cmp tx wid

/-- The branch of `_apply_pr` for a merged pull request. -/
def applyMerge (env : Env) (tx : Tx) (wid pid : Nat) (pr : PullRequestInfo) (cmp : Compare) : Tx :=
  let tx := blockUnverified env (recordMerge env tx wid pid pr) wid
  if mergeAccepted tx.db wid then completeMerge env tx wid pid (pr.mergeCommitSha.getD "") cmp else tx

/-- `_record_checks`, for one check run. -/
def recordCheck (env : Env) (pid : Nat) (headSha : String) (tx : Tx) (c : CheckRun) : Tx :=
  let row : PRCheck := ⟨pid, headSha, c.name, c.status, c.conclusion, c.url, env.now⟩
  let checks := tx.db.prChecks
  let checks := match checks.first fun r => r.pullRequestId == pid && r.headSha == headSha && r.name == c.name with
    | some i => checks.modify i fun _ => row
    | none => checks.insert row
  { tx with db := { tx.db with prChecks := checks } }

/-- One record of `_record_depth`. -/
def recordComponent (env : Env) (pid : Nat) (headSha : String) (tx : Tx) (rec : CheckRecord) : Tx :=
  let row : VerificationCheck :=
    ⟨pid, headSha, rec.depth, rec.name, rec.source, rec.status, rec.detail, rec.url, env.now⟩
  let checks := tx.db.verificationChecks
  let checks := match checks.first fun r =>
      r.pullRequestId == pid && r.headSha == headSha && r.source == rec.source && r.name == rec.name with
    | some i => checks.modify i fun r => { row with depth := r.depth }
    | none => checks.insert row
  { tx with db := { tx.db with verificationChecks := checks } }

/-- `_record_depth`. -/
def recordDepth (env : Env) (tx : Tx) (wid pid : Nat) (headSha : String) (checks : List CheckRun) : Tx :=
  match tx.db.workItems.get? wid, tx.db.pullRequests.get? pid with
  | some item, some row =>
    let ev := evaluate checks defaultLadder
    let output := ((tx.db.activeSession item).bind tx.db.sessions.get?).bind Session.structuredOutput
    let tx := (ev.records ++ claimsFromOutput output).foldl (recordComponent env pid headSha) tx
    let highest := ev.highestPassed
    let rungs := commaJoin (ev.rungs.map fun r => "L" ++ toString r.1.toNat ++ "=" ++ r.2.value)
    let tx := if highest ≠ row.verificationDepth then
        tx.event env .workItem wid (.log "verification_depth") (row.verificationDepth.map VerificationDepth.name)
          (highest.map VerificationDepth.name) ("head " ++ takeText 12 headSha ++ ": " ++ rungs) "controller" []
      else tx
    (tx.modifyPullRequest pid fun row =>
      { row with verificationDepth := highest, depthRungs := ev.rungSummary }).modifyItem
      wid fun w => { w with verificationDepth := highest }
  | _, _ => tx

inductive ChecksVerdict where
  | running | red | green
  deriving DecidableEq, Repr

/-- `c.status == "completed" and c.conclusion != "success"`. -/
def checkFailed (c : CheckRun) : Bool := c.status == "completed" && c.conclusion != some "success"

/-- `_checks_verdict`. -/
def checksVerdict (settings : Settings) (checks : List CheckRun) : ChecksVerdict :=
  let required := settings.requiredCheckNames
  let relevant := checks.filter fun c => required = [] || c.name ∈ required
  if required ≠ [] && required.any (fun name => name ∉ relevant.map CheckRun.name) then .running
  else if relevant = [] then .running
  else if relevant.any checkFailed then .red
  else if relevant.all fun c => c.status == "completed" && c.conclusion == some "success" then .green
  else .running

/-- The checks of the first head, the first time they are red or green. -/
def firstHeadSeen (headSha : String) (green : Bool) (row : PullRequest) : PullRequest :=
  if row.firstHeadChecksGreen.isNone && some headSha = row.firstHeadSha then
    { row with firstHeadChecksGreen := some green }
  else row

/-- `_retry_or_fail`: ask the same session to fix the failed checks, within its retries. -/
def retryOrFail (env : Env) (tx : Tx) (wid pid : Nat) (pr : PullRequestInfo) (checks : List CheckRun) : Tx :=
  let tx := tx.modifyPullRequest pid (firstHeadSeen pr.headSha false)
  let failed := checks.filter checkFailed
  let names := commaJoin (failed.map CheckRun.name)
  match tx.db.workItems.get? wid with
  | none => tx
  | some item =>
    let budget := toString env.settings.retriesPerWorkItem
    match item.activeSessionId with
    | some sid =>
      if item.retriesUsed ≥ env.settings.retriesPerWorkItem then
        tx.wi env wid .retriesExhausted
          (toString item.retriesUsed ++ "/" ++ budget ++ " retries used; failed: " ++ names) "controller"
      else
        let retries := item.retriesUsed + 1
        let tx := tx.modifyItem wid fun w => { w with retriesUsed := retries }
        let lines := ["CI failed on " ++ pr.url ++ " (head " ++ takeText 12 pr.headSha ++
            "). Fix it in this same PR/branch (retry " ++ toString retries ++ "/" ++ budget ++ "):"] ++
          failed.map
            (fun c => strip env.ext ("- " ++ c.name ++ ": " ++ c.conclusion.getD "None" ++ " " ++ c.url.getD "")) ++
          ["Push the fix, then update the structured output. Do not open another PR."]
        let tx := tx.must (.sendMessage sid ("\n".intercalate lines))
        let tx := match tx.db.sessions.first fun s => s.devinId == sid with
          | some row => tx.modifySession row fun s => { s with messagesSent := s.messagesSent + 1, finishedAt := none }
          | none => tx
        let tx := tx.wi env wid .retrySent ("retry " ++ toString retries) "controller"
        match item.issueNumber with
        | some n => tx.must (.commentIssue n ("Checks failed on " ++ takeText 12 pr.headSha ++ " (" ++ names ++
            "); asked the same session to fix (retry " ++ toString retries ++ ")."))
        | none => tx
    | none =>
      tx.wi env wid .retriesExhausted
        (toString item.retriesUsed ++ "/" ++ budget ++ " retries used; failed: " ++ names) "controller"

/-- `_last_event_ts`: of the latest event of a name of a work item. -/
def lastEventTs (db : Db) (wid : Nat) (event : WorkItemEvent) : Option DateTime :=
  ((db.events.filter fun e => e.entityType == .workItem && e.entityId == wid && e.event.value == event.value).map
    Event.ts).max?

/-- `_review_timeout`. -/
def reviewTimeout (env : Env) (tx : Tx) (wid : Nat) (head why : String) : Tx :=
  let minutes := env.settings.reviewTimeoutMinutes
  match lastEventTs tx.db wid .checksGreen with
  | some greenAt =>
    if env.now - greenAt > minutes * 60 * 1000000 then
      tx.wi env wid .reviewNotObserved (why ++ " after " ++ toString minutes ++ " min on " ++ takeText 12 head)
        "controller"
    else tx
  | none => tx

/-- `_review_retriggered`. -/
def reviewRetriggered (db : Db) (pid : Nat) (head : String) : Bool :=
  db.events.any fun e => e.entityType == .pullRequest && e.entityId == pid && e.event == .log "review_triggered" &&
    e.toState == some head && hasPrefix "review errored" (e.reason.getD "")

/-- The last part of `_check_review`: a review of this head that Devin reports. -/
def observeReview (env : Env) (tx : Tx) (wid pid : Nat) (head : String) (snap : ReviewSnapshot) : Tx :=
  if snap.commitSha ≠ head then
    reviewTimeout env tx wid head ("devin review names different commit " ++ takeText 12 snap.commitSha)
  else
    let reviewId := snap.repoPath ++ "#" ++ toString snap.prNumber ++ "@" ++ snap.commitSha
    let tx := tx.modifyPullRequest pid fun row =>
      { row with reviewId := some reviewId, reviewHeadSha := some snap.commitSha,
                 reviewStatus := some snap.status.value }
    if snap.status = .completed then
      raiseLevel env (tx.wi env wid .reviewCompleted reviewId "devin") wid pid .reviewCompleted "review_completed"
    else reviewTimeout env tx wid head ("devin review still " ++ snap.status.value)

/-- Trigger a review of the head. -/
def triggerReview (env : Env) (tx : Tx) (wid pid : Nat) (pr : PullRequestInfo) (reason : String)
    (answer : Except String ReviewSnapshot) : Tx :=
  match answer with
  | .error exc =>
    reviewTimeout env (tx.attempt [.triggerReview pr.url]) wid pr.headSha ("devin review API error: " ++ exc)
  | .ok snap =>
    let tx := (tx.answered (.triggerReview pr.url)).event env .pullRequest pid (.log "review_triggered") none
      (some snap.commitSha) reason "controller" []
    observeReview env tx wid pid pr.headSha snap

/-- `_check_review`. -/
def checkReview (env : Env) (tx : Tx) (wid pid : Nat) (pr : PullRequestInfo) (answers : PrAnswers) : Tx :=
  let head := pr.headSha
  match answers.review with
  | .error exc => reviewTimeout env tx wid head ("devin review API error: " ++ exc)
  | .ok none => triggerReview env tx wid pid pr ("triggered for " ++ takeText 12 head) answers.triggered
  | .ok (some snap) =>
    match snap.status with
    | .errored =>
      if reviewRetriggered tx.db pid head then
        tx.wi env wid .reviewNotObserved ("devin review errored twice on " ++ takeText 12 head) "controller"
      else triggerReview env tx wid pid pr ("review errored on " ++ takeText 12 head ++ ", re-triggered")
        answers.triggered
    | .cancelled =>
      tx.wi env wid .reviewNotObserved ("devin review " ++ snap.status.value ++ " on " ++ takeText 12 head) "controller"
    | _ => observeReview env tx wid pid head snap

/-- `_check_approval`: the first approval of this head by an approver. -/
def checkApproval (env : Env) (tx : Tx) (wid pid : Nat) (pr : PullRequestInfo) (reviews : List Review) : Tx :=
  match reviews.find? fun r =>
      r.state == "APPROVED" && r.author ∈ env.settings.approverLogins && r.commitSha == pr.headSha with
  | none => tx
  | some r =>
    if (tx.db.pullRequests.get? pid).any fun row => row.approvedBy ≠ some r.author then
      raiseLevel env (tx.modifyPullRequest pid fun row => { row with approvedBy := some r.author })
        wid pid .humanApproved ("approved_by:" ++ r.author)
    else tx

/-- An item whose checks were running, when they are green. -/
def checksPassed (env : Env) (tx : Tx) (wid pid : Nat) (pr : PullRequestInfo) : Tx :=
  if tx.db.itemState wid = some .checksRunning then
    raiseLevel env
      ((tx.modifyPullRequest pid (firstHeadSeen pr.headSha true)).wi env wid .checksGreen pr.headSha "ci") wid
      pid .ciGreen "ci_green"
  else tx

/-- An item that waits for Devin's review. -/
def reviewWaiting (env : Env) (tx : Tx) (wid pid : Nat) (pr : PullRequestInfo) (answers : PrAnswers) : Tx :=
  if tx.db.itemState wid = some .reviewPending then checkReview env tx wid pid pr answers else tx

/-- The branch of `_apply_pr` for green checks. -/
def applyGreen (env : Env) (tx : Tx) (wid pid : Nat) (pr : PullRequestInfo) (answers : PrAnswers) : Tx :=
  let tx := reviewWaiting env (checksPassed env tx wid pid pr) wid pid pr answers
  if tx.db.itemState wid = some .readyForHuman then checkApproval env tx wid pid pr answers.reviews else tx

/-- The check runs of the head are recorded, and a new pull request's checks have started. -/
def checksSeen (env : Env) (tx : Tx) (wid pid : Nat) (pr : PullRequestInfo) (checks : List CheckRun) : Tx :=
  let tx := checks.foldl (recordCheck env pid pr.headSha) tx
  let tx := recordDepth env tx wid pid pr.headSha checks
  if tx.db.itemState wid = some .prOpen then tx.wi env wid .checksStarted pr.headSha "controller" else tx

/-- The branch of `_apply_pr` for an open pull request that no human owns. -/
def applyChecks (env : Env) (tx : Tx) (wid pid : Nat) (pr : PullRequestInfo) (checks : List CheckRun)
    (answers : PrAnswers) : Tx :=
  let tx := checksSeen env tx wid pid pr checks
  match checksVerdict env.settings checks with
  | .red =>
    if (tx.db.itemState wid).any (· ∈ [WorkItemState.checksRunning, .reviewPending, .readyForHuman]) then
      let names := commaJoin ((checks.filter checkFailed).map CheckRun.name)
      retryOrFail env (tx.wi env wid .checksRed names "ci") wid pid pr checks
    else tx
  | .green => applyGreen env tx wid pid pr answers
  | .running => tx

/-- `_apply_pr`. -/
def applyPr (env : Env) (tx : Tx) (wid pid : Nat) (row : PullRequest) (pr : PullRequestInfo) (checks : List CheckRun)
    (answers : PrAnswers) : Tx :=
  let tx := tx.modifyPullRequest pid fun row => { row with updatedAt := env.now }
  let tx := applyNewHead env tx wid pid row pr
  if pr.merged then applyMerge env tx wid pid pr answers.compare
  else if pr.state = "closed" then
    let tx := tx.modifyPullRequest pid fun row => { row with state := "closed" }
    if tx.db.itemState wid = some .needsHuman then tx else tx.wi env wid .prClosedUnmerged pr.url "human"
  else if tx.db.itemState wid = some .needsHuman then tx
  else applyChecks env tx wid pid pr checks answers

/-- One item of `poll_pull_requests`: the item must still track the pull request that was polled. -/
def pollPullRequest (env : Env) (wid number : Nat) (pr : PullRequestInfo) (checks : List CheckRun) (answers : PrAnswers)
    (tx : Tx) : Tx :=
  match tx.db.workItems.get? wid with
  | none => tx
  | some item =>
    if item.state ∉ prStates || item.prNumber ≠ some number then tx
    else match tx.db.pullRequests.first fun row => row.repo == env.settings.repo && row.number == number with
      | none => tx
      | some pid =>
        match tx.db.pullRequests.get? pid with
        | some row => applyPr env tx wid pid row pr checks answers
        | none => tx

section Poll

variable {env : Env} {wid number pid : Nat} {tx : Tx} {item : WorkItem} {row : PullRequest} {pr : PullRequestInfo}
  {checks : List CheckRun} {answers : PrAnswers}

/-- A poll of an item that tracks the pull request. -/
theorem pollPullRequest_eq (hi : tx.db.workItems.get? wid = some item) (hp : item.state ∈ prStates)
    (hn : item.prNumber = some number)
    (hfirst : (tx.db.pullRequests.first fun row => row.repo == env.settings.repo && row.number == number) = some pid)
    (hrow : tx.db.pullRequests.get? pid = some row) :
    pollPullRequest env wid number pr checks answers tx = applyPr env tx wid pid row pr checks answers := by
  have hgo : (item.state ∉ prStates || item.prNumber ≠ some number : Bool) = false := by simp [hp, hn]
  unfold pollPullRequest
  simp only [hi, hgo, hfirst, hrow, Bool.false_eq_true, if_false]

/-- A poll of an item that is polled no more. -/
theorem pollPullRequest_idle (hi : tx.db.workItems.get? wid = some item) (hp : item.state ∉ prStates) :
    pollPullRequest env wid number pr checks answers tx = tx := by
  have hgo : (item.state ∉ prStates || item.prNumber ≠ some number : Bool) = true := by simp [hp]
  unfold pollPullRequest
  simp only [hi, hgo, if_true]

end Poll

end HardeningLoop
