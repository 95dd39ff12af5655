import HardeningLoop.Orchestrator.Engine.WorkItems
import HardeningLoop.Orchestrator.Launch

/-!
# Dispatch, launch and cancel

A dispatch commits between its steps, so each step is a transaction of its own and what it keeps in hand while the lock
is released is a `Flight`: first the reservation (`reserve`), then Devin's answer to the search for a tagged session
(`adoptTagged`), then, when there is none, its answer to the creation (`createSession`). A launch checks and reserves in
one transaction (`launch`), a recovery starts at the search (`recover`), and a cancel commits its request before it asks
Devin (`cancelRequest`, `cancelAnswer`).
-/

namespace HardeningLoop

open Rows (Table)

/-- What a controller in the middle of a unit that has committed keeps in hand. -/
inductive Flight where
  /-- The item is in `dispatching`; Devin is asked for its tagged sessions. -/
  | adopting (wid : Nat) (recovering : Bool)
  /-- No session was adopted; the members as they were loaded, while Devin creates a session. -/
  | creating (wid : Nat) (members : List (Nat × Finding))
  /-- The request to cancel is on record; Devin terminates the session of row `row`. -/
  | cancelling (wid row : Nat) (operator : String)
  deriving DecidableEq

/-! ## Capacity and budget -/

/-- `_active_session_count`. -/
def activeSessionCount (db : Db) : Nat := (db.workItems.select fun w => w.state ∈ activeWorkItemStates).length

structure AcuBudgetPosition where
  consumed : Acu
  outstanding : Acu
  deriving DecidableEq, Repr

def AcuBudgetPosition.committed (b : AcuBudgetPosition) : Acu := Binary64.add b.consumed b.outstanding

/-- `_acu_budget_position`: what all sessions consumed, and what the sessions of active items may still consume. -/
def acuBudgetPosition (db : Db) : AcuBudgetPosition :=
  let reserved := (db.workItems.rows.filter fun w => w.state ∈ activeWorkItemStates).filterMap WorkItem.activeSessionId
  { consumed := Binary64.sum (db.sessions.rows.map Session.acusConsumed)
    outstanding := Binary64.sum ((db.sessions.rows.filter fun s => s.devinId ∈ reserved).map fun s =>
      max 0 (Binary64.sub s.maxAcuLimit s.acusConsumed)) }

/-- `_pending_scan_run_count`. -/
def pendingScanRunCount (db : Db) : Nat := (db.scanRuns.select fun r => r.closureAppliedAt.isNone).length

/-! ## Sessions -/

/-- `_record_session`: bind the item to a session, with a row for it if there is none. -/
def recordSession (env : Env) (tx : Tx) (wid : Nat) (snap : SessionSnapshot) (adopted : Bool) : Tx :=
  match tx.db.workItems.get? wid with
  | none => tx
  | some item =>
    let existing := tx.db.sessions.first fun s => s.devinId == snap.sessionId
    let row := existing.getD tx.db.sessions.nextId
    let tx := if existing.isSome then tx
      else tx.insertSession { devinId := snap.sessionId, workItemId := wid, url := snap.url
                              playbookId := env.playbookIds item.kind, maxAcuLimit := item.acuCap, status := snap.status
                              statusDetail := snap.statusDetail, acusConsumed := snap.acusConsumed
                              createdAt := env.now }
    (tx.modifyItem wid fun w => { w with activeSessionId := some snap.sessionId, budgetWarningSent := false }).event env
      .session row (.log (if adopted then "adopted" else "created")) none (some snap.status.value)
      ("work_item=" ++ toString wid ++ " cap=" ++ formatFixed 1 item.acuCap) "controller" []

/-- `_dispatch_failed`. -/
def dispatchFailed (env : Env) (tx : Tx) (wid : Nat) (reason : String) : Tx :=
  let tx := tx.modifyItem wid fun w => { w with dispatchFailures := w.dispatchFailures + 1 }
  if (tx.db.workItems.get? wid).any fun w => w.dispatchFailures ≥ env.settings.maxDispatchFailures then
    tx.wi env wid .blocked ("dispatch_failed_repeatedly:" ++ takeText 200 reason) "controller"
  else tx.wi env wid .dispatchFailed (takeText 300 reason) "controller"

/-- `max(sessions, key=(is_active, created_at))`: the first of the greatest. -/
def newestSession : List SessionSnapshot → Option SessionSnapshot
  | [] => none
  | s :: rest => some (rest.foldl (fun best s =>
      if (!best.isActive && s.isActive) || (best.isActive == s.isActive && s.createdAt > best.createdAt) then s
      else best) s)

/-- `_dispatch_one`, first step: reserve the item. The reservation is committed. -/
def reserve (env : Env) (tx : Tx) (wid : Nat) : Tx :=
  tx.wi env wid .dispatchStarted "capacity available" "controller"

/-- The second step, `_adopt_tagged_session`: a tagged session that is active or that no row records is adopted. Without
one a recovery releases the item and a dispatch loads the members and goes on to create a session. -/
def adoptTagged (env : Env) (tx : Tx) (wid : Nat) (recovering : Bool) (remote : Except String (List SessionSnapshot)) :
    Tx × Option Flight :=
  let known := (tx.db.sessions.rows.filter fun s => s.workItemId == wid).map Session.devinId
  match remote with
  | .error exc => (dispatchFailed env tx wid ("list_sessions:" ++ exc), none)
  | .ok sessions =>
    match newestSession (sessions.filter fun s => s.isActive || s.sessionId ∉ known) with
    | some snap =>
      ((recordSession env tx wid snap true).wi env wid .sessionAdopted snap.sessionId "controller", none)
    | none =>
      if recovering then (dispatchFailed env tx wid "dispatching_recovered:no_session_at_devin", none)
      else
        (tx, some (.creating wid ((tx.db.members wid).filterMap fun fid => (tx.db.findings.get? fid).map (fid, ·))))

/-- A finding of a new session, in the state it was loaded with. -/
def startRemediation (env : Env) (reason : String) (tx : Tx) (member : Nat × Finding) : Tx :=
  (tx.findingFrom env member.1 member.2.state .remediationStarted reason "controller" none).1

/-- The third step: Devin's answer to the creation of a session. `commented` says whether the comment on the issue was
made. -/
def createSession (env : Env) (tx : Tx) (wid : Nat) (members : List (Nat × Finding))
    (answer : Except String SessionSnapshot) (commented : Except String Unit) : Tx :=
  match answer with
  | .error exc => dispatchFailed env tx wid ("create_session:" ++ exc)
  | .ok snap =>
    let cap := ((tx.db.workItems.get? wid).map WorkItem.acuCap).getD 0
    let tx := recordSession env (tx.answered (.createSession wid cap)) wid snap false
    let tx := tx.wi env wid .sessionCreated snap.sessionId "controller"
    let tx := members.foldl (startRemediation env snap.sessionId) tx
    match tx.db.workItems.get? wid with
    | none => tx
    | some item =>
      match commented, item.issueNumber with
      | .ok (), some n =>
        tx.answered
          (.commentIssue n ("Devin session started: " ++ (if snap.url = "" then snap.sessionId else snap.url) ++
          " (cap " ++ formatFixed 0 item.acuCap ++ " ACU)"))
      | .error exc, _ => tx.log env wid "issue_comment_failed" item.state (takeText 300 exc) "controller"
      | _, _ => tx

/-! ## The scheduler's dispatch -/

/-- The candidates of `dispatch`: CRITICAL first, then by age. -/
def dispatchTargets (db : Db) : List (Nat × Nat × Severity) :=
  let wids := db.workItems.select fun w => w.state == .issueOpen && w.issueNumber.isSome
  let targets := wids.filterMap fun wid => (db.workItems.get? wid).bind fun w =>
    w.issueNumber.map fun n => (wid, n, w.severity)
  targets.insertionSort fun a b => a.2.2.rank > b.2.2.rank || (a.2.2.rank == b.2.2.rank && a.1 ≤ b.1)

inductive Reservation where
  | full | skipped | deferred | reserved
  deriving DecidableEq, Repr

/-- The checks `dispatch` makes under the lock for one candidate, and the reservation. -/
def dispatchCandidate (env : Env) (tx : Tx) (wid issue : Nat) (severity : Severity) (labels : List String) :
    Tx × Reservation :=
  if !dispatchAllowed severity labels then (tx, .skipped)
  else if activeSessionCount tx.db ≥ env.settings.maxConcurrentSessions then (tx, .full)
  else match tx.db.workItems.get? wid with
    | none => (tx, .skipped)
    | some item =>
      if item.state ≠ .issueOpen || item.issueNumber ≠ some issue then (tx, .skipped)
      else
        let budget := acuBudgetPosition tx.db
        if Binary64.add budget.committed item.acuCap > env.settings.globalAcuBudget then
          (tx.log env wid "budget_deferred" item.state
            ("consumed=" ++ formatFixed 2 budget.consumed ++ "+outstanding=" ++
            formatFixed 2 budget.outstanding ++ "+cap=" ++ formatFixed 0 item.acuCap ++ ">budget=" ++
            formatFixed 0 env.settings.globalAcuBudget) "controller", .deferred)
        else (reserve env tx wid, .reserved)

/-- `_recover_dispatching`, for one item a crash left in `dispatching`: the event before the search. -/
def recover (env : Env) (tx : Tx) (wid : Nat) : Tx :=
  tx.log env wid "dispatch_recovery" .dispatching "found in dispatching at tick start" "controller"

/-! ## The operator's launch -/

/-- The shared figures of a launch preview. -/
def launchFigures (db : Db) : LaunchFigures :=
  { pendingScans := pendingScanRunCount db, activeSessions := activeSessionCount db
    acuConsumed := (acuBudgetPosition db).consumed, acuOutstanding := (acuBudgetPosition db).outstanding }

/-- GitHub's answers during a launch: the title listing, a created issue, the approval label, the launch comment and the
labels read back. -/
structure LaunchAnswers where
  listed : Option (List Issue)
  created : Except String Issue
  approved : Except String Unit
  commented : Except String Unit
  labels : List String

/-- `_launch_failed`. -/
def launchFailed (env : Env) (tx : Tx) (wid : Nat) (item : WorkItem) (reason : String) : Tx :=
  tx.log env wid "operator_launch_failed" item.state (takeText 300 reason) "operator"

/-- The relaunch of an item that waits for a human. -/
def relaunch (env : Env) (tx : Tx) (wid : Nat) (item : WorkItem) (operator : String) : Tx :=
  let tx := match item.issueNumber with
    | some n => tx.attempt [.removeLabel n HumanLabel.retry.value]
    | none => tx
  (tx.modifyItem wid fun w => { w with retriesUsed := 0, activeSessionId := none, blockedReason := none }).wi env wid
    .humanRetry ("operator=" ++ operator) "operator"

/-- The last step of a launch, on an item that has its issue: approval and comment on GitHub, then the reservation. -/
def launchReserve (env : Env) (tx : Tx) (wid issue : Nat) (item : WorkItem) (operator : String)
    (answers : LaunchAnswers) : Tx × Bool :=
  let needsApproval : Bool := item.severity ∉ defaultDispatchSeverities
  let comment := Call.commentIssue issue ("Operator `" ++ operator ++ "` launched Devin from the dashboard (cap " ++
    formatFixed 0 item.acuCap ++ " ACU, base `" ++ remediationBranch ++ "`).")
  match (if needsApproval then answers.approved else .ok ()) with
  | .error exc => (launchFailed env tx wid item ("github:" ++ exc), false)
  | .ok () =>
    let tx := if needsApproval then
        (tx.answered (.addLabels issue [HumanLabel.dispatchApproved.value])).attempt
          [.removeLabel issue awaitingDispatchLabel]
      else tx
    match answers.commented with
    | .error exc =>
      let tx := if needsApproval then
          tx.attempt [.removeLabel issue HumanLabel.dispatchApproved.value, .addLabels issue [awaitingDispatchLabel]]
        else tx
      (launchFailed env tx wid item ("github:" ++ exc), false)
    | .ok () =>
      let tx := (tx.answered comment).log env wid "operator_launch" item.state
        ("operator=" ++ operator ++ "; cap=" ++ formatFixed 0 item.acuCap) "operator"
      if dispatchAllowed item.severity answers.labels then (reserve env tx wid, true)
      else (launchFailed env tx wid item "dispatch_not_allowed_after_labeling", false)

/-- `launch`, up to the reservation it commits: the eligibility check and the reservation are one transaction. The flag
says that the item was reserved. -/
def launch (env : Env) (tx : Tx) (wid : Nat) (operator : String) (answers : LaunchAnswers) : Tx × Bool :=
  match tx.db.workItems.get? wid with
  | none => (tx, false)
  | some item =>
    match launchPreview env.settings (launchFigures tx.db) item.state item.acuCap with
    | (some action, none) =>
      let tx := if action = .relaunch then relaunch env tx wid item operator else tx
      let state := ((tx.db.workItems.get? wid).map WorkItem.state).getD item.state
      let (tx, opened) := if state = .queued then openIssue env tx wid none answers.listed answers.created
        else (tx, true)
      if !opened then (tx, false)
      else match tx.db.workItems.get? wid with
        | none => (tx, false)
        | some item =>
          match item.state, item.issueNumber with
          | .issueOpen, some issue => launchReserve env tx wid issue item operator answers
          | _, _ => (tx, false)
    | (_, block) =>
      (tx.log env wid "operator_launch_refused" item.state
        (block.elim "ineligible" LaunchBlock.value ++ "; operator=" ++ operator) "operator", false)

/-! ## The operator's cancel -/

/-- `cancel`, up to the request it commits. -/
def cancelRequest (env : Env) (tx : Tx) (wid : Nat) (operator : String) : Tx × Option Flight :=
  match tx.db.workItems.get? wid with
  | none => (tx, none)
  | some item =>
    let row := tx.db.activeSession item
    match cancelBlockFor item.state row.isSome item.prNumber.isSome, row, row.bind tx.db.sessions.get? with
    | none, some sid, some session =>
      (tx.log env wid "operator_cancel_requested" item.state
        ("session=" ++ session.devinId ++ "; operator=" ++ operator) "operator", some (.cancelling wid sid operator))
    | block, _, _ =>
      (tx.log env wid "operator_cancel_refused" item.state
        (block.elim "ineligible" CancelBlock.value ++ "; operator=" ++ operator) "operator", none)

/-- A session's row after a snapshot of it. -/
def snapshotRow (snap : SessionSnapshot) (now : DateTime) (s : Session) : Session :=
  { s with status := snap.status, statusDetail := snap.statusDetail, acusConsumed := snap.acusConsumed
           structuredOutput := snap.structuredOutput, pullRequests := snap.pullRequests, lastPolledAt := some now }

/-- `cancel`, with Devin's answer. -/
def cancelAnswer (env : Env) (tx : Tx) (wid row : Nat) (operator : String) (answer : Except String SessionSnapshot) :
    Tx :=
  match tx.db.workItems.get? wid with
  | none => tx
  | some item =>
    match answer with
    | .error exc =>
      tx.log env wid "operator_cancel_failed" item.state (takeText 500 ("devin:" ++ exc ++ "; operator=" ++ operator))
        "operator"
    | .ok snap =>
      let tx := tx.modifySession row fun s =>
        { snapshotRow snap env.now s with finishedAt := s.finishedAt.orElse fun _ => some env.now }
      let tx := tx.insertPoll { sessionId := row, polledAt := env.now, status := snap.status
                                statusDetail := snap.statusDetail, acusConsumed := snap.acusConsumed
                                decision := "terminated"
                                reason := "operator " ++ operator ++ " stopped the session from the dashboard" }
      let spent := formatFixed 2 snap.acusConsumed
      let tx := tx.event env .session row (.log "operator_cancelled") (some WorkItemState.sessionActive.value)
        (some snap.status.value) ("operator=" ++ operator ++ "; acus=" ++ spent) "operator" []
      let tx := tx.wi env wid .operatorCancelled
        ("operator_cancelled:" ++ operator ++ " stopped the Devin session after " ++ spent ++ " ACU") "operator"
      match item.issueNumber with
      | some n => tx.attempt [.commentIssue n ("Operator `" ++ operator ++
          "` stopped the Devin session from the dashboard after " ++ spent ++
          " ACU. Relaunch from the dashboard or add the `" ++
          HumanLabel.retry.value ++ "` label to try again.")]
      | none => tx

end HardeningLoop
