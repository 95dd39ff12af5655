import HardeningLoop.Ingest.Persist
import HardeningLoop.Orchestrator.Closer
import HardeningLoop.Orchestrator.Engine.WorkItems

/-!
# Closing evaluation

`applyScanRun` weighs one ingested run as closing evidence: it closes the findings of merged work items
(`closeWorkItem`), reopens closed findings the run shows (`regressions`) and closes ungrouped findings it does not show
(`drift`). `closeFromAppliedRuns` replays runs that were applied before an item's merge was observed.
-/

namespace HardeningLoop

open Rows (Table)

/-- A call of GitHub's compare: for which run and finding, and whether to close or to reopen. -/
structure CompareSite where
  closing : Bool
  run : Nat
  finding : Nat
  deriving DecidableEq, Repr

/-- The status GitHub's compare answers at each call; `none` is an error. -/
abbrev Compare := CompareSite → String → String → Option String

/-- `_is_ancestor`. -/
def isAncestor (cmp : Compare) (site : CompareSite) (base head : String) : Bool :=
  base == head || cmp site base head ∈ [some "ahead", some "identical"]

/-! ## What other runs say -/

/-- The later of two runs by finish time, the first one on a tie. -/
def laterRun (latest other : Option ScanRun) : Option ScanRun :=
  match latest, other with
  | none, r => r
  | l, none => l
  | some l, some r =>
    match l.finishedAt, r.finishedAt with
    | none, _ => some r
    | some t, some t' => if t' > t then some r else some l
    | some _, none => some l

/-- A run that finished after `t`. -/
def finishedAfter (t : DateTime) (run : ScanRun) : Bool := run.finishedAt.any (t < ·)

/-- `_later_run_saw`: of the runs that last reported or closed the finding, the latest that finished after this one. -/
def laterRunSaw (db : Db) (rid : Nat) (run : ScanRun) (f : Finding) : Option ScanRun :=
  match run.finishedAt with
  | none => none
  | some t =>
    let others := (f.lastSeenRunId :: f.closedByRunId.toList).filter (· ≠ rid)
    (others.filterMap fun other => (db.scanRuns.get? other).filter (finishedAfter t)).foldl
      (fun latest run => laterRun latest (some run)) none

/-- `_present_families`: the families of the findings with a present sighting. -/
def presentFamilies (db : Db) (sightings : List Sighting) : List (String × String × Option String × String) :=
  (sightings.filter Sighting.present).filterMap fun sg => (db.findings.get? sg.findingId).map familyKey

/-- `_family_ids`. -/
def familyIds (db : Db) (f : Finding) : List Nat :=
  db.findings.select fun g =>
    g.vulnId == f.vulnId && g.ecosystem == f.ecosystem && g.pkgName == f.pkgName && g.layer == f.layer

/-! ## Levels -/

/-- `_raise_level`, of a work item and a pull request row. -/
def raiseLevel (env : Env) (tx : Tx) (wid pid : Nat) (level : LifecycleLevel) (why : String) : Tx :=
  let tx := match tx.db.workItems.get? wid with
    | some item =>
      if level.toNat > item.lifecycleLevel.toNat then
        (tx.event env .workItem wid (.log "lifecycle_level") (some item.lifecycleLevel.label) (some level.label) why
          "controller" []).modifyItem wid fun w => { w with lifecycleLevel := level }
      else tx
    | none => tx
  tx.modifyPullRequest pid fun row => if level.toNat > row.lifecycleLevel.toNat then
    { row with lifecycleLevel := level }
    else row

/-! ## Closing a work item -/

/-- A run under evaluation, with its jobs and sightings. -/
structure Evidence where
  rid : Nat
  run : ScanRun
  jobs : List ScanJob
  sightings : List Sighting

def Db.evidence (db : Db) (rid : Nat) : Option Evidence :=
  (db.scanRuns.get? rid).map fun run => ⟨rid, run, db.jobsOf rid, db.sightingsOf rid⟩

/-- The run as closing evidence for a member of a work item. -/
def memberValidity (env : Env) (cmp : Compare) (db : Db) (ev : Evidence) (item : WorkItem) (fid : Nat) (f : Finding) :
    RunValidity :=
  let requirePolicy := item.kind == .noFixReachability ||
    item.humanResolution == some HumanLabel.dispositionApproved.value
  validateClosingRun env.ext ev.run ev.jobs f item.mergeSha (isAncestor cmp ⟨true, ev.rid, fid⟩) requirePolicy
    (laterRunSaw db ev.rid ev.run f)

/-- The outcome of the run for a member of a work item. -/
def memberOutcome (env : Env) (cmp : Compare) (db : Db) (ev : Evidence) (item : WorkItem) (fid : Nat) (f : Finding) :
    ClosingOutcome :=
  decideOutcome env.ext f ev.run (sightingsFor fid ev.rid ev.sightings (familyIds db f))
    (memberValidity env cmp db ev item fid f)
    (item.humanResolution == some HumanLabel.disagreementResolved.value) item.issueUrl f.state.isClosing

/-- The event a settling outcome fires, with its reason and actor. -/
def closingEvent (externalRunId : String) : ClosingOutcome → Option (FindingEvent × String × String)
  | .fixed => some (.closingAbsent, "absent in run " ++ externalRunId, "scanner")
  | .approvedDisposition => some (.closingVex, "approved VEX in run " ++ externalRunId, "scanner")
  | .scannerDisagreementResolved => some (.disagreementResolved, "single-scanner in run " ++ externalRunId, "human")
  | _ => none

/-- What the loop over the members carries: the transaction, and the outcome and the reasons of each member. -/
abbrev Judged := Tx × List (Nat × ClosingOutcome × List String)

/-- One member of a closing work item. -/
def closeMember (env : Env) (cmp : Compare) (ev : Evidence) (item : WorkItem) (acc : Judged) (fid : Nat) : Judged :=
  match acc.1.db.findings.get? fid with
  | none => acc
  | some f =>
    let validity := memberValidity env cmp acc.1.db ev item fid f
    let outcome := memberOutcome env cmp acc.1.db ev item fid f
    let tx := acc.1.tally outcome.value
    let tx := match closingEvent ev.run.externalRunId outcome with
      | some (event, reason, actor) => (tx.finding env fid event reason actor (some ev.rid)).1
      | none => tx
    (tx, acc.2 ++ [(fid, outcome, validity.reasons)])

/-- The states of findings, in order. -/
def Db.statesOf (db : Db) (fids : List Nat) : List FindingState :=
  fids.filterMap fun fid => (db.findings.get? fid).map Finding.state

/-- The level of a verified item: with its pull request, if it has one. -/
def raiseVerified (env : Env) (tx : Tx) (wid : Nat) (run : ScanRun) : Tx :=
  match tx.db.pullRequests.first fun row => row.workItemId == wid with
  | some pid => raiseLevel env tx wid pid .rescanVerified run.externalRunId
  | none => tx.modifyItem wid fun w =>
    if w.lifecycleLevel.toNat < LifecycleLevel.rescanVerified.toNat then { w with lifecycleLevel := .rescanVerified }
    else w

/-- A verified item: its level, and its issue commented on and closed. -/
def verifyItem (env : Env) (tx : Tx) (wid : Nat) (ev : Evidence) (states : List FindingState) : Tx :=
  let run := ev.run
  let tx := (tx.modifyItem wid fun w => { w with verifiedAt := some env.now }).wi env wid .rescanVerified
    ("run " ++ run.externalRunId) "scanner"
  let tx := raiseVerified env tx wid run
  match (tx.db.workItems.get? wid).bind WorkItem.issueNumber with
  | none => tx
  | some n =>
    let byState := (states.foldl (fun counts s => count s.value counts) []).map fun kv => (kv.1, toString kv.2)
    (tx.must (.commentIssue n
      ("Verified by scan run `" ++ run.externalRunId ++ "` of `" ++ run.sourceBranch ++ "` @ `" ++
      takeText 12 run.sourceSha ++ "` (lean " ++ fText run.leanDigest ++ "); outcomes: " ++ reprDict byState ++
      ". Tools: " ++ run.tools.text ++ ". Closing."))).must (.closeIssue n)

/-- A member that the run still shows. -/
def blockMember (env : Env) (run : ScanRun) (tx : Tx) (fid : Nat) : Tx :=
  (tx.finding env fid .humanBlocked ("present after merge in run " ++ run.externalRunId) "scanner" none).1

/-- A merged item starts waiting for the rescan. -/
def beginRescan (env : Env) (tx : Tx) (wid : Nat) (run : ScanRun) : Tx :=
  if tx.db.itemState wid = some .merged then
    tx.wi env wid .rescanStarted ("run " ++ run.externalRunId ++ " evaluated") "controller"
  else tx

/-- A run that is no evidence for some member. -/
def invalidRun (env : Env) (tx : Tx) (wid : Nat) (run : ScanRun) (reasons : List String) : Tx :=
  tx.wi env wid .rescanStarted ("run " ++ run.externalRunId ++ " not a valid closing run: " ++
    "; ".intercalate ((sortedSet reasons).take 6)) "controller"

/-- The members that a valid run still shows. -/
def stillPresent (env : Env) (tx : Tx) (wid : Nat) (run : ScanRun) (still : List Nat) : Tx :=
  if still = [] then tx
  else
    let vulns := sortTexts (still.filterMap fun fid => (tx.db.findings.get? fid).map Finding.vulnId)
    let tx := tx.wi env wid .rescanShowsPresent ("still present in run " ++ run.externalRunId ++ ": " ++
      commaJoin (vulns.take 8)) "scanner"
    still.foldl (blockMember env run) tx

/-- What follows from the outcomes of the members: verified, still present, or neither. -/
def settleItem (env : Env) (tx : Tx) (wid : Nat) (ev : Evidence)
    (outcomes : List (Nat × ClosingOutcome × List String)) :
    Tx :=
  if outcomes.any fun o => o.2.1 == .notApplicable then
    invalidRun env tx wid ev.run (outcomes.flatMap fun o => if o.2.1 = .notApplicable then o.2.2 else [])
  else
    let tx := beginRescan env tx wid ev.run
    let states := tx.db.statesOf (outcomes.map Prod.fst)
    if issueMayClose states then verifyItem env tx wid ev states
    else stillPresent env tx wid ev.run ((outcomes.filter fun o => o.2.1 == .stillPresent).map Prod.fst)

/-- The members of a closing work item, one after the other. -/
def judgeMembers (env : Env) (cmp : Compare) (ev : Evidence) (tx : Tx) (wid : Nat) (item : WorkItem) : Judged :=
  (tx.db.members wid).foldl (closeMember env cmp ev item) (tx, [])

/-- `_close_work_item`. -/
def closeWorkItem (env : Env) (cmp : Compare) (ev : Evidence) (tx : Tx) (wid : Nat) : Tx :=
  match tx.db.workItems.get? wid with
  | none => tx
  | some item =>
    let (tx, outcomes) := judgeMembers env cmp ev tx wid item
    settleItem env tx wid ev outcomes

/-! ## Regressions -/

/-- The run as evidence that a closed finding is back: it must descend from the run that closed it. -/
def reopenValidity (env : Env) (cmp : Compare) (db : Db) (ev : Evidence) (fid : Nat) (f : Finding) : RunValidity :=
  let closingSha := (f.closedByRunId.bind db.scanRuns.get?).map ScanRun.sourceSha
  validateClosingRun env.ext ev.run ev.jobs f closingSha (isAncestor cmp ⟨false, ev.rid, fid⟩) false
    (laterRunSaw db ev.rid ev.run f)

/-- The policy scan still suppresses an approved disposition. -/
def stillSuppressed (db : Db) (ev : Evidence) (fid : Nat) (f : Finding) : Bool :=
  let view := sightingsFor fid ev.rid ev.sightings (familyIds db f)
  let values := [Scanner.trivy, .grype].filterMap view.policyPresent
  f.state == .approvedDisposition && values.all (!·) && values ≠ []

/-- A finding that came back leaves its work item, whose issue is reopened. -/
def reopenFinding (env : Env) (ev : Evidence) (tx : Tx) (fid : Nat) (f : Finding) : Tx :=
  let (tx, fired) := tx.finding env fid .reappeared ("present again in run " ++ ev.run.externalRunId) "scanner"
    (some ev.rid)
  if !fired then tx
  else
    let tx := tx.tally "regression"
    let tx := match (f.workItemId.bind tx.db.workItems.get?).bind WorkItem.issueNumber with
      | some n =>
        (tx.must (.reopenIssue n)).must (.commentIssue n ("Regression: " ++ f.vulnId ++ " reappeared in run `" ++
          ev.run.externalRunId ++ "` @ `" ++ takeText 12 ev.run.sourceSha ++ "`. A new work item will be created."))
      | none => tx
    tx.modifyFinding fid (Finding.giveTo none)

/-- One closed finding of `_regressions`. -/
def regressFinding (env : Env) (cmp : Compare) (ev : Evidence)
    (present : List (String × String × Option String × String))
    (tx : Tx) (fid : Nat) : Tx :=
  match tx.db.findings.get? fid with
  | none => tx
  | some f =>
    if familyKey f ∉ present then tx
    else if !(reopenValidity env cmp tx.db ev fid f).valid then tx
    else if stillSuppressed tx.db ev fid f then tx
    else reopenFinding env ev tx fid f

/-- `_regressions`. -/
def regressions (env : Env) (cmp : Compare) (ev : Evidence) (tx : Tx) : Tx :=
  let present := presentFamilies tx.db ev.sightings
  if present = [] then tx
  else (tx.db.findings.select fun f => f.state.isClosing).foldl (regressFinding env cmp ev present) tx

/-! ## Drift -/

/-- `_drift` looks at findings in these states. -/
def driftStates : List FindingState := [.«open», .unclassified, .grouped]

/-- The work item whose queued issue a grouped finding holds open, or a reason to leave the finding alone. -/
def driftOwner (db : Db) (f : Finding) : Option (Option Nat) :=
  match f.state, f.workItemId with
  | .grouped, some wid =>
    if (db.workItems.get? wid).any fun w => w.state ∈ [WorkItemState.queued, .issueOpen] then some (some wid) else none
  | _, _ => some none

/-- The run as evidence that a finding nobody works on is gone. -/
def driftValidity (env : Env) (db : Db) (ev : Evidence) (f : Finding) : RunValidity :=
  validateClosingRun env.ext ev.run ev.jobs f none (fun _ _ => false) false (laterRunSaw db ev.rid ev.run f)

/-- One candidate of `_drift`; the work items touched are kept. -/
def driftFinding (env : Env) (ev : Evidence) (present : List (String × String × Option String × String))
    (acc : Tx × List Nat) (fid : Nat) : Tx × List Nat :=
  match acc.1.db.findings.get? fid with
  | none => acc
  | some f =>
    if familyKey f ∈ present then acc
    else match driftOwner acc.1.db f with
      | none => acc
      | some owner =>
        let touched := acc.2 ++ owner.toList
        if !(driftValidity env acc.1.db ev f).valid then (acc.1, touched)
        else
          let (tx, fired) := acc.1.finding env fid .closingAbsent
            ("absent in run " ++ ev.run.externalRunId ++ " (no remediation)") "scanner" (some ev.rid)
          (if fired then tx.tally "fixed_by_drift" else tx, touched)

/-- A touched work item all of whose members are gone. -/
def supersedeItem (env : Env) (ev : Evidence) (tx : Tx) (wid : Nat) : Tx :=
  if issueMayClose (tx.db.statesOf (tx.db.members wid)) then
    let tx := tx.wi env wid .superseded ("all members absent in run " ++ ev.run.externalRunId) "controller"
    match (tx.db.workItems.get? wid).bind WorkItem.issueNumber with
    | some n => (tx.must (.commentIssue n ("All findings absent in run `" ++ ev.run.externalRunId ++
        "` before any session ran; closing."))).must (.closeIssue n)
    | none => tx
  else tx

/-- `_drift`. Each touched item is superseded by itself, so it does not matter in which order their set is visited. -/
def drift (env : Env) (ev : Evidence) (tx : Tx) : Tx :=
  let present := presentFamilies tx.db ev.sightings
  let candidates := tx.db.findings.select fun f => f.state ∈ driftStates && f.lastSeenRunId ≠ ev.rid
  let (tx, touched) := candidates.foldl (driftFinding env ev present) (tx, [])
  (touched.eraseDups.insertionSort (· ≤ ·)).foldl (supersedeItem env ev) tx

/-! ## Applying a run -/

/-- The ids of the work items that wait for a closing run. -/
def closingItems (db : Db) : List Nat := db.workItems.select fun w => w.state ∈ [WorkItemState.merged, .awaitingRescan]

/-- The first loop of `apply_scan_run`. -/
def closeItems (env : Env) (cmp : Compare) (ev : Evidence) (tx : Tx) : Tx :=
  (closingItems tx.db).foldl (closeWorkItem env cmp ev) tx

/-- The body of `apply_scan_run` for a run that is owed its evaluation. -/
def evaluateRun (env : Env) (cmp : Compare) (ev : Evidence) (tx : Tx) : Tx :=
  let tx := closeItems env cmp ev tx
  let tx := regressions env cmp ev tx
  let tx := drift env ev tx
  { tx with db := { tx.db with scanRuns := tx.db.scanRuns.modify ev.rid fun r =>
      { r with closureAppliedAt := some env.now } } }

/-- `apply_scan_run`: a run already applied is not evaluated again. -/
def applyScanRun (env : Env) (cmp : Compare) (rid : Nat) (tx : Tx) : Tx :=
  match tx.db.evidence rid with
  | some ev => if ev.run.closureAppliedAt.isSome then tx else evaluateRun env cmp ev tx
  | none => tx

/-- `pending_scan_runs`: oldest scan first. -/
def pendingScanRuns (db : Db) : List Nat := db.sortRuns (db.scanRuns.select fun r => r.closureAppliedAt.isNone)

/-- The runs replayed for a merge at `mergedAt`: applied, and finished since; oldest first. -/
def replayedRuns (db : Db) (mergedAt : DateTime) : List Nat :=
  (db.scanRuns.select fun r => r.closureAppliedAt.isSome && r.finishedAt.any (mergedAt ≤ ·)).insertionSort fun a b =>
    let key (rid : Nat) := ((db.scanRuns.get? rid).bind ScanRun.finishedAt).getD 0
    key a < key b || (key a == key b && a ≤ b)

/-- One run of `_close_from_applied_runs`: nothing more happens once the item is settled. -/
def replayRun (env : Env) (cmp : Compare) (wid : Nat) (tx : Tx) (rid : Nat) : Tx :=
  if (tx.db.workItems.get? wid).any fun w => w.state ∈ [WorkItemState.merged, .awaitingRescan] then
    match tx.db.evidence rid with
    | some ev => closeWorkItem env cmp ev tx wid
    | none => tx
  else tx

/-- `_close_from_applied_runs`. -/
def closeFromAppliedRuns (env : Env) (cmp : Compare) (tx : Tx) (wid : Nat) : Tx :=
  match (tx.db.workItems.get? wid).bind WorkItem.mergedAt with
  | none => tx
  | some mergedAt => (replayedRuns tx.db mergedAt).foldl (replayRun env cmp wid) tx

end HardeningLoop
