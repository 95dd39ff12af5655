import HardeningLoop.Classify.Group
import HardeningLoop.Orchestrator.Engine.Events
import HardeningLoop.Orchestrator.Policy

/-!
# Work items and their issues

`createWorkItems` groups the open classified findings of the latest main run, one transaction for each group
(`groupFindings`); `openIssue` files or adopts the issue of a queued item.
-/

namespace HardeningLoop

open Rows (Table)

/-! ## The order of runs -/

/-- The place of a run among the scans: when it finished (runs without a time first), when it was ingested, its id. -/
def chronology (rid : Nat) (run : ScanRun) : List Int :=
  [if run.finishedAt.isSome then 1 else 0, run.finishedAt.getD 0, run.ingestedAt, rid]

/-- Run `a` is not later than run `b`. -/
def Db.runLe (db : Db) (a b : Nat) : Bool :=
  match db.scanRuns.get? a, db.scanRuns.get? b with
  | some r, some r' => chronology a r ≤ chronology b r'
  | _, _ => true

/-- Ids of runs, oldest scan first. -/
def Db.sortRuns (db : Db) (rids : List Nat) : List Nat := rids.insertionSort fun a b => db.runLe a b

/-- `_latest_main_run`. -/
def latestMainRun (db : Db) : Option Nat :=
  (db.sortRuns (db.scanRuns.select fun r => r.sourceRepo == forkRepo && r.sourceBranch == remediationBranch)).getLast?

/-! ## Grouping -/

/-- `groupable`. -/
def groupableStates : List FindingState := [.«open», .regression]

/-- The kind and key a finding is grouped by. -/
def groupOf (f : Finding) : Option (Kind × String) :=
  f.kind.map fun kind => (kind, groupKeyFor (some kind) f.pkgName f.ecosystem f.layer f.dedupeKey)

/-- Add an id to the bucket of its group. -/
def addToBucket (buckets : List ((Kind × String) × List Nat)) (group : Kind × String) (fid : Nat) :
    List ((Kind × String) × List Nat) :=
  Dict.set buckets group ((Dict.get? buckets group).getD [] ++ [fid])

/-- The first half of `create_work_items`: the groups of the findings the run saw last, in order. -/
def groupBuckets (db : Db) (rid : Nat) : List ((Kind × String) × List Nat) :=
  let fids := db.findings.select fun f => f.lastSeenRunId == rid && f.kind.isSome && f.state ∈ groupableStates
  let buckets := fids.foldl (fun buckets fid =>
    match (db.findings.get? fid).bind groupOf with
    | some group => addToBucket buckets group fid
    | none => buckets) []
  buckets.insertionSort fun a b => a.1.1.number < b.1.1.number || (a.1.1.number == b.1.1.number && a.1.2 ≤ b.1.2)

/-- `max(severities, key=rank)`: the first of the greatest. -/
def maxSeverity (severities : List Severity) : Severity :=
  severities.foldl (fun best s => if s.rank > best.rank then s else best) (severities.headD .unknown)

/-- The first `n` for which no work item has the key `{key}#r{n}`. -/
def regressionKey (db : Db) (key : String) : String :=
  let candidates := (List.range' 1 (db.workItems.size + 1)).map fun n => key ++ "#r" ++ toString n
  (candidates.find? fun k => (db.workItems.first fun w => w.groupKey == k).isNone).getD key

/-- The members of a group, as they are read under the lock. -/
def groupMembers (db : Db) (rid : Nat) (ids : List Nat) : List (Nat × Finding) :=
  ids.filterMap fun fid => (db.findings.get? fid).bind fun f =>
    if f.lastSeenRunId = rid && f.state ∈ groupableStates then some (fid, f) else none

/-- A new work item for a group. -/
def newWorkItem (env : Env) (kind : Kind) (key : String) (members : List Finding) (regressionOf : Option Nat) :
    WorkItem :=
  { kind := kind, groupKey := key
    title := titleFor kind (members.map Finding.vulnId) (members.head?.bind Finding.pkgName)
      (members.head?.bind Finding.pkgVersion) ((members.head?.map Finding.layer).getD .python)
    severity := maxSeverity (members.map Finding.severity)
    risk := if members.any fun f => f.risk == .high then .high else .normal
    acuCap := kind.acuCap, regressionOfWorkItemId := regressionOf, createdAt := env.now, updatedAt := env.now }

/-- Insert a work item for a group and record its creation. -/
def createItem (env : Env) (tx : Tx) (kind : Kind) (key : String) (members : List Finding) (regressionOf : Option Nat) :
    Tx × Nat × Bool :=
  let item := newWorkItem env kind key members regressionOf
  let wid := tx.db.workItems.nextId
  ((tx.insertItem item).event env .workItem wid (.log "created") none (some item.state.value)
    (toString members.length ++ " findings; severity=" ++ item.severity.value ++ "; risk=" ++ item.risk.value ++
      regressionOf.elim "" fun r => "; regression_of=" ++ toString r) "controller" [], wid, true)

/-- `_work_item_for_group`: the group's item while it is being worked, else a new one; a closed group that came back
gets a regression item. -/
def workItemForGroup (env : Env) (tx : Tx) (kind : Kind) (key : String) (members : List Finding) : Tx × Nat × Bool :=
  let existing := tx.db.workItems.first fun w =>
    w.kind == kind && w.groupKey == key && w.sourceBranch == remediationBranch
  match existing with
  | none => createItem env tx kind key members none
  | some wid =>
    if (tx.db.workItems.get? wid).any fun w => w.state ∈ terminalWorkItemStates then
      createItem env tx kind (regressionKey tx.db key) members (some wid)
    else (tx, wid, false)

/-- The session row a work item's active session is recorded in. -/
def Db.activeSession (db : Db) (item : WorkItem) : Option Nat :=
  item.activeSessionId.bind fun sid => if sid = "" then none else db.sessions.first fun s => s.devinId == sid

/-- `_members_joined`: the issue and the session of a dispatched item are told about new members. -/
def membersJoined (env : Env) (tx : Tx) (wid : Nat) (joining : List Finding) : Tx :=
  match tx.db.workItems.get? wid with
  | none => tx
  | some item =>
    let vulns := sortedSet (joining.map Finding.vulnId)
    let tx := tx.event env .workItem wid (.log "members_added") (some item.state.value) (some item.state.value)
      (toString joining.length ++ " new finding(s): " ++ commaJoin (vulns.take 8)) "scanner" []
    match item.issueNumber with
    | none => tx
    | some n =>
      if item.state = .queued then tx
      else
        let tx := tx.must (.commentIssue n ("A later scan added " ++ toString joining.length ++
          " finding(s) to this group: " ++ commaJoin ((vulns.take 8).map fun v => "`" ++ v ++ "`") ++
          ". They must be remediated here too; this issue cannot close until every member is resolved."))
        match item.activeSessionId with
        | some sid =>
          if item.state ∈ activeWorkItemStates then
            let tx := tx.must (.sendMessage sid ("New findings joined this work item: " ++ commaJoin (vulns.take 8) ++
              ". Cover them in the same PR and list them in the structured output."))
            match tx.db.sessions.first fun s => s.devinId == sid with
            | some row => tx.modifySession row fun s => { s with messagesSent := s.messagesSent + 1 }
            | none => tx
          else tx
        | none => tx

/-- Give a finding to a work item. -/
def joinItem (env : Env) (wid : Nat) (groupKey : String) (tx : Tx) (fid : Nat) : Tx :=
  ((tx.modifyFinding fid (Finding.giveTo (some wid))).finding env fid .grouped
    ("work_item=" ++ toString wid ++ " " ++ groupKey) "controller" none).1

/-- One group of `create_work_items`: the transaction that gives its members to a work item. -/
def groupFindings (env : Env) (rid : Nat) (kind : Kind) (key : String) (ids : List Nat) (tx : Tx) : Tx :=
  let members := groupMembers tx.db rid ids
  if members = [] then tx
  else
    let (tx, wid, isNew) := workItemForGroup env tx kind key (members.map Prod.snd)
    let joining := members.filter fun m => m.2.workItemId != some wid
    let tx := if !isNew && joining ≠ [] then membersJoined env tx wid (joining.map Prod.snd) else tx
    let groupKey := ((tx.db.workItems.get? wid).map WorkItem.groupKey).getD ""
    (joining.map Prod.fst).foldl (joinItem env wid groupKey) tx

/-! ## Issues -/

/-- `_issue_title`. -/
def issueTitle (item : WorkItem) : String := "[hardening-loop] " ++ item.title

/-- `_open_controller_issues`: the open issues no work item is bound to, by title; `none` when GitHub cannot be
asked. -/
def openControllerIssues (db : Db) (listed : Option (List Issue)) : Option (List (String × Issue)) :=
  listed.map fun issues =>
    let unbound := issues.filter fun i => (db.workItems.first fun w => w.issueNumber == some i.number).isNone
    (unbound.insertionSort fun a b => a.number ≤ b.number).foldl
      (fun byTitle i => if (Dict.get? byTitle i.title).isSome then byTitle else Dict.set byTitle i.title i) []

/-- The rows of the table in an issue's body. -/
def findingRow (f : Finding) : String :=
  let fixes := sortedSet (f.fixVersionsByScanner.flatMap Prod.snd)
  let place := match f.pkgName with
    | some name => if name = "" then f.resource.getD "" else name
    | none => f.resource.getD ""
  "| " ++ f.vulnId ++ " | " ++ place ++ " | " ++ f.pkgVersion.getD "" ++ " | " ++ f.layer.value ++ " | " ++
    f.severity.value ++ " | " ++ (if f.reportedByTrivy then "x" else "") ++ " | " ++
    (if f.reportedByGrype then "x" else "") ++ " | " ++ commaJoin fixes ++ " |"

/-- `_issue_body`. -/
def issueBody (env : Env) (item : WorkItem) (members : List Finding) : String :=
  let rows := ["| id | package | version | layer | severity | trivy | grype | fix versions |",
      "|---|---|---|---|---|---|---|---|"] ++
    (members.insertionSort fun a b => a.severity.rank > b.severity.rank ||
      (a.severity.rank == b.severity.rank && a.vulnId ≤ b.vulnId)).map findingRow
  "\n".intercalate (["**Kind " ++ toString item.kind.number ++ "** `" ++ item.kind.playbookSlug ++ "` - group `" ++
      item.groupKey ++ "` - ACU cap " ++ formatFixed 0 item.acuCap ++ " - risk " ++ item.risk.value, "",
    "Base branch: `" ++ remediationBranch ++ "` in `" ++ env.settings.repo ++
      "`. Approvals and merges happen in GitHub only; the controller never merges.", ""] ++ rows ++ ["",
    "_Managed by superset-hardening-loop. Labels: `retry`, `disposition:approved`, `disagreement:resolved`, " ++
      "`dispatch:approved`; closing this issue abandons the work item._"])

/-- The labels of a new issue. -/
def issueLabels (item : WorkItem) : List String :=
  [controllerLabel, item.kind.label, "severity:" ++ item.severity.value] ++
    (if item.risk = .high then ["risk:high"] else []) ++
    (if dispatchAllowed item.severity [] then [] else [awaitingDispatchLabel])

/-- Bind an issue to a work item. -/
def bindIssue (env : Env) (tx : Tx) (wid : Nat) (issue : Issue) (reason : String) : Tx :=
  (tx.modifyItem wid fun w => { w with issueNumber := some issue.number, issueUrl := some issue.url
                                       issueOpenedAt := some env.now }).wi env wid .issueCreated reason "controller"

/-- `_open_issue`: adopt an open issue of the title, else create one; `created` is GitHub's answer. -/
def openIssue (env : Env) (tx : Tx) (wid : Nat) (existing : Option (List (String × Issue)))
    (relisted : Option (List Issue)) (created : Except String Issue) : Tx × Bool :=
  match tx.db.workItems.get? wid with
  | none => (tx, false)
  | some item =>
    let title := issueTitle item
    let listing := match existing with
      | some byTitle => some byTitle
      | none => openControllerIssues tx.db relisted
    let found := (listing.bind (Dict.get? · title)).filter fun i =>
      (tx.db.workItems.first fun w => w.issueNumber == some i.number).isNone
    match found with
    | some issue => (bindIssue env tx wid issue ("adopted existing " ++ issue.url), true)
    | none =>
      match created with
      | .error exc => (tx.log env wid "issue_create_failed" item.state (takeText 300 exc) "controller", false)
      | .ok issue =>
        let members := (tx.db.members wid).filterMap tx.db.findings.get?
        let tx := tx.answered (.createIssue title (issueBody env item members) (issueLabels item))
        (bindIssue env tx wid issue issue.url, true)

end HardeningLoop
