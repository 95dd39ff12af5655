import HardeningLoop.Lib.Machine
import HardeningLoop.Orchestrator.Engine.Labels
import HardeningLoop.Orchestrator.Engine.PullRequests

/-!
# The controller as a machine

The state of the machine is the database, the place of the controller in its tick (`Phase`) and what it keeps in hand
between two commits of one unit (`Flight`). Ticks, launches and cancels exclude each other; an ingest is another
process' and may commit between any two of their transactions. Every action carries the time and the answers of GitHub
and Devin.

- `exec`: one transaction, or one move from a phase to the next; an action that does not apply changes nothing;
- `Reachable`: the states the controller can be in, from an empty database.
-/

namespace HardeningLoop

open Rows (Table)

/-- Where the controller is in its tick; a list is what is left of a listing the tick made. -/
inductive Phase where
  | idle
  | polling
  | applying (pending : List Nat)
  | grouping (rid : Nat) (groups : List ((Kind × String) × List Nat))
  | opening (queued : List Nat) (existing : Option (List (String × Issue)))
  | recovering (stuck : List Nat) (dispatching : Bool)
  | dispatching (targets : List (Nat × Nat × Severity))
  | settling

structure Sys where
  db : Db
  phase : Phase := .idle
  flight : Option Flight := none

/-- What stays fixed while the controller runs. -/
structure Controller where
  settings : Settings
  ext : External
  playbookIds : Kind → Option String := fun _ => none

def Controller.env (c : Controller) (now : DateTime) : Env := ⟨c.settings, c.ext, now, c.playbookIds⟩

inductive Action where
  | ingest (run : RunMeta) (jobs : List ScanJobEvidence) (upperBounds : List (String × String)) (now : DateTime)
  | beginTick
  | pollSession (now : DateTime) (wid : Nat) (sid : String) (snap : SessionSnapshot) (answers : SessionAnswers)
  | pollPullRequest (now : DateTime) (wid number : Nat) (pr : PullRequestInfo) (checks : List CheckRun)
      (answers : PrAnswers)
  | pollHumanLabel (now : DateTime) (wid number : Nat) (state : String) (labels : List String)
  /-- Move on to the next phase, with the listing of open issues where it is asked for. -/
  | next (autoDispatch : Bool) (listed : Option (List Issue))
  | applyRun (now : DateTime) (compare : Compare)
  /-- The evaluation of a run raised: only crashed dispatches are recovered in this tick. -/
  | applyFailed
  | group (now : DateTime)
  | openIssue (now : DateTime) (relisted : Option (List Issue)) (created : Except String Issue)
  | recover (now : DateTime)
  | dispatch (now : DateTime) (labels : List String)
  | adopt (now : DateTime) (remote : Except String (List SessionSnapshot))
  | create (now : DateTime) (answer : Except String SessionSnapshot) (commented : Except String Unit)
  | launch (now : DateTime) (wid : Nat) (operator : String) (answers : LaunchAnswers)
  | cancelRequest (now : DateTime) (wid : Nat) (operator : String)
  | cancelAnswer (now : DateTime) (answer : Except String SessionSnapshot)
  /-- The tick ends, an exception ends it, or the process dies: what was not committed is lost. -/
  | stop

/-- The items a crashed dispatch left in `dispatching`. -/
def stuckItems (db : Db) : List Nat := db.workItems.select fun w => w.state == .dispatching

/-- The queued items. -/
def queuedItems (db : Db) : List Nat := db.workItems.select fun w => w.state == .queued

/-- Groups of the latest main run; none without one. -/
def beginGrouping (db : Db) : Phase :=
  match latestMainRun db with
  | some rid => .grouping rid (groupBuckets db rid)
  | none => .grouping 0 []

/-- The phase after the current one is done. -/
def nextPhase (c : Controller) (db : Db) (autoDispatch : Bool) (listed : Option (List Issue)) : Phase → Phase
  | .polling => .applying (pendingScanRuns db)
  | .applying [] => beginGrouping db
  | .grouping _ [] =>
    if autoDispatch || c.settings.autoOpenIssues then .opening (queuedItems db) (openControllerIssues db listed)
    else .recovering (stuckItems db) false
  | .opening [] _ => .recovering (stuckItems db) autoDispatch
  | .recovering [] true => .dispatching (dispatchTargets db)
  | .recovering [] false => .settling
  | .dispatching [] => .settling
  | p => p

/-- Run a unit as a transaction. -/
def Sys.commit (s : Sys) (unit : Tx → Tx) : Sys := { s with db := (unit { db := s.db }).db }

/-- The next group of `create_work_items`. -/
def stepGroup (env : Env) (s : Sys) : Sys :=
  match s.phase with
  | .grouping rid (((kind, key), ids) :: groups) =>
    { s.commit (groupFindings env rid kind key ids) with phase := .grouping rid groups }
  | _ => s

/-- The next item of `open_issues`. -/
def stepOpen (env : Env) (relisted : Option (List Issue)) (created : Except String Issue) (s : Sys) : Sys :=
  match s.phase with
  | .opening (wid :: queued) existing =>
    let s := if s.db.itemState wid = some .queued then
        s.commit fun tx => (openIssue env tx wid existing relisted created).1
      else s
    { s with phase := .opening queued existing }
  | _ => s

/-- The next item of `_recover_dispatching`. -/
def stepRecover (env : Env) (s : Sys) : Sys :=
  match s.phase with
  | .recovering (wid :: stuck) dispatching =>
    let s := { s with phase := .recovering stuck dispatching }
    if s.db.itemState wid = some .dispatching then
      { s.commit (recover env · wid) with flight := some (.adopting wid true) }
    else s
  | _ => s

/-- The next candidate of `dispatch`; without capacity the loop ends. -/
def stepDispatch (env : Env) (labels : List String) (s : Sys) : Sys :=
  match s.phase with
  | .dispatching ((wid, issue, severity) :: targets) =>
    let (tx, result) := dispatchCandidate env { db := s.db } wid issue severity labels
    { db := tx.db
      phase := .dispatching (if result = .full then [] else targets)
      flight := if result = .reserved then some (.adopting wid false) else none }
  | _ => s

/-- Devin's answer, for a controller that waits for one. -/
def stepAdopt (env : Env) (remote : Except String (List SessionSnapshot)) (s : Sys) : Sys :=
  match s.flight with
  | some (.adopting wid recovering) =>
    let (tx, flight) := adoptTagged env { db := s.db } wid recovering remote
    { s with db := tx.db, flight := flight }
  | _ => s

def stepCreate (env : Env) (answer : Except String SessionSnapshot) (commented : Except String Unit) (s : Sys) : Sys :=
  match s.flight with
  | some (.creating wid members) =>
    { s.commit (createSession env · wid members answer commented) with flight := none }
  | _ => s

def stepCancel (env : Env) (answer : Except String SessionSnapshot) (s : Sys) : Sys :=
  match s.flight with
  | some (.cancelling wid row operator) =>
    { s.commit (cancelAnswer env · wid row operator answer) with flight := none }
  | _ => s

/-- A step of a controller that waits for no answer. -/
def stepFree (c : Controller) (s : Sys) : Action → Sys
  | .beginTick => match s.phase with
    | .idle => { s with phase := .polling }
    | _ => s
  | .pollSession now wid sid snap answers => match s.phase with
    | .polling | .settling => s.commit (pollSession (c.env now) wid sid snap answers)
    | _ => s
  | .pollPullRequest now wid number pr checks answers => match s.phase with
    | .polling => s.commit (pollPullRequest (c.env now) wid number pr checks answers)
    | _ => s
  | .pollHumanLabel now wid number state labels => match s.phase with
    | .polling => s.commit (pollHumanLabel (c.env now) wid number state labels)
    | _ => s
  | .next autoDispatch listed => { s with phase := nextPhase c s.db autoDispatch listed s.phase }
  | .applyRun now compare => match s.phase with
    | .applying (rid :: pending) => { s.commit (applyScanRun (c.env now) compare rid) with phase := .applying pending }
    | _ => s
  | .applyFailed => match s.phase with
    | .applying _ => { s with phase := .recovering (stuckItems s.db) false }
    | _ => s
  | .group now => stepGroup (c.env now) s
  | .openIssue now relisted created => stepOpen (c.env now) relisted created s
  | .recover now => stepRecover (c.env now) s
  | .dispatch now labels => stepDispatch (c.env now) labels s
  | .launch now wid operator answers => match s.phase with
    | .idle =>
      let (tx, reserved) := launch (c.env now) { db := s.db } wid operator answers
      { s with db := tx.db, flight := if reserved then some (.adopting wid false) else none }
    | _ => s
  | .cancelRequest now wid operator => match s.phase with
    | .idle =>
      let (tx, flight) := cancelRequest (c.env now) { db := s.db } wid operator
      { s with db := tx.db, flight := flight }
    | _ => s
  | _ => s

/-- One step of the machine. -/
def exec (c : Controller) (s : Sys) : Action → Sys
  | .ingest run jobs upperBounds now =>
    match ingestRun c.ext s.db run jobs upperBounds now with
    | .ok (db, _) => { s with db := db }
    | .error _ => s
  | .stop => { s with phase := .idle, flight := none }
  | .adopt now remote => stepAdopt (c.env now) remote s
  | .create now answer commented => stepCreate (c.env now) answer commented s
  | .cancelAnswer now answer => stepCancel (c.env now) answer s
  | a => if s.flight.isSome then s else stepFree c s a

/-- The controller before its first run. -/
def Sys.initial : Sys := { db := .empty }

/-- The states the controller can be in. -/
def Reachable (c : Controller) (s : Sys) : Prop := Machine.Reachable (exec c) Sys.initial s

/-! ## A fork to run it on

A controller with the default settings and scans of one Debian image, for the runs that the theorems name. Versions and
specifiers are only ever compared with themselves there. -/

def sampleExternal : External :=
  { versionGe := fun a b => some (a == b)
    specContains := fun _ _ => some true
    validateOutput := fun _ _ => []
    wordChar := fun c => c.isAlphanum || c == '_'
    digitValue := fun c => if c.isDigit then some (c.toNat - '0'.toNat) else none
    spaceChar := fun c => c == ' ' || c == '\n' }

def sampleController : Controller := { settings := {}, ext := sampleExternal }

/-- A record of a package that a scanner reports. -/
def sampleVuln (scanner : Scanner) (vuln pkg version : String) : RawVuln :=
  { scanner := scanner, primaryId := vuln, pkgName := pkg, pkgVersion := version, ecosystem := .deb, layer := .os,
    layer_eq := rfl
    severity := .high, fixedVersions := ["2"], fixState := "fixed" }

/-- A raw scan of the lean image by the pinned scanners. -/
def sampleScan (vulns : List RawVuln) : ScanJobEvidence :=
  { mode := .raw, imageRef := "lean", imageTarget := .lean, platform := "linux/amd64", layerScope := "all-layers"
    startedAt := ⟨0, "1970-01-01T00:00:00+00:00"⟩, finishedAt := ⟨0, "1970-01-01T00:00:00+00:00"⟩
    tools := { syft := "1.38.0", trivy := pinnedVersion .trivy, grype := pinnedVersion .grype, trivyDbUpdatedAt := none
               grypeDbBuiltAt := none }
    trivyVulns := vulns.filter fun v => v.scanner == .trivy, grypeVulns := vulns.filter fun v => v.scanner == .grype }

/-- A push to the main branch whose scan finished at `finishedAt` and reports `vulns`. -/
def sampleIngest (name : String) (finishedAt : DateTime) (vulns : List RawVuln) : Action :=
  .ingest { externalRunId := name, trigger := .push, sourceRepo := forkRepo, sourceBranch := remediationBranch
            sourceSha := "sha-" ++ name, platform := "linux/amd64", leanDigest := some "sha256:0"
            finishedAt := some finishedAt } [sampleScan vulns] [] finishedAt

/-- GitHub's compare on a linear history: every commit asked about is an ancestor. -/
def linearCompare : Compare := fun _ _ _ => some "ahead"

/-- A tick that applies a run and creates nothing. -/
def sampleApply (now : DateTime) : List Action :=
  [.beginTick, .next true none, .applyRun now linearCompare, .stop]

def sampleIssue : Issue := { number := 7, url := "https://github.com/Hunter-1298/superset/issues/7" }

def sampleSession : SessionSnapshot := { sessionId := "s1", status := .running }

/-- A tick that applies a run, groups its findings, opens the issue of the first work item and reserves it. -/
def sampleReserve (now : DateTime) : List Action :=
  [.beginTick, .next true none, .applyRun now linearCompare, .next true none, .group now, .next true none,
    .openIssue now (some []) (.ok sampleIssue), .next true none, .next true none, .dispatch now []]

/-- Devin has no session of the reserved item and creates one. -/
def sampleCreate (now : DateTime) : List Action :=
  [.adopt now (.ok []), .create now (.ok sampleSession) (.ok ()), .stop]

/-- The session of the first work item fails, and a human sets a label on its issue. -/
def sampleAccept (now : DateTime) (label : HumanLabel) : List Action :=
  [.beginTick, .pollSession now 1 "s1" { sampleSession with status := .error } {}, .stop, .beginTick,
    .pollHumanLabel now 1 7 "open" [label.value], .stop]

/-- A package that both scanners report. -/
def samplePair (vuln pkg version : String) : List RawVuln :=
  [sampleVuln .trivy vuln pkg version, sampleVuln .grype vuln pkg version]

/-- The pull request of the first work item, at a head. -/
def samplePull (head : String) : PullRequestInfo :=
  { repo := forkRepo, number := 1, url := "https://github.com/Hunter-1298/superset/pull/1", state := "open",
    merged := false
    mergeCommitSha := none, baseRef := remediationBranch, headRef := "devin/1", headRepo := forkRepo, headSha := head }

/-- A human merged it as commit `m`. -/
def sampleMerged (head : String) (mergedAt : DateTime) : PullRequestInfo :=
  { samplePull head with state := "closed", merged := true, mergeCommitSha := some "m", mergedAt := some mergedAt }

/-- A session's final report, which names a pull request. -/
def sampleReport (url : String) : SessionSnapshot :=
  { sampleSession with
    status := .exit
    pullRequests := [⟨url, none⟩]
    structuredOutput := some (.obj [("outcome", .str "pr_opened"), ("pr_url", .str url)]) }

/-- A tick in which the session of the first work item reports its pull request. -/
def sampleOpen (now : DateTime) (head : String) : List Action :=
  [.beginTick, .pollSession now 1 "s1" (sampleReport (samplePull head).url) { pullRequest := .ok (samplePull head) },
   .stop]

/-- A tick in which the pull request of the first work item is polled. -/
def samplePoll (now : DateTime) (pr : PullRequestInfo) (checks : List CheckRun) (answers : PrAnswers) : List Action :=
  [.beginTick, .pollPullRequest now 1 1 pr checks answers, .stop]

def sampleGreen : List CheckRun := [{ name := "ci", status := "completed", conclusion := some "success" }]

def sampleRed : List CheckRun := [{ name := "ci", status := "completed", conclusion := some "failure" }]

/-- Devin has a review of a head, in a status. -/
def sampleReview (status : ReviewStatus) (head : String) : PrAnswers :=
  { review := .ok (some { status := status, repoPath := "superset", prNumber := 1, commitSha := head })
    compare := linearCompare }

/-- A package that both scanners report; its work item waits for a human to merge the pull request, at head `a`. -/
def sampleReady : List Action :=
  [sampleIngest "1" 10 (samplePair "CVE-1" "openssl" "1")] ++ sampleReserve 11 ++ sampleCreate
    12 ++ sampleOpen 13 "a" ++
    samplePoll 14 (samplePull "a") sampleGreen (sampleReview .completed "a")

/-- Run the controller from an empty database. -/
def sampleState (trace : List Action) : Sys := Machine.run (exec sampleController) Sys.initial trace

theorem sampleState_reachable (trace : List Action) : Reachable sampleController (sampleState trace) :=
  Machine.Reachable.of_run Sys.initial trace

end HardeningLoop
