import HardeningLoop.Devin.Enums
import HardeningLoop.Github.Protocol

/-!
# The verification ladder

Which rungs of the ladder a pull request's head has earned: a rung's components are proved by check runs of the head.
-/

namespace HardeningLoop

/-- One thing a rung requires; a component without a check is always unavailable. -/
structure Component where
  name : String
  description : String
  check : Option String
  deriving DecidableEq, Repr

/-- `DEFAULT_LADDER`. -/
def defaultLadder : VerificationDepth → List Component
  | .requirementsPip => [
      ⟨"requirements-regenerated", "pins regenerate cleanly from source inputs (scripts/uv-pip-compile.sh)",
        some "check-python-deps"⟩,
      ⟨"pip-install", "pip installs the pinned set while building the immutable image", some "build-image"⟩]
  | .importMigrations => [
      ⟨"import-and-migrations", "superset imports, `superset db upgrade` reaches head, gunicorn serves /health, " ++
        "login works, all inside the exact lean image", some "lean-smoke"⟩]
  | .targetedUnit => [⟨"python-unit-tests", "pytest unit suite", some "unit-tests"⟩]
  | .immutableImageRuntime => [
      ⟨"postgres-redis-app-runs", "exact ci image with Postgres, Redis and Celery: migrations, login, dashboards, " ++
        "chart data, SQL Lab sync + async, CSV export", some "app-runs"⟩,
      ⟨"screenshot", "rendered dashboard screenshot from the running image", none⟩]
  | .dbSubset => [
      ⟨"integration-postgres", "integration tests on PostgreSQL", some "test-postgres"⟩,
      ⟨"integration-mysql", "integration tests on MySQL", some "test-mysql"⟩,
      ⟨"integration-sqlite", "integration tests on SQLite", some "test-sqlite"⟩]
  | .playwright => [⟨"playwright", "Playwright end-to-end suite", some "playwright-tests"⟩]
  | .canary => [⟨"canary", "canary deployment with traffic; no environment exists", none⟩]

structure CheckRecord where
  depth : VerificationDepth
  name : String
  source : CheckSource
  status : CheckStatus
  detail : String
  url : Option String := none
  deriving DecidableEq, Repr

/-- `matching_runs`: the check's own name, or its matrix entries. -/
def matchingRuns (check : String) (runs : List CheckRun) : List CheckRun :=
  runs.filter fun r => r.name == check || hasPrefix (check ++ " (") r.name

def isSuccess (r : CheckRun) : Bool := r.conclusion == some "success"

/-- The conclusion is neither a success nor one of `_UNAVAILABLE_CONCLUSIONS`. -/
def isFailure (r : CheckRun) : Bool :=
  !isSuccess r && r.conclusion != some "skipped" && r.conclusion != some "neutral"

/-- `f"{r.name}={r.conclusion}"`, for each run. -/
def conclusionsText (runs : List CheckRun) : String :=
  commaJoin (runs.map fun r => r.name ++ "=" ++ r.conclusion.getD "None")

/-- `_component_status`. -/
def componentStatus (check : String) (runs : List CheckRun) : CheckStatus × String × Option String :=
  let matched := matchingRuns check runs
  let total := toString matched.length
  if matched = [] then (.unavailable, "no check run named " ++ reprText check ++ " on this head", none)
  else
    let url := (matched.find? fun r => r.url.any (· ≠ "")).bind CheckRun.url
    let running := matched.filter fun r => r.status ≠ "completed"
    let failed := matched.filter isFailure
    let succeeded := matched.filter isSuccess
    let skipped := matched.filter fun r => !isSuccess r
    if running ≠ [] then (.pending, toString running.length ++ "/" ++ total ++ " runs still in progress", url)
    else if failed ≠ [] then (.failed, conclusionsText failed, url)
    else if succeeded = [] then
      (.unavailable, "all runs concluded " ++
        commaJoin (sortedSet (matched.map fun r => r.conclusion.getD "None")) ++ "; no evidence", url)
    else if skipped ≠ [] then
      (.partial_, toString succeeded.length ++ "/" ++ total ++ " runs succeeded; no evidence from " ++
        conclusionsText skipped, url)
    else (.passed, toString succeeded.length ++ " run(s) succeeded", url)

/-- `_rung_status`. -/
def rungStatus (statuses : List CheckStatus) : CheckStatus :=
  if statuses.any (· == .failed) then .failed
  else if statuses.any (· == .pending) then .pending
  else if statuses.all (· == .unavailable) then .unavailable
  else if statuses.all (· == .passed) then .passed
  else .partial_

/-- The record of one component. -/
def componentRecord (runs : List CheckRun) (depth : VerificationDepth) (comp : Component) : CheckRecord :=
  match comp.check with
  | none => ⟨depth, comp.name, .ladder, .unavailable,
      "no check exists for this on the repository: " ++ comp.description, none⟩
  | some check =>
    let (status, detail, url) := componentStatus check runs
    ⟨depth, comp.name, .githubCheck, status, detail, url⟩

structure DepthEvaluation where
  records : List CheckRecord
  rungs : List (VerificationDepth × CheckStatus)
  deriving DecidableEq, Repr

/-- `evaluate`. -/
def evaluate (runs : List CheckRun) (ladder : VerificationDepth → List Component) : DepthEvaluation :=
  { records := depths.flatMap fun d => (ladder d).map (componentRecord runs d)
    rungs := depths.map fun d =>
      (d, if ladder d = [] then .unavailable
        else rungStatus ((ladder d).map fun comp => (componentRecord runs d comp).status)) }

namespace DepthEvaluation

variable (ev : DepthEvaluation)

/-- `highest_passed`; the rungs are in order. -/
def highestPassed : Option VerificationDepth := ((ev.rungs.filter fun r => r.2 == .passed).map Prod.fst).getLast?

def rungSummary : List (String × String) := ev.rungs.map fun r => (r.1.name, r.2.value)

end DepthEvaluation

/-- `code == 0`. -/
def isZero : Option Json → Bool
  | some (.num q) => q = 0
  | some (.bool b) => !b
  | _ => false

/-- `claims_from_output`: Devin's own claims, which never move a rung. -/
def claimsFromOutput (structuredOutput : Option Json) : List CheckRecord :=
  match (structuredOutput.bind (·.get? "tests_run")).bind Json.arr? with
  | none => []
  | some items => (items.zipIdx.filter fun p => p.1.isObj).map fun (item, i) =>
    let command := takeText 200 (((item.get? "command").map strJson).getD "")
    let code := item.get? "exit_code"
    { depth := .targetedUnit, name := "devin-tests-run-" ++ toString (i + 1), source := .devinClaim
      status := if isZero code then .passed else .failed
      detail := "exit " ++ (code.map strJson).getD "None" ++ ": " ++ command }

end HardeningLoop
