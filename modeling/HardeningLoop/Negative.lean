import HardeningLoop.Gate
import HardeningLoop.Ingest.Discovery
import HardeningLoop.Lib.Fallible

/-!
# The negative suite

The suite shows that the fork's workflow catches what it must: a case changes a checkout in a known way, a pull request
has the workflow run on it, and its check runs are compared with a table of the conclusions that the case may have.

- `byName_get?`: of the check runs of one name, the first completed one counts;
- `evaluate_passes_iff`: when a case passes; `cases_told_apart`: no check runs let two cases pass;
- `baselineEvidence_spec`: what a scan with more findings is compared with;
- `run_verdict`: whatever calls fail, the pull request is closed and the branch deleted, and a report passes when its
  case does.
-/

namespace HardeningLoop.Negative

/-! ## Cases -/

def checkBuild : String := "build-image"
def checkIgnore : String := "forbid-ignore-files"
def checkVexLint : String := "vex-lint"
def checkScanLeanRaw : String := "scan-lean-raw"
def checkScanLeanPolicy : String := "scan-lean-policy"
def checkScanCiRaw : String := "scan-ci-raw"
def checkGate : String := "policy-gate"
def checkSmoke : String := "lean-smoke"
def checkAppRuns : String := "app-runs"
def checkManifest : String := "scan-manifest"

/-- `CHECK_SCAN_MATRIX_TEMPLATE`: the name of the matrix when it is not expanded. -/
def checkScanMatrixTemplate : String := "scan-$\x7b\x7b matrix.target \x7d\x7d-$\x7b\x7b matrix.mode \x7d\x7d"

def scanMatrixLegs : List String := [checkScanLeanRaw, checkScanLeanPolicy, checkScanCiRaw]

def regressionPin : String := "urllib3==1.26.4"

/-- A case: the conclusions each check may have, and whether raw counts are compared. -/
structure NegativeCase where
  name : String
  summary : String
  expect : List (String × List String)
  comparesCounts : Bool := false

/-- `CASES`. -/
def negativeCases : List NegativeCase :=
  [ { name := "broken-build"
      summary := "`RUN false` in the lean stage: build-image must fail and image jobs must skip"
      expect := [(checkBuild, ["failure"]), (checkIgnore, ["success"]), (checkVexLint, ["success"]),
        (checkScanLeanRaw, ["skipped"]), (checkScanLeanPolicy, ["skipped"]), (checkScanCiRaw, ["skipped"]),
        (checkGate, ["skipped"]), (checkSmoke, ["skipped"]), (checkAppRuns, ["skipped"]),
        (checkManifest, ["cancelled", "failure", "skipped"])] },
    { name := "broken-runtime"
      summary := "import-time error in superset/config.py: image builds and scans but never starts"
      expect := [(checkBuild, ["success"]), (checkScanLeanRaw, ["success"]), (checkScanLeanPolicy, ["success"]),
        (checkScanCiRaw, ["success"]), (checkSmoke, ["failure"]), (checkAppRuns, ["failure"]),
        (checkManifest, ["cancelled", "failure", "skipped"])] },
    { name := "dependency-regression"
      summary := regressionPin ++ " via requirements/base.in + scripts/uv-pip-compile.sh: report mode " ++
        "stays green while raw HIGH/CRITICAL counts rise; enforce mode would fail"
      expect := [(checkBuild, ["success"]), (checkIgnore, ["success"]), (checkVexLint, ["success"]),
        (checkScanLeanRaw, ["success"]), (checkScanLeanPolicy, ["success"]), (checkScanCiRaw, ["success"]),
        (checkGate, ["success"]), (checkSmoke, ["success"]), (checkAppRuns, ["success"]), (checkManifest, ["success"])]
      comparesCounts := true },
    { name := "ignore-file"
      summary := ".trivyignore at the repo root: forbid-ignore-files and every scan must fail"
      expect := [(checkIgnore, ["failure"]), (checkScanLeanRaw, ["failure"]), (checkScanLeanPolicy, ["failure"]),
        (checkScanCiRaw, ["failure"]), (checkManifest, ["cancelled", "failure", "skipped"])] },
    { name := "unapproved-vex"
      summary := "approved/ OpenVEX without x-approval: vex-lint and the policy scan must fail"
      expect := [(checkVexLint, ["failure"]), (checkScanLeanRaw, ["success"]), (checkScanLeanPolicy, ["failure"]),
        (checkGate, ["cancelled", "failure", "skipped"]), (checkManifest, ["cancelled", "failure", "skipped"])] }]

/-! ## Evaluation -/

inductive BaselineError where
  | notSuccessful (runId : Nat) (conclusion : Option String)
  | notOfBranch (runId : Nat) (branch : String)
  deriving DecidableEq, Repr

/-- An unmet expectation is the message it stands for, with the values the message prints. -/
inductive ExpectationFailure where
  | notReported (name : String)
  | still (name status : String)
  | concluded (name : String) (conclusion : Option String) (allowed : List String)
  | baselineRejected (e : BaselineError)
  | noHeadEvidence
  | noEvidenceOfRun (runId : Nat)
  | noBaselineEvidence (branch : String)
  | evidenceRejected (e : LoadError)
  | totalNotIncreased (main pr : Nat)
  | highCriticalNotIncreased (main pr : Nat)
  | enforcePassed

/-- A skipped matrix stands for its legs. -/
def expandRun (run : CheckRun) : List CheckRun :=
  if run.name = checkScanMatrixTemplate && run.status = "completed" && run.conclusion = some "skipped" then
    scanMatrixLegs.map fun leg => { name := leg, status := run.status, conclusion := run.conclusion }
  else [run]

/-- `expand_matrix`. -/
def expandMatrix (runs : List CheckRun) : List CheckRun := runs.flatMap expandRun

/-- One check run in `by_name`. -/
def placeRun (byName : List (String × CheckRun)) (run : CheckRun) : List (String × CheckRun) :=
  match Dict.get? byName run.name with
  | none => Dict.set byName run.name run
  | some prev => if prev.status ≠ "completed" && run.status = "completed" then Dict.set byName run.name run else byName

def byName (runs : List CheckRun) : List (String × CheckRun) := (expandMatrix runs).foldl placeRun []

/-- What is wrong with a check, if anything. -/
def unmet (found : Option CheckRun) (name : String) (allowed : List String) : Option ExpectationFailure :=
  match found with
  | none => some (.notReported name)
  | some run =>
    if run.status ≠ "completed" then some (.still name run.status)
    else if run.conclusion.any (· ∈ allowed) then none
    else some (.concluded name run.conclusion allowed)

/-- `evaluate`. -/
def evaluate (case_ : NegativeCase) (runs : List CheckRun) : List (String × Option String) × List ExpectationFailure :=
  ((byName runs).map fun kv => (kv.1, kv.2.conclusion),
    case_.expect.filterMap fun e => unmet (Dict.get? (byName runs) e.1) e.1 e.2)

/-- `all_expected_completed`. -/
def allExpectedCompleted (case_ : NegativeCase) (runs : List CheckRun) : Bool :=
  case_.expect.all fun e => (expandMatrix runs).any fun r => r.name == e.1 && r.status == "completed"

section Evaluation

variable {runs : List CheckRun}

/-- The first completed run of a name. -/
def firstCompleted (runs : List CheckRun) (name : String) : Option CheckRun :=
  (expandMatrix runs).find? fun r => r.name == name && r.status == "completed"

theorem get?_placeRun (d : List (String × CheckRun)) (run : CheckRun) (name : String) :
    Dict.get? (placeRun d run) name =
      if run.name = name then
        some (((Dict.get? d name).filter fun prev => prev.status == "completed" || run.status != "completed").getD run)
      else Dict.get? d name := by
  unfold placeRun
  by_cases hname : run.name = name
  · subst hname
    rw [if_pos rfl]
    cases hprev : Dict.get? d run.name with
    | none => rw [Dict.get?_set, if_pos rfl]; rfl
    | some prev =>
      by_cases hdone : prev.status = "completed" <;> by_cases hnew : run.status = "completed" <;>
        simp [hdone, hnew, hprev, Dict.get?_set, Option.filter]
  · rw [if_neg hname]
    have hset : Dict.get? (Dict.set d run.name run) name = Dict.get? d name := by
      rw [Dict.get?_set, if_neg (Ne.symm hname)]
    split
    · exact hset
    · split
      · exact hset
      · rfl

/-- What a run of check runs makes of the one that is there for a name. -/
theorem get?_foldl_placeRun (runs : List CheckRun) (d : List (String × CheckRun)) (name : String) :
    Dict.get? (runs.foldl placeRun d) name =
      ((Dict.get? d name).filter fun r => r.status == "completed").or
        ((runs.find? fun r => r.name == name && r.status == "completed").or
          ((Dict.get? d name).or (runs.find? fun r => r.name == name))) := by
  induction runs generalizing d with
  | nil =>
    cases hprev : Dict.get? d name with
    | none => simp [hprev]
    | some prev => by_cases hdone : prev.status = "completed" <;> simp [hprev, hdone, Option.filter]
  | cons run runs ih =>
    rw [List.foldl_cons, ih, get?_placeRun]
    by_cases hname : run.name = name
    · cases hprev : Dict.get? d name with
      | none => by_cases hnew : run.status = "completed" <;> simp [hname, hnew, Option.filter]
      | some prev =>
        by_cases hdone : prev.status = "completed" <;> by_cases hnew : run.status = "completed" <;>
          simp [hname, hdone, hnew, Option.filter]
    · simp [hname]

/-- **The first completed run counts**, and the first run if none is completed. -/
theorem byName_get? (runs : List CheckRun) (name : String) :
    Dict.get? (byName runs) name = (firstCompleted runs name).or ((expandMatrix runs).find? fun r => r.name == name) :=
  get?_foldl_placeRun (expandMatrix runs) [] name

theorem firstCompleted_completed {name : String} {run : CheckRun} (h : firstCompleted runs name = some run) :
    run.status = "completed" := by
  have hfound := List.find?_some h
  simp only [Bool.and_eq_true, beq_iff_eq] at hfound
  exact hfound.2

/-- Nothing is wrong with a check when its first completed run has an allowed conclusion. -/
theorem unmet_eq_none {name : String} {allowed : List String} :
    unmet (Dict.get? (byName runs) name) name allowed = none ↔
      ∃ run, firstCompleted runs name = some run ∧ run.conclusion.any (· ∈ allowed) = true := by
  rw [byName_get?]
  cases hfirst : firstCompleted runs name with
  | some run =>
    have hdone := firstCompleted_completed hfirst
    simp [unmet, hdone]
  | none =>
    simp only [Option.none_or, reduceCtorEq, false_and, exists_false, iff_false]
    cases hany : (expandMatrix runs).find? fun r => r.name == name with
    | none => exact fun h => by cases h
    | some run =>
      -- a run of the name that is not completed
      have hname := List.find?_some hany
      have hnot : run.status ≠ "completed" := by
        intro hdone
        have hno := List.find?_eq_none.mp hfirst run (List.mem_of_find?_eq_some hany)
        simp [hdone, eq_of_beq hname] at hno
      simp [unmet, hnot]

/-- **When a case passes**: the first completed run of each of its checks has a conclusion that is allowed. -/
theorem evaluate_passes_iff (case_ : NegativeCase) (runs : List CheckRun) :
    (evaluate case_ runs).2 = [] ↔
      ∀ e ∈ case_.expect, ∃ run, firstCompleted runs e.1 = some run ∧ run.conclusion.any (· ∈ e.2) = true := by
  rw [evaluate, List.filterMap_eq_nil_iff]
  exact forall₂_congr fun e _ => unmet_eq_none

/-- **No check runs let two cases pass.** -/
theorem cases_told_apart {case_ case' : NegativeCase} (hcase : case_ ∈ negativeCases) (hcase' : case' ∈ negativeCases)
    (hne : case_.name ≠ case'.name) (runs : List CheckRun) :
    (evaluate case_ runs).2 ≠ [] ∨ (evaluate case' runs).2 ≠ [] := by
  -- a check of both that they allow no conclusion in common
  have hapart : ∀ c ∈ negativeCases, ∀ c' ∈ negativeCases, c.name ≠ c'.name →
      ∃ e ∈ c.expect, ∃ e' ∈ c'.expect, e.1 = e'.1 ∧ ∀ a ∈ e.2, a ∉ e'.2 := by decide +kernel
  obtain ⟨e, he, e', he', hcheck, hdisjoint⟩ := hapart case_ hcase case' hcase' hne
  by_contra hboth
  simp only [not_or, not_not] at hboth
  obtain ⟨run, hrun, hallowed⟩ := (evaluate_passes_iff case_ runs).mp hboth.1 e he
  obtain ⟨run', hrun', hallowed'⟩ := (evaluate_passes_iff case' runs).mp hboth.2 e' he'
  rw [← hcheck, hrun] at hrun'
  obtain rfl := Option.some.inj hrun'
  obtain ⟨conclusion, hconclusion, hin⟩ := (Option.any_eq_true _ _).mp hallowed
  rw [hconclusion, Option.any_some] at hallowed'
  exact hdisjoint conclusion (of_decide_eq_true hin) (of_decide_eq_true hallowed')

/-- The check runs of a build that fails: the matrix of the scans is not expanded. -/
def brokenBuildRuns : List CheckRun :=
  [(checkBuild, "failure"), (checkIgnore, "success"), (checkVexLint, "success"), (checkScanMatrixTemplate, "skipped"),
    (checkGate, "skipped"), (checkSmoke, "skipped"), (checkAppRuns, "skipped"),
    (checkManifest, "failure")].map fun run =>
      { name := run.1, status := "completed", conclusion := some run.2 }

/-- They are those of the first case, so not of the second. -/
theorem cases_told_apart_first : (evaluate (negativeCases.get ⟨0, by decide⟩) brokenBuildRuns).2 = [] ∧
    (evaluate (negativeCases.get ⟨1, by decide⟩) brokenBuildRuns).2 ≠ [] := by
  have hpasses : (evaluate (negativeCases.get ⟨0, by decide⟩) brokenBuildRuns).2 = [] := by rfl
  exact ⟨hpasses, (cases_told_apart (List.get_mem ..) (List.get_mem ..) (by decide) brokenBuildRuns).resolve_left
    (not_not.mpr hpasses)⟩

end Evaluation

/-! ## Evidence -/

/-- `EVIDENCE_ARTIFACT_PREFIX`. -/
def evidenceArtifactPrefix : String := "scan-evidence-"

/-- What GitHub answers about the artifacts of runs. -/
structure EvidenceAnswers where
  artifacts : Nat → Except GitHubError (List ArtifactInfo)
  download : Nat → Except GitHubError Bundle

/-- `_evidence_for_run`. -/
def evidenceForRun (gh : EvidenceAnswers) (runId : Nat) : Except GitHubError (Option Bundle) :=
  match gh.artifacts runId with
  | .error e => .error e
  | .ok artifacts =>
    match artifacts.find? fun a => hasPrefix evidenceArtifactPrefix a.name with
    | none => .ok none
    | some a => (gh.download a.id).map some

/-- `_evidence_for`, of the runs listed for the head. -/
def evidenceFor (gh : EvidenceAnswers) (headSha : String) : Listing GitHubError WorkflowRunInfo →
    Except GitHubError (Option Bundle)
  | .stop => .ok none
  | .raised e => .error e
  | .next run rest =>
    if run.headSha ≠ headSha then evidenceFor gh headSha rest
    else match evidenceForRun gh run.id with
      | .error e => .error e
      | .ok (some root) => .ok (some root)
      | .ok none => evidenceFor gh headSha rest

/-- `_baseline_evidence`, of the runs listed for the base branch; `compareRunId` is the run asked for, if any. -/
def baselineEvidence (gh : EvidenceAnswers) (baseBranch : String) (compareRunId : Option Nat) :
    Listing GitHubError WorkflowRunInfo → Except GitHubError (Except BaselineError (Option Nat × Option Bundle))
  | .stop =>
    match compareRunId with
    | some runId => .ok (.error (.notOfBranch runId baseBranch))
    | none => .ok (.ok (none, none))
  | .raised e => .error e
  | .next run rest =>
    if compareRunId.any (· ≠ run.id) then baselineEvidence gh baseBranch compareRunId rest
    else if run.conclusion ≠ some "success" then
      if compareRunId.isSome then .ok (.error (.notSuccessful run.id run.conclusion))
      else baselineEvidence gh baseBranch compareRunId rest
    else match evidenceForRun gh run.id with
      | .error e => .error e
      | .ok root =>
        if root.isSome || compareRunId.isSome then .ok (.ok (some run.id, root))
        else baselineEvidence gh baseBranch compareRunId rest

structure RawCounts where
  sourceSha : String
  image : String
  total : Nat
  highCritical : Nat
  bySeverity : List (String × Nat)

/-- `raw_counts`. -/
def rawCounts (rd : Reader) (root : Bundle) : Except LoadError RawCounts := do
  let manifest ← loadBaseline rd root
  match Dict.get? manifest.jobs "lean-raw" with
  | none => .error (.key "lean-raw")
  | some job =>
    let findings := normalize job.vulns []
    let bySeverity := (findings.map fun f => f.severity.value).foldl (fun counts key => count key counts) []
    let image ← (← (Json.obj manifest.images).item "lean").item "image_id"
    .ok { sourceSha := manifest.sourceSha, image := strJson image, total := findings.length
          highCritical :=
            (Dict.get? bySeverity Severity.high.value).getD 0 + (Dict.get? bySeverity Severity.critical.value).getD 0
          bySeverity := bySeverity.insertionSort fun a b => a.1 ≤ b.1 }

/-- The exceptions that are an `EvidenceError`; a copy of a VEX document that is no object raises another one. -/
def isEvidenceError : LoadError → Bool
  | .notAnObject path => (pathParts path).dropLast ≠ [vexEvidenceDir]
  | .missingFile _ | .checksum _ _ _ | .jobSchema _ _ | .rawListsVex _ | .record _ _ _ | .manifestSchema _
  | .manifestSum | .scannedOther _ _ => true
  | _ => false

/-- What the runner raises. -/
inductive RunnerError where
  | github (e : GitHubError)
  | load (e : LoadError)
  | gate (message : String)

structure CountReport where
  baselineRunId : Option Nat
  failures : List ExpectationFailure
  counts : Option (RawCounts × RawCounts) := none
  enforceVerdict : Option GateResult := none

/-- What is expected of the counts of the pull request, and of those of the base branch. -/
def countFailures (pr main : RawCounts) : List ExpectationFailure :=
  (if pr.total ≤ main.total then [.totalNotIncreased main.total pr.total] else []) ++
    if pr.highCritical ≤ main.highCritical then [.highCriticalNotIncreased main.highCritical pr.highCritical] else []

/-- What the evidence of a pull request is compared by. -/
structure Comparison where
  rd : Reader
  gh : EvidenceAnswers
  baseBranch : String
  compareRunId : Option Nat
  headRuns : Listing GitHubError WorkflowRunInfo
  baseRuns : Listing GitHubError WorkflowRunInfo

/-- `_compare_counts`. -/
def compareCounts (c : Comparison) (headSha : String) : Except RunnerError CountReport :=
  match evidenceFor c.gh headSha c.headRuns with
  | .error e => .error (.github e)
  | .ok prRoot =>
    match baselineEvidence c.gh c.baseBranch c.compareRunId c.baseRuns with
    | .error e => .error (.github e)
    | .ok (.error e) => .ok { baselineRunId := none, failures := [.baselineRejected e] }
    | .ok (.ok (baselineRunId, mainRoot)) =>
      match prRoot, mainRoot with
      | none, _ => .ok { baselineRunId := baselineRunId, failures := [.noHeadEvidence] }
      | some _, none =>
        .ok { baselineRunId := baselineRunId
              failures := [match c.compareRunId with
                | some runId => .noEvidenceOfRun runId
                | none => .noBaselineEvidence c.baseBranch] }
      | some prRoot, some mainRoot =>
        match (do .ok (← rawCounts c.rd prRoot, ← rawCounts c.rd mainRoot)) with
        | .error e =>
          if isEvidenceError e then .ok { baselineRunId := baselineRunId, failures := [.evidenceRejected e] } else
            .error (.load e)
        | .ok (pr, main) =>
          match loadScanJob c.rd (jobDir prRoot "lean" "policy") "lean/policy" with
          | .error e => .error (.load e)
          | .ok job =>
            match gateJob job .enforce with
            | .error message => .error (.gate message)
            | .ok enforce =>
              .ok { baselineRunId := baselineRunId, counts := some (pr, main), enforceVerdict := some enforce
                    failures := countFailures pr main ++ if enforce.verdict.passed then [.enforcePassed] else [] }

section Evidence

variable {gh : EvidenceAnswers} {baseBranch : String} {compareRunId : Option Nat}

/-- The runs a listing yields. -/
def yielded {ε α : Type} : Listing ε α → List α
  | .stop => []
  | .raised _ => []
  | .next a rest => a :: yielded rest

/-- **What a pull request is compared with**: the evidence of a successful run of the base branch, and of the one asked
for. -/
theorem baselineEvidence_spec {runs : Listing GitHubError WorkflowRunInfo} {baselineRunId : Option Nat} {root : Bundle}
    (h : baselineEvidence gh baseBranch compareRunId runs = .ok (.ok (baselineRunId, some root))) :
    ∃ run ∈ yielded runs, baselineRunId = some run.id ∧ run.conclusion = some "success" ∧
      (∀ n, compareRunId = some n → n = run.id) ∧ evidenceForRun gh run.id = .ok (some root) := by
  induction runs with
  | stop =>
    unfold baselineEvidence at h
    split at h <;> cases h
  | raised e => cases h
  | next run rest ih =>
    have hlater (h : baselineEvidence gh baseBranch compareRunId rest = .ok (.ok (baselineRunId, some root))) :
        ∃ run' ∈ yielded (.next run rest), baselineRunId = some run'.id ∧ run'.conclusion = some "success" ∧
          (∀ n, compareRunId = some n → n = run'.id) ∧ evidenceForRun gh run'.id = .ok (some root) := by
      obtain ⟨run', hrun', hrest⟩ := ih h
      exact ⟨run', List.mem_cons_of_mem _ hrun', hrest⟩
    unfold baselineEvidence at h
    split at h
    · exact hlater h
    · rename_i hasked
      split at h
      · split at h
        · cases h
        · exact hlater h
      · rename_i hsuccess
        split at h
        · cases h
        · rename_i root' hroot
          split at h
          · obtain ⟨rfl, rfl⟩ := Prod.mk.inj (Except.ok.inj (Except.ok.inj h))
            refine ⟨run, List.mem_cons_self, rfl, not_not.mp hsuccess, fun n hn => ?_, hroot⟩
            rw [hn, Option.any_some, decide_eq_true_eq, not_not] at hasked
            exact hasked
          · exact hlater h

theorem countFailures_eq_nil {pr main : RawCounts} (h : countFailures pr main = []) :
    main.total < pr.total ∧ main.highCritical < pr.highCritical := by
  obtain ⟨htotal, hhigh⟩ := List.append_eq_nil_iff.mp h
  constructor
  · by_contra hle
    rw [if_pos (not_lt.mp hle)] at htotal
    cases htotal
  · by_contra hle
    rw [if_pos (not_lt.mp hle)] at hhigh
    cases hhigh

/-- The pull request has more findings than a successful run of the base branch, more of them high or critical, and its
policy scan does not pass the gate. -/
def Regressed (c : Comparison) (headSha : String) : Prop :=
  ∃ prRoot mainRoot, ∃ pr main : RawCounts, ∃ run ∈ yielded c.baseRuns, ∃ job,
    evidenceFor c.gh headSha c.headRuns = .ok (some prRoot) ∧
    run.conclusion = some "success" ∧ (∀ n, c.compareRunId = some n → n = run.id) ∧
    evidenceForRun c.gh run.id = .ok (some mainRoot) ∧
    rawCounts c.rd prRoot = .ok pr ∧ rawCounts c.rd mainRoot = .ok main ∧
    main.total < pr.total ∧ main.highCritical < pr.highCritical ∧
    loadScanJob c.rd (jobDir prRoot "lean" "policy") "lean/policy" = .ok job ∧
    ∃ result, gateJob job .enforce = .ok result ∧ result.verdict.passed = false

/-- **When the counts are as expected.** -/
theorem compareCounts_passes {c : Comparison} {headSha : String} {report : CountReport}
    (h : compareCounts c headSha = .ok report)
    (hpasses : report.failures = []) : Regressed c headSha := by
  unfold compareCounts at h
  split at h
  · cases h
  · rename_i prRoot hhead
    split at h
    · cases h
    · obtain rfl := Except.ok.inj h
      cases hpasses
    · rename_i baselineRunId mainRoot hbase
      split at h
      · obtain rfl := Except.ok.inj h
        cases hpasses
      · obtain rfl := Except.ok.inj h
        cases hpasses
      · rename_i prRoot mainRoot
        split at h
        · split at h
          · obtain rfl := Except.ok.inj h
            cases hpasses
          · cases h
        · rename_i pr main hcounts
          split at h
          · cases h
          · rename_i job hjob
            split at h
            · cases h
            · rename_i enforce hgate
              obtain rfl := Except.ok.inj h
              obtain ⟨hcounted, hgated⟩ := List.append_eq_nil_iff.mp hpasses
              obtain ⟨htotal, hhigh⟩ := countFailures_eq_nil hcounted
              obtain ⟨run, hrun, -, hsuccess, hasked, hmain⟩ := baselineEvidence_spec hbase
              obtain ⟨pr', hpr, hrest⟩ := Fallible.bind_eq_ok.mp hcounts
              obtain ⟨main', hmain', hboth⟩ := Fallible.bind_eq_ok.mp hrest
              obtain ⟨rfl, rfl⟩ := Prod.mk.inj (Except.ok.inj hboth)
              refine ⟨prRoot, mainRoot, _, _, run, hrun, job, hhead, hsuccess, hasked, hmain, hpr, hmain',
                htotal, hhigh, hjob,
                enforce, hgate, ?_⟩
              by_contra hpassed
              rw [if_pos (Bool.eq_true_of_not_eq_false hpassed)] at hgated
              cases hgated

end Evidence

/-! ## The runner -/

/-- A call of the runner to GitHub; the counts are compared by calls that only read. -/
inductive RunnerCall where
  | createPullRequest (title body head base : String)
  | listCheckRuns (sha : String)
  | compareCounts (sha : String)
  | commentIssue (number : Nat) (passed : Bool) (results : List (String × Option String))
    (failures : List ExpectationFailure)
  | closePullRequest (number : Nat)
  | deleteBranch (branch : String)

/-- What GitHub answers the runner. A poll is answered by a listing, and the deadline is past after it or not; where the
polls end, the process died. -/
structure RunnerAnswers where
  created : Except GitHubError PullRequestInfo
  polls : List (Except GitHubError (List CheckRun) × Bool)
  comparison : Comparison
  commented : Except GitHubError Unit
  closed : Except GitHubError Unit
  deleted : Except GitHubError Unit

structure CaseReport where
  case_ : String
  summary : String
  branch : String
  headSha : String
  prUrl : String
  checkResults : List (String × Option String)
  expectationFailures : List ExpectationFailure
  counts : Option CountReport
  passed : Bool

/-- The polls of `run`: until all expected checks are completed, or the deadline is past. -/
def waitForChecks (case_ : NegativeCase) (headSha : String) :
    List (Except GitHubError (List CheckRun) × Bool) → List RunnerCall × Option (Except GitHubError (List CheckRun))
  | [] => ([], none)
  | (.error e, _) :: _ => ([.listCheckRuns headSha], some (.error e))
  | (.ok runs, past) :: polls =>
    if allExpectedCompleted case_ runs || past then ([.listCheckRuns headSha], some (.ok runs))
    else
      let (calls, waited) := waitForChecks case_ headSha polls
      (.listCheckRuns headSha :: calls, waited)

/-- The counts are compared if the case wants it and nothing else is wrong. -/
def compareIfGreen (case_ : NegativeCase) (headSha : String) (c : Comparison) (failures : List ExpectationFailure) :
    List RunnerCall × Except RunnerError (Option CountReport) :=
  if case_.comparesCounts && failures.isEmpty then ([.compareCounts headSha], (compareCounts c headSha).map some)
  else ([], .ok none)

/-- The verdict of `run` and the comment that says it. -/
def judge (case_ : NegativeCase) (branch headSha : String) (pr : PullRequestInfo) (answers : RunnerAnswers)
    (runs : List CheckRun) :
    List RunnerCall × Except RunnerError CaseReport :=
  let (results, failures) := evaluate case_ runs
  match compareIfGreen case_ headSha answers.comparison failures with
  | (calls, .error e) => (calls, .error e)
  | (calls, .ok counts) =>
    let failures := failures ++ counts.elim [] CountReport.failures
    let passed := failures.isEmpty
    let calls := calls ++ [.commentIssue pr.number passed (results.insertionSort fun a b => a.1 ≤ b.1) failures]
    match answers.commented with
    | .error e => (calls, .error (.github e))
    | .ok () =>
      (calls, .ok { case_ := case_.name, summary := case_.summary, branch := branch, headSha := headSha, prUrl := pr.url
                    checkResults := results, expectationFailures := failures, counts := counts, passed := passed })

/-- The `finally` of `run`: the exception of the last call that raises is the one that is left. -/
def cleanUp (closed deleted : Except GitHubError Unit) (outcome : Except RunnerError CaseReport) :
    Except RunnerError CaseReport :=
  match deleted, closed with
  | .error e, _ => .error (.github e)
  | .ok (), .error e => .error (.github e)
  | .ok (), .ok () => outcome

/-- The pull request of a case. -/
def createCall (case_ : NegativeCase) (baseBranch branch runUrl : String) : RunnerCall :=
  .createPullRequest ("[ci-negative] " ++ case_.name ++ " (expected to fail checks)")
    ("Operator-triggered negative test `" ++ case_.name ++ "`: " ++ case_.summary ++ ".\n\nDriven by " ++ runUrl ++
      ". This PR is closed automatically; never merge it.") branch baseBranch

/-- `NegativeRunner.run`: the calls it makes, and what it returns or raises unless the process dies. -/
def run (case_ : NegativeCase) (branch headSha runUrl : String) (answers : RunnerAnswers) :
    List RunnerCall × Option (Except RunnerError CaseReport) :=
  let create := createCall case_ answers.comparison.baseBranch branch runUrl
  match answers.created with
  | .error e => ([create], some (.error (.github e)))
  | .ok pr =>
    match waitForChecks case_ headSha answers.polls with
    | (calls, none) => (create :: calls, none)
    | (calls, some waited) =>
      let (judging, outcome) : List RunnerCall × Except RunnerError CaseReport :=
        match waited with
        | .error e => ([], .error (.github e))
        | .ok runs => judge case_ branch headSha pr answers runs
      (create :: calls ++ judging ++ [.closePullRequest pr.number, .deleteBranch branch],
        some (cleanUp answers.closed answers.deleted outcome))

/-- Calls that leave the branch and the state of the pull request as they are. -/
def RunnerCall.LeavesOpen (number : Nat) : RunnerCall → Prop
  | .listCheckRuns _ => True
  | .compareCounts _ => True
  | .commentIssue n _ _ _ => n = number
  | _ => False

section Runner

variable {case_ : NegativeCase} {branch headSha : String} {pr : PullRequestInfo} {answers : RunnerAnswers}

/-- The polls end with a listing in which all is completed, or after the deadline; they only list. -/
theorem waitForChecks_spec (case_ : NegativeCase) (headSha : String)
    (polls : List (Except GitHubError (List CheckRun) × Bool)) :
    (∀ c ∈ (waitForChecks case_ headSha polls).1, c = .listCheckRuns headSha) ∧
      ∀ runs, (waitForChecks case_ headSha polls).2 = some (.ok runs) →
        ∃ past, (.ok runs, past) ∈ polls ∧ (allExpectedCompleted case_ runs = true ∨ past = true) := by
  induction polls with
  | nil => exact ⟨fun c hc => absurd hc List.not_mem_nil, fun runs h => by cases h⟩
  | cons poll polls ih =>
    obtain ⟨listed, past⟩ := poll
    cases listed with
    | error e => exact ⟨fun c hc => List.mem_singleton.mp hc, fun runs h => by cases h⟩
    | ok runs =>
      unfold waitForChecks
      by_cases hdone : (allExpectedCompleted case_ runs || past) = true
      · rw [if_pos hdone]
        refine ⟨fun c hc => List.mem_singleton.mp hc, fun runs' h => ?_⟩
        obtain rfl := Except.ok.inj (Option.some.inj h)
        exact ⟨past, List.mem_cons_self, Bool.or_eq_true_iff.mp hdone⟩
      · rw [if_neg hdone]
        refine ⟨fun c hc => ?_, fun runs' h => ?_⟩
        · rcases List.mem_cons.mp hc with rfl | hc
          · rfl
          · exact ih.1 c hc
        · obtain ⟨past', hmem, hends⟩ := ih.2 runs' h
          exact ⟨past', List.mem_cons_of_mem _ hmem, hends⟩

theorem compareIfGreen_calls {c : Comparison} {failures : List ExpectationFailure} {number : Nat} :
    ∀ call ∈ (compareIfGreen case_ headSha c failures).1, call.LeavesOpen number := by
  intro call hcall
  unfold compareIfGreen at hcall
  split at hcall
  · rw [List.mem_singleton.mp hcall]
    trivial
  · cases hcall

/-- Nothing is wrong then if nothing was before, and the counts are as expected where they are compared. -/
theorem compareIfGreen_ok {c : Comparison} {failures : List ExpectationFailure} {counts : Option CountReport}
    (h : (compareIfGreen case_ headSha c failures).2 = .ok counts) :
    failures ++ counts.elim [] CountReport.failures = [] ↔ failures = [] ∧
      (case_.comparesCounts = true → ∃ report, compareCounts c headSha = .ok report ∧ report.failures = []) := by
  unfold compareIfGreen at h
  by_cases hgreen : (case_.comparesCounts && failures.isEmpty) = true
  · rw [if_pos hgreen] at h
    obtain ⟨hcompares, hnone⟩ := Bool.and_eq_true_iff.mp hgreen
    rw [List.isEmpty_iff] at hnone
    subst hnone
    cases hreport : compareCounts c headSha with
    | error e =>
      rw [hreport] at h
      cases h
    | ok report =>
      rw [hreport] at h
      obtain rfl := Except.ok.inj h
      simp [hcompares]
  · rw [if_neg hgreen] at h
    obtain rfl := Except.ok.inj h
    rw [Option.elim_none, List.append_nil]
    refine ⟨fun hnone => ⟨hnone, fun hcompares => absurd ?_ hgreen⟩, And.left⟩
    rw [hcompares, hnone]
    rfl

theorem judge_calls (runs : List CheckRun) :
    ∀ c ∈ (judge case_ branch headSha pr answers runs).1, c.LeavesOpen pr.number := by
  have hcounting {number : Nat} : ∀ c ∈ (compareIfGreen case_ headSha answers.comparison (evaluate case_ runs).2).1,
      c.LeavesOpen number := compareIfGreen_calls
  unfold judge
  dsimp only
  split
  · rename_i calls e heq
    rw [heq] at hcounting
    exact hcounting
  · rename_i calls counts heq
    rw [heq] at hcounting
    have hall (comment : RunnerCall) (hcomment : comment.LeavesOpen pr.number) :
        ∀ c ∈ calls ++ [comment], c.LeavesOpen pr.number := by
      intro c hc
      rcases List.mem_append.mp hc with hc | hc
      · exact hcounting c hc
      · rw [List.mem_singleton.mp hc]
        exact hcomment
    split
    · exact hall _ rfl
    · exact hall _ rfl

/-- **A report passes** when its case does, and the counts are as expected where they are compared. -/
theorem judge_passes {runs : List CheckRun} {report : CaseReport}
    (h : (judge case_ branch headSha pr answers runs).2 = .ok report) :
    report.checkResults = (evaluate case_ runs).1 ∧ (report.passed = true ↔ (evaluate case_ runs).2 = [] ∧
      (case_.comparesCounts = true → ∃ counts, compareCounts answers.comparison headSha = .ok counts ∧
          counts.failures = [])) := by
  unfold judge at h
  dsimp only at h
  split at h
  · cases h
  · rename_i calls counts heq
    split at h
    · cases h
    · obtain rfl := Except.ok.inj h
      exact ⟨rfl, List.isEmpty_iff.trans (compareIfGreen_ok (congrArg Prod.snd heq))⟩

end Runner

/-- **Whatever calls fail**: unless the process dies, the pull request is closed and then the branch deleted, last of
all and once; and a report that is returned passes exactly when each check had an allowed conclusion in the last
listing, and the counts were as expected where they are compared, which they are only for a regression. -/
theorem run_verdict (case_ : NegativeCase) (branch headSha runUrl : String) (answers : RunnerAnswers) :
    (∀ pr, answers.created = .ok pr → (run case_ branch headSha runUrl answers).2.isSome = true →
      ∃ calls, (run case_ branch headSha runUrl answers).1 =
          createCall case_ answers.comparison.baseBranch branch runUrl :: calls ++
            [.closePullRequest pr.number, .deleteBranch branch] ∧
        ∀ c ∈ calls, c.LeavesOpen pr.number) ∧
      ∀ report, (run case_ branch headSha runUrl answers).2 = some (.ok report) →
        ∃ runs past, (.ok runs, past) ∈ answers.polls ∧ (allExpectedCompleted case_ runs = true ∨ past = true) ∧
          report.checkResults = (evaluate case_ runs).1 ∧
          (report.passed = true ↔
            (∀ e ∈ case_.expect, ∃ r, firstCompleted runs e.1 = some r ∧ r.conclusion.any (· ∈ e.2) = true) ∧
            (case_.comparesCounts = true →
              ∃ counts, compareCounts answers.comparison headSha = .ok counts ∧ counts.failures = [])) ∧
          (report.passed = true → case_.comparesCounts = true → Regressed answers.comparison headSha) := by
  obtain ⟨hlists, hends⟩ := waitForChecks_spec case_ headSha answers.polls
  constructor
  · intro pr hpr hsome
    unfold run at hsome ⊢
    rw [hpr] at hsome ⊢
    cases hwait : waitForChecks case_ headSha answers.polls with
    | mk calls waited =>
      rw [hwait] at hsome hlists
      cases waited with
      | none => cases hsome
      | some waited =>
        have hlisting : ∀ c ∈ calls, c.LeavesOpen pr.number := by
          intro c hc
          rw [hlists c hc]
          trivial
        cases waited with
        | error e => exact ⟨calls ++ [], rfl, by rwa [List.append_nil]⟩
        | ok runs =>
          refine ⟨calls ++ (judge case_ branch headSha pr answers runs).1, rfl, fun c hc => ?_⟩
          rcases List.mem_append.mp hc with hc | hc
          · exact hlisting c hc
          · exact judge_calls runs c hc
  · intro report hreport
    unfold run at hreport
    split at hreport
    · cases Option.some.inj hreport
    · rename_i pr hpr
      split at hreport
      · cases hreport
      · rename_i calls waited hwait
        have houtcome {outcome : Except RunnerError CaseReport}
            (h : some (cleanUp answers.closed answers.deleted outcome) = some (.ok report)) : outcome = .ok report := by
          have hok := Option.some.inj h
          unfold cleanUp at hok
          split at hok
          · cases hok
          · cases hok
          · exact hok
        cases waited with
        | error e => cases houtcome hreport
        | ok runs =>
          obtain ⟨past, hmem, hend⟩ := hends runs (by rw [hwait])
          obtain ⟨hresults, hpassed⟩ := judge_passes (houtcome hreport)
          refine ⟨runs, past, hmem, hend, hresults, by rw [hpassed, evaluate_passes_iff], fun hpass hcompares => ?_⟩
          obtain ⟨counts, hcounts, hnone⟩ := (hpassed.mp hpass).2 hcompares
          exact compareCounts_passes hcounts hnone

end HardeningLoop.Negative
