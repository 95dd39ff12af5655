import HardeningLoop.Ingest.Evidence

/-!
# Scan intake

Intake brings completed workflow runs of the fork into the controller. It downloads the evidence bundle of a run, checks
what the bundle claims against what GitHub says of the run (`validateBundle`), and persists it (`ingestRun`). Every run
it looks at gets one `ScanIntake` row (`ingestWorkflowRun`); `unseenRuns` are the newest runs without one, which are
taken oldest first.

A reason is the message it stands for with the values the message prints. GitHub's answers are an argument.
-/

namespace HardeningLoop

/-- One run of the workflow, as GitHub lists it. -/
structure WorkflowRunInfo where
  id : Nat
  runAttempt : Nat
  event : String
  status : String
  conclusion : Option String
  headBranch : Option String
  headSha : String
  url : String
  deriving DecidableEq, Repr

structure ArtifactInfo where
  id : Nat
  name : String
  expired : Bool := false
  digest : Option String := none
  deriving DecidableEq, Repr

/-- `BASELINE_SHA`. -/
def baselineSha : String := "c83fb2bb1dcfac41ac51bcebd82471f4a7180d18"

/-- What a bundle must prove before it may become a scan run. -/
structure IntakeExpectation where
  sourceRepo : String := forkRepo
  sourceBranch : String := remediationBranch
  baselineSha : String := HardeningLoop.baselineSha
  platform : String := "linux/amd64"
  requiredJobs : List String := ["lean-raw", "lean-policy", "ci-raw"]
  requiredRuntimeJobs : List String := ["lean-smoke", "app-runs"]
  scanners : List Scanner := [.trivy, .grype]

inductive IntakeReason where
  | noManifest
  | failedVerification (error : LoadError)
  | notAScanManifest (schema : Json)
  | runAttemptShape (attempt : Json)
  | jobResultsShape (results : Json)
  | nonStringResults (bad : List (String × Json))
  | scalarShape (key : String) (value : Json)
  | outsideAllowlist (repo : String)
  | otherRepo (repo expected : String)
  | otherBranch (branch expected : String)
  | runBranch (branch : Option String) (expected : String)
  | trigger (trigger event : String)
  | otherHead (sourceSha recordedHead headSha : String)
  | runId (recorded : Json) (id : Nat)
  | runAttempt (recorded : Json) (attempt : Nat)
  | unknownGateMode (mode : Json)
  | unknownTrigger (trigger : String)
  | platform (platform expected : String)
  | notDescending (sourceSha baseline : String)
  | missingJob (name : String)
  | missingScanners (name : String) (missing : List Scanner)
  | jobPlatform (name platform expected : String)
  | noRuntimeResult (name : String)
  | noRuntimeRecord (name rel : String)
  | runtimeImage (job imageRef target expected : String)
  | runtimeClaim (job path : String) (failedStep : Option String)
  | notCompleted (status : String)
  | artifacts (names : List String)
  | download (message : String)
  | digest (zip expected : String)
  | noPyproject (sourceSha : String)
  | malformed (error : LoadError)
  | alreadyPresent
  | conclusion (conclusion : String)

inductive IntakeStatus where
  | ingested | rejected
  deriving DecidableEq, Repr

/-- `external_run_id`. -/
def externalRunId (repo : String) (run : WorkflowRunInfo) : String :=
  "gha:" ++ repo ++ ":" ++ toString run.id ++ ":" ++ toString run.runAttempt

/-- `find_evidence_artifact`: the one unexpired evidence artifact. -/
def findEvidenceArtifact (artifacts : List ArtifactInfo) : Option ArtifactInfo :=
  match artifacts.filter fun a => hasPrefix "scan-evidence-" a.name && !a.expired with
  | [a] => some a
  | _ => none

/-! ## The run block of a manifest -/

namespace BaselineManifest

variable (m : BaselineManifest)

/-- `run_meta.get(key)`. -/
def meta_ (key : String) : Json := ((Json.obj m.run).get? key).getD .null

/-- `recorded_head`: the head the run block records, else the source commit. -/
def recordedHead : String := strJson ((m.meta_ "head_sha").orElse (.str m.sourceSha))

/-- The `image_id` of an image of the manifest, empty when there is none. -/
def imageId (target : ImageTarget) : String :=
  let image := (((Json.obj m.images).get? target.value).getD .null).orElse (.obj [])
  strJson (((image.get? "image_id").getD .null).orElse (.str ""))

end BaselineManifest

/-- `isinstance(value, int)`, bool included. -/
def isInt : Json → Bool
  | .num q => q.den == 1
  | .bool _ => true
  | _ => false

/-- `text.isdigit()`. -/
def isDigits (rd : Reader) (text : String) : Bool := text ≠ "" && text.toList.all rd.digitChar

/-- `run_metadata_shape_problems`. -/
def runMetadataShapeProblems (rd : Reader) (m : BaselineManifest) : List IntakeReason :=
  let attempt := m.meta_ "run_attempt"
  let attemptProblems := match attempt with
    | .null => []
    | .num q => if q.den == 1 then [] else [.runAttemptShape attempt]
    | .str s => if isDigits rd s then [] else [.runAttemptShape attempt]
    | _ => [.runAttemptShape attempt]
  let resultsProblems := match m.meta_ "job_results" with
    | .null => []
    | .obj results =>
      let bad := results.filter fun kv => kv.2.str?.isNone
      if bad.isEmpty then [] else [.nonStringResults bad]
    | results => [.jobResultsShape results]
  let scalarProblems := ["run_id", "head_sha", "scan_gate_mode", "url"].flatMap fun key =>
    match m.meta_ key with
    | .null | .str _ => []
    | value => if isInt value then [] else [.scalarShape key value]
  attemptProblems ++ resultsProblems ++ scalarProblems

/-- `int(value)` of a run attempt; the language does not convert digits that are not decimal, or more than 4300 of
them. -/
def intOf (rd : Reader) : Json → Except LoadError Int
  | .num q => .ok q.floor
  | .str s =>
    if 4300 < s.length then .error .value
    else match s.toList.mapM rd.digitValue with
      | some digits => .ok (digits.foldl (fun n d => 10 * n + d) 0 : Nat)
      | none => .error .value
  | .bool b => .ok (if b then 1 else 0)
  | _ => .error .type

/-- `runtime_record_problems`. -/
def runtimeRecordProblems (m : BaselineManifest) (target : ImageTarget) (record : RuntimeRecord)
    (claimed : Option String) :
    List IntakeReason :=
  (if record.digest ≠ m.imageId target then [.runtimeImage record.job record.imageRef target.value (m.imageId target)]
    else []) ++
    if claimed = some "success" && !record.passed then [.runtimeClaim record.job record.path record.failedStep] else []

/-- `dict(run_meta.get("job_results") or {})`, once its shape is checked. -/
def BaselineManifest.jobResults (m : BaselineManifest) : List (String × String) :=
  match m.meta_ "job_results" with
  | .obj results => results.foldl (fun d kv => Dict.set d kv.1 (strJson kv.2)) []
  | _ => []

/-! ## Validation -/

/-- What a required scan job must hold. -/
def scanJobProblems (expect : IntakeExpectation) (m : BaselineManifest) (name : String) : List IntakeReason :=
  match Dict.get? m.jobs name with
  | none => [.missingJob name]
  | some job =>
    let missing := [Scanner.grype, .trivy].filter fun s => s ∈ expect.scanners && !job.succeeded s.value
    (if missing.isEmpty then [] else [.missingScanners name missing]) ++
      if job.platform ≠ expect.platform then [.jobPlatform name job.platform expect.platform] else []

/-- What a required runtime job must hold. -/
def runtimeJobProblems (m : BaselineManifest) (name : String) : List IntakeReason :=
  let claimed := Dict.get? m.jobResults name
  (if claimed.isNone then [.noRuntimeResult name] else []) ++
    match Dict.get? m.runtime name, Dict.get? runtimeRecords name with
    | some record, some (_, target) => runtimeRecordProblems m target record claimed
    | _, entry => [.noRuntimeRecord name ((entry.map Prod.fst).getD "<unknown>")]

/-- The checks of the source the manifest names, against GitHub's account of the run. -/
def sourceProblems (run : WorkflowRunInfo) (expect : IntakeExpectation) (m : BaselineManifest) : List IntakeReason :=
  (if m.sourceRepo ∉ repoAllowlist then [.outsideAllowlist m.sourceRepo]
    else if m.sourceRepo ≠ expect.sourceRepo then [.otherRepo m.sourceRepo expect.sourceRepo] else []) ++
  (if m.sourceBranch ≠ expect.sourceBranch then [.otherBranch m.sourceBranch expect.sourceBranch] else []) ++
  (if run.headBranch ≠ some expect.sourceBranch then [.runBranch run.headBranch expect.sourceBranch] else []) ++
  (if m.trigger ≠ run.event then [.trigger m.trigger run.event] else []) ++
  if run.headSha ∉ [m.sourceSha, m.recordedHead] then [.otherHead m.sourceSha m.recordedHead run.headSha] else []

/-- The checks of the run block against the run, given the attempt it records. -/
def runProblems (run : WorkflowRunInfo) (m : BaselineManifest) (attempt : Int) : List IntakeReason :=
  let gateMode := m.meta_ "scan_gate_mode"
  (if strJson (m.meta_ "run_id") ≠ toString run.id then [.runId (m.meta_ "run_id") run.id] else []) ++
  (if attempt ≠ run.runAttempt then [.runAttempt (m.meta_ "run_attempt") run.runAttempt] else []) ++
  (match gateMode with
    | .null => []
    | .str mode => if mode ∈ ["report", "enforce"] then [] else [.unknownGateMode gateMode]
    | _ => [.unknownGateMode gateMode]) ++
  if m.trigger ∈ [Trigger.push, .pullRequest, .schedule, .workflowDispatch, .replay, .fixture].map Trigger.value then []
  else [.unknownTrigger m.trigger]

/-- `validate_bundle`: the manifest, if the bundle has one that loads, and every reason to reject the bundle. -/
def validateBundle (rd : Reader) (root : Bundle) (run : WorkflowRunInfo) (expect : IntakeExpectation)
    (isAncestor : String → String → Bool) : Except LoadError (Option BaselineManifest × List IntakeReason) :=
  match root "manifest.json" with
  | none => .ok (none, [.noManifest])
  | some file =>
    match loadBaseline rd root with
    | .error e => .ok (none, [.failedVerification e])
    | .ok m =>
      let schema := ((file.json.bind (·.get? "schema")).getD .null)
      let schemaProblems := if schema.str? ≠ some scanManifestSchema then [.notAScanManifest schema] else []
      let shape := runMetadataShapeProblems rd m
      if !shape.isEmpty then .ok (some m, schemaProblems ++ shape)
      else
        match intOf rd ((m.meta_ "run_attempt").orElse (.num 0)) with
        | .error e => .error e
        | .ok attempt =>
          .ok (some m, schemaProblems ++ sourceProblems run expect m ++ runProblems run m attempt ++
            (if m.platform ≠ expect.platform then [.platform m.platform expect.platform] else []) ++
            (if isAncestor expect.baselineSha m.sourceSha then [] else
              [.notDescending m.sourceSha expect.baselineSha]) ++
            expect.requiredJobs.flatMap (scanJobProblems expect m) ++ expect.requiredRuntimeJobs.flatMap
              (runtimeJobProblems m))

/-! ## The record of a run -/

/-- `proven_job_results`: a runtime job's `success` that its verdict does not prove is `unproven`. -/
def provenJobResults (m : BaselineManifest) : List (String × String) :=
  m.jobResults.map fun kv =>
    match Dict.get? runtimeRecords kv.1 with
    | some (_, target) =>
      if kv.2 = "success" && (Dict.get? m.runtime kv.1).all
          fun record => !(runtimeRecordProblems m target record (some kv.2)).isEmpty then (kv.1, "unproven") else kv
    | none => kv

/-- The digest `run_meta_for` takes from an image of the manifest. -/
def imageDigest (m : BaselineManifest) (target : ImageTarget) : Except LoadError (Option String) :=
  match (Json.obj m.images).get? target.value with
  | none => .ok none
  | some image => (image.item "image_id").map fun id => some (strJson id)

/-- `Trigger(value)`. -/
def Trigger.of (value : String) : Except LoadError Trigger :=
  match [Trigger.push, .pullRequest, .schedule, .workflowDispatch, .replay, .fixture].find? fun t =>
    t.value == value with
  | some t => .ok t
  | none => .error .value

/-- `_gate_mode`. -/
def gateMode (m : BaselineManifest) : Except LoadError GateMode :=
  let raw := m.meta_ "scan_gate_mode"
  if raw.truthy then
    match [GateMode.report, .enforce].find? fun mode => mode.value == strJson raw with
    | some mode => .ok mode
    | none => .error .value
  else .ok .report

/-- The `workflow` of the run's row: the run block, with a url. -/
def workflowBlock (m : BaselineManifest) (run : WorkflowRunInfo) : Json :=
  .obj (Dict.set m.run "url" ((m.meta_ "url").orElse (.str run.url)))

/-- `run.conclusion or run.status or "unknown"`. -/
def workflowResult (run : WorkflowRunInfo) : String :=
  match run.conclusion.filter (· ≠ "") with
  | some conclusion => conclusion
  | none => if run.status ≠ "" then run.status else "unknown"

/-- `run_meta_for`. -/
def runMetaFor (m : BaselineManifest) (run : WorkflowRunInfo) (repo : String) : Except LoadError RunMeta := do
  let trigger ← Trigger.of m.trigger
  let leanDigest ← imageDigest m .lean
  let _ ← imageDigest m .ci
  let mode ← gateMode m
  .ok { externalRunId := externalRunId repo run, trigger := trigger, sourceRepo := m.sourceRepo
        sourceBranch := m.sourceBranch, sourceSha := m.sourceSha, platform := m.platform, leanDigest := leanDigest
        ciLayerDelta := m.ciLayerDelta.orElse .null, startedAt := some m.builtAt.at_
        finishedAt := some m.capturedAt.at_
        scanGateMode := mode, jobResults := Dict.set (provenJobResults m) "workflow" (workflowResult run)
        workflow := workflowBlock m run }

/-! ## Intake of a run -/

structure ScanIntake where
  externalRunId : String
  sourceRepo : String
  workflowRunId : Nat
  runAttempt : Nat
  headBranch : Option String
  headSha : String
  conclusion : Option String
  url : String
  artifact : Option ArtifactInfo := none
  bundleSha256 : Option String := none
  status : IntakeStatus := .rejected
  reasons : List IntakeReason := []
  scanRunId : Option Nat := none

structure IntakeOutcome where
  externalRunId : String
  status : IntakeStatus
  reasons : List IntakeReason := []
  scanRunId : Option Nat := none
  created : Bool := false
  seenBefore : Bool := false
  ingest : Option IngestResult := none

/-- The database as intake sees it; the run ids of the intake rows are unique. -/
structure IntakeState where
  db : Db
  scanIntakes : List ScanIntake
  unique : (scanIntakes.map ScanIntake.externalRunId).Nodup

/-- A bundle that was downloaded, with the checksum of its zip if it was kept. -/
structure Download where
  root : Bundle
  zipSha256 : Option String

/-- GitHub's answers about a run. `compare` is the status of a comparison and `getFile` the `pyproject.toml` of a
commit, `none` when the call raises; `download` raises with a message. `fixture` is the committed copy of
`pyproject.toml`, and `parseUpperBounds` reads the specifiers of one. -/
structure IntakeAnswers where
  artifacts : List ArtifactInfo
  download : Nat → Except String Download
  compare : String → String → Option String
  getFile : String → Option String
  fixture : String → Option String
  parseUpperBounds : String → Except LoadError (List (String × String))

namespace IntakeAnswers

variable (answers : IntakeAnswers)

/-- `_is_ancestor`. -/
def isAncestor (base head : String) : Bool :=
  base = head || (answers.compare base head).any (· ∈ ["ahead", "identical"])

/-- `_upper_bounds`. -/
def upperBounds (sourceSha : String) : Except LoadError (Option (List (String × String))) :=
  match (answers.getFile sourceSha).or (answers.fixture sourceSha) with
  | some content => (answers.parseUpperBounds content).map some
  | none => .ok none

end IntakeAnswers

/-- `seen`: the intake row of a run. -/
def IntakeState.seen (s : IntakeState) (extId : String) : Option ScanIntake :=
  s.scanIntakes.find? fun i => i.externalRunId == extId

theorem IntakeState.not_mem_of_seen {s : IntakeState} {extId : String} (h : s.seen extId = none) :
    extId ∉ s.scanIntakes.map ScanIntake.externalRunId := by
  intro hmem
  obtain ⟨i, hi, hext⟩ := List.mem_map.mp hmem
  have hno := List.find?_eq_none.mp h i hi
  simp [hext] at hno

/-- `_record`: the outcome becomes the intake row of a run that has none. -/
def IntakeState.record (s : IntakeState) (db : Db) (intake : ScanIntake) (outcome : IntakeOutcome)
    (h : intake.externalRunId ∉ s.scanIntakes.map ScanIntake.externalRunId) : IntakeState :=
  { db := db
    scanIntakes := s.scanIntakes ++
      [{ intake with status := outcome.status, reasons := outcome.reasons, scanRunId := outcome.scanRunId }]
    unique := by
      rw [List.map_append, List.map_singleton]
      exact List.Nodup.append s.unique (List.nodup_singleton _) (by simpa using h) }

/-- What the checks of a run end with: a reason to reject it, or what `ingest_run` is called with. -/
inductive Checked where
  | rejected (reasons : List IntakeReason)
  | accepted (meta_ : RunMeta) (jobs : List ScanJobEvidence) (bounds : List (String × String))

/-- The part of `ingest_workflow_run` whose exceptions reject the bundle. -/
def checkBundle (rd : Reader) (expect : IntakeExpectation) (answers : IntakeAnswers) (run : WorkflowRunInfo)
    (root : Bundle) :
    Except LoadError Checked := do
  match ← validateBundle rd root run expect answers.isAncestor with
  | (some m, []) =>
    match ← answers.upperBounds m.sourceSha with
    | none => .ok (.rejected [.noPyproject m.sourceSha])
    | some bounds =>
      let meta_ ← runMetaFor m run expect.sourceRepo
      .ok (.accepted meta_ (Dict.values m.jobs) bounds)
  | (_, reasons) => .ok (.rejected reasons)

/-- The bundle of a run, or the reasons why there is none; with them the artifact and the checksum as far as they were
found. -/
def fetchBundle (answers : IntakeAnswers) (run : WorkflowRunInfo) :
    Option ArtifactInfo × Option String × Except IntakeReason Bundle :=
  if run.status ≠ "completed" then (none, none, .error (.notCompleted run.status))
  else
    match findEvidenceArtifact answers.artifacts with
    | none => (none, none, .error (.artifacts (sortTexts (answers.artifacts.map ArtifactInfo.name))))
    | some artifact =>
      match answers.download artifact.id with
      | .error message => (some artifact, none, .error (.download message))
      | .ok download =>
        match download.zipSha256, artifact.digest.filter (· ≠ "") with
        | some zip, some digest =>
          if ((splitOnce ":" digest).map Prod.snd).getD digest ≠ zip then
            (some artifact, some zip, .error (.digest zip digest))
          else (some artifact, some zip, .ok download.root)
        | zip, _ => (some artifact, zip, .ok download.root)

/-- The outcome of a run that was persisted. -/
def ingestedOutcome (extId : String) (meta_ : RunMeta) (result : IngestResult) : IntakeOutcome :=
  let conclusion := (Dict.get? meta_.jobResults "workflow").getD ""
  { externalRunId := extId, status := .ingested, scanRunId := some result.scanRunId, created := result.created
    ingest := some result
    reasons := (if result.created then [] else [.alreadyPresent]) ++
      if conclusion ≠ "success" then [.conclusion conclusion] else [] }

/-- `ingest_workflow_run`. An exception out of `ingest_run` is not caught: it leaves the database as it was. -/
def ingestWorkflowRun (rd : Reader) (expect : IntakeExpectation) (answers : IntakeAnswers) (s : IntakeState)
    (run : WorkflowRunInfo) (ts : DateTime) : Except IngestError (IntakeState × IntakeOutcome) :=
  let extId := externalRunId expect.sourceRepo run
  match hseen : s.seen extId with
  | some prior =>
    .ok (s, { externalRunId := extId, status := prior.status, reasons := prior.reasons, scanRunId := prior.scanRunId
              seenBefore := true })
  | none =>
    let (artifact, zip, fetched) := fetchBundle answers run
    let intake : ScanIntake :=
      { externalRunId := extId, sourceRepo := expect.sourceRepo, workflowRunId := run.id, runAttempt := run.runAttempt
        headBranch := run.headBranch, headSha := run.headSha, conclusion := run.conclusion, url := run.url
        artifact := artifact, bundleSha256 := zip }
    let record (db : Db) (outcome : IntakeOutcome) : IntakeState × IntakeOutcome :=
      (s.record db intake outcome (IntakeState.not_mem_of_seen hseen), outcome)
    let reject (reasons : List IntakeReason) : IntakeState × IntakeOutcome :=
      record s.db { externalRunId := extId, status := .rejected, reasons := reasons }
    match fetched with
    | .error reason => .ok (reject [reason])
    | .ok root =>
      match checkBundle rd expect answers run root with
      | .error e => .ok (reject [.malformed e])
      | .ok (.rejected reasons) => .ok (reject reasons)
      | .ok (.accepted meta_ jobs bounds) =>
        match ingestRun rd.toExternal s.db meta_ jobs bounds ts with
        | .error e => .error e
        | .ok (db, result) => .ok (record db (ingestedOutcome extId meta_ result))

/-! ## The poll -/

/-- `unseen_runs`: the newest completed runs without a row, oldest first. -/
def unseenRuns (expect : IntakeExpectation) (s : IntakeState) (runs : List WorkflowRunInfo) (limit : Nat) :
    List WorkflowRunInfo :=
  (((runs.filter fun r => r.status == "completed").filter
    fun r => (s.seen (externalRunId expect.sourceRepo r)).isNone).take limit).reverse

/-- Ingest runs in turn, until one raises. -/
def ingestAll (rd : Reader) (expect : IntakeExpectation) (answers : WorkflowRunInfo → IntakeAnswers) (ts : DateTime)
    (s : IntakeState) : List WorkflowRunInfo → IntakeState × Except IngestError (List IntakeOutcome)
  | [] => (s, .ok [])
  | run :: runs =>
    match ingestWorkflowRun rd expect (answers run) s run ts with
    | .error e => (s, .error e)
    | .ok (s', outcome) =>
      let (s'', rest) := ingestAll rd expect answers ts s' runs
      (s'', rest.map (outcome :: ·))

end HardeningLoop
