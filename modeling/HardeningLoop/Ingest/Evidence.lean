import HardeningLoop.Ingest.Persist
import HardeningLoop.Ingest.Reports

/-!
# Evidence bundles

A bundle is a tree of files: `manifest.json`, `SHA256SUMS`, one directory for each scan job and the verdicts of the
runtime jobs. `loadBaseline` reads it and checks every file that is listed against its checksum before the file is
parsed.

A file is what is read of it: its digest, its JSON value and its lines. A JSON number is whole when its value is.
-/

namespace HardeningLoop

def jobSchema : String := "hardening-loop/scan-job/v1"

def manifestSchema : String := "hardening-loop/baseline-manifest/v1"

def scanManifestSchema : String := "hardening-loop/scan-manifest/v1"

def manifestSchemas : List String := [manifestSchema, scanManifestSchema]

structure BundleFile where
  sha256 : String
  json : Option Json := none
  lines : List String := []

/-- The files that are reached from a directory, by their paths: a relative path leads from the directory, an absolute
one from the root of the file system. -/
abbrev Bundle := String → Option BundleFile

/-- What the loader asks of the language's library: `fromisoformat d` is `datetime.fromisoformat(d)` with the zone UTC
when `d` names none, `none` when `d` is not a date; `digitChar` says which characters `isdigit` accepts. -/
structure Reader extends External where
  fromisoformat : String → Option Stamp
  digitChar : Char → Bool

/-! ## Files -/

/-- `dir / name`: an absolute name leaves the directory. -/
def joinPath (dir name : String) : String :=
  if hasPrefix "/" name then name else if dir = "" then name else dir ++ "/" ++ name

/-- `value.replace("Z", "+00:00")`. -/
def zuluOffset (value : String) : String :=
  String.ofList (value.toList.flatMap fun c => if c = 'Z' then "+00:00".toList else [c])

/-- `_parse_ts`. -/
def parseTs (rd : Reader) : Json → Except LoadError Stamp
  | .str s => ((rd.fromisoformat (zuluOffset s)).map Except.ok).getD (.error .value)
  | _ => .error .attribute

/-- `_load_json`. -/
def loadJson (root : Bundle) (path : String) : Except LoadError Json :=
  match root path with
  | none => .error .os
  | some file =>
    match file.json with
    | none => .error .value
    | some doc => if doc.isObj then .ok doc else .error (.notAnObject path)

/-- A key and its value in a sequence that is made a dictionary; no key that is not text is of use to any reader. -/
def pairOf (value : Json) : Except LoadError (String × Json) := do
  match ← value.elems with
  | [.str key, v] => .ok (key, v)
  | [_, _] => .error .type
  | _ => .error .value

/-- `dict(value)`. -/
def dictOf : Json → Except LoadError (List (String × Json))
  | .obj fields => .ok fields
  | value => do .ok ((← (← value.elems).mapM pairOf).foldl (fun d kv => Dict.set d kv.1 kv.2) [])

/-- One file of `_verify_files`, with its digest. -/
def verifyFile (root : Bundle) (kv : String × Json) : Except LoadError (String × String) :=
  match root kv.1 with
  | none => .error (.missingFile kv.1)
  | some file =>
    match kv.2 with
    | .str digest => if file.sha256 = digest then .ok (kv.1, digest) else .error (.checksum kv.1 file.sha256 kv.2)
    | digest => .error (.checksum kv.1 file.sha256 digest)

/-- `_verify_files`. -/
def verifyFiles (root : Bundle) (expected : List (String × Json)) : Except LoadError (List (String × String)) :=
  expected.mapM (verifyFile root)

/-! ## Approved documents -/

/-- `APPROVED_DIR`, by its parts, and `VEX_EVIDENCE_DIR`. -/
def approvedDir : List String := ["security", "vex", "approved"]

def vexEvidenceDir : String := "vex"

/-- `Path(path).parts`. -/
def pathParts (path : String) : List String :=
  (if hasPrefix "/" path then ["/"] else []) ++ (splitText '/' path).filter fun part => part ≠ "" && part ≠ "."

/-- The source path of an approved document: a JSON file directly under `APPROVED_DIR`. -/
def isApprovedPath (path : String) : Bool :=
  (pathParts path).dropLast == approvedDir &&
    (pathParts path).getLast?.any fun name => hasSuffix ".json" name && 5 < name.length

structure ApprovedVexDocument where
  sourcePath : String
  evidenceFile : String
  sha256 : String
  approval : VexApproval
  statements : List VexStatementSummary
  document : Json

/-- Entry `i` of the `vex_documents` of a job, validated against the copy in the job's directory. -/
def loadVexDocument (rd : Reader) (jobDir : Bundle) (where_ : String) (files : List (String × String)) (i : Nat)
    (entry : Json) : Except LoadError ApprovedVexDocument := do
  let path ← entry.lookup "path"
  let copy ← entry.lookup "evidence_file"
  let sha ← entry.lookup "sha256"
  match path, copy with
  | .str sourcePath, .str evidenceFile =>
    match sha.str?.filter fun sha => Dict.get? files evidenceFile = some sha with
    | none => .error (.vexChecksum where_ i sha evidenceFile)
    | some sha =>
      if !isApprovedPath sourcePath then .error (.vexSource where_ i sourcePath)
      else if (pathParts evidenceFile).dropLast ≠ [vexEvidenceDir] then .error (.vexCopy where_ i evidenceFile)
      else
        let document ← loadJson jobDir evidenceFile
        match validateOpenvex document with
        | .error e => .error (.vex where_ i e)
        | .ok statements =>
          match approvalOf rd.toExternal document with
          | none => .error (.vexApproval where_ i)
          | some approval =>
            .ok { sourcePath := "/".intercalate (pathParts sourcePath), evidenceFile := evidenceFile, sha256 := sha
                  approval := approval, statements := statements, document := document }
  | _, _ => .error (.vexEntry where_ i)

/-- `load_vex_documents`. -/
def loadVexDocuments (rd : Reader) (jobDir : Bundle) (where_ : String) (entries : List Json)
    (files : List (String × String)) : Except LoadError (List ApprovedVexDocument) :=
  entries.zipIdx.mapM fun entry => loadVexDocument rd jobDir where_ files entry.2 entry.1

/-- A document as a scan carries it: with an `x-evidence` block that names its copy. -/
def ApprovedVexDocument.withEvidence (d : ApprovedVexDocument) : Json :=
  match d.document with
  | .obj fields => .obj (Dict.set fields "x-evidence"
      (.obj [("source_path", .str d.sourcePath), ("evidence_file", .str d.evidenceFile), ("sha256", .str d.sha256)]))
  | document => document

/-! ## Scan jobs -/

/-- `ScanMode(value)`. -/
def ScanMode.of (value : Json) : Except LoadError ScanMode :=
  match [ScanMode.raw, .policy].find? fun mode => value.str? = some mode.value with
  | some mode => .ok mode
  | none => .error .value

/-- `ImageTarget(value)`. -/
def ImageTarget.of (value : Json) : Except LoadError ImageTarget :=
  match [ImageTarget.lean, .ci].find? fun target => value.str? = some target.value with
  | some target => .ok target
  | none => .error .value

/-- The versions of the tools, and the dates of their databases. -/
def loadTools (rd : Reader) (job grypeReport : Json) : Except LoadError ToolVersions := do
  let tools ← job.item "tools"
  let trivyDb ← ((← (← tools.item "trivy").lookup "vuln_db").orElse (.obj [])).lookup "UpdatedAt"
  let grypeBuilt ← grypeDbBuiltAt grypeReport
  let syft ← (← (← tools.item "syft").item "version").text
  let trivy ← (← (← tools.item "trivy").item "version").text
  let grype ← (← (← tools.item "grype").item "version").text
  let trivyDb ← if trivyDb.truthy then (parseTs rd trivyDb).map some else .ok none
  let grypeDb ← match grypeBuilt with
    | some built => (parseTs rd (.str built)).map some
    | none => .ok none
  .ok { syft := syft, trivy := trivy, grype := grype, trivyDbUpdatedAt := trivyDb, grypeDbBuiltAt := grypeDb }

/-- `load_scan_job`: one `scan_image.sh` output directory. -/
def loadScanJob (rd : Reader) (dir : Bundle) (path : String) : Except LoadError ScanJobEvidence := do
  let job ← loadJson dir "job.json"
  let schema ← job.lookup "schema"
  if schema.str? ≠ some jobSchema then .error (.jobSchema path schema)
  else
    let files ← verifyFiles dir (← dictOf (← job.item "files"))
    let grypeReport ← loadJson dir "grype-vuln.json"
    let tools ← loadTools rd job grypeReport
    let sbomDoc ← loadJson dir "sbom.cdx.json"
    let trivyVuln ← loadJson dir "trivy-vuln.json"
    let trivyImageConfig ← loadJson dir "trivy-image-config.json"
    let trivyConfig ← loadJson dir "trivy-config.json"
    let mode ← ScanMode.of (← job.item "mode")
    let vexEntries ← ((← job.lookup "vex_documents").orElse (.arr [])).elems
    if mode = .raw && !vexEntries.isEmpty then .error (.rawListsVex path)
    else
      let vexEvidence ← loadVexDocuments rd dir (path ++ "/job.json") vexEntries files
      let imageRef ← (← job.item "image_ref").text
      let imageTarget ← ImageTarget.of (← job.item "image_target")
      let platform ← (← job.item "platform").text
      let layerScope ← (← job.item "layer_scope").text
      let startedAt ← parseTs rd (← job.item "started_at")
      let finishedAt ← parseTs rd (← job.item "finished_at")
      let _ ← parseCyclonedx sbomDoc
      let trivyVulns ← parseTrivyVulns rd.toExternal trivyVuln
      let grypeVulns ← parseGrypeVulns grypeReport
      let imageConfig ← parseTrivyMisconfigs trivyImageConfig
      let iacConfig ← parseTrivyMisconfigs trivyConfig
      .ok { mode := mode, imageRef := imageRef, imageTarget := imageTarget, platform := platform,
            layerScope := layerScope, startedAt := startedAt, finishedAt := finishedAt
            vexDocuments := vexEvidence.map ApprovedVexDocument.withEvidence, tools := tools
            trivyVulns := trivyVulns, grypeVulns := grypeVulns, imageConfig := imageConfig, iacConfig := iacConfig }

/-! ## Runtime verdicts -/

/-- `RUNTIME_RECORDS`: the verdict file of a runtime job, and the image the job starts. -/
def runtimeRecords : List (String × String × ImageTarget) :=
  [("lean-smoke", "runtime/lean-smoke/lean-smoke.json", .lean), ("app-runs", "runtime/app-runs/app-runs.json", .ci)]

structure RuntimeRecord where
  job : String
  path : String
  imageRef : String
  passed : Bool
  failedStep : Option String
  checks : List (String × String)
  deriving DecidableEq, Repr

def RuntimeRecord.digest (record : RuntimeRecord) : String := afterLast '@' record.imageRef

/-- `load_runtime_record`, from the record's path. -/
def loadRuntimeRecord (root : Bundle) (job rel : String) : Except LoadError RuntimeRecord :=
  match root rel with
  | none => .error (.record job "no runtime record" .null)
  | some file =>
    match file.json with
    | some (.obj fields) =>
      let doc := Json.obj fields
      match ((doc.getStr? "image_ref").filter (hasInfix "@sha256:")), doc.get? "passed", doc.get? "checks" with
      | none, _, _ => .error (.record rel "image_ref" ((doc.get? "image_ref").getD .null))
      | some imageRef, some (.bool passed), some (.obj checks) =>
        if checks.any fun kv => kv.2.str?.isNone then .error (.record rel "checks" (.obj checks))
        else
          let results := checks.filterMap fun kv => kv.2.str?.map (kv.1, ·)
          match (doc.get? "failed_step").getD .null with
          | .null =>
            if passed then .ok ⟨job, rel, imageRef, passed, none, results⟩ else .error (.record rel "failed_step" .null)
          | .str step =>
            if passed || step = "" then .error (.record rel "failed_step" (.str step))
            else .ok ⟨job, rel, imageRef, passed, some step, results⟩
          | step => .error (.record rel "failed_step" step)
      | some _, some (.bool _), checks => .error (.record rel "checks" (checks.getD .null))
      | some _, passed, _ => .error (.record rel "passed" (passed.getD .null))
    | some doc => .error (.record rel "not a JSON object" doc)
    | none => .error (.record rel "not JSON" .null)

/-! ## Manifests -/

structure BaselineManifest where
  sourceRepo : String
  sourceBranch : String
  sourceSha : String
  trigger : String
  platform : String
  builtAt : Stamp
  capturedAt : Stamp
  images : List (String × Json)
  ciLayerDelta : Json
  jobs : List (String × ScanJobEvidence)
  /-- What the workflow says of its own run. -/
  run : List (String × Json)
  gates : List (String × Json)
  runtime : List (String × RuntimeRecord)

/-- The checksum `SHA256SUMS` lists for a file: the last line that names it. -/
def listedSum (lines : List String) (name : String) : Option String :=
  ((lines.filterMap (splitOnce "  ")).reverse.find? fun parts => parts.2 == name).map Prod.fst

/-- `target / mode / name`. -/
def jobFile (target mode name : String) : String := joinPath (joinPath target mode) name

/-- The directory of a scan job. -/
def jobDir (root : Bundle) (target mode : String) : Bundle := fun name => root (jobFile target mode name)

/-- One name of the manifest's jobs, with the job its directory holds: it scanned the image of the target its name
says. -/
def loadJob (rd : Reader) (root : Bundle) (manifest name : Json) : Except LoadError (String × ScanJobEvidence) := do
  match name with
  | .str name =>
    match splitOnce "-" name with
    | none => .error .value
    | some (target, mode) =>
      let job ← loadScanJob rd (jobDir root target mode) (joinPath target mode)
      let imageId ← (← (← manifest.item "images").item target).item "image_id"
      if job.imageRef = "docker:" ++ strJson imageId then .ok (name, job)
      else
        match imageId with
        | .str id => if hasSuffix id job.imageRef then .ok (name, job) else .error (.scannedOther name job.imageRef)
        | _ => .error .type
  | _ => .error .attribute

/-- Whether a path is among the `files` of the manifest. -/
def listsFile (files : Json) (path : String) : Bool :=
  match files with
  | .obj fields => fields.any fun kv => kv.1 == path
  | _ => false

/-- The `images` block: a dictionary for each image. -/
def loadImages : Json → Except LoadError (List (String × Json))
  | .obj images => if images.all fun kv => kv.2.isObj then .ok images else .error .value
  | _ => .error .value

/-- `load_baseline`. -/
def loadBaseline (rd : Reader) (root : Bundle) : Except LoadError BaselineManifest := do
  let manifest ← loadJson root "manifest.json"
  let schema ← manifest.lookup "schema"
  if !schema.str?.any (· ∈ manifestSchemas) then .error (.manifestSchema schema)
  else
    let files ← manifest.item "files"
    let _ ← verifyFiles root (← dictOf files)
    let sums ← match root "SHA256SUMS" with
      | some file => .ok file.lines
      | none => .error .os
    if listedSum sums "manifest.json" ≠ (root "manifest.json").map BundleFile.sha256 then .error .manifestSum
    else
      let jobs ← (← (← manifest.item "jobs").elems).mapM (loadJob rd root manifest)
      let runtime ← (runtimeRecords.filter fun r => listsFile files r.2.1).mapM fun r =>
        (loadRuntimeRecord root r.1 r.2.1).map fun record => (r.1, record)
      let ciLayerDelta ← manifest.item "ci_layer_delta"
      let run ← dictOf ((← manifest.lookup "run").orElse (.obj []))
      let gates ← dictOf ((← manifest.lookup "gates").orElse (.obj []))
      if !ciLayerDelta.isObj then .error .value
      else
        .ok { sourceRepo := ← (← manifest.item "source_repo").text,
              sourceBranch := ← (← manifest.item "source_branch").text
              sourceSha := ← (← manifest.item "source_sha").text, trigger := ← (← manifest.item "trigger").text
              platform := ← (← manifest.item "platform").text, builtAt := ← parseTs rd (← manifest.item "built_at")
              capturedAt := ← parseTs rd (← manifest.item "captured_at")
              images := ← loadImages (← manifest.item "images")
              ciLayerDelta := ciLayerDelta, jobs := jobs.foldl (fun d kv => Dict.set d kv.1 kv.2) [], run := run
              gates := gates, runtime := runtime }

end HardeningLoop
