import HardeningLoop.Classify.Rules
import HardeningLoop.Models.Tables

/-!
# Persisting a scan run

`ingestRun` records a verified scan: the run, its jobs, and for every normalized finding of the raw scan the finding
(`upsertFinding`) and its sightings, raw and, when the run has a policy scan, policy. It is one transaction: an error
leaves the database as it was.
-/

namespace HardeningLoop

open Rows (Table)

structure ToolVersions where
  syft : String
  trivy : String
  grype : String
  trivyDbUpdatedAt : Option Stamp
  grypeDbBuiltAt : Option Stamp
  deriving DecidableEq, Repr

structure ScanJobEvidence where
  mode : ScanMode
  imageRef : String
  imageTarget : ImageTarget
  platform : String
  layerScope : String
  startedAt : Stamp
  finishedAt : Stamp
  vexDocuments : List Json := []
  tools : ToolVersions
  trivyVulns : List RawVuln := []
  grypeVulns : List RawVuln := []
  imageConfig : List RawConfigFinding := []
  iacConfig : List RawConfigFinding := []
  jobSuccess : List (String × Bool) := [("trivy", true), ("grype", true), ("config", true)]

namespace ScanJobEvidence

variable (job : ScanJobEvidence)

def allJobsSucceeded : Bool := job.jobSuccess.all Prod.snd

def vulns : List RawVuln := job.trivyVulns ++ job.grypeVulns

def configs : List RawConfigFinding := job.imageConfig ++ job.iacConfig

/-- `job_success.get(name, False)`. -/
def succeeded (name : String) : Bool := (Dict.get? job.jobSuccess name).getD false

/-- The dates of the job's rows. -/
def dates : List DateTime :=
  [job.startedAt.at_, job.finishedAt.at_] ++ (job.tools.trivyDbUpdatedAt.toList ++ job.tools.grypeDbBuiltAt.toList).map
    Stamp.at_

end ScanJobEvidence

structure RunMeta where
  externalRunId : String
  trigger : Trigger
  sourceRepo : String
  sourceBranch : String
  sourceSha : String
  platform : String
  leanDigest : Option String
  ciLayerDelta : Json := .null
  startedAt : Option DateTime := none
  finishedAt : Option DateTime
  isBaseline : Bool := false
  scanGateMode : GateMode := .report
  primaryTarget : ImageTarget := .lean
  jobResults : List (String × String) := []
  workflow : Json := .null

inductive IngestError where
  | rawJobs (n : Nat)
  | policyJobs (n : Nat)
  | secondaryPolicy
  | secondaryPlatform
  | rawPlatform
  | policySubject
  | overflow
  | recursion
  | version
  | duplicateJob
  deriving DecidableEq, Repr

structure IngestResult where
  scanRunId : Nat
  created : Bool
  findingsTotal : Nat := 0
  findingsNew : Nat := 0
  findingsByKind : List (String × Nat) := []
  findingsBySeverity : List (String × Nat) := []
  unclassified : Nat := 0
  policySuppressed : Nat := 0
  deriving DecidableEq, Repr

/-- `repr` of a counter, in key order. -/
def countsText (counts : List (String × Nat)) : String :=
  reprDict ((counts.insertionSort fun a b => a.1 ≤ b.1).map fun kv => (kv.1, toString kv.2))

def IngestResult.summary (r : IngestResult) : String :=
  "run=" ++ toString r.scanRunId ++ " created=" ++ (if r.created then "True" else "False") ++
    " findings=" ++ toString r.findingsTotal ++ " new=" ++ toString r.findingsNew ++
    " by_kind=" ++ countsText r.findingsByKind ++ " by_severity=" ++ countsText r.findingsBySeverity ++
    " unclassified=" ++ toString r.unclassified ++ " policy_suppressed=" ++ toString r.policySuppressed

/-- `counter[key] += 1`. -/
def count (key : String) (counts : List (String × Nat)) : List (String × Nat) :=
  Dict.set counts key ((Dict.get? counts key).getD 0 + 1)

/-- `_persist_job_rows`: the three jobs of one scan of an image. -/
def jobRows (rid : Nat) (job : ScanJobEvidence) (suffix : String) : List ScanJob :=
  [{ scanRunId := rid, name := "trivy-" ++ job.mode.value ++ suffix, imageTarget := some job.imageTarget
     success := job.succeeded "trivy", toolVersion := some job.tools.trivy
     dbBuiltAt := job.tools.trivyDbUpdatedAt.map Stamp.at_ },
   { scanRunId := rid, name := "grype-" ++ job.mode.value ++ suffix, imageTarget := some job.imageTarget
     success := job.succeeded "grype", toolVersion := some job.tools.grype
     dbBuiltAt := job.tools.grypeDbBuiltAt.map Stamp.at_ },
   { scanRunId := rid, name := "config-" ++ job.mode.value ++ suffix, imageTarget := some job.imageTarget
     success := job.succeeded "config", toolVersion := some job.tools.trivy }]

/-- The jobs that are not scans: anything but `success` is a failure. -/
def resultRows (rid : Nat) (jobResults : List (String × String)) : List ScanJob :=
  (jobResults.insertionSort fun a b => a.1 ≤ b.1).map fun kv =>
    { scanRunId := rid, name := kv.1, success := kv.2 == "success" }

/-- `_finished_before`: by scan chronology; unknown times never reorder. -/
def finishedBefore (db : Db) (rid : Nat) (run : ScanRun) (other : Nat) : Bool :=
  other ≠ rid && match run.finishedAt, (db.scanRuns.get? other).bind ScanRun.finishedAt with
    | some t, some t' => t < t'
    | _, _ => false

/-- `min` of the two database dates, when there is one. -/
def openingDb (tools : ToolVersions) : Option DateTime :=
  match tools.trivyDbUpdatedAt.map Stamp.at_, tools.grypeDbBuiltAt.map Stamp.at_ with
  | some a, some b => some (min a b)
  | some a, none => some a
  | none, b => b

/-- The row of a finding that the run sees first. -/
def newFinding (rid : Nat) (raw : ScanJobEvidence) (nf : NormalizedFinding) (ts : DateTime) : Finding :=
  { dedupeKey := nf.dedupeKey, vulnId := nf.vulnId, layer := nf.layer, firstSeenRunId := rid, lastSeenRunId := rid
    createdAt := ts, updatedAt := ts, openingDbBuiltAt := openingDb raw.tools
    openedByTrivy := .trivy ∈ nf.reportedBy, openedByGrype := .grype ∈ nf.reportedBy }

/-- The state of a finding that a run reports: a closed one stays closed, its return is the closer's to judge. -/
def reportedState (s : FindingState) (kind : Option Kind) : FindingState :=
  if s.isClosing then s else if kind = none then .unclassified else if s = .unclassified then .«open» else s

/-- Describe a finding as the run reports it. -/
def Finding.refresh (f : Finding) (rid : Nat) (raw : ScanJobEvidence) (nf : NormalizedFinding) (cls : Classification)
    (ts : DateTime) : Finding :=
  { f with
    purl := nf.purl, pkgName := nf.pkgName, pkgVersion := nf.pkgVersion, ecosystem := nf.ecosystem
    imageTarget := some raw.imageTarget, platform := raw.platform, resource := nf.resource, title := nf.title
    severity := nf.severity
    severityByScanner := nf.severityByScanner.map fun kv => (kv.1.value, kv.2.value)
    severityDisagreement := nf.severityDisagreement
    fixVersionsByScanner := nf.fixVersionsByScanner.map fun kv => (kv.1.value, kv.2)
    reportedByTrivy := .trivy ∈ nf.reportedBy, reportedByGrype := .grype ∈ nf.reportedBy
    kind := cls.kind, risk := cls.risk, boundBlocked := cls.boundBlocked
    classificationTrace := some cls.trace, unclassifiedReason := cls.unclassifiedReason
    lastSeenRunId := rid, updatedAt := ts, state := reportedState f.state cls.kind }

/-- A finding that a run reports again. -/
def Finding.reportAgain (db : Db) (rid : Nat) (run : ScanRun) (raw : ScanJobEvidence) (nf : NormalizedFinding)
    (cls : Classification) (ts : DateTime) (f : Finding) : Finding :=
  let f := if finishedBefore db rid run f.firstSeenRunId then { f with firstSeenRunId := rid } else f
  if finishedBefore db rid run f.lastSeenRunId then f else f.refresh rid raw nf cls ts

/-- `_upsert_finding`: open or refresh the finding of a key; a run that finished before the last one that reported it
records nothing but that it may be the first. -/
def upsertFinding (db : Db) (rid : Nat) (run : ScanRun) (raw : ScanJobEvidence) (nf : NormalizedFinding)
    (cls : Classification) (ts : DateTime) : Db × Nat × Bool :=
  match db.findings.first (fun f => f.dedupeKey == nf.dedupeKey) with
  | none =>
    let f := (newFinding rid raw nf ts).refresh rid raw nf cls ts
    ({ db with findings := db.findings.insert f }, db.findings.nextId, true)
  | some fid =>
    ({ db with findings := db.findings.modify fid (Finding.reportAgain db rid run raw nf cls ts) }, fid, false)

/-- The sightings of one finding by one scanner: raw, and policy when the run has a policy scan. -/
def sightingRows (fid rid : Nat) (nf : NormalizedFinding) (policy : Option (List NormalizedFinding)) (s : Scanner) :
    List Sighting :=
  if s ∈ nf.reportedBy then
    { findingId := fid, scanRunId := rid, scanner := s, mode := .raw, present := true
      severity := Dict.get? nf.severityByScanner s
      fixedVersions := (Dict.get? nf.fixVersionsByScanner s).getD [] } ::
    match policy with
    | none => []
    | some policyFindings =>
      match policyFindings.find? fun pnf => pnf.dedupeKey == nf.dedupeKey && s ∈ pnf.reportedBy with
      | some pnf =>
        [{ findingId := fid, scanRunId := rid, scanner := s, mode := .policy, present := true
           severity := Dict.get? pnf.severityByScanner s
           fixedVersions := (Dict.get? pnf.fixVersionsByScanner s).getD [] }]
      | none => [{ findingId := fid, scanRunId := rid, scanner := s, mode := .policy, present := false }]
  else []

/-- What the loop over the normalized findings carries. -/
abbrev Ingest := Db × IngestResult

/-- One normalized finding of the raw scan. -/
def ingestFinding (ext : External) (rid : Nat) (run : ScanRun) (raw : ScanJobEvidence)
    (policy : Option (List NormalizedFinding)) (ctx : ClassificationContext) (ts : DateTime) (acc : Ingest)
    (nf : NormalizedFinding) : Ingest :=
  let cls := classify ext nf ctx
  let (db, fid, isNew) := upsertFinding acc.1 rid run raw nf cls ts
  let rows := [Scanner.trivy, .grype].flatMap (sightingRows fid rid nf policy)
  let db := { db with sightings := ⟨db.sightings.rows ++ rows⟩ }
  let db := if isNew then
      { db with events := db.events ++
          [{ ts := ts, actor := "scanner", entityType := .finding, entityId := fid, event := .log "opened"
             fromState := none, toState := (db.findings.get? fid).map fun f => f.state.value
             reason := some ("first seen in run " ++ run.externalRunId ++ "; " ++ cls.trace), evidenceIds := [] }] }
    else db
  let suppressed := policy.any fun pnfs => pnfs.all fun pnf => pnf.dedupeKey ≠ nf.dedupeKey
  (db, { acc.2 with
    findingsNew := acc.2.findingsNew + if isNew then 1 else 0
    findingsByKind := count (cls.kind.elim "unclassified" fun k => toString k.number) acc.2.findingsByKind
    findingsBySeverity := count nf.severity.value acc.2.findingsBySeverity
    unclassified := acc.2.unclassified + if cls.kind = none then 1 else 0
    policySuppressed := acc.2.policySuppressed + if suppressed then 1 else 0 })

/-- What a policy scan must share with the raw scan it filters. -/
def ScanJobEvidence.subject (job : ScanJobEvidence) : String × ImageTarget × String × String :=
  (job.imageRef, job.imageTarget, job.platform, job.layerScope)

/-- The raw and the policy scan of the primary image target, and the scans of the others. -/
structure RunScans where
  raw : ScanJobEvidence
  policy : Option ScanJobEvidence
  primary : List ScanJobEvidence
  secondary : List ScanJobEvidence

/-- The checks `ingest_run` makes before it writes. -/
def checkJobs (meta_ : RunMeta) (jobs : List ScanJobEvidence) : Except IngestError RunScans :=
  let primary := jobs.filter fun j => j.imageTarget == meta_.primaryTarget
  let secondary := jobs.filter fun j => j.imageTarget != meta_.primaryTarget
  let policyJobs := primary.filter fun j => j.mode == .policy
  match primary.filter fun j => j.mode == .raw with
  | [raw] =>
    if policyJobs.length > 1 then .error (.policyJobs policyJobs.length)
    else if secondary.any fun j => j.mode != .raw then .error .secondaryPolicy
    else if secondary.any fun j => j.platform != meta_.platform then .error .secondaryPlatform
    else if raw.platform ≠ meta_.platform then .error .rawPlatform
    else if policyJobs.head?.any fun p => p.subject ≠ raw.subject then .error .policySubject
    else .ok ⟨raw, policyJobs.head?, primary, secondary⟩
  | rawJobs => .error (.rawJobs rawJobs.length)

/-- The row of the run. -/
def runRow (meta_ : RunMeta) (jobs : List ScanJobEvidence) (scans : RunScans) (ts : DateTime) : ScanRun :=
  { externalRunId := meta_.externalRunId, trigger := meta_.trigger, sourceRepo := meta_.sourceRepo
    sourceBranch := meta_.sourceBranch, sourceSha := meta_.sourceSha, platform := meta_.platform
    leanDigest := meta_.leanDigest, scanGateMode := meta_.scanGateMode, isBaseline := meta_.isBaseline
    tools := { syft := scans.raw.tools.syft, trivy := scans.raw.tools.trivy, grype := scans.raw.tools.grype
               trivyDbUpdatedAt := scans.raw.tools.trivyDbUpdatedAt.map Stamp.iso
               grypeDbBuiltAt := scans.raw.tools.grypeDbBuiltAt.map Stamp.iso }
    vexDocuments := scans.policy.elim [] ScanJobEvidence.vexDocuments
    status := if jobs.all ScanJobEvidence.allJobsSucceeded && meta_.jobResults.all fun kv => kv.2 == "success"
      then .complete else .incomplete
    finishedAt := meta_.finishedAt, ingestedAt := ts }

/-- The job rows of the run. -/
def runJobRows (rid : Nat) (meta_ : RunMeta) (scans : RunScans) : List ScanJob :=
  scans.primary.flatMap (jobRows rid · "") ++
    scans.secondary.flatMap (fun j => jobRows rid j ("@" ++ j.imageTarget.value)) ++ resultRows rid meta_.jobResults

/-- What the classifier knows about the run. -/
def RunScans.context (scans : RunScans) (upperBounds : List (String × String)) : ClassificationContext :=
  { scannerJobSuccess := fun s => scans.raw.succeeded s.value, upperBounds := upperBounds }

/-- The JSON of a run's rows that has the depth of the bundle's: of the run, and the records of its raw sightings. -/
def runJson (meta_ : RunMeta) (scans : RunScans) : List Json :=
  [meta_.ciLayerDelta, .arr (scans.policy.elim [] ScanJobEvidence.vexDocuments), meta_.workflow] ++
    (normalize scans.raw.vulns scans.raw.configs).flatMap fun nf => nf.records.map Prod.snd

/-- Nothing that a run is persisted with raises: its dates are dates in UTC, its JSON can be dumped, its findings are
classified, and its jobs have different names, as a constraint of their table asks. -/
structure Writable (ext : External) (rid : Nat) (meta_ : RunMeta) (jobs : List ScanJobEvidence) (scans : RunScans)
    (upperBounds : List (String × String)) : Prop where
  dates : ∀ date ∈ meta_.startedAt.toList ++ meta_.finishedAt.toList ++ jobs.flatMap ScanJobEvidence.dates, date.inRange
  json : ∀ doc ∈ runJson meta_ scans, ext.dumpable doc = true
  classified : ∀ nf ∈ normalize scans.raw.vulns scans.raw.configs,
    classifyRaises ext nf (scans.context upperBounds) = false
  names : ((runJobRows rid meta_ scans).map ScanJob.name).Nodup

theorem writable_iff {ext : External} {rid : Nat} {meta_ : RunMeta} {jobs : List ScanJobEvidence} {scans : RunScans}
    {upperBounds : List (String × String)} : Writable ext rid meta_ jobs scans upperBounds ↔
      (∀ date ∈ meta_.startedAt.toList ++ meta_.finishedAt.toList ++ jobs.flatMap ScanJobEvidence.dates, date.inRange) ∧
        (∀ doc ∈ runJson meta_ scans, ext.dumpable doc = true) ∧
        (∀ nf ∈ normalize scans.raw.vulns scans.raw.configs, classifyRaises ext nf
        (scans.context upperBounds) = false) ∧
        ((runJobRows rid meta_ scans).map ScanJob.name).Nodup :=
  ⟨fun h => ⟨h.dates, h.json, h.classified, h.names⟩, fun h => ⟨h.1, h.2.1, h.2.2.1, h.2.2.2⟩⟩

instance (ext : External) (rid : Nat) (meta_ : RunMeta) (jobs : List ScanJobEvidence) (scans : RunScans)
    (upperBounds : List (String × String)) : Decidable (Writable ext rid meta_ jobs scans upperBounds) :=
  decidable_of_iff _ writable_iff.symm

/-- What is raised when a run is not writable, in the order of the rows; nothing depends on which exception it is. -/
def writeError (ext : External) (meta_ : RunMeta) (jobs : List ScanJobEvidence) (scans : RunScans)
    (upperBounds : List (String × String)) : IngestError :=
  if !(meta_.startedAt.toList ++ meta_.finishedAt.toList ++ jobs.flatMap ScanJobEvidence.dates).all
    fun d => d.inRange then
    .overflow
  else if !(runJson meta_ scans).all ext.dumpable then .recursion
  else if (normalize scans.raw.vulns scans.raw.configs).any fun nf =>
    classifyRaises ext nf (scans.context upperBounds) then
    .version
  else .duplicateJob

/-- `ingest_run`. A run that is there already is not ingested again; an exception undoes what was written. -/
def ingestRun (ext : External) (db : Db) (meta_ : RunMeta) (jobs : List ScanJobEvidence)
    (upperBounds : List (String × String)) (ts : DateTime) : Except IngestError (Db × IngestResult) :=
  match db.scanRuns.first fun r => r.externalRunId == meta_.externalRunId with
  | some rid => .ok (db, { scanRunId := rid, created := false })
  | none =>
    match checkJobs meta_ jobs with
    | .error e => .error e
    | .ok scans =>
      let rid := db.scanRuns.nextId
      let run := runRow meta_ jobs scans ts
      if Writable ext rid meta_ jobs scans upperBounds then
        let db := { db with
          scanRuns := db.scanRuns.insert run, scanJobs := ⟨db.scanJobs.rows ++ runJobRows rid meta_ scans⟩ }
        let policy := scans.policy.map fun p => normalize p.vulns p.configs
        let nfs := normalize scans.raw.vulns scans.raw.configs
        let (db, result) := nfs.foldl (ingestFinding ext rid run scans.raw policy (scans.context upperBounds) ts)
          (db, { scanRunId := rid, created := true })
        let result := { result with findingsTotal := nfs.length }
        .ok ({ db with events := db.events ++
          [{ ts := ts, actor := "controller", entityType := .scanRun, entityId := rid, event := .log "ingested"
             fromState := none, toState := some run.status.value, reason := some result.summary
             evidenceIds := [] }] }, result)
      else .error (writeError ext meta_ jobs scans upperBounds)

/-! ## The ways through an ingestion -/

section Ways

variable {ext : External} {db db' : Db} {meta_ : RunMeta} {jobs : List ScanJobEvidence}
  {upperBounds : List (String × String)} {ts : DateTime} {result : IngestResult}

/-- The database with the run and its jobs, before its findings. -/
def ingestStart (db : Db) (meta_ : RunMeta) (jobs : List ScanJobEvidence) (scans : RunScans) (ts : DateTime) : Db :=
  { db with
    scanRuns := db.scanRuns.insert (runRow meta_ jobs scans ts)
    scanJobs := ⟨db.scanJobs.rows ++ runJobRows db.scanRuns.nextId meta_ scans⟩ }

/-- The step of the loop over the findings of the raw scan. -/
def ingestStep (ext : External) (db : Db) (meta_ : RunMeta) (jobs : List ScanJobEvidence) (scans : RunScans)
    (upperBounds : List (String × String)) (ts : DateTime) : Ingest → NormalizedFinding → Ingest :=
  ingestFinding ext db.scanRuns.nextId (runRow meta_ jobs scans ts) scans.raw
    (scans.policy.map fun p => normalize p.vulns p.configs) (scans.context upperBounds) ts

def ingestLoop (ext : External) (db : Db) (meta_ : RunMeta) (jobs : List ScanJobEvidence) (scans : RunScans)
    (upperBounds : List (String × String)) (ts : DateTime) : Ingest :=
  (normalize scans.raw.vulns scans.raw.configs).foldl (ingestStep ext db meta_ jobs scans upperBounds ts)
    (ingestStart db meta_ jobs scans ts, { scanRunId := db.scanRuns.nextId, created := true })

/-- The last entry an ingestion logs. -/
def ingestedEvent (rid : Nat) (run : ScanRun) (result : IngestResult) (ts : DateTime) : Event :=
  { ts := ts, actor := "controller", entityType := .scanRun, entityId := rid, event := .log "ingested"
    fromState := none, toState := some run.status.value, reason := some result.summary, evidenceIds := [] }

/-- An ingestion finds the run there, or writes it, its jobs, its findings in turn, and an entry. -/
theorem ingestRun_eq_ok (h : ingestRun ext db meta_ jobs upperBounds ts = .ok (db', result)) :
    (db' = db ∧ result.created = false ∧
    ∃ rid, (db.scanRuns.first fun r => r.externalRunId == meta_.externalRunId) = some rid) ∨
    ∃ scans, (db.scanRuns.first fun r => r.externalRunId == meta_.externalRunId) = none ∧
      checkJobs meta_ jobs = .ok scans ∧ Writable ext db.scanRuns.nextId meta_ jobs scans upperBounds ∧
      result = { (ingestLoop ext db meta_ jobs scans upperBounds ts).2 with
        findingsTotal := (normalize scans.raw.vulns scans.raw.configs).length } ∧
      db' = { (ingestLoop ext db meta_ jobs scans upperBounds ts).1 with
        events := (ingestLoop ext db meta_ jobs scans upperBounds ts).1.events ++
          [ingestedEvent db.scanRuns.nextId (runRow meta_ jobs scans ts) result ts] } := by
  unfold ingestRun at h
  cases hfirst : db.scanRuns.first fun r => r.externalRunId == meta_.externalRunId with
  | some rid =>
    simp only [hfirst, Except.ok.injEq, Prod.mk.injEq] at h
    exact .inl ⟨h.1.symm, h.2 ▸ rfl, rid, rfl⟩
  | none =>
    cases hcheck : checkJobs meta_ jobs with
    | error e => simp [hfirst, hcheck] at h
    | ok scans =>
      simp only [hfirst, hcheck] at h
      split at h
      · rename_i hnd
        simp only [Except.ok.injEq, Prod.mk.injEq] at h
        obtain ⟨hdb, hresult⟩ := h
        refine .inr ⟨scans, rfl, rfl, hnd, hresult.symm, ?_⟩
        rw [← hdb, ← hresult]
        rfl
      · cases h

end Ways

end HardeningLoop
