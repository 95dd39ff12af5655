import HardeningLoop.Ingest.Intake

/-!
# What an accepted bundle proves

A bundle that `validateBundle` accepts has passed every check (`Accepted`). Two properties that acceptance is for are
not among them:

- the commit of the evidence: `sourceIdentified_iff` says for which run blocks it is the commit of GitHub's run;
- that the scan can be persisted: `intake_iff` says which accepted bundles end in an intake row, and what becomes of the
  polls when one does not.
-/

namespace HardeningLoop

open Rows (Table)

/-! ## Accepted bundles -/

/-- The checks that an accepted bundle has passed. -/
structure Accepted (rd : Reader) (root : Bundle) (run : WorkflowRunInfo) (expect : IntakeExpectation)
    (isAncestor : String → String → Bool) (m : BaselineManifest) : Prop where
  loads : loadBaseline rd root = .ok m
  source : sourceProblems run expect m = []
  run : ∃ attempt, runProblems run m attempt = []
  platform : m.platform = expect.platform
  descends : isAncestor expect.baselineSha m.sourceSha = true
  scanJobs : ∀ name ∈ expect.requiredJobs, scanJobProblems expect m name = []
  runtimeJobs : ∀ name ∈ expect.requiredRuntimeJobs, runtimeJobProblems m name = []

theorem Accepted.of_validate {rd : Reader} {root : Bundle} {run : WorkflowRunInfo} {expect : IntakeExpectation}
    {isAncestor : String → String → Bool} {m : BaselineManifest}
    (h : validateBundle rd root run expect isAncestor = .ok (some m, [])) :
    Accepted rd root run expect isAncestor m := by
  dsimp only [validateBundle] at h
  split at h
  · cases h
  · split at h
    · cases h
    · rename_i loaded hload
      split at h
      · rename_i hshape
        simp only [Except.ok.injEq, Prod.mk.injEq, Option.some.injEq, List.append_eq_nil_iff] at h
        simp [h.2.2] at hshape
      · split at h
        · cases h
        · rename_i attempt _
          simp only [Except.ok.injEq, Prod.mk.injEq, Option.some.injEq, List.append_eq_nil_iff, ite_eq_right_iff,
            List.cons_ne_nil, imp_false, not_not, List.flatMap_eq_nil_iff] at h
          obtain ⟨rfl, ⟨⟨⟨⟨⟨-, hsource⟩, hrun⟩, hplatform⟩, hancestor⟩, hjobs⟩, hruntime⟩ := h
          refine ⟨hload, hsource, ⟨attempt, hrun⟩, hplatform, ?_, hjobs, hruntime⟩
          simpa using hancestor

/-! ## A bundle

Three empty scans of one commit and the verdicts of both runtime jobs; the run block and the image target that the third
scan names are arguments. -/

def sampleDate : String := "2026-01-01T00:00:00+00:00"

/-- A digest of one repeated digit. -/
def sampleSha256 (c : Char) : String := String.ofList (List.replicate 64 c)

/-- A commit of one repeated digit. -/
def sampleCommit (c : Char) : String := String.ofList (List.replicate 40 c)

def sampleImage (c : Char) : String := "sha256:" ++ sampleSha256 c

def sampleReader : Reader :=
  { versionGe := fun a b => some (a == b)
    specContains := fun _ _ => some true
    validateOutput := fun _ _ => []
    wordChar := fun c => c.isAlphanum || c == '_'
    digitValue := fun c => if c.isDigit then some (c.toNat - '0'.toNat) else none
    spaceChar := fun c => c == ' ' || c == '\n'
    fromisoformat := fun d => if d = sampleDate then some ⟨63902908800000000, d⟩ else none
    digitChar := Char.isDigit }

/-- The files of an empty scan. -/
def sampleJobFile (mode target imageId : String) : List (String × Json) :=
  [("job.json", .obj [("schema", .str jobSchema), ("files", .obj []), ("mode", .str mode),
    ("image_ref", .str ("docker:" ++ imageId)),
      ("image_target", .str target), ("platform", .str "linux/amd64"), ("layer_scope", .str "all-layers"),
      ("started_at", .str sampleDate), ("finished_at", .str sampleDate),
      ("tools", .obj [("syft", .obj [("version", .str "1.45.1")]), ("trivy", .obj [("version", .str "0.71.2")]),
        ("grype", .obj [("version", .str "0.114.0")])])]),
    ("grype-vuln.json", .obj [("matches", .arr []), ("descriptor", .obj [])]),
    ("sbom.cdx.json", .obj [("bomFormat", .str "CycloneDX")]), ("trivy-vuln.json", .obj [("SchemaVersion", .num 2)]),
    ("trivy-image-config.json", .obj [("SchemaVersion", .num 2)]),
      ("trivy-config.json", .obj [("SchemaVersion", .num 2)])]

/-- The verdict of a runtime job that passed. -/
def sampleVerdict (imageId : String) : Json :=
  .obj [("image_ref", .str ("superset@" ++ imageId)), ("passed", .bool true), ("checks", .obj [])]

def sampleRunBlock (headSha : Json) : Json :=
  .obj [("run_id", .num 1), ("run_attempt", .num 1), ("head_sha", headSha),
    ("job_results", .obj [("lean-smoke", .str "success"), ("app-runs", .str "success")])]

def sampleManifest (runBlock : Json) : Json :=
  .obj [("schema", .str scanManifestSchema), ("source_repo", .str forkRepo), ("source_branch", .str remediationBranch),
    ("source_sha", .str (sampleCommit 'a')), ("trigger", .str "push"), ("platform", .str "linux/amd64"),
    ("built_at", .str sampleDate), ("captured_at", .str sampleDate), ("ci_layer_delta", .obj []), ("run", runBlock),
    ("images", .obj
      [("lean", .obj [("image_id", .str (sampleImage '1'))]), ("ci", .obj [("image_id", .str (sampleImage '2'))])]),
    ("jobs", .arr [.str "lean-raw", .str "lean-policy", .str "ci-raw"]),
    ("files", .obj [("runtime/lean-smoke/lean-smoke.json", .str (sampleSha256 '0')),
      ("runtime/app-runs/app-runs.json", .str (sampleSha256 '0'))])]

def sampleBundle (runBlock : Json) (target : String) : Bundle := fun path =>
  let docs := [("manifest.json", sampleManifest runBlock),
    ("runtime/lean-smoke/lean-smoke.json", sampleVerdict (sampleImage '1')),
      ("runtime/app-runs/app-runs.json", sampleVerdict (sampleImage '2'))] ++
    (sampleJobFile "raw" "lean" (sampleImage '1')).map (fun kv => ("lean/raw/" ++ kv.1, kv.2)) ++
    (sampleJobFile "policy" "lean" (sampleImage '1')).map (fun kv => ("lean/policy/" ++ kv.1, kv.2)) ++
    (sampleJobFile "raw" target (sampleImage '2')).map fun kv => ("ci/raw/" ++ kv.1, kv.2)
  if path = "SHA256SUMS" then some { sha256 := sampleSha256 '0', lines := [sampleSha256 '0' ++ "  manifest.json"] }
  else (Dict.get? docs path).map fun doc => { sha256 := sampleSha256 '0', json := some doc }

/-- A push to the main branch whose head is `headSha`. -/
def sampleWorkflowRun (headSha : String) : WorkflowRunInfo :=
  { id := 1, runAttempt := 1, event := "push", status := "completed", conclusion := some "success"
    headBranch := some remediationBranch, headSha := headSha
    url := "https://github.com/Hunter-1298/superset/actions/runs/1" }

/-- What the bundle of a run is accepted with. -/
def sampleAccepts (runBlock : Json) (target headSha : String) (p : BaselineManifest → Bool) : Bool :=
  match validateBundle sampleReader (sampleBundle runBlock target) (sampleWorkflowRun headSha) {} (fun _ _ => true) with
  | .ok (some m, []) => p m
  | _ => false

theorem exists_of_sampleAccepts {runBlock : Json} {target headSha : String} {p : BaselineManifest → Bool}
    (h : sampleAccepts runBlock target headSha p = true) :
    ∃ m, validateBundle sampleReader (sampleBundle runBlock target) (sampleWorkflowRun headSha) {} (fun _ _ => true) =
      .ok (some m, []) ∧ p m = true := by
  unfold sampleAccepts at h
  split at h
  · rename_i m heq
    exact ⟨m, heq, h⟩
  · cases h

/-! ## The commit of the evidence -/

/-- Evidence that can close findings is about the commit GitHub reports for the run. -/
def SourceIdentified (run : WorkflowRunInfo) (m : BaselineManifest) : Prop :=
  m.trigger ∈ closingTriggers.map Trigger.value → m.sourceSha = run.headSha

/-- **The run block decides.** The recorded head is accepted in the place of the source commit for every trigger, not
only for a pull request, whose merge commit is scanned: evidence of another commit passes when the run block names
GitHub's. -/
theorem sourceIdentified_iff {rd : Reader} {root : Bundle} {run : WorkflowRunInfo} {expect : IntakeExpectation}
    {isAncestor : String → String → Bool} {m : BaselineManifest}
    (h : validateBundle rd root run expect isAncestor = .ok (some m, [])) :
    SourceIdentified run m ↔ (m.trigger ∈ closingTriggers.map Trigger.value →
      m.recordedHead = m.sourceSha ∨ m.recordedHead ≠ run.headSha) := by
  have hhead : run.headSha = m.sourceSha ∨ run.headSha = m.recordedHead := by
    have hsource := (Accepted.of_validate h).source
    simp only [sourceProblems, List.append_eq_nil_iff, ite_eq_right_iff, List.cons_ne_nil, imp_false,
      not_not] at hsource
    simpa using hsource.2
  refine imp_congr_right fun _ => ⟨fun hsame => ?_, fun hcond => ?_⟩
  · by_cases hrecorded : m.recordedHead = run.headSha
    · exact Or.inl (hrecorded.trans hsame.symm)
    · exact Or.inr hrecorded
  · rcases hhead with hsame | hrecorded
    · exact hsame.symm
    · rcases hcond with hsame | hother
      · exact (hrecorded.trans hsame).symm
      · exact absurd hrecorded.symm hother

/-- GitHub ran the workflow for commit `b`; a bundle of commit `a` whose run block names `b` is accepted. -/
theorem source_not_identified : ∃ (rd : Reader) (root : Bundle) (run : WorkflowRunInfo) (expect : IntakeExpectation)
    (isAncestor : String → String → Bool) (m : BaselineManifest),
    validateBundle rd root run expect isAncestor = .ok (some m, []) ∧ ¬ SourceIdentified run m := by
  have haccepts : sampleAccepts (sampleRunBlock (.str (sampleCommit 'b'))) "ci" (sampleCommit 'b')
      (fun m => m.trigger ∈ closingTriggers.map Trigger.value ∧ m.sourceSha ≠ sampleCommit 'b') = true := by
    decide +kernel
  obtain ⟨m, hm, hp⟩ := exists_of_sampleAccepts haccepts
  have hp := of_decide_eq_true hp
  exact ⟨_, _, _, _, _, m, hm, fun h => hp.2 (h hp.1)⟩

/-- A bundle of the commit GitHub ran the workflow for, whose run block records no head. -/
theorem source_identified_sample : ∃ m, validateBundle sampleReader (sampleBundle (sampleRunBlock .null) "ci")
    (sampleWorkflowRun (sampleCommit 'a')) {} (fun _ _ => true) = .ok (some m, []) ∧
      SourceIdentified (sampleWorkflowRun (sampleCommit 'a')) m := by
  have haccepts :
      sampleAccepts (sampleRunBlock .null) "ci" (sampleCommit 'a') (fun m => m.recordedHead = m.sourceSha) = true := by
    decide +kernel
  obtain ⟨m, hm, hp⟩ := exists_of_sampleAccepts haccepts
  exact ⟨m, hm, (sourceIdentified_iff hm).mpr fun _ => Or.inl (of_decide_eq_true hp)⟩

/-! ## The scans of a bundle -/

/-- The scans of an image in a mode, as the job files name them. -/
def BaselineManifest.scans (m : BaselineManifest) (target : ImageTarget) (mode : ScanMode) : List ScanJobEvidence :=
  ((Dict.values m.jobs).filter fun j => j.imageTarget == target).filter fun j => j.mode == mode

/-- The names of the job rows of a scan. -/
def scanRowNames (target : ImageTarget) (mode : ScanMode) : List String :=
  ["trivy", "grype", "config"].map fun tool =>
    tool ++ "-" ++ mode.value ++ if target = .lean then "" else "@" ++ target.value

/-- Every image the manifest describes has an id. -/
def ImagesNamed (m : BaselineManifest) : Prop :=
  ∀ (target : ImageTarget) (image : Json), (Json.obj m.images).get? target.value = some image →
    (image.get? "image_id").isSome

/-- What ingestion asks of the scans of a bundle: one raw scan of the lean image, at most one policy scan, of the same
image; at most one scan of the other image, a raw one; the platform of the manifest; and no job result that is named as
a scan's row. -/
structure ScansFit (m : BaselineManifest) : Prop where
  raw : ∃ raw, m.scans .lean .raw = [raw] ∧ raw.platform = m.platform ∧ ∀ p ∈ m.scans .lean .policy,
    p.subject = raw.subject
  policy : (m.scans .lean .policy).length ≤ 1
  ci : (m.scans .ci .raw).length ≤ 1 ∧ ∀ j ∈ m.scans .ci .raw, j.platform = m.platform
  ciPolicy : m.scans .ci .policy = []
  names : ∀ target mode, m.scans target mode ≠ [] → ∀ name ∈ scanRowNames target mode, name ∉ m.jobResults.map Prod.fst

/-- The dates that are written of a bundle. -/
def BaselineManifest.dates (m : BaselineManifest) : List DateTime :=
  [m.builtAt.at_, m.capturedAt.at_] ++ (Dict.values m.jobs).flatMap ScanJobEvidence.dates

/-- What is written of a bundle is no more than the database can hold and the classifier can read: dates that are dates
in UTC, JSON that can be dumped, and no version whose comparison with a bound raises. -/
structure Storable (ext : External) (bounds : List (String × String)) (run : WorkflowRunInfo) (m : BaselineManifest) :
    Prop where
  dates : ∀ date ∈ m.dates, date.inRange
  delta : ext.dumpable (m.ciLayerDelta.orElse .null) = true
  documents : ext.dumpable (.arr ((m.scans .lean .policy).flatMap ScanJobEvidence.vexDocuments)) = true
  workflow : ext.dumpable (workflowBlock m run) = true
  records : ∀ raw ∈ m.scans .lean .raw, ∀ nf ∈ normalize raw.vulns raw.configs, ∀ kv ∈ nf.records,
    ext.dumpable kv.2 = true
  versions : ∀ raw ∈ m.scans .lean .raw, ∀ nf ∈ normalize raw.vulns raw.configs,
    classifyRaises ext nf ⟨fun s => raw.succeeded s.value, bounds⟩ = false

structure Ingestible (ext : External) (bounds : List (String × String)) (run : WorkflowRunInfo) (m : BaselineManifest) :
    Prop extends ScansFit m, Storable ext bounds run m

/-! ### Names of rows -/

theorem scanRowNames_nodup (target : ImageTarget) (mode : ScanMode) : (scanRowNames target mode).Nodup := by
  cases target <;> cases mode <;> decide

/-- A row's name tells the image and the mode. -/
theorem scanRowNames_disjoint {target target' : ImageTarget} {mode mode' : ScanMode} :
    List.Disjoint (scanRowNames target mode) (scanRowNames target' mode') ↔ (target, mode) ≠ (target', mode') := by
  show (∀ name ∈ scanRowNames target mode, name ∉ scanRowNames target' mode') ↔ _
  cases target <;> cases mode <;> cases target' <;> cases mode' <;> decide

theorem workflow_not_scanRowName (target : ImageTarget) (mode : ScanMode) : "workflow" ∉ scanRowNames target mode := by
  cases target <;> cases mode <;> decide

/-- The rows of scans have different names when no image is scanned twice in one mode. -/
theorem nodup_scanRowNames {jobs : List ScanJobEvidence} :
    (jobs.flatMap fun j => scanRowNames j.imageTarget j.mode).Nodup ↔
      (jobs.map fun j => (j.imageTarget, j.mode)).Nodup := by
  have hdisjoint : (Function.onFun List.Disjoint fun j : ScanJobEvidence => scanRowNames j.imageTarget j.mode) =
      fun j j' => (j.imageTarget, j.mode) ≠ (j'.imageTarget, j'.mode) := by
    funext j j'
    exact propext scanRowNames_disjoint
  rw [List.nodup_flatMap, hdisjoint]
  simp only [scanRowNames_nodup, implies_true, true_and]
  exact List.pairwise_map.symm

/-- The scans of the lean image and those of the others are the scans. -/
theorem nodup_scans {m : BaselineManifest} {jobs : List ScanJobEvidence} (h : jobs.Perm (Dict.values m.jobs)) :
    (jobs.map fun j => (j.imageTarget, j.mode)).Nodup ↔ ∀ target mode, (m.scans target mode).length ≤ 1 := by
  rw [(h.map _).nodup_iff, List.nodup_iff_count_le_one, Prod.forall]
  refine forall_congr' fun target => forall_congr' fun mode => ?_
  rw [List.count, List.countP_map, List.countP_eq_length_filter, BaselineManifest.scans, List.filter_filter]
  refine iff_of_eq (congrArg (fun l => List.length l ≤ 1) (List.filter_congr fun j _ => ?_))
  simp [Prod.ext_iff, Bool.and_comm, beq_eq_decide]

/-! ### Results -/

theorem nodup_jobResults (m : BaselineManifest) : (m.jobResults.map Prod.fst).Nodup := by
  unfold BaselineManifest.jobResults
  split
  · exact Rows.foldl_invariant (fun d : List (String × String) => (d.map Prod.fst).Nodup)
      (fun _ _ _ h => Dict.nodup_keys_set h _ _) List.nodup_nil
  · exact List.nodup_nil

theorem provenJobResults_keys (m : BaselineManifest) :
    (provenJobResults m).map Prod.fst = m.jobResults.map Prod.fst := by
  unfold provenJobResults
  rw [List.map_map]
  refine List.map_congr_left fun kv _ => ?_
  dsimp only [Function.comp]
  split
  · split <;> rfl
  · rfl

/-! ### Ingestion -/

section Ingestion

variable {meta_ : RunMeta} {jobs : List ScanJobEvidence} {scans : RunScans}

/-- The scans that the checks of ingestion let through. -/
theorem checkJobs_eq_ok : checkJobs meta_ jobs = .ok scans ↔
    ∃ raw, (jobs.filter fun j => j.imageTarget == meta_.primaryTarget).filter (fun j => j.mode == .raw) = [raw] ∧
      ((jobs.filter fun j => j.imageTarget == meta_.primaryTarget).filter fun j => j.mode == .policy).length ≤ 1 ∧
      (∀ j ∈ jobs.filter fun j => j.imageTarget != meta_.primaryTarget, j.mode = .raw ∧ j.platform = meta_.platform) ∧
      raw.platform = meta_.platform ∧
      (∀ p ∈ (jobs.filter fun j => j.imageTarget == meta_.primaryTarget).filter fun j => j.mode == .policy,
        p.subject = raw.subject) ∧
      ⟨raw, ((jobs.filter fun j => j.imageTarget == meta_.primaryTarget).filter fun j => j.mode == .policy).head?,
        jobs.filter fun j => j.imageTarget == meta_.primaryTarget,
        jobs.filter fun j => j.imageTarget != meta_.primaryTarget⟩ = scans := by
  unfold checkJobs
  dsimp only
  generalize hprimary : (jobs.filter fun j => j.imageTarget == meta_.primaryTarget) = primary
  generalize hsecondary : (jobs.filter fun j => j.imageTarget != meta_.primaryTarget) = secondary
  generalize hpolicy : (primary.filter fun j => j.mode == .policy) = policy
  cases hraw : primary.filter fun j => j.mode == .raw with
  | nil => simp
  | cons raw rest =>
    cases rest with
    | cons _ _ => simp
    | nil =>
      dsimp only
      simp only [List.cons.injEq, and_true, exists_eq_left']
      split
      · rename_i hmany
        simp [not_le.mpr hmany]
      · rename_i hfew
        have hhead : (policy.head?.any fun p => decide (p.subject ≠ raw.subject)) = true ↔
            ¬ ∀ p ∈ policy, p.subject = raw.subject := by
          cases policy with
          | nil => simp
          | cons p policy =>
            cases policy with
            | nil => simp
            | cons _ _ => simp at hfew
        simp only [hhead, not_lt.mp hfew, true_and]
        split
        · rename_i hmode
          obtain ⟨j, hj, hmode⟩ := List.any_eq_true.mp hmode
          refine iff_of_false nofun fun h => ?_
          simp [(h.1 j hj).1] at hmode
        · rename_i hmode
          split
          · rename_i hplatform
            obtain ⟨j, hj, hplatform⟩ := List.any_eq_true.mp hplatform
            refine iff_of_false nofun fun h => ?_
            simp [(h.1 j hj).2] at hplatform
          · rename_i hplatform
            have hall : ∀ j ∈ secondary, j.mode = .raw ∧ j.platform = meta_.platform := by
              simp only [List.any_eq_true, bne_iff_ne, not_exists, not_and, not_not] at hmode hplatform
              exact fun j hj => ⟨hmode j hj, hplatform j hj⟩
            split
            · rename_i hraw
              exact iff_of_false nofun fun h => hraw h.2.1
            · rename_i hraw
              split
              · rename_i hsubject
                exact iff_of_false nofun fun h => hsubject h.2.2.1
              · rename_i hsubject
                refine ⟨fun h => ⟨hall, not_not.mp hraw, not_not.mp hsubject, ?_⟩, fun h => by rw [h.2.2.2]⟩
                cases h
                rfl

/-- Ingestion raises or writes; a run that is there already is not checked. -/
theorem ingestRun_isOk {ext : External} {db : Db} {upperBounds : List (String × String)} {ts : DateTime} :
    (∃ r, ingestRun ext db meta_ jobs upperBounds ts = .ok r) ↔
      (db.scanRuns.first fun r => r.externalRunId == meta_.externalRunId).isSome ∨
        ∃ scans, checkJobs meta_ jobs = .ok scans ∧ Writable ext db.scanRuns.nextId meta_ jobs scans upperBounds := by
  unfold ingestRun
  cases db.scanRuns.first fun r => r.externalRunId == meta_.externalRunId with
  | some rid => simp
  | none =>
    cases checkJobs meta_ jobs with
    | error e => simp
    | ok scans =>
      dsimp only
      by_cases hwritable : Writable ext db.scanRuns.nextId meta_ jobs scans upperBounds
      · simp [hwritable]
      · simp [hwritable]

/-- The names of the rows a run's scans and results get. -/
theorem runJobRows_names {rid : Nat} (hprimary : ∀ j ∈ scans.primary, j.imageTarget = .lean)
    (hsecondary : ∀ j ∈ scans.secondary, j.imageTarget ≠ .lean) :
    (runJobRows rid meta_ scans).map ScanJob.name =
      ((scans.primary ++ scans.secondary).flatMap fun j => scanRowNames j.imageTarget j.mode) ++
        (meta_.jobResults.insertionSort fun a b => a.1 ≤ b.1).map Prod.fst := by
  have hlean : ∀ j ∈ scans.primary, (jobRows rid j "").map ScanJob.name = scanRowNames j.imageTarget j.mode := by
    intro j hj
    rw [hprimary j hj]
    rfl
  have hother : ∀ j ∈ scans.secondary,
      (jobRows rid j ("@" ++ j.imageTarget.value)).map ScanJob.name = scanRowNames j.imageTarget j.mode := by
    intro j hj
    have hne := hsecondary j hj
    simp [jobRows, scanRowNames, hne]
  rw [runJobRows, List.map_append, List.map_append, List.map_flatMap, List.map_flatMap, List.flatMap_append,
    List.flatMap_congr hlean, List.flatMap_congr hother]
  simp [resultRows, Function.comp_def]

end Ingestion

/-- The rows of a manifest's scans and results have different names. -/
theorem nodup_rowNames {m : BaselineManifest} {jobs : List ScanJobEvidence} {results : List (String × String)}
    {conclusion : String} (hjobs : jobs.Perm (Dict.values m.jobs))
    (hresults : results = Dict.set (provenJobResults m) "workflow" conclusion) :
    ((jobs.flatMap fun j => scanRowNames j.imageTarget j.mode) ++
        (results.insertionSort fun a b => a.1 ≤ b.1).map Prod.fst).Nodup ↔
      (∀ target mode, (m.scans target mode).length ≤ 1) ∧
        ∀ target mode, m.scans target mode ≠ [] → ∀ name ∈ scanRowNames target mode,
        name ∉ m.jobResults.map Prod.fst := by
  -- the keys of the results are those of the run block and the workflow's own
  have hsorted := (List.perm_insertionSort (fun a b : String × String => a.1 ≤ b.1) results).map Prod.fst
  have hkeys : (results.map Prod.fst).Nodup := by
    rw [hresults]
    exact Dict.nodup_keys_set (by rw [provenJobResults_keys]; exact nodup_jobResults m) _ _
  have hmem (name : String) : name ∈ results.map Prod.fst ↔ name ∈ m.jobResults.map Prod.fst ∨ name = "workflow" := by
    rw [hresults, Dict.mem_keys_set, provenJobResults_keys]
  rw [List.nodup_append, nodup_scanRowNames, nodup_scans hjobs, hsorted.nodup_iff]
  refine and_congr_right fun _ => ⟨fun h target mode hscans name hname hkey => ?_, fun h => ⟨hkeys, ?_⟩⟩
  · obtain ⟨j, hj⟩ := List.exists_mem_of_ne_nil _ hscans
    obtain ⟨hj, hmode⟩ := List.mem_filter.mp hj
    obtain ⟨hj, htarget⟩ := List.mem_filter.mp hj
    have hrow : name ∈ jobs.flatMap fun j => scanRowNames j.imageTarget j.mode := by
      refine List.mem_flatMap.mpr ⟨j, hjobs.mem_iff.mpr hj, ?_⟩
      rwa [eq_of_beq htarget, eq_of_beq hmode]
    exact h.2 name hrow name (hsorted.mem_iff.mpr ((hmem name).mpr (Or.inl hkey))) rfl
  · rintro name hname _ hkey rfl
    obtain ⟨j, hj, hname⟩ := List.mem_flatMap.mp hname
    rcases (hmem name).mp (hsorted.mem_iff.mp hkey) with hkey | rfl
    · have hscans : m.scans j.imageTarget j.mode ≠ [] := by
        refine List.ne_nil_of_mem (a := j) ?_
        simp [BaselineManifest.scans, hjobs.mem_iff.mp hj]
      exact h _ _ hscans name hname hkey
    · exact workflow_not_scanRowName _ _ hname

/-- The record of a run, as ingestion reads it. -/
structure RecordOf (m : BaselineManifest) (run : WorkflowRunInfo) (repo : String) (meta_ : RunMeta) : Prop where
  externalRunId : meta_.externalRunId = HardeningLoop.externalRunId repo run
  platform : meta_.platform = m.platform
  target : meta_.primaryTarget = .lean
  startedAt : meta_.startedAt = some m.builtAt.at_
  finishedAt : meta_.finishedAt = some m.capturedAt.at_
  ciLayerDelta : meta_.ciLayerDelta = m.ciLayerDelta.orElse .null
  results : meta_.jobResults = Dict.set (provenJobResults m) "workflow" (workflowResult run)
  workflow : meta_.workflow = workflowBlock m run

theorem runMetaFor_eq_ok {m : BaselineManifest} {run : WorkflowRunInfo} {repo : String} {meta_ : RunMeta}
    (h : runMetaFor m run repo = .ok meta_) : RecordOf m run repo meta_ := by
  unfold runMetaFor at h
  simp only [bind, Except.bind] at h
  repeat' split at h
  all_goals cases h
  exact ⟨rfl, rfl, rfl, rfl, rfl, rfl, rfl, rfl⟩

section Taken

variable {ext : External} {rid : Nat} {m : BaselineManifest} {run : WorkflowRunInfo} {repo : String} {meta_ : RunMeta}
  {scans : RunScans} {bounds : List (String × String)}

/-- The scans of a manifest pass the checks, and their rows have different names, exactly when they fit. -/
theorem scansFit_iff (hrecord : RecordOf m run repo meta_) :
    (∃ scans, checkJobs meta_ (Dict.values m.jobs) = .ok scans ∧
    ((runJobRows rid meta_ scans).map ScanJob.name).Nodup) ↔
      ScansFit m := by
  obtain ⟨-, hplatform, htarget, -, -, -, hresults, -⟩ := hrecord
  have hci : (Dict.values m.jobs).filter (fun j => j.imageTarget != .lean) =
      (Dict.values m.jobs).filter fun j => j.imageTarget == .ci := by
    refine List.filter_congr fun j _ => ?_
    cases j.imageTarget <;> rfl
  have hrows {raw : ScanJobEvidence} {policy : Option ScanJobEvidence} :
      ((runJobRows rid meta_ ⟨raw, policy, (Dict.values m.jobs).filter fun j => j.imageTarget == .lean,
        (Dict.values m.jobs).filter fun j => j.imageTarget != .lean⟩).map ScanJob.name).Nodup ↔
      (∀ target mode, (m.scans target mode).length ≤ 1) ∧
        ∀ target mode, m.scans target mode ≠ [] → ∀ name ∈ scanRowNames target mode,
        name ∉ m.jobResults.map Prod.fst := by
    have hlean : ∀ j ∈ (Dict.values m.jobs).filter fun j => j.imageTarget == .lean, j.imageTarget = .lean := by
      intro j hj
      exact eq_of_beq (List.mem_filter.mp hj).2
    have hother : ∀ j ∈ (Dict.values m.jobs).filter fun j => j.imageTarget != .lean, j.imageTarget ≠ .lean := by
      intro j hj
      simpa using (List.mem_filter.mp hj).2
    rw [runJobRows_names hlean hother]
    exact nodup_rowNames (List.filter_append_perm _ _) hresults
  constructor
  · rintro ⟨scans, hcheck, hnames⟩
    obtain ⟨raw, hraw, hpolicy, hother, hrawPlatform, hsubject, rfl⟩ := checkJobs_eq_ok.mp hcheck
    rw [htarget] at hraw hpolicy hother hsubject hnames
    obtain ⟨hone, hdisjoint⟩ := hrows.mp hnames
    rw [hci, hplatform] at hother
    refine ⟨⟨raw, hraw, hrawPlatform.trans hplatform, hsubject⟩, hpolicy, ⟨hone _ _, fun j hj => ?_⟩, ?_, hdisjoint⟩
    · exact (hother j (List.mem_filter.mp hj).1).2
    · refine List.filter_eq_nil_iff.mpr fun j hj hmode => ?_
      rw [(hother j hj).1] at hmode
      cases hmode
  · rintro ⟨⟨raw, hraw, hrawPlatform, hsubject⟩, hpolicy, ⟨hciOne, hciPlatform⟩, hciPolicy, hdisjoint⟩
    refine ⟨_, checkJobs_eq_ok.mpr ⟨raw, by rw [htarget]; exact hraw, by rw [htarget]; exact hpolicy, ?_,
      hrawPlatform.trans hplatform.symm, by rw [htarget]; exact hsubject, rfl⟩, ?_⟩
    · rw [htarget, hci, hplatform]
      intro j hj
      have hmode : j.mode = .raw := by
        cases hmode : j.mode with
        | raw => rfl
        | policy =>
          have hmem : j ∈ m.scans .ci .policy := List.mem_filter.mpr ⟨hj, by rw [hmode]; rfl⟩
          rw [hciPolicy] at hmem
          cases hmem
      exact ⟨hmode, hciPlatform j (List.mem_filter.mpr ⟨hj, by rw [hmode]; rfl⟩)⟩
    · rw [htarget]
      refine hrows.mpr ⟨fun target mode => ?_, hdisjoint⟩
      cases target <;> cases mode
      · rw [hraw]
        exact le_rfl
      · exact hpolicy
      · exact hciOne
      · rw [hciPolicy]
        exact Nat.zero_le 1

/-- The raw and the policy scan of a run are the manifest's. -/
theorem scans_of_checkJobs (hrecord : RecordOf m run repo meta_)
    (hcheck : checkJobs meta_ (Dict.values m.jobs) = .ok scans) :
    m.scans .lean .raw = [scans.raw] ∧ m.scans .lean .policy = scans.policy.toList := by
  obtain ⟨raw, hraw, hpolicy, -, -, -, rfl⟩ := checkJobs_eq_ok.mp hcheck
  rw [hrecord.target] at hraw hpolicy
  refine ⟨hraw, ?_⟩
  rw [hrecord.target]
  change (m.scans .lean .policy).length ≤ 1 at hpolicy
  show m.scans .lean .policy = (m.scans .lean .policy).head?.toList
  cases hscans : m.scans .lean .policy with
  | nil => rfl
  | cons policy rest =>
    rw [hscans, List.length_cons] at hpolicy
    rw [List.length_eq_zero_iff.mp (show rest.length = 0 by omega)]
    rfl

/-- The rows of a run can be written exactly when their names differ and what they hold of the bundle is storable. -/
theorem writable_iff_storable (hrecord : RecordOf m run repo meta_)
    (hcheck : checkJobs meta_ (Dict.values m.jobs) = .ok scans) :
    Writable ext rid meta_ (Dict.values m.jobs) scans bounds ↔
      ((runJobRows rid meta_ scans).map ScanJob.name).Nodup ∧ Storable ext bounds run m := by
  obtain ⟨hraw, hpolicy⟩ := scans_of_checkJobs hrecord hcheck
  have hdocuments : scans.policy.elim [] ScanJobEvidence.vexDocuments =
      (m.scans .lean .policy).flatMap ScanJobEvidence.vexDocuments := by
    rw [hpolicy]
    cases scans.policy <;> simp
  constructor
  · rintro ⟨hdates, hjson, hclassified, hnames⟩
    simp only [runJson, hrecord.ciLayerDelta, hrecord.workflow, hdocuments, List.forall_mem_append,
      List.forall_mem_cons,
      List.mem_flatMap, List.mem_map] at hjson
    obtain ⟨⟨hdelta, hvex, hworkflow, -⟩, hrecords⟩ := hjson
    refine ⟨hnames, ⟨?_, hdelta, hvex, hworkflow, ?_, ?_⟩⟩
    · rw [hrecord.startedAt, hrecord.finishedAt] at hdates
      exact hdates
    · rw [hraw]
      rintro raw hmem nf hnf kv hkv
      rw [List.mem_singleton.mp hmem] at hnf
      exact hrecords kv.2 ⟨nf, hnf, kv, hkv, rfl⟩
    · rw [hraw]
      rintro raw hmem nf hnf
      rw [List.mem_singleton.mp hmem] at hnf ⊢
      exact hclassified nf hnf
  · rintro ⟨hnames, ⟨hdates, hdelta, hvex, hworkflow, hrecords, hversions⟩⟩
    have hself : scans.raw ∈ m.scans .lean .raw := by
      rw [hraw]
      exact List.mem_singleton_self _
    refine ⟨?_, ?_, fun nf hnf => hversions _ hself nf hnf, hnames⟩
    · rw [hrecord.startedAt, hrecord.finishedAt]
      exact hdates
    · simp only [runJson, hrecord.ciLayerDelta, hrecord.workflow, hdocuments, List.forall_mem_append,
        List.forall_mem_cons,
        List.mem_flatMap, List.mem_map]
      refine ⟨⟨hdelta, hvex, hworkflow, fun _ h => absurd h List.not_mem_nil⟩, ?_⟩
      rintro _ ⟨nf, hnf, kv, hkv, rfl⟩
      exact hrecords _ hself nf hnf kv hkv

/-- **What ingestion takes.** The scans and the results of a manifest are ingested, when no run has its name, exactly
when they are `Ingestible`. -/
theorem ingestRun_isOk_iff {db : Db} {ts : DateTime} (hrecord : RecordOf m run repo meta_) :
    (∃ r, ingestRun ext db meta_ (Dict.values m.jobs) bounds ts = .ok r) ↔
      (db.scanRuns.first fun r => r.externalRunId == meta_.externalRunId).isSome ∨ Ingestible ext bounds run m := by
  rw [ingestRun_isOk]
  refine or_congr_right ⟨?_, fun h => ?_⟩
  · rintro ⟨scans, hcheck, hwritable⟩
    obtain ⟨hnames, hstorable⟩ := (writable_iff_storable hrecord hcheck).mp hwritable
    exact ⟨(scansFit_iff hrecord).mp ⟨scans, hcheck, hnames⟩, hstorable⟩
  · obtain ⟨scans, hcheck, hnames⟩ := (@scansFit_iff db.scanRuns.nextId _ _ _ _ hrecord).mpr h.toScansFit
    exact ⟨scans, hcheck, (writable_iff_storable hrecord hcheck).mpr ⟨hnames, h.toStorable⟩⟩

end Taken

/-! ## The intake row -/

theorem Trigger.of_value_mem {value : String}
    (h : value ∈ [Trigger.push, .pullRequest, .schedule, .workflowDispatch, .replay, .fixture].map Trigger.value) :
    ∃ t, Trigger.of value = .ok t := by
  obtain ⟨t, -, rfl⟩ := List.mem_map.mp h
  exact ⟨t, by cases t <;> rfl⟩

theorem Json.item_isOk {value : Json} {key : String} : (∃ v, value.item key = .ok v) ↔ (value.get? key).isSome := by
  unfold Json.item
  split
  · cases value.get? key <;> simp
  · rename_i hobj
    cases value <;> simp_all [Json.isObj, Json.get?]

theorem imageDigest_isOk {m : BaselineManifest} {target : ImageTarget} :
    (∃ digest, imageDigest m target = .ok digest) ↔
      ∀ image, (Json.obj m.images).get? target.value = some image → (image.get? "image_id").isSome := by
  unfold imageDigest
  cases (Json.obj m.images).get? target.value with
  | none => simp
  | some image =>
    simp only [Option.some.injEq, forall_eq', ← Json.item_isOk]
    cases image.item "image_id" <;> simp [Except.map]

/-- The record of an accepted run is made unless an image has no id. -/
theorem runMetaFor_isOk {rd : Reader} {root : Bundle} {run : WorkflowRunInfo} {expect : IntakeExpectation}
    {isAncestor : String → String → Bool} {m : BaselineManifest} (h : Accepted rd root run expect isAncestor m) :
    (∃ meta_, runMetaFor m run expect.sourceRepo = .ok meta_) ↔ ImagesNamed m := by
  obtain ⟨attempt, hrun⟩ := h.run
  simp only [runProblems, List.append_eq_nil_iff, ite_eq_left_iff, List.cons_ne_nil, imp_false, not_not] at hrun
  obtain ⟨⟨-, hmode⟩, htrigger⟩ := hrun
  obtain ⟨trigger, htrigger⟩ := Trigger.of_value_mem htrigger
  have hgate : ∃ mode, gateMode m = .ok mode := by
    unfold gateMode
    cases hraw : m.meta_ "scan_gate_mode" with
    | null => exact ⟨_, rfl⟩
    | str mode =>
      rw [hraw] at hmode
      have hknown : mode = "report" ∨ mode = "enforce" := Decidable.or_iff_not_imp_left.mpr (by simpa using hmode)
      rcases hknown with rfl | rfl
      · exact ⟨.report, rfl⟩
      · exact ⟨.enforce, rfl⟩
    | _ =>
      rw [hraw] at hmode
      cases hmode
  obtain ⟨mode, hgate⟩ := hgate
  have hall : ImagesNamed m ↔ (∃ digest, imageDigest m .lean = .ok digest) ∧ ∃ digest,
    imageDigest m .ci = .ok digest := by
    rw [imageDigest_isOk, imageDigest_isOk]
    exact ⟨fun h => ⟨h .lean, h .ci⟩, fun h target => by cases target; exacts [h.1, h.2]⟩
  rw [hall]
  unfold runMetaFor
  rw [htrigger, hgate]
  cases imageDigest m .lean <;> cases imageDigest m .ci <;> simp [bind, Except.bind]

/-- The run got one intake row. -/
def RecordedOnce (expect : IntakeExpectation) (run : WorkflowRunInfo) (s : IntakeState) : Prop :=
  (s.scanIntakes.filter fun i => i.externalRunId == externalRunId expect.sourceRepo run).length = 1

instance (expect : IntakeExpectation) (run : WorkflowRunInfo) (s : IntakeState) :
    Decidable (RecordedOnce expect run s) :=
  inferInstanceAs (Decidable (_ = _))

theorem IntakeState.length_filter_le_one (s : IntakeState) (extId : String) :
    (s.scanIntakes.filter fun i => i.externalRunId == extId).length ≤ 1 := by
  have hcount := List.nodup_iff_count_le_one.mp s.unique extId
  rwa [List.count, List.countP_map, List.countP_eq_length_filter] at hcount

/-- A run without a row gets its row. -/
theorem recordedOnce_record {expect : IntakeExpectation} {run : WorkflowRunInfo} {s : IntakeState} {db : Db}
    {intake : ScanIntake} {outcome : IntakeOutcome}
    (h : intake.externalRunId ∉ s.scanIntakes.map ScanIntake.externalRunId)
    (hext : intake.externalRunId = externalRunId expect.sourceRepo run) :
    RecordedOnce expect run (s.record db intake outcome h) := by
  have hnone : (s.scanIntakes.filter fun i => i.externalRunId == externalRunId expect.sourceRepo run) = [] := by
    refine List.filter_eq_nil_iff.mpr fun i hi hsame => h ?_
    rw [hext, ← eq_of_beq hsame]
    exact List.mem_map_of_mem hi
  simp [RecordedOnce, IntakeState.record, List.filter_append, hnone, hext]

/-- A run that was seen keeps its row. -/
theorem recordedOnce_of_seen {expect : IntakeExpectation} {run : WorkflowRunInfo} {s : IntakeState}
    (h : (s.seen (externalRunId expect.sourceRepo run)).isSome) : RecordedOnce expect run s := by
  obtain ⟨prior, hprior⟩ := Option.isSome_iff_exists.mp h
  have hmem : prior ∈ s.scanIntakes.filter fun i => i.externalRunId == externalRunId expect.sourceRepo run :=
    List.mem_filter.mpr ⟨List.mem_of_find?_eq_some hprior, by simpa using List.find?_some hprior⟩
  have hpos := List.length_pos_of_mem hmem
  have hle := s.length_filter_le_one (externalRunId expect.sourceRepo run)
  unfold RecordedOnce
  omega

section Run

variable {rd : Reader} {expect : IntakeExpectation} {answers : IntakeAnswers} {s : IntakeState} {run : WorkflowRunInfo}
  {root : Bundle} {m : BaselineManifest} {bounds : List (String × String)} {ts : DateTime}

/-- What the checks of an accepted bundle end with. -/
theorem checkBundle_accepted (haccept : validateBundle rd root run expect answers.isAncestor = .ok (some m, []))
    (hbounds : answers.upperBounds m.sourceSha = .ok (some bounds)) :
    checkBundle rd expect answers run root =
      (runMetaFor m run expect.sourceRepo).map fun meta_ => .accepted meta_ (Dict.values m.jobs) bounds := by
  unfold checkBundle
  rw [haccept]
  dsimp only [bind, Except.bind]
  rw [hbounds]
  cases runMetaFor m run expect.sourceRepo <;> rfl

/-- An accepted bundle of a run that was not seen ends in a row unless `ingest_run` raises. -/
theorem ingestWorkflowRun_isOk (hfetch : (fetchBundle answers run).2.2 = .ok root)
    (haccept : validateBundle rd root run expect answers.isAncestor = .ok (some m, []))
    (hbounds : answers.upperBounds m.sourceSha = .ok (some bounds)) :
    (∃ s' outcome, ingestWorkflowRun rd expect answers s run ts = .ok (s', outcome) ∧ RecordedOnce expect run s') ↔
      (s.seen (externalRunId expect.sourceRepo run)).isSome ∨ ∀ meta_, runMetaFor m run expect.sourceRepo = .ok meta_ →
        ∃ r, ingestRun rd.toExternal s.db meta_ (Dict.values m.jobs) bounds ts = .ok r := by
  unfold ingestWorkflowRun
  dsimp only
  split
  · rename_i prior hseen
    exact iff_of_true ⟨_, _, rfl, recordedOnce_of_seen (by rw [hseen]; rfl)⟩ (Or.inl (by rw [hseen]; rfl))
  · rename_i hseen
    have hunseen : ¬ (s.seen (externalRunId expect.sourceRepo run)).isSome := by
      rw [hseen]
      nofun
    rw [or_iff_right hunseen, hfetch]
    dsimp only
    rw [checkBundle_accepted haccept hbounds]
    cases runMetaFor m run expect.sourceRepo with
    | error e => exact iff_of_true ⟨_, _, rfl, recordedOnce_record _ rfl⟩ nofun
    | ok meta_ =>
      simp only [Except.map, Except.ok.injEq, forall_eq']
      cases ingestRun rd.toExternal s.db meta_ (Dict.values m.jobs) bounds ts with
      | error e => exact iff_of_false nofun nofun
      | ok r => exact iff_of_true ⟨_, _, rfl, recordedOnce_record _ rfl⟩ ⟨r, rfl⟩

/-- A run whose intake raises stops the poll, and leaves everything as it was. -/
theorem ingestAll_raises {all : WorkflowRunInfo → IntakeAnswers}
    (h : ¬ ∃ s' outcome, ingestWorkflowRun rd expect (all run) s run ts = .ok (s', outcome))
    (runs : List WorkflowRunInfo) :
    ∃ e, ingestAll rd expect all ts s (run :: runs) = (s, .error e) := by
  unfold ingestAll
  split
  · rename_i e _
    exact ⟨e, rfl⟩
  · rename_i s' outcome heq
    exact absurd ⟨s', outcome, heq⟩ h

end Run

/-- GitHub's answers about the run of a bundle whose `pyproject.toml` names no dependency. -/
def sampleAnswers (root : Bundle) : IntakeAnswers :=
  { artifacts := [{ id := 1, name := "scan-evidence-" ++ sampleCommit 'a' }]
    download := fun _ => .ok { root := root, zipSha256 := none }
    compare := fun _ _ => some "ahead"
    getFile := fun _ => some "[project]"
    fixture := fun _ => none
    parseUpperBounds := fun _ => .ok [] }

def sampleIntakeState : IntakeState := { db := .empty, scanIntakes := [], unique := List.nodup_nil }

theorem sampleAnswers_fetch (root : Bundle) (headSha : String) :
    (fetchBundle (sampleAnswers root) (sampleWorkflowRun headSha)).2.2 = .ok root := rfl

theorem sampleAnswers_isAncestor (root : Bundle) : (sampleAnswers root).isAncestor = fun _ _ => true := by
  funext base head
  simp [IntakeAnswers.isAncestor, sampleAnswers]

end HardeningLoop
