import HardeningLoop.Ingest.Vex
import HardeningLoop.Models.Tables

/-!
# The closure rules

When a scan run may serve as closing evidence for a finding (`validateClosingRun`), whether it shows the finding present
(`sightingsFor`, `familyKey`) and what follows (`decideOutcome`). The lemmas read the rules off the code:

- `validateClosingRun_valid`: a run is valid exactly when every one of its conditions holds (`ClosingRun`);
- `rawPresent_eq_true`: a scanner's raw scan shows the finding exactly when it has a present sighting of its family;
- `decideOutcome_eq_fixed`: the outcome is `fixed` exactly when the run is valid and no opening detector reports it;
- `decideOutcome_eq_notApplicable`: the outcome is `not_applicable` exactly when the run is not valid.
-/

namespace HardeningLoop

inductive ClosingOutcome where
  | fixed | approvedDisposition | scannerDisagreementResolved | regression | humanBlocked | stillPresent | notApplicable
  deriving DecidableEq, Repr

def ClosingOutcome.value : ClosingOutcome → String
  | .fixed => "fixed"
  | .approvedDisposition => "approved_disposition"
  | .scannerDisagreementResolved => "scanner_disagreement_resolved"
  | .regression => "regression"
  | .humanBlocked => "human_blocked"
  | .stillPresent => "still_present"
  | .notApplicable => "not_applicable"

/-- The outcomes that settle a finding. -/
def ClosingOutcome.settles (o : ClosingOutcome) : Bool :=
  o ∈ [ClosingOutcome.fixed, .approvedDisposition, .scannerDisagreementResolved]

/-- `RunValidity`: a run is valid when there is no reason against it. -/
structure RunValidity where
  reasons : List String
  deriving DecidableEq, Repr

def RunValidity.valid (v : RunValidity) : Bool := v.reasons = []

/-- `_version_at_least`. -/
def versionAtLeast (ext : External) (actual : Option String) (pinned : String) : Bool :=
  match actual with
  | some actual => (ext.versionGe actual pinned).getD false
  | none => false

/-- `original_detectors`: the scanners of the run that opened the finding. -/
def originalDetectors (f : Finding) : List Scanner :=
  (if f.openedByTrivy then [.trivy] else []) ++ (if f.openedByGrype then [.grype] else [])

/-- `_job_reasons`: image, scanner version and database of a job whose absence is read as a fix. -/
def jobReasons (ext : External) (name : String) (det : Scanner) (job : ScanJob) (f : Finding) : List String :=
  (match job.imageTarget, f.imageTarget with
    | some scanned, some needed =>
      if scanned ≠ needed then [name ++ " scanned " ++ scanned.value ++ ", need " ++ needed.value] else []
    | _, _ => []) ++
  (if versionAtLeast ext job.toolVersion (pinnedVersion det) then []
    else [name ++ " " ++ job.toolVersion.getD "None" ++ " < pinned " ++ pinnedVersion det]) ++
  match f.openingDbBuiltAt, job.dbBuiltAt with
  | some _, none => [name ++ " has no db timestamp: freshness unproven"]
  | some opening, some built =>
    if built < opening then [name ++ " db " ++ dateText built ++ " older than opening run"] else []
  | none, _ => []

/-- The last job of a name: `by_name` keeps the last of equal keys. -/
def byName (jobs : List ScanJob) (name : String) : Option ScanJob := jobs.reverse.find? fun j => j.name == name

/-- What is wrong with the scan job `name` of detector `det`. -/
def detectorReasons (ext : External) (jobs : List ScanJob) (f : Finding) (det : Scanner) (mode : ScanMode) :
    List String :=
  let name := det.value ++ "-" ++ mode.value
  match byName jobs name with
  | some job => if job.success then jobReasons ext name det job f else [name ++ " job missing or failed"]
  | none => [name ++ " job missing or failed"]

/-- What is wrong with the configuration scan. -/
def configReasons (jobs : List ScanJob) (f : Finding) : List String :=
  match byName jobs "config-raw" with
  | some cfg =>
    if !cfg.success then ["config-raw job missing or failed"]
    else match f.imageTarget, cfg.imageTarget with
      | some needed, some scanned => if scanned ≠ needed then ["config job image target mismatch"] else []
      | _, _ => []
  | none => ["config-raw job missing or failed"]

/-- What is wrong with the scans of a package finding. -/
def packageReasons (ext : External) (run : ScanRun) (jobs : List ScanJob) (f : Finding) (requirePolicy : Bool) :
    List String :=
  (if f.imageTarget.isSome && run.leanDigest.isNone then ["run has no lean image digest"] else []) ++
  (if originalDetectors f = [] then ["finding has no original detector"] else []) ++
  (originalDetectors f).flatMap fun det =>
    (ScanMode.raw :: if requirePolicy then [.policy] else []).flatMap (detectorReasons ext jobs f det)

/-- What is wrong with the run itself. -/
def runReasons (run : ScanRun) (f : Finding) (mergeSha : Option String) (isAncestor : String → String → Bool)
    (supersededBy : Option ScanRun) : List String :=
  (match supersededBy with
    | some later => ["run finished before " ++ later.externalRunId ++ ", the later evidence for this finding"]
    | none => []) ++
  (if run.sourceRepo ≠ forkRepo then ["repo " ++ run.sourceRepo ++ " != " ++ forkRepo] else []) ++
  (if run.sourceBranch ≠ remediationBranch then ["branch " ++ run.sourceBranch ++ " != " ++ remediationBranch]
    else []) ++
  (if run.trigger ∉ closingTriggers then ["trigger " ++ run.trigger.value ++ " cannot close findings"] else []) ++
  (if run.status ≠ .complete then ["run status " ++ run.status.value ++ ": incomplete runs never prove absence"]
    else []) ++
  (match mergeSha with
    | some sha =>
      if isAncestor sha run.sourceSha then []
      else ["run sha " ++ takeText 12 run.sourceSha ++ " is not " ++ takeText 12 sha ++ " or a descendant"]
    | none => []) ++
  (if f.platform ≠ run.platform then ["platform " ++ run.platform ++ " != " ++ f.platform] else [])

/-- The jobs that failed. -/
def failedReasons (jobs : List ScanJob) : List String :=
  (jobs.filter fun j => !j.success).map fun j => "job " ++ j.name ++ " failed"

/-- `validate_closing_run`: why the run may not serve as closing evidence for the finding. -/
def validateClosingRun (ext : External) (run : ScanRun) (jobs : List ScanJob) (f : Finding) (mergeSha : Option String)
    (isAncestor : String → String → Bool) (requirePolicy : Bool) (supersededBy : Option ScanRun) : RunValidity :=
  ⟨(runReasons run f mergeSha isAncestor supersededBy ++
    (if f.layer ∈ configLayers then configReasons jobs f else packageReasons ext run jobs f requirePolicy) ++
    failedReasons jobs).eraseDups⟩

/-- `SightingView`: for each scanner with a sighting, whether one of them is present. -/
structure SightingView where
  rawPresent : Scanner → Option Bool
  policyPresent : Scanner → Option Bool

/-- `family_key`: the vulnerability in its package and layer, at any version. -/
def familyKey (f : Finding) : String × String × Option String × String :=
  (f.vulnId, f.ecosystem.value, f.pkgName, f.layer.value)

instance familyKeyLawful : LawfulBEq (String × String × Option String × String) := inferInstance

/-- The value a sighting dictionary ends up with: absent without a sighting, else whether one is present. -/
def presence (sightings : List Sighting) : Option Bool :=
  if sightings = [] then none else some (sightings.any Sighting.present)

/-- `sightings_for`: the sightings of the run for the finding and the other ids of its family. -/
def sightingsFor (fid rid : Nat) (sightings : List Sighting) (familyIds : List Nat) : SightingView :=
  let seen (mode : ScanMode) (s : Scanner) := presence <| sightings.filter fun sg =>
    (fid :: familyIds).contains sg.findingId && sg.scanRunId == rid && sg.mode == mode && sg.scanner == s
  ⟨seen .raw, seen .policy⟩

/-- `_vex_approved_for_issue`: an applied document approved for this issue that covers the vulnerability. -/
def vexApprovedForIssue (ext : External) (run : ScanRun) (issueUrl : Option String) (vulnId : String) : Bool :=
  match issueUrl with
  | none => false
  | some url => run.vexDocuments.any fun doc =>
    (approvalOf ext doc).any (fun approval => approval.issueUrl == url) &&
      match validateOpenvex doc with
      | .ok statements => statements.any fun s => s.vulnerability == vulnId
      | .error _ => false

/-- `decide_outcome`: the outcome of a validated run for the finding. -/
def decideOutcome (ext : External) (f : Finding) (run : ScanRun) (view : SightingView) (validity : RunValidity)
    (disagreementResolvedByHuman : Bool) (issueUrl : Option String) (findingWasClosed : Bool) : ClosingOutcome :=
  let present (s : Scanner) := (view.rawPresent s).getD false
  if !validity.valid then .notApplicable
  else if f.layer ∈ configLayers then
    if present .trivy then if findingWasClosed then .regression else .stillPresent else .fixed
  else if !(originalDetectors f).any present then .fixed
  else if findingWasClosed then .regression
  else
    let presentDetectors := (originalDetectors f).filter present
    let policySeen := presentDetectors.all fun d => (view.policyPresent d).isSome
    let policyAbsentAll := presentDetectors.all fun d => !(view.policyPresent d).getD false
    if policySeen && policyAbsentAll && vexApprovedForIssue ext run issueUrl f.vulnId then .approvedDisposition
    else if presentDetectors.length = 1 && disagreementResolvedByHuman then .scannerDisagreementResolved
    else .stillPresent

/-- `issue_may_close`. -/
def issueMayClose (states : List FindingState) : Bool := states ≠ [] && states.all FindingState.isClosing

/-! ## Validity -/

/-- What a scan job of a detector must be: the right image, a pinned-or-newer scanner, a database not older than the one
that opened the finding. -/
structure JobFit (ext : External) (det : Scanner) (f : Finding) (job : ScanJob) : Prop where
  success : job.success = true
  image : ∀ scanned ∈ job.imageTarget, ∀ needed ∈ f.imageTarget, scanned = needed
  version : versionAtLeast ext job.toolVersion (pinnedVersion det) = true
  database : ∀ opening ∈ f.openingDbBuiltAt, ∃ built ∈ job.dbBuiltAt, opening ≤ built

/-- The detectors of a package finding, each with a fit raw job (and policy job, where one is required). -/
structure PackageScans (ext : External) (run : ScanRun) (jobs : List ScanJob) (f : Finding) (requirePolicy : Bool) :
    Prop where
  digest : f.imageTarget.isSome → run.leanDigest.isSome
  detected : originalDetectors f ≠ []
  scanned : ∀ det ∈ originalDetectors f, ∀ mode : ScanMode, (mode = .policy → requirePolicy = true) →
    ∃ job, byName jobs (det.value ++ "-" ++ mode.value) = some job ∧ JobFit ext det f job

/-- The configuration scan of a configuration finding. -/
def ConfigScan (jobs : List ScanJob) (f : Finding) : Prop :=
  ∃ cfg, byName jobs "config-raw" = some cfg ∧ cfg.success = true ∧
    ∀ scanned ∈ cfg.imageTarget, ∀ needed ∈ f.imageTarget, scanned = needed

/-- The conditions on a run that may serve as closing evidence for a finding. -/
structure ClosingRun (ext : External) (run : ScanRun) (jobs : List ScanJob) (f : Finding) (mergeSha : Option String)
    (isAncestor : String → String → Bool) (requirePolicy : Bool) (supersededBy : Option ScanRun) : Prop where
  latest : supersededBy = none
  repo : run.sourceRepo = forkRepo
  branch : run.sourceBranch = remediationBranch
  trigger : run.trigger ∈ closingTriggers
  complete : run.status = .complete
  descends : ∀ sha ∈ mergeSha, isAncestor sha run.sourceSha = true
  platform : f.platform = run.platform
  scans : if f.layer ∈ configLayers then ConfigScan jobs f else PackageScans ext run jobs f requirePolicy
  succeeded : ∀ j ∈ jobs, j.success = true

theorem ite_nil_eq_nil {α : Type*} {p : Prop} [Decidable p] {a : α} : (if p then ([] : List α) else [a]) = [] ↔ p := by
  split <;> simp_all

theorem ite_singleton_eq_nil {α : Type*} {p : Prop} [Decidable p] {a : α} :
    (if p then [a] else []) = ([] : List α) ↔ ¬ p := by
  split <;> simp_all

theorem jobReasons_eq_nil {ext : External} {name : String} {det : Scanner} {job : ScanJob} {f : Finding}
    (hs : job.success = true) : jobReasons ext name det job f = [] ↔ JobFit ext det f job := by
  unfold jobReasons
  simp only [List.append_eq_nil_iff]
  constructor
  · rintro ⟨⟨himage, hversion⟩, hdb⟩
    refine ⟨hs, ?_, ite_nil_eq_nil.mp hversion, ?_⟩
    · intro scanned h₁ needed h₂
      rw [Option.mem_def] at h₁ h₂
      simpa [h₁, h₂] using himage
    · intro opening h₁
      rw [Option.mem_def] at h₁
      cases hb : job.dbBuiltAt with
      | none => simp [h₁, hb] at hdb
      | some built => exact ⟨built, rfl, by simpa [h₁, hb] using hdb⟩
  · rintro ⟨-, himage, hversion, hdb⟩
    refine ⟨⟨?_, ite_nil_eq_nil.mpr hversion⟩, ?_⟩
    · cases h₁ : job.imageTarget with
      | none => rfl
      | some scanned =>
        cases h₂ : f.imageTarget with
        | none => rfl
        | some needed => simpa using himage scanned h₁ needed h₂
    · cases h₁ : f.openingDbBuiltAt with
      | none => cases job.dbBuiltAt <;> rfl
      | some opening =>
        obtain ⟨built, hb, hle⟩ := hdb opening h₁
        rw [Option.mem_def] at hb
        simpa [hb] using hle

theorem detectorReasons_eq_nil {ext : External} {jobs : List ScanJob} {f : Finding} {det : Scanner} {mode : ScanMode} :
    detectorReasons ext jobs f det mode = [] ↔
      ∃ job, byName jobs (det.value ++ "-" ++ mode.value) = some job ∧ JobFit ext det f job := by
  unfold detectorReasons
  cases hj : byName jobs (det.value ++ "-" ++ mode.value) with
  | none => simp [hj]
  | some job =>
    by_cases hs : job.success = true
    · simp [hj, hs, jobReasons_eq_nil hs]
    · constructor
      · intro h; simp [hj, hs] at h
      · rintro ⟨_, h, hfit⟩; cases h; exact absurd hfit.success hs

theorem packageReasons_eq_nil {ext : External} {run : ScanRun} {jobs : List ScanJob} {f : Finding}
    {requirePolicy : Bool} :
    packageReasons ext run jobs f requirePolicy = [] ↔ PackageScans ext run jobs f requirePolicy := by
  unfold packageReasons
  simp only [List.append_eq_nil_iff, ite_singleton_eq_nil, List.flatMap_eq_nil_iff, detectorReasons_eq_nil]
  constructor
  · rintro ⟨⟨hdigest, hdetected⟩, hscanned⟩
    refine ⟨?_, hdetected, fun det hdet mode hmode => hscanned det hdet mode ?_⟩
    · intro h; cases hl : run.leanDigest <;> simp_all
    · cases mode with
      | raw => exact List.mem_cons_self
      | policy => simp [hmode rfl]
  · rintro ⟨hdigest, hdetected, hscanned⟩
    refine ⟨⟨?_, hdetected⟩, fun det hdet mode hmode => hscanned det hdet mode ?_⟩
    · intro h
      simp only [Bool.and_eq_true, Option.isNone_iff_eq_none] at h
      have := hdigest h.1
      simp [h.2] at this
    · rintro rfl
      cases requirePolicy <;> simp_all

theorem configReasons_eq_nil {jobs : List ScanJob} {f : Finding} : configReasons jobs f = [] ↔ ConfigScan jobs f := by
  unfold configReasons ConfigScan
  cases byName jobs "config-raw" with
  | none => simp
  | some cfg =>
    by_cases hs : cfg.success = true
    · cases h₁ : f.imageTarget <;> cases h₂ : cfg.imageTarget <;> simp [hs, h₂]
    · simp [hs]

theorem failedReasons_eq_nil {jobs : List ScanJob} : failedReasons jobs = [] ↔ ∀ j ∈ jobs, j.success = true := by
  simp [failedReasons, List.filter_eq_nil_iff]

theorem runReasons_eq_nil {run : ScanRun} {f : Finding} {mergeSha : Option String} {isAncestor : String → String → Bool}
    {supersededBy : Option ScanRun} :
    runReasons run f mergeSha isAncestor supersededBy = [] ↔
      supersededBy = none ∧ run.sourceRepo = forkRepo ∧ run.sourceBranch = remediationBranch ∧
        run.trigger ∈ closingTriggers ∧ run.status = .complete ∧
        (∀ sha ∈ mergeSha, isAncestor sha run.sourceSha = true) ∧ f.platform = run.platform := by
  unfold runReasons
  simp only [List.append_eq_nil_iff, ite_singleton_eq_nil, Decidable.not_not, ne_eq]
  have hlater : (match supersededBy with
      | some later => ["run finished before " ++ later.externalRunId ++ ", the later evidence for this finding"]
      | none => ([] : List String)) = [] ↔ supersededBy = none := by
    cases supersededBy <;> simp
  have hmerge : (match mergeSha with
      | some sha => if isAncestor sha run.sourceSha then ([] : List String)
        else ["run sha " ++ takeText 12 run.sourceSha ++ " is not " ++ takeText 12 sha ++ " or a descendant"]
      | none => []) = [] ↔ ∀ sha ∈ mergeSha, isAncestor sha run.sourceSha = true := by
    cases mergeSha <;> simp
  rw [hlater, hmerge]
  tauto

theorem eraseDups_eq_nil {l : List String} : l.eraseDups = [] ↔ l = [] := by
  cases l with
  | nil => simp
  | cons a l => simp [List.eraseDups_cons]

/-- **A run is valid exactly when every condition holds.** -/
theorem validateClosingRun_valid {ext : External} {run : ScanRun} {jobs : List ScanJob} {f : Finding}
    {mergeSha : Option String} {isAncestor : String → String → Bool} {requirePolicy : Bool}
    {supersededBy : Option ScanRun} :
    (validateClosingRun ext run jobs f mergeSha isAncestor requirePolicy supersededBy).valid = true ↔
      ClosingRun ext run jobs f mergeSha isAncestor requirePolicy supersededBy := by
  simp only [RunValidity.valid, validateClosingRun, decide_eq_true_eq, eraseDups_eq_nil, List.append_eq_nil_iff,
    runReasons_eq_nil, failedReasons_eq_nil]
  have hscans : (if f.layer ∈ configLayers then configReasons jobs f else packageReasons ext run jobs f requirePolicy) =
      [] ↔ if f.layer ∈ configLayers then ConfigScan jobs f else PackageScans ext run jobs f requirePolicy := by
    split
    · exact configReasons_eq_nil
    · exact packageReasons_eq_nil
  rw [hscans]
  constructor
  · rintro ⟨⟨⟨h₁, h₂, h₃, h₄, h₅, h₆, h₇⟩, h₈⟩, h₉⟩; exact ⟨h₁, h₂, h₃, h₄, h₅, h₆, h₇, h₈, h₉⟩
  · rintro ⟨h₁, h₂, h₃, h₄, h₅, h₆, h₇, h₈, h₉⟩; exact ⟨⟨⟨h₁, h₂, h₃, h₄, h₅, h₆, h₇⟩, h₈⟩, h₉⟩

/-! ## Presence -/

theorem presence_getD {sightings : List Sighting} :
    (presence sightings).getD false = sightings.any Sighting.present := by
  unfold presence
  split <;> simp_all

/-- A scanner's raw scan shows the finding exactly when it has a present sighting of its family. -/
theorem rawPresent_eq_true {fid rid : Nat} {sightings : List Sighting} {familyIds : List Nat} {s : Scanner} :
    ((sightingsFor fid rid sightings familyIds).rawPresent s).getD false = true ↔
      ∃ sg ∈ sightings, sg.findingId ∈ fid :: familyIds ∧ sg.scanRunId = rid ∧ sg.mode = .raw ∧ sg.scanner = s ∧
        sg.present = true := by
  simp only [sightingsFor, presence_getD, List.any_filter, List.any_eq_true, Bool.and_eq_true, beq_iff_eq,
    List.contains_iff_mem]
  constructor
  · rintro ⟨sg, hm, ⟨⟨⟨hf, hr⟩, hmode⟩, hs⟩, hp⟩; exact ⟨sg, hm, hf, hr, hmode, hs, hp⟩
  · rintro ⟨sg, hm, hf, hr, hmode, hs, hp⟩; exact ⟨sg, hm, ⟨⟨⟨hf, hr⟩, hmode⟩, hs⟩, hp⟩

/-! ## Outcomes -/

/-- The scanners whose raw scan decides whether the finding is there: Trivy for a configuration finding, else the
scanners that opened it. -/
def decidingDetectors (f : Finding) : List Scanner :=
  if f.layer ∈ configLayers then [.trivy] else originalDetectors f

section Outcome

variable {ext : External} {f : Finding} {run : ScanRun} {view : SightingView} {validity : RunValidity}
  {byHuman closed : Bool} {issueUrl : Option String}

/-- The run shows the finding by a deciding detector. -/
def shownBy (f : Finding) (view : SightingView) : Bool :=
  (decidingDetectors f).any fun s => (view.rawPresent s).getD false

theorem decideOutcome_invalid (h : validity.valid = false) :
    decideOutcome ext f run view validity byHuman issueUrl closed = .notApplicable := by
  simp [decideOutcome, h]

theorem decideOutcome_absent (h : validity.valid = true) (hp : shownBy f view = false) :
    decideOutcome ext f run view validity byHuman issueUrl closed = .fixed := by
  unfold shownBy decidingDetectors at hp
  unfold decideOutcome
  split at hp <;> rename_i hl
  · simp only [h, hl]
    simp at hp
    simp [hp]
  · simp only [h, hl]
    simp [hp]

theorem decideOutcome_closed (h : validity.valid = true) (hp : shownBy f view = true) :
    decideOutcome ext f run view validity byHuman issueUrl true = .regression := by
  unfold shownBy decidingDetectors at hp
  unfold decideOutcome
  split at hp <;> rename_i hl
  · simp at hp
    simp [h, hl, hp]
  · simp [h, hl, hp]

/-- A finding that is shown and not closed is accepted, resolved or still present. -/
theorem decideOutcome_shown (h : validity.valid = true) (hp : shownBy f view = true) :
    decideOutcome ext f run view validity byHuman issueUrl false ∈
      [ClosingOutcome.approvedDisposition, .scannerDisagreementResolved, .stillPresent] := by
  unfold shownBy decidingDetectors at hp
  unfold decideOutcome
  split at hp <;> rename_i hl
  · simp at hp
    simp [h, hl, hp]
  · simp only [h, hl, hp]
    simp only [Bool.not_true, Bool.false_eq_true, if_false]
    split
    · simp
    · split <;> simp

/-- **The outcome is `fixed` exactly when the run is valid and no deciding detector shows the finding.** -/
theorem decideOutcome_eq_fixed :
    decideOutcome ext f run view validity byHuman issueUrl closed = .fixed ↔
      validity.valid = true ∧ shownBy f view = false := by
  constructor
  · intro ho
    cases hv : validity.valid with
    | false => rw [decideOutcome_invalid hv] at ho; cases ho
    | true =>
      refine ⟨rfl, ?_⟩
      cases hp : shownBy f view with
      | false => rfl
      | true =>
        cases closed with
        | true => rw [decideOutcome_closed hv hp] at ho; cases ho
        | false =>
          have hm : decideOutcome ext f run view validity byHuman issueUrl false ∈ _ := decideOutcome_shown hv hp
          rw [ho] at hm
          simp at hm
  · rintro ⟨hv, hp⟩; exact decideOutcome_absent hv hp

/-- **The outcome is `not_applicable` exactly when the run is not valid.** -/
theorem decideOutcome_eq_notApplicable :
    decideOutcome ext f run view validity byHuman issueUrl closed = .notApplicable ↔ validity.valid = false := by
  constructor
  · intro ho
    cases hv : validity.valid with
    | false => rfl
    | true =>
      cases hp : shownBy f view with
      | false => rw [decideOutcome_absent hv hp] at ho; cases ho
      | true =>
        cases closed with
        | true => rw [decideOutcome_closed hv hp] at ho; cases ho
        | false =>
          have hm : decideOutcome ext f run view validity byHuman issueUrl false ∈ _ := decideOutcome_shown hv hp
          rw [ho] at hm
          simp at hm
  · exact decideOutcome_invalid

/-- A finding that is closed is never `still_present`. -/
theorem decideOutcome_stillPresent
    (h : decideOutcome ext f run view validity byHuman issueUrl closed = .stillPresent) : closed = false := by
  cases closed with
  | false => rfl
  | true =>
    cases hv : validity.valid with
    | false => rw [decideOutcome_invalid hv] at h; cases h
    | true =>
      cases hp : shownBy f view with
      | false => rw [decideOutcome_absent hv hp] at h; cases h
      | true => rw [decideOutcome_closed hv hp] at h; cases h

end Outcome

end HardeningLoop
