import HardeningLoop.Orchestrator.System

/-!
# Approved dispositions

A finding that the raw scan still shows may be closed as an approved disposition. `decideOutcome_approved` says exactly
when: the policy scan shows it no more, and a recorded document that a human approved for the item's issue has a
statement on the vulnerability. Which products the statement is about is the scanners' matter, who apply the documents
in the policy scan.
-/

namespace HardeningLoop

/-- A statement on the vulnerability, in a document approved for the issue. -/
structure Covers (ext : External) (url vulnId : String) (doc : Json) (st : VexStatementSummary) : Prop where
  approved : ∃ approval, approvalOf ext doc = some approval ∧ approval.issueUrl = url
  stated : ∃ statements, validateOpenvex doc = .ok statements ∧ st ∈ statements
  vulnerability : st.vulnerability = vulnId

/-- The scanners whose raw scan shows the finding all ran a policy scan, which does not show it. -/
def SuppressedByPolicy (f : Finding) (view : SightingView) : Prop :=
  ∀ d ∈ originalDetectors f, (view.rawPresent d).getD false = true → view.policyPresent d = some false

theorem vexApprovedForIssue_eq_true {ext : External} {run : ScanRun} {issueUrl : Option String} {vulnId : String} :
    vexApprovedForIssue ext run issueUrl vulnId = true ↔
      ∃ url ∈ issueUrl, ∃ doc ∈ run.vexDocuments, ∃ st, Covers ext url vulnId doc st := by
  unfold vexApprovedForIssue
  cases issueUrl with
  | none => simp
  | some url =>
    simp only [List.any_eq_true, Bool.and_eq_true, Option.any_eq_true, beq_iff_eq, Option.mem_def, Option.some.injEq,
      exists_eq_left']
    refine exists_congr fun doc => and_congr_right fun _ => ?_
    cases hdoc : validateOpenvex doc with
    | error e =>
      refine iff_of_false (fun h => Bool.false_ne_true h.2) ?_
      rintro ⟨st, -, ⟨statements, hok, -⟩, -⟩
      rw [hdoc] at hok
      cases hok
    | ok statements =>
      rw [List.any_eq_true]
      constructor
      · rintro ⟨happroval, st, hst, hvuln⟩
        exact ⟨st, happroval, ⟨statements, hdoc, hst⟩, beq_iff_eq.mp hvuln⟩
      · rintro ⟨st, happroval, ⟨statements', hok, hst⟩, hvuln⟩
        rw [hdoc] at hok
        cases hok
        exact ⟨happroval, st, hst, beq_iff_eq.mpr hvuln⟩

section Outcome

variable {ext : External} {f : Finding} {run : ScanRun} {view : SightingView} {validity : RunValidity}
  {byHuman closed : Bool} {issueUrl : Option String}

theorem policy_absent_iff : (((originalDetectors f).filter fun d => (view.rawPresent d).getD false).all
      fun d => (view.policyPresent d).isSome) = true ∧
    (((originalDetectors f).filter fun d => (view.rawPresent d).getD false).all
      fun d => !(view.policyPresent d).getD false) = true ↔ SuppressedByPolicy f view := by
  simp only [List.all_eq_true, List.mem_filter, SuppressedByPolicy]
  constructor
  · rintro ⟨hseen, habsent⟩ d hd hraw
    have hsome := hseen d ⟨hd, hraw⟩
    have hnot := habsent d ⟨hd, hraw⟩
    revert hsome hnot
    rcases view.policyPresent d with _ | _ | _ <;> simp
  · intro h
    refine ⟨fun d hd => ?_, fun d hd => ?_⟩
    · rw [h d hd.1 hd.2]; rfl
    · rw [h d hd.1 hd.2]; rfl

/-- **The outcome is `approved_disposition` exactly when** the run is valid, a detector that opened the finding shows an
open package finding, the policy scans of all that show it do not, and a document approved for the issue has a
suppressing statement on the vulnerability, whatever its products. -/
theorem decideOutcome_approved (ext : External) (f : Finding) (run : ScanRun) (view : SightingView)
    (validity : RunValidity)
    (byHuman closed : Bool) (issueUrl : Option String) :
    decideOutcome ext f run view validity byHuman issueUrl closed = .approvedDisposition ↔
      validity.valid = true ∧ f.layer ∉ configLayers ∧ shownBy f view = true ∧ closed = false ∧
      SuppressedByPolicy f view ∧
        ∃ url ∈ issueUrl, ∃ doc ∈ run.vexDocuments, ∃ st, Covers ext url f.vulnId doc st ∧ Suppressing st := by
  have hcovered : vexApprovedForIssue ext run issueUrl f.vulnId = true ↔
      ∃ url ∈ issueUrl, ∃ doc ∈ run.vexDocuments, ∃ st, Covers ext url f.vulnId doc st ∧ Suppressing st := by
    rw [vexApprovedForIssue_eq_true]
    refine exists_congr fun url => and_congr_right fun _ => exists_congr fun doc => and_congr_right fun _ =>
      exists_congr fun st => ⟨fun h => ⟨h, ?_⟩, And.left⟩
    obtain ⟨statements, hok, hst⟩ := h.stated
    exact validateOpenvex_suppressing hok st hst
  rw [← hcovered, ← policy_absent_iff]
  cases hv : validity.valid with
  | false => simp [decideOutcome_invalid hv]
  | true =>
    cases hp : shownBy f view with
    | false => simp [decideOutcome_absent hv hp]
    | true =>
      cases closed with
      | true => simp [decideOutcome_closed hv hp]
      | false =>
        unfold shownBy decidingDetectors at hp
        unfold decideOutcome
        by_cases hl : f.layer ∈ configLayers
        · rw [if_pos hl] at hp
          have hraw : (view.rawPresent .trivy).getD false = true := by simpa using hp
          simp [hv, hl, hraw]
        · rw [if_neg hl] at hp
          simp only [hv, hl, hp, Bool.not_true, Bool.false_eq_true, if_false, not_false_eq_true, true_and]
          rw [← Bool.and_eq_true, ← Bool.and_eq_true]
          split
          · rename_i happroved
            exact iff_of_true rfl happroved
          · rename_i hno
            refine iff_of_false (fun h => ?_) hno
            split at h <;> cases h

end Outcome

/-- The disposition covers the finding's own package. -/
def CoversPackage (ext : External) (f : Finding) (run : ScanRun) (issueUrl : Option String) : Prop :=
  ∃ url ∈ issueUrl, ∃ doc ∈ run.vexDocuments, ∃ st, Covers ext url f.vulnId doc st ∧ ∃ purl ∈ f.purl, purl ∈ st.products

/-- A document approved for an issue, with a statement on the vulnerability in the products. -/
def approvedDocument (url vulnId : String) (products : List String) : Json :=
  .obj [("@context", .str "https://openvex.dev/ns/v0.2.0"),
    ("x-approval", .obj [("issue_url", .str url), ("approved_by", .str "human")]),
    ("statements", .arr [.obj [("vulnerability", .obj [("name", .str vulnId)]), ("status", .str "not_affected"),
      ("products", .arr (products.map fun p => .obj [("@id", .str p)]))]])]

/-- A package that both scanners report, suppressed in the policy scan by a document on another package. -/
def otherProductTrace : List Action :=
  let vulns := (samplePair "CVE-1" "openssl" "1").map fun v => { v with purl := some "pkg:deb/debian/openssl@1" }
  let document := approvedDocument sampleIssue.url "CVE-1" ["pkg:npm/openssl@9"]
  [.ingest { externalRunId := "1", trigger := .push, sourceRepo := forkRepo, sourceBranch := remediationBranch
             sourceSha := "sha-1", platform := "linux/amd64", leanDigest := some "sha256:0", finishedAt := some 10 }
    [sampleScan vulns, { sampleScan [] with mode := .policy, vexDocuments := [document] }] [] 10]

/-- A statement on the same vulnerability in another product accepts the finding. -/
theorem other_product_accepted : ∃ s f ev, Reachable sampleController s ∧ s.db.findings.get? 1 = some f ∧
    s.db.evidence 1 = some ev ∧
    decideOutcome sampleExternal f ev.run (sightingsFor 1 1 ev.sightings (familyIds s.db f)) ⟨[]⟩ false
      (some sampleIssue.url) false = .approvedDisposition ∧
    ¬ CoversPackage sampleExternal f ev.run (some sampleIssue.url) := by
  have hall : ((sampleState otherProductTrace).db.findings.get? 1).any (fun f =>
      ((sampleState otherProductTrace).db.evidence 1).any fun ev =>
        decideOutcome sampleExternal f ev.run
          (sightingsFor 1 1 ev.sightings (familyIds (sampleState otherProductTrace).db f))
            ⟨[]⟩ false (some sampleIssue.url) false == .approvedDisposition &&
          ev.run.vexDocuments.all fun doc => ((validateOpenvex doc).toOption.getD []).all fun st =>
            f.purl.all (· ∉ st.products)) = true := by
    decide +kernel
  obtain ⟨f, hf, hall⟩ := (Option.any_eq_true ..).mp hall
  obtain ⟨ev, hev, hall⟩ := (Option.any_eq_true ..).mp hall
  simp only [Bool.and_eq_true, beq_iff_eq, List.all_eq_true] at hall
  refine ⟨sampleState otherProductTrace, f, ev, sampleState_reachable _, hf, hev, hall.1, ?_⟩
  rintro ⟨url, -, doc, hdoc, st, hcovers, purl, hpurl, hmem⟩
  obtain ⟨statements, hok, hst⟩ := hcovers.stated
  have hother := hall.2 doc hdoc st (by rw [hok]; exact hst)
  rw [Option.mem_def] at hpurl
  rw [hpurl] at hother
  simp [hmem] at hother

end HardeningLoop
