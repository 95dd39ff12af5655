import HardeningLoop.Ingest.Normalization
import HardeningLoop.Orchestrator.Overruling

/-!
# Families of configuration findings

A finding is judged by its family: the findings of one vulnerability in one package, ecosystem and layer. A
configuration finding has no package, so its family is its rule, whatever the file.

- `Reachable.shaped`: what the key of a record says of the stored finding, followed from the parser's records;
- `familyKey_config`: configuration findings of one rule and layer are one family;
- `config_judged_by_family`: a run that reports one of them closes none of them and reopens those that are fixed.
-/

namespace HardeningLoop

open Rows (Table)

/-! ## From the records to the stored findings -/

/-- A configuration finding has a configuration layer and no package; a package finding has another layer. -/
def Shaped (key : String) (pkgName : Option String) (ecosystem : Ecosystem) (layer : Layer) : Prop :=
  (key.toList.head? = some 'c' ∧ layer ∈ configLayers ∧ ecosystem = .config ∧ pkgName = none) ∨
    (key.toList.head? = some 'v' ∧ layer ∉ configLayers)

def NormalizedFinding.Shaped (nf : NormalizedFinding) : Prop :=
  HardeningLoop.Shaped nf.dedupeKey nf.pkgName nf.ecosystem nf.layer

def Finding.Shaped (f : Finding) : Prop := HardeningLoop.Shaped f.dedupeKey f.pkgName f.ecosystem f.layer

theorem normalize_shaped {vulns : List RawVuln} {configs : List RawConfigFinding} {nf : NormalizedFinding}
    (h : nf ∈ normalize vulns configs) : nf.Shaped := by
  have hsubject {nf nf' : NormalizedFinding} (h : nf.subject = nf'.subject) (hnf' : nf'.Shaped) : nf.Shaped := by
    simp only [NormalizedFinding.subject, Prod.mk.injEq] at h
    obtain ⟨hkey, -, hpkg, heco, hlayer⟩ := h
    unfold NormalizedFinding.Shaped
    rw [hkey, hpkg, heco, hlayer]
    exact hnf'
  obtain ⟨k, hk⟩ := mem_normalize.mp h
  have hunder := underKey vulns configs k
  rw [hk] at hunder
  cases hunder with
  | vulns rv rest =>
    refine hsubject (foldl_addVuln_subject (rv :: rest)) (.inr ⟨rv.dedupeKey_head, ?_⟩)
    show rv.layer ∉ configLayers
    exact rv.layer_eq ▸ layerFor_not_config rv.ecosystem
  | configs rc rest =>
    exact hsubject (foldl_addConfig_subject (rc :: rest)) (.inl ⟨rc.dedupeKey_head, rc.layer_mem, rfl, rfl⟩)

/-- A key has one shape. -/
theorem Shaped.swap {key : String} {p p' : Option String} {e e' : Ecosystem} {l l' : Layer} (h : Shaped key p e l)
    (h' : Shaped key p' e' l') : Shaped key p' e' l := by
  rcases h with ⟨hkey, hl, -, -⟩ | ⟨hkey, hl⟩ <;> rcases h' with ⟨hkey', -, he, hp⟩ | ⟨hkey', -⟩
  · exact .inl ⟨hkey, hl, he, hp⟩
  · exact absurd (hkey.symm.trans hkey') (by decide)
  · exact absurd (hkey.symm.trans hkey') (by decide)
  · exact .inr ⟨hkey, hl⟩

def Db.Shaped (db : Db) : Prop := ∀ fid f, db.findings.get? fid = some f → f.Shaped

section Ingest

variable {ext : External} {rid : Nat} {run : ScanRun} {raw : ScanJobEvidence} {nf : NormalizedFinding}

theorem reportAgain_shaped {db : Db} {cls : Classification} {ts : DateTime} {f : Finding} (hf : f.Shaped)
    (hnf : nf.Shaped)
    (hkey : f.dedupeKey = nf.dedupeKey) : (Finding.reportAgain db rid run raw nf cls ts f).Shaped := by
  have hrefresh (f' : Finding) (hsame : f'.dedupeKey = f.dedupeKey ∧ f'.layer = f.layer) :
      (f'.refresh rid raw nf cls ts).Shaped := by
    show HardeningLoop.Shaped f'.dedupeKey nf.pkgName nf.ecosystem f'.layer
    unfold NormalizedFinding.Shaped at hnf
    rw [← hkey] at hnf
    rw [hsame.1, hsame.2]
    exact Shaped.swap hf hnf
  unfold Finding.reportAgain
  dsimp only
  split
  · split
    · exact hf
    · exact hrefresh _ ⟨rfl, rfl⟩
  · split
    · exact hf
    · exact hrefresh _ ⟨rfl, rfl⟩

theorem upsertFinding_shaped {db db' : Db} {fid : Nat} {isNew : Bool} {cls : Classification} {ts : DateTime}
    (hdb : db.Shaped) (hnf : nf.Shaped) (hup : upsertFinding db rid run raw nf cls ts = (db', fid, isNew)) :
    db'.Shaped := by
  unfold upsertFinding at hup
  intro k f' hf'
  cases hfirst : db.findings.first fun f => f.dedupeKey == nf.dedupeKey with
  | none =>
    simp only [hfirst, Prod.mk.injEq] at hup
    obtain ⟨rfl, -, -⟩ := hup
    simp only [Table.get?_insert] at hf'
    split at hf'
    · cases hf'
      exact hnf
    · exact hdb k f' hf'
  | some fid' =>
    simp only [hfirst, Prod.mk.injEq] at hup
    obtain ⟨rfl, -, -⟩ := hup
    simp only [Table.get?_modify] at hf'
    split at hf'
    · rename_i hk
      obtain ⟨f, hf, rfl⟩ := Option.map_eq_some_iff.mp hf'
      obtain ⟨f₀, hf₀, hkey⟩ := Table.first_eq_some hfirst
      rw [hk] at hf
      cases hf.symm.trans hf₀
      exact reportAgain_shaped (hdb _ _ hf₀) hnf (by simpa using hkey)
    · exact hdb k f' hf'

theorem ingestFinding_shaped {policy : Option (List NormalizedFinding)} {ctx : ClassificationContext} {ts : DateTime}
    {acc : Ingest} (hnf : nf.Shaped) (hdb : acc.1.Shaped) :
    (ingestFinding ext rid run raw policy ctx ts acc nf).1.Shaped := by
  unfold ingestFinding
  dsimp only
  obtain ⟨⟨db', fid, isNew⟩, hup⟩ : ∃ r, upsertFinding acc.1 rid run raw nf (classify ext nf ctx) ts = r := ⟨_, rfl⟩
  rw [hup]
  dsimp only
  have hshaped := upsertFinding_shaped hdb hnf hup
  split <;> exact hshaped

theorem ingestRun_shaped {db db' : Db} {meta_ : RunMeta} {jobs : List ScanJobEvidence}
    {upperBounds : List (String × String)}
    {ts : DateTime} {result : IngestResult} (hdb : db.Shaped)
    (h : ingestRun ext db meta_ jobs upperBounds ts = .ok (db', result)) : db'.Shaped := by
  unfold ingestRun at h
  cases hfirst : db.scanRuns.first fun r => r.externalRunId == meta_.externalRunId with
  | some rid =>
    simp only [hfirst, Except.ok.injEq, Prod.mk.injEq] at h
    exact h.1 ▸ hdb
  | none =>
    cases hcheck : checkJobs meta_ jobs with
    | error e => simp [hfirst, hcheck] at h
    | ok scans =>
      simp only [hfirst, hcheck] at h
      split at h
      · simp only [Except.ok.injEq, Prod.mk.injEq] at h
        obtain ⟨rfl, -⟩ := h
        have hstart : Db.Shaped { db with
            scanRuns := db.scanRuns.insert (runRow meta_ jobs scans ts)
            scanJobs := ⟨db.scanJobs.rows ++ runJobRows db.scanRuns.nextId meta_ scans⟩ } := hdb
        have hloop := Rows.foldl_invariant (fun acc : Ingest => acc.1.Shaped)
          (f := ingestFinding ext db.scanRuns.nextId (runRow meta_ jobs scans ts) scans.raw
            (scans.policy.map fun p => normalize p.vulns p.configs)
            (scans.context upperBounds) ts)
          (l := normalize scans.raw.vulns scans.raw.configs)
          (fun acc nf hnf hacc => ingestFinding_shaped (normalize_shaped hnf) hacc)
          (s := (_, { scanRunId := db.scanRuns.nextId, created := true })) hstart
        exact fun fid f hf => hloop fid f hf
      · cases h

end Ingest

theorem Db.Shaped.congr {db db' : Db} (h : SameScans db db') (hdb : db.Shaped) : db'.Shaped := by
  intro fid f' hf'
  obtain ⟨f, hf, hcore⟩ := h.row hf'
  have hshaped := hdb fid f hf
  unfold Finding.Shaped at hshaped ⊢
  rwa [Finding.of_core Finding.dedupeKey (fun _ => rfl) hcore, Finding.of_core Finding.pkgName (fun _ => rfl) hcore,
    Finding.of_core Finding.ecosystem (fun _ => rfl) hcore, Finding.of_core Finding.layer (fun _ => rfl) hcore]

theorem Commits.shaped {c : Controller} {S : Scope} {db db' : Db} (h : Commits c S db db') (hdb : db.Shaped) :
    db'.Shaped := by
  cases h with
  | units h => exact hdb.congr h.sameScans
  | evaluation h rid => exact fun fid f hf => hdb.congr h.sameScans fid f hf
  | ingested h => exact ingestRun_shaped hdb h

/-- **The findings of every reachable state are shaped like the records they come from.** -/
theorem Reachable.shaped {c : Controller} {s : Sys} (h : Reachable c s) : s.db.Shaped := by
  refine Machine.Reachable.invariant (fun s : Sys => s.db.Shaped) (fun fid f hf => ?_)
    (fun s a hdb => (exec_commits c s a).shaped hdb) h
  rw [show Sys.initial.db.findings.get? fid = none from Table.get?_empty fid] at hf
  cases hf

/-! ## One rule, one family -/

/-- Configuration findings of one rule and layer. -/
structure SameRule (f g : Finding) : Prop where
  config : f.layer ∈ configLayers
  rule : g.vulnId = f.vulnId
  layer : g.layer = f.layer

/-- The run's raw scan reports the finding. -/
def ReportedBy (ev : Evidence) (fid : Nat) : Prop :=
  ∃ sg ∈ ev.sightings, sg.findingId = fid ∧ sg.scanRunId = ev.rid ∧ sg.mode = .raw ∧ sg.scanner = .trivy ∧
    sg.present = true

theorem familyKey_config {f g : Finding} (hf : f.Shaped) (hg : g.Shaped) (h : SameRule f g) :
    familyKey g = familyKey f := by
  have hpackage {f : Finding} (hf : f.Shaped) (hl : f.layer ∈ configLayers) : f.ecosystem = .config ∧
    f.pkgName = none := by
    rcases hf with ⟨-, -, heco, hpkg⟩ | ⟨-, hno⟩
    · exact ⟨heco, hpkg⟩
    · exact absurd hl hno
  obtain ⟨heco, hpkg⟩ := hpackage hf h.config
  obtain ⟨heco', hpkg'⟩ := hpackage hg (h.layer ▸ h.config)
  unfold familyKey
  rw [h.rule, h.layer, heco, heco', hpkg, hpkg']

section Run

variable {env : Env} {cmp : Compare} {c : Controller} {s : Sys} {rid fid gid : Nat} {f g : Finding} {ev : Evidence}

/-- The run shows every configuration finding of a rule and layer of which it reports one. -/
theorem shownBy_config (hf : f.Shaped) (hg : g.Shaped) (hget : s.db.findings.get? gid = some g) (h : SameRule f g)
    (hreported : ReportedBy ev gid) : shownBy f (sightingsFor fid ev.rid ev.sightings (familyIds s.db f)) = true := by
  obtain ⟨sg, hsg, hid, hrid, hmode, hscanner, hp⟩ := hreported
  have hfamily : sg.findingId ∈ fid :: familyIds s.db f :=
    List.mem_cons_of_mem _ (hid ▸ mem_familyIds.mpr ⟨g, hget, familyKey_config hf hg h⟩)
  unfold shownBy decidingDetectors
  rw [if_pos h.config, List.any_cons, rawPresent_eq_true.mpr ⟨sg, hsg, hfamily, hrid, hmode, hscanner, hp⟩]
  rfl

/-- **Configuration findings are judged by their rule and not by their file**: of two findings of one rule and layer, in
any files, a run that reports one never counts as showing the other one absent. `decide_outcome` does not give `fixed`,
the application of the run moves it to `fixed` neither for its work item nor by drift, and reopens it when it is
fixed. -/
theorem config_judged_by_family (hs : Reachable c s) (hf : s.db.findings.get? fid = some f)
    (hg : s.db.findings.get? gid = some g) (hrule : SameRule f g) (hev : s.db.evidence rid = some ev)
    (howed : ev.run.closureAppliedAt = none) (hreported : ReportedBy ev gid) :
    (∀ validity byHuman issueUrl closed, decideOutcome env.ext f ev.run
      (sightingsFor fid ev.rid ev.sightings (familyIds s.db f)) validity byHuman issueUrl closed ≠ .fixed) ∧
    (∀ e ∈ newTransitions s.db (applyScanRun env cmp rid { db := s.db }).db fid,
      e.toState ≠ some FindingState.fixed.value) ∧
    (f.state = .fixed → (reopenValidity env cmp s.db ev fid f).valid = true →
      (applyScanRun env cmp rid { db := s.db }).db.findingState fid = some .regression) := by
  have hfs := hs.shaped fid f hf
  have hgs := hs.shaped gid g hg
  have hshown := @shownBy_config s fid gid f g ev hfs hgs hg hrule hreported
  have hpresent : familyKey f ∈ presentFamilies s.db ev.sightings := by
    obtain ⟨sg, hsg, hid, -, -, -, hp⟩ := hreported
    exact mem_presentFamilies.mpr ⟨sg, hsg, hp, g, hid.symm ▸ hg, familyKey_config hfs hgs hrule⟩
  refine ⟨fun validity byHuman issueUrl closed hfixed => ?_, fun e he hto => ?_, fun hfixed hvalid => ?_⟩
  · rw [(decideOutcome_eq_fixed.mp hfixed).2] at hshown
    cases hshown
  · rw [applyScanRun_new hf hev howed] at he
    rcases (evaluated_closes (f := f) (s.db.transitions fid)).mp ⟨e, he, hto⟩ with hc | hd
    · obtain ⟨-, _, _, -, -, hno⟩ := hc
      rw [hno] at hshown
      cases hshown
    · simp only [drifts, Bool.and_eq_true, decide_eq_true_eq] at hd
      exact hd.1.1.2 hpresent
  · have hhist : s.db.history fid = some (f, s.db.transitions fid) := history_eq_some.mpr ⟨hf, rfl⟩
    have hafter : (applyScanRun env cmp rid { db := s.db }).db.history fid =
        (s.db.history fid).map (evaluated env cmp s.db ev fid) := applyScanRun_history hev howed fid
    have hclosing : f.state.isClosing = true := by
      rw [hfixed]
      rfl
    have hreopens : reopens env cmp s.db ev fid f = true := by
      simp [reopens, hfixed, hpresent, hvalid]
    rw [hhist, Option.map_some, evaluated_of_closing hclosing,
      (afterDrift_reopened (h := (f, s.db.transitions fid)) hreopens).2] at hafter
    unfold Db.findingState
    rw [(history_eq_some.mp hafter).1]
    rfl

end Run

/-- A raw scan with configuration findings of one rule in Dockerfiles. -/
def dockerScan (files : List String) : ScanJobEvidence :=
  { sampleScan [] with
    iacConfig :=
      files.map fun file => { ruleId := "AVD-DS-0002", resource := file, layer := .dockerfile, severity := .high } }

def dockerIngest (name : String) (finishedAt : DateTime) (files : List String) : Action :=
  .ingest { externalRunId := name, trigger := .push, sourceRepo := forkRepo, sourceBranch := remediationBranch
            sourceSha := "sha-" ++ name, platform := "linux/amd64", leanDigest := some "sha256:0"
            finishedAt := some finishedAt } [dockerScan files] [] finishedAt

/-- Two Dockerfiles break a rule; in the second run only one of them still does. -/
def oneFileTrace : List Action :=
  [dockerIngest "1" 10 ["a/Dockerfile", "b/Dockerfile"]] ++ sampleApply 11 ++ [dockerIngest "2" 20 ["b/Dockerfile"]]

instance (f g : Finding) : Decidable (SameRule f g) :=
  decidable_of_iff (f.layer ∈ configLayers ∧ g.vulnId = f.vulnId ∧ g.layer = f.layer)
    ⟨fun ⟨h₁, h₂, h₃⟩ => ⟨h₁, h₂, h₃⟩, fun ⟨h₁, h₂, h₃⟩ => ⟨h₁, h₂, h₃⟩⟩

instance (ev : Evidence) (fid : Nat) : Decidable (ReportedBy ev fid) :=
  inferInstanceAs (Decidable (∃ sg ∈ ev.sightings, _))

/-- The findings of the two files, and the second run with its evidence. -/
theorem oneFile_rows : ∃ f g ev, (sampleState oneFileTrace).db.findings.get? 1 = some f ∧
    (sampleState oneFileTrace).db.findings.get? 2 = some g ∧ (sampleState oneFileTrace).db.evidence 2 = some ev ∧
    f.resource = some "a/Dockerfile" ∧ g.resource = some "b/Dockerfile" ∧ SameRule f g ∧
    ev.run.closureAppliedAt = none ∧
    ReportedBy ev 2 ∧ ¬ ReportedBy ev 1 ∧
    (driftValidity (sampleController.env 21) (sampleState oneFileTrace).db ev f).valid = true := by
  have hall : ((sampleState oneFileTrace).db.findings.get? 1).any (fun f =>
      ((sampleState oneFileTrace).db.findings.get? 2).any fun g => ((sampleState oneFileTrace).db.evidence 2).any
        fun ev =>
        f.resource == some "a/Dockerfile" && g.resource == some "b/Dockerfile" && decide (SameRule f g) &&
          ev.run.closureAppliedAt == none && decide (ReportedBy ev 2) && decide (¬ ReportedBy ev 1) &&
          (driftValidity (sampleController.env 21) (sampleState oneFileTrace).db ev f).valid) = true := by
    decide +kernel
  obtain ⟨f, hf, hall⟩ := (Option.any_eq_true ..).mp hall
  obtain ⟨g, hg, hall⟩ := (Option.any_eq_true ..).mp hall
  obtain ⟨ev, hev, hall⟩ := (Option.any_eq_true ..).mp hall
  simp only [Bool.and_eq_true, beq_iff_eq, decide_eq_true_eq] at hall
  obtain ⟨⟨⟨⟨⟨⟨hfile, hfile'⟩, hrule⟩, howed⟩, hreported⟩, hno⟩, hvalid⟩ := hall
  exact ⟨f, g, ev, hf, hg, hev, hfile, hfile', hrule, howed, hreported, hno, hvalid⟩

/-- The second run is valid evidence that the rule is kept in the first file, and leaves the finding open. -/
theorem other_file_keeps_open : ∃ s f g ev, Reachable sampleController s ∧ s.db.findings.get? 1 = some f ∧
    s.db.findings.get? 2 = some g ∧ s.db.evidence 2 = some ev ∧ f.resource = some "a/Dockerfile" ∧
    g.resource = some "b/Dockerfile" ∧ SameRule f g ∧ ReportedBy ev 2 ∧ ¬ ReportedBy ev 1 ∧
    (driftValidity (sampleController.env 21) s.db ev f).valid = true ∧
    (applyScanRun (sampleController.env 21) linearCompare 2 { db := s.db }).db.findingState 1 = some .«open» := by
  obtain ⟨f, g, ev, hf, hg, hev, hfile, hfile', hrule, -, hreported, hno, hvalid⟩ := oneFile_rows
  exact ⟨sampleState oneFileTrace, f, g, ev, sampleState_reachable _, hf, hg, hev, hfile, hfile', hrule, hreported, hno,
    hvalid, by decide +kernel⟩

/-- No outcome of the second run is `fixed` for the finding of the first file. -/
theorem other_file_not_fixed : ∃ f ev, (sampleState oneFileTrace).db.findings.get? 1 = some f ∧
    (sampleState oneFileTrace).db.evidence 2 = some ev ∧ ∀ validity byHuman issueUrl closed,
      decideOutcome sampleExternal f ev.run
      (sightingsFor 1 ev.rid ev.sightings (familyIds (sampleState oneFileTrace).db f))
        validity byHuman issueUrl closed ≠ .fixed := by
  obtain ⟨f, g, ev, hf, hg, hev, -, -, hrule, howed, hreported, -⟩ := oneFile_rows
  exact ⟨f, ev, hf, hev, (@config_judged_by_family (sampleController.env 21) linearCompare _ _ 2 1 2 f g ev
    (sampleState_reachable _) hf hg hrule hev howed hreported).1⟩

end HardeningLoop
