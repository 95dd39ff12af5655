import HardeningLoop.Orchestrator.Transactions

/-!
# What the scans of a reachable database satisfy

Ingestion alone writes what was scanned and reported; the units of the engine leave it alone (`SameScans`). So what
ingestion establishes (`ingestRun_intake`) holds in every reachable state (`Reachable.intake`):

- every finding has an image target, and only Trivy opens a configuration finding;
- the raw job of a scanner names its image target;
- the run that last reported a finding has a present raw sighting of it.

What ingestion leaves alone in turn is `Ingested`: the work items, the sessions and the pull requests.
-/

namespace HardeningLoop

open Rows (Table)

/-! ## Scans and what they report -/

/-- The databases have the same findings up to what the engine writes, and the same jobs and sightings. -/
structure SameScans (db db' : Db) : Prop where
  core : db'.findings.map Finding.core = db.findings.map Finding.core
  scanJobs : db'.scanJobs = db.scanJobs
  sightings : db'.sightings = db.sightings

theorem SameScans.refl (db : Db) : SameScans db db := ⟨rfl, rfl, rfl⟩

theorem SameScans.trans {db db' db'' : Db} (h : SameScans db db') (h' : SameScans db' db'') : SameScans db db'' :=
  ⟨h'.core.trans h.core, h'.scanJobs.trans h.scanJobs, h'.sightings.trans h.sightings⟩

theorem Acts.sameScans {env : Env} {S : Scope} {tx t : Tx} (h : Acts env S tx t) : SameScans tx.db t.db :=
  ⟨h.findings_core, h.scanJobs, h.sightings⟩

/-- A finding of the one database is one of the other, up to what the engine writes. -/
theorem SameScans.row {db db' : Db} (h : SameScans db db') {fid : Nat} {f' : Finding}
    (hf : db'.findings.get? fid = some f') : ∃ f, db.findings.get? fid = some f ∧ f'.core = f.core := by
  have hcore : (db'.findings.get? fid).map Finding.core = (db.findings.get? fid).map Finding.core := by
    rw [← Table.get?_map, ← Table.get?_map, h.core]
  rw [hf, Option.map_some] at hcore
  obtain ⟨f, hf', hff⟩ := Option.map_eq_some_iff.mp hcore.symm
  exact ⟨f, hf', hff.symm⟩

/-- What ingestion establishes. -/
structure Intake (db : Db) : Prop where
  target : ∀ fid f, db.findings.get? fid = some f → f.imageTarget.isSome
  config : ∀ fid f, db.findings.get? fid = some f → f.layer ∈ configLayers → f.openedByGrype = false
  jobs : ∀ j ∈ db.scanJobs.rows, ∀ det : Scanner, j.name = det.value ++ "-raw" → j.imageTarget.isSome
  reported : ∀ fid f, db.findings.get? fid = some f → ∃ sg ∈ db.sightings.rows, sg.findingId = fid ∧
    sg.scanRunId = f.lastSeenRunId ∧ sg.mode = .raw ∧ sg.present = true

theorem Intake.empty : Intake Db.empty := by
  have hno (fid : Nat) (f : Finding) : Db.empty.findings.get? fid ≠ some f := by
    have : Db.empty.findings.get? fid = none := Table.get?_empty fid
    rw [this]
    nofun
  exact ⟨fun fid f h => absurd h (hno fid f), fun fid f h => absurd h (hno fid f),
    fun j hj => (List.not_mem_nil hj).elim,
    fun fid f h => absurd h (hno fid f)⟩

theorem Intake.congr {db db' : Db} (h : SameScans db db') (hi : Intake db) : Intake db' := by
  refine ⟨fun fid f' hf => ?_, fun fid f' hf hl => ?_, h.scanJobs ▸ hi.jobs, fun fid f' hf => ?_⟩
  · obtain ⟨f, hf', hcore⟩ := h.row hf
    have htarget := Finding.of_core Finding.imageTarget (fun _ => rfl) hcore
    exact htarget ▸ hi.target fid f hf'
  · obtain ⟨f, hf', hcore⟩ := h.row hf
    have hlayer := Finding.of_core Finding.layer (fun _ => rfl) hcore
    exact (Finding.of_core Finding.openedByGrype (fun _ => rfl) hcore).trans (hi.config fid f hf' (hlayer ▸ hl))
  · obtain ⟨f, hf', hcore⟩ := h.row hf
    have hlast := Finding.of_core Finding.lastSeenRunId (fun _ => rfl) hcore
    rw [hlast, h.sightings]
    exact hi.reported fid f hf'

/-! ## Ingestion -/

section Ingest

variable {ext : External} {rid : Nat} {run : ScanRun} {raw : ScanJobEvidence} {nf : NormalizedFinding}

/-- The row a finding has after it was reported: its old row refreshed or not, or a new row. -/
theorem upsertFinding_row {db db' : Db} {fid : Nat} {isNew : Bool} {cls : Classification} {ts : DateTime}
    (hup : upsertFinding db rid run raw nf cls ts = (db', fid, isNew)) {k : Nat} {f' : Finding}
    (hf : db'.findings.get? k = some f') :
    (∃ f, db.findings.get? k = some f ∧ f'.layer = f.layer ∧ f'.openedByGrype = f.openedByGrype ∧
      (f.imageTarget.isSome → f'.imageTarget.isSome) ∧
        (f'.lastSeenRunId = f.lastSeenRunId ∨ k = fid ∧ f'.lastSeenRunId = rid)) ∨
      (k = fid ∧ f'.imageTarget.isSome ∧ f'.layer = nf.layer ∧ f'.openedByGrype = decide (.grype ∈ nf.reportedBy) ∧
        f'.lastSeenRunId = rid) := by
  unfold upsertFinding at hup
  cases hfirst : db.findings.first fun f => f.dedupeKey == nf.dedupeKey with
  | none =>
    simp only [hfirst, Prod.mk.injEq] at hup
    obtain ⟨rfl, rfl, -⟩ := hup
    simp only [Table.get?_insert] at hf
    split at hf
    · rename_i hk
      cases hf
      exact Or.inr ⟨hk, rfl, rfl, rfl, rfl⟩
    · exact Or.inl ⟨f', hf, rfl, rfl, id, Or.inl rfl⟩
  | some fid' =>
    simp only [hfirst, Prod.mk.injEq] at hup
    obtain ⟨rfl, rfl, -⟩ := hup
    simp only [Table.get?_modify] at hf
    split at hf
    · rename_i hk
      obtain ⟨f, hf', rfl⟩ := Option.map_eq_some_iff.mp hf
      refine Or.inl ⟨f, hf', ?_⟩
      unfold Finding.reportAgain
      cases finishedBefore db rid run f.firstSeenRunId <;> cases hlast : finishedBefore db rid run f.lastSeenRunId <;>
        simp [hlast, hk, Finding.refresh]
    · exact Or.inl ⟨f', hf, rfl, rfl, id, Or.inl rfl⟩

theorem upsertFinding_scans {db db' : Db} {fid : Nat} {isNew : Bool} {cls : Classification} {ts : DateTime}
    (hup : upsertFinding db rid run raw nf cls ts = (db', fid, isNew)) :
    db'.scanJobs = db.scanJobs ∧ db'.sightings = db.sightings := by
  unfold upsertFinding at hup
  cases hfirst : db.findings.first fun f => f.dedupeKey == nf.dedupeKey <;>
  · simp only [hfirst, Prod.mk.injEq] at hup
    obtain ⟨rfl, -, -⟩ := hup
    exact ⟨rfl, rfl⟩

/-- The reporters of a finding have a present raw sighting of it. -/
theorem mem_sightingRows {fid : Nat} {policy : Option (List NormalizedFinding)} (hrep : nf.reportedBy ≠ []) :
    ∃ sg ∈ [Scanner.trivy, .grype].flatMap (sightingRows fid rid nf policy), sg.findingId = fid ∧ sg.scanRunId = rid ∧
      sg.mode = .raw ∧ sg.present = true := by
  obtain ⟨s, hs⟩ := List.exists_mem_of_ne_nil _ hrep
  have hall : s ∈ [Scanner.trivy, .grype] := by cases s <;> decide
  refine ⟨⟨fid, rid, s, .raw, true, Dict.get? nf.severityByScanner s, (Dict.get? nf.fixVersionsByScanner s).getD []⟩,
    List.mem_flatMap.mpr ⟨s, hall, ?_⟩, rfl, rfl, rfl, rfl⟩
  unfold sightingRows
  rw [if_pos hs]
  exact List.mem_cons_self

/-- One normalized finding keeps what ingestion establishes. -/
theorem ingestFinding_intake {policy : Option (List NormalizedFinding)} {ctx : ClassificationContext} {ts : DateTime}
    {acc : Ingest} (hrep : nf.reportedBy ≠ []) (hcfg : nf.layer ∈ configLayers → ∀ s ∈ nf.reportedBy, s = .trivy)
    (hi : Intake acc.1) : Intake (ingestFinding ext rid run raw policy ctx ts acc nf).1 := by
  unfold ingestFinding
  dsimp only
  obtain ⟨⟨db', fid, isNew⟩, hup⟩ : ∃ r, upsertFinding acc.1 rid run raw nf (classify ext nf ctx) ts = r := ⟨_, rfl⟩
  rw [hup]
  dsimp only
  obtain ⟨hjobs, hsight⟩ := upsertFinding_scans hup
  have hkeep : Intake { db' with sightings :=
      ⟨db'.sightings.rows ++ [Scanner.trivy, .grype].flatMap (sightingRows fid rid nf policy)⟩ } := by
    refine ⟨fun k f' hf => ?_, fun k f' hf hl => ?_, hjobs ▸ hi.jobs, fun k f' hf => ?_⟩
    · rcases upsertFinding_row hup hf with ⟨f, hf', -, -, ht, -⟩ | ⟨-, ht, -⟩
      · exact ht (hi.target k f hf')
      · exact ht
    · rcases upsertFinding_row hup hf with ⟨f, hf', hlayer, hopen, -⟩ | ⟨-, -, hlayer, hopen, -⟩
      · exact hopen.trans (hi.config k f hf' (hlayer ▸ hl))
      · rw [hopen]
        refine decide_eq_false fun hg => ?_
        have := hcfg (hlayer ▸ hl) _ hg
        cases this
    · have hnew : k = fid → f'.lastSeenRunId = rid → ∃ sg ∈ db'.sightings.rows ++
          [Scanner.trivy, .grype].flatMap (sightingRows fid rid nf policy), sg.findingId = k ∧
            sg.scanRunId = f'.lastSeenRunId ∧ sg.mode = .raw ∧ sg.present = true := by
        rintro rfl hlast
        obtain ⟨sg, hsg, h⟩ : ∃ sg ∈ [Scanner.trivy, .grype].flatMap (sightingRows k rid nf policy), _ :=
          mem_sightingRows hrep
        exact ⟨sg, List.mem_append_right _ hsg, hlast ▸ h⟩
      rcases upsertFinding_row hup hf with ⟨f, hf', -, -, -, hlast | ⟨hk, hlast⟩⟩ | ⟨hk, -, -, -, hlast⟩
      · obtain ⟨sg, hsg, h⟩ := hi.reported k f hf'
        exact ⟨sg, List.mem_append_left _ (hsight ▸ hsg), hlast ▸ h⟩
      · exact hnew hk hlast
      · exact hnew hk hlast
  split
  · exact ⟨hkeep.target, hkeep.config, hkeep.jobs, hkeep.reported⟩
  · exact hkeep

end Ingest

/-- The raw scan that is ingested is one of the scans of the primary target. -/
theorem checkJobs_raw {meta_ : RunMeta} {jobs : List ScanJobEvidence} {scans : RunScans}
    (h : checkJobs meta_ jobs = .ok scans) : scans.raw ∈ scans.primary ∧ scans.raw.mode = .raw := by
  unfold checkJobs at h
  dsimp only at h
  cases hraw : (jobs.filter fun j => j.imageTarget == meta_.primaryTarget).filter fun j => j.mode == .raw with
  | nil => simp [hraw] at h
  | cons raw rest =>
    have hmem : raw ∈ (jobs.filter fun j => j.imageTarget == meta_.primaryTarget).filter fun j => j.mode == .raw := by
      rw [hraw]
      exact List.mem_cons_self
    obtain ⟨hprimary, hmode⟩ := List.mem_filter.mp hmem
    rw [hraw] at h
    cases rest with
    | cons _ _ => cases h
    | nil =>
      dsimp only at h
      repeat' split at h
      all_goals cases h
      exact ⟨hprimary, eq_of_beq hmode⟩

/-- The raw job of a scanner names its image target: no other job has its name. -/
theorem runJobRows_target {meta_ : RunMeta} {scans : RunScans} {rid : Nat}
    (hraw : scans.raw ∈ scans.primary ∧ scans.raw.mode = .raw)
    (hnd : ((runJobRows rid meta_ scans).map ScanJob.name).Nodup) {j : ScanJob} (hj : j ∈ runJobRows rid meta_ scans)
    {det : Scanner} (hname : j.name = det.value ++ "-raw") : j.imageTarget.isSome := by
  have hrow (r : ScanJob) (hr : r ∈ jobRows rid scans.raw "") : r ∈ runJobRows rid meta_ scans :=
    List.mem_append_left _ (List.mem_append_left _ (List.mem_flatMap.mpr ⟨scans.raw, hraw.1, hr⟩))
  obtain ⟨r, hr, hrname, htarget⟩ : ∃ r ∈ jobRows rid scans.raw "", r.name = det.value ++ "-raw" ∧
      r.imageTarget.isSome := by
    unfold jobRows
    rw [hraw.2]
    cases det with
    | trivy =>
      have hname : "trivy-" ++ ScanMode.raw.value ++ "" = Scanner.trivy.value ++ "-raw" := by decide
      exact ⟨_, List.mem_cons_self, hname, rfl⟩
    | grype =>
      have hname : "grype-" ++ ScanMode.raw.value ++ "" = Scanner.grype.value ++ "-raw" := by decide
      exact ⟨_, List.mem_cons_of_mem _ List.mem_cons_self, hname, rfl⟩
  have heq : j = r := List.inj_on_of_nodup_map hnd hj (hrow r hr) (hname.trans hrname.symm)
  exact heq ▸ htarget

theorem ingestRun_intake {ext : External} {db db' : Db} {meta_ : RunMeta} {jobs : List ScanJobEvidence}
    {upperBounds : List (String × String)} {ts : DateTime} {result : IngestResult} (hi : Intake db)
    (h : ingestRun ext db meta_ jobs upperBounds ts = .ok (db', result)) : Intake db' := by
  unfold ingestRun at h
  cases hfirst : db.scanRuns.first fun r => r.externalRunId == meta_.externalRunId with
  | some rid =>
    simp only [hfirst, Except.ok.injEq, Prod.mk.injEq] at h
    exact h.1 ▸ hi
  | none =>
    cases hcheck : checkJobs meta_ jobs with
    | error e => simp [hfirst, hcheck] at h
    | ok scans =>
      simp only [hfirst, hcheck] at h
      split at h
      · rename_i hnd
        simp only [Except.ok.injEq, Prod.mk.injEq] at h
        obtain ⟨rfl, -⟩ := h
        set nfs := normalize scans.raw.vulns scans.raw.configs with hnfs
        -- the run and its jobs come first
        have hstart : Intake { db with
            scanRuns := db.scanRuns.insert (runRow meta_ jobs scans ts)
            scanJobs := ⟨db.scanJobs.rows ++ runJobRows db.scanRuns.nextId meta_ scans⟩ } := by
          refine ⟨hi.target, hi.config, fun j hj det hname => ?_, hi.reported⟩
          rcases List.mem_append.mp hj with hj | hj
          · exact hi.jobs j hj det hname
          · exact runJobRows_target (checkJobs_raw hcheck) hnd.names hj hname
        have hloop := Rows.foldl_invariant (fun acc : Ingest => Intake acc.1)
          (f := ingestFinding ext db.scanRuns.nextId (runRow meta_ jobs scans ts) scans.raw
            (scans.policy.map fun p => normalize p.vulns p.configs)
            (scans.context upperBounds) ts) (l := nfs)
          (fun acc nf hnf hacc => ingestFinding_intake (normalize_reportedBy hnf) (normalize_config hnf) hacc)
          (s := (_, { scanRunId := db.scanRuns.nextId, created := true })) hstart
        exact ⟨hloop.target, hloop.config, hloop.jobs, hloop.reported⟩
      · cases h

/-! ## What ingestion leaves alone -/

/-- Ingestion writes scans, findings and log entries that are no transitions. -/
structure Ingested (db db' : Db) : Prop where
  workItems : db'.workItems = db.workItems
  sessions : db'.sessions = db.sessions
  pullRequests : db'.pullRequests = db.pullRequests
  events : ∃ l, db'.events = db.events ++ l ∧ ∀ e ∈ l, ∃ name, e.event = .log name ∧ e.entityType ≠ .workItem

theorem Ingested.refl (db : Db) : Ingested db db := ⟨rfl, rfl, rfl, [], by simp, by simp⟩

/-- A log entry of another process is no transition of a work item. -/
theorem Ingested.append {db db' : Db} (h : Ingested db db') (d : Db) (e : Event) (hw : d.workItems = db'.workItems)
    (hs : d.sessions = db'.sessions) (hp : d.pullRequests = db'.pullRequests) (hd : d.events = db'.events ++ [e])
    (he : ∃ name, e.event = .log name ∧ e.entityType ≠ .workItem) : Ingested db d := by
  obtain ⟨l, hl, hlog⟩ := h.events
  refine ⟨hw.trans h.workItems, hs.trans h.sessions, hp.trans h.pullRequests, l ++ [e], ?_, fun e' he' => ?_⟩
  · rw [hd, hl, List.append_assoc]
  · rcases List.mem_append.mp he' with he' | he'
    · exact hlog e' he'
    · exact List.mem_singleton.mp he' ▸ he

theorem ingestFinding_ingested {ext : External} {rid : Nat} {run : ScanRun} {raw : ScanJobEvidence}
    {policy : Option (List NormalizedFinding)} {ctx : ClassificationContext} {ts : DateTime} {db : Db} {acc : Ingest}
    {nf : NormalizedFinding} (h : Ingested db acc.1) :
    Ingested db (ingestFinding ext rid run raw policy ctx ts acc nf).1 := by
  unfold ingestFinding upsertFinding
  dsimp only
  cases acc.1.findings.first fun f => f.dedupeKey == nf.dedupeKey with
  | none =>
    dsimp only
    rw [if_pos rfl]
    exact h.append _ _ rfl rfl rfl rfl ⟨"opened", rfl, nofun⟩
  | some fid => exact ⟨h.workItems, h.sessions, h.pullRequests, h.events⟩

theorem ingestRun_ingested {ext : External} {db db' : Db} {meta_ : RunMeta} {jobs : List ScanJobEvidence}
    {upperBounds : List (String × String)} {ts : DateTime} {result : IngestResult}
    (h : ingestRun ext db meta_ jobs upperBounds ts = .ok (db', result)) : Ingested db db' := by
  unfold ingestRun at h
  cases hfirst : db.scanRuns.first fun r => r.externalRunId == meta_.externalRunId with
  | some rid =>
    simp only [hfirst, Except.ok.injEq, Prod.mk.injEq] at h
    exact h.1 ▸ .refl db
  | none =>
    cases hcheck : checkJobs meta_ jobs with
    | error e => simp [hfirst, hcheck] at h
    | ok scans =>
      simp only [hfirst, hcheck] at h
      split at h
      · simp only [Except.ok.injEq, Prod.mk.injEq] at h
        obtain ⟨rfl, -⟩ := h
        have hstart : Ingested db { db with
            scanRuns := db.scanRuns.insert (runRow meta_ jobs scans ts)
            scanJobs := ⟨db.scanJobs.rows ++ runJobRows db.scanRuns.nextId meta_ scans⟩ } :=
          ⟨rfl, rfl, rfl, [], by simp, by simp⟩
        have hloop := Rows.foldl_invariant (fun acc : Ingest => Ingested db acc.1)
          (f := ingestFinding ext db.scanRuns.nextId (runRow meta_ jobs scans ts) scans.raw
            (scans.policy.map fun p => normalize p.vulns p.configs)
            (scans.context upperBounds) ts)
          (l := normalize scans.raw.vulns scans.raw.configs) (fun acc nf _ hacc => ingestFinding_ingested hacc)
          (s := (_, { scanRunId := db.scanRuns.nextId, created := true })) hstart
        exact hloop.append _ _ rfl rfl rfl rfl ⟨"ingested", rfl, nofun⟩
      · cases h

/-! ## Reachable states -/

theorem Commits.intake {c : Controller} {S : Scope} {db db' : Db} (h : Commits c S db db') (hi : Intake db) :
    Intake db' := by
  cases h with
  | units h => exact Intake.congr h.sameScans hi
  | evaluation h rid =>
    have hi' := Intake.congr h.sameScans hi
    exact ⟨hi'.target, hi'.config, hi'.jobs, hi'.reported⟩
  | ingested h => exact ingestRun_intake hi h

/-- **What ingestion establishes holds in every reachable state.** -/
theorem Reachable.intake {c : Controller} {s : Sys} (h : Reachable c s) : Intake s.db :=
  Machine.Reachable.invariant (fun s : Sys => Intake s.db) .empty (fun s a hi => (exec_commits c s a).intake hi) h

end HardeningLoop
