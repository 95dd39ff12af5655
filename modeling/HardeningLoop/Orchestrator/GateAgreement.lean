import HardeningLoop.Gate
import HardeningLoop.Orchestrator.Interleaving
import HardeningLoop.Orchestrator.Families
import HardeningLoop.Lib.Fallible

/-!
# Whether the two gates agree

The workflow judges the policy job as it is reported; the controller judges what the ingestion of the run stored of it.
The ingestion opens findings from the raw scan and stores, for each finding and each scanner that reports it there, the
last record that the scanner's policy report has of it (`mem_presentSightings`).

- `Reachable.sightingsOfRuns`: no sighting is of a run that is not there yet;
- `GatesAgree`: the two see the same findings with the same severities, count them alike, and come to one verdict;
- `gates_agree_iff`: when they do.
-/

namespace HardeningLoop

open Rows (Table)

/-- The records of a job. -/
def ScanJobEvidence.records (job : ScanJobEvidence) : List ScanRecord := scanRecords job.vulns job.configs

/-! ## What the loop of an ingestion wrote -/

section Loop

variable {ext : External} {rid : Nat} {run : ScanRun} {raw : ScanJobEvidence} {policy : Option (List NormalizedFinding)}
  {ctx : ClassificationContext} {ts : DateTime}

/-- Both sightings of both scanners. -/
abbrev rowsOf (fid rid : Nat) (nf : NormalizedFinding) (policy : Option (List NormalizedFinding)) : List Sighting :=
  [Scanner.trivy, .grype].flatMap (sightingRows fid rid nf policy)

/-- The findings that are done are there, and their sightings have been added. -/
structure Wrote (start db : Db) (rid : Nat) (policy : Option (List NormalizedFinding)) (done : List NormalizedFinding) :
    Prop where
  unique : KeysUnique db
  findings : ∀ nf ∈ done, ∃ fid f, db.findings.get? fid = some f ∧ f.dedupeKey = nf.dedupeKey
  sightings : ∀ sg, sg ∈ db.sightings.rows ↔ sg ∈ start.sightings.rows ∨
    ∃ nf ∈ done, ∃ fid f, db.findings.get? fid = some f ∧ f.dedupeKey = nf.dedupeKey ∧ sg ∈ rowsOf fid rid nf policy

/-- The finding of a key gets the sightings. -/
theorem ingestFinding_sightings (acc : Ingest) (nf : NormalizedFinding) :
    ∃ fid f, (ingestFinding ext rid run raw policy ctx ts acc nf).1.findings.get? fid = some f ∧
      f.dedupeKey = nf.dedupeKey ∧ (ingestFinding ext rid run raw policy ctx ts acc nf).1.sightings.rows =
        acc.1.sightings.rows ++ rowsOf fid rid nf policy := by
  unfold ingestFinding upsertFinding
  dsimp only
  cases hold : acc.1.findings.first fun g => g.dedupeKey == nf.dedupeKey with
  | none =>
    dsimp only
    rw [if_pos rfl]
    exact ⟨_, _, Table.get?_insert_self .., rfl, rfl⟩
  | some fid =>
    obtain ⟨f, hf, hkey⟩ := Table.first_eq_some hold
    dsimp only
    rw [if_neg Bool.false_ne_true]
    refine ⟨fid, _, (Table.get?_modify_self ..).trans (congrArg (Option.map _) hf), ?_, rfl⟩
    exact (reportAgain_dedupeKey ..).trans (eq_of_beq hkey)

theorem Wrote.step {start : Db} {acc : Ingest} {done : List NormalizedFinding} (h : Wrote start acc.1 rid policy done)
    (nf : NormalizedFinding) :
    Wrote start (ingestFinding ext rid run raw policy ctx ts acc nf).1 rid policy (done ++ [nf]) := by
  have hunique := @keysUnique_ingestFinding ext rid run raw policy ctx ts acc nf h.unique
  obtain ⟨fid, f, hf, hkey, hrows⟩ := @ingestFinding_sightings ext rid run raw policy ctx ts acc nf
  have hkept {i : Nat} {g : Finding} (hg : acc.1.findings.get? i = some g) :
      ∃ g', (ingestFinding ext rid run raw policy ctx ts acc nf).1.findings.get? i = some g' ∧
        g'.dedupeKey = g.dedupeKey := by
    refine ⟨_, row_ingestFinding acc nf h.unique hg, ?_⟩
    split
    · exact reportAgain_dedupeKey ..
    · rfl
  refine ⟨hunique, fun nf' hnf' => ?_, fun sg => ?_⟩
  · rcases List.mem_append.mp hnf' with hnf' | hnf'
    · obtain ⟨i, g, hg, hgkey⟩ := h.findings nf' hnf'
      obtain ⟨g', hg', hkey'⟩ := hkept hg
      exact ⟨i, g', hg', hkey'.trans hgkey⟩
    · rw [List.mem_singleton.mp hnf']
      exact ⟨fid, f, hf, hkey⟩
  · rw [hrows, List.mem_append, h.sightings]
    constructor
    · rintro ((hsg | ⟨nf', hnf', i, g, hg, hgkey, hsg⟩) | hsg)
      · exact .inl hsg
      · obtain ⟨g', hg', hkey'⟩ := hkept hg
        exact .inr ⟨nf', List.mem_append_left _ hnf', i, g', hg', hkey'.trans hgkey, hsg⟩
      · exact .inr ⟨nf, List.mem_append_right _ List.mem_cons_self, fid, f, hf, hkey, hsg⟩
    · rintro (hsg | ⟨nf', hnf', i, g', hg', hgkey, hsg⟩)
      · exact .inl (.inl hsg)
      · rcases List.mem_append.mp hnf' with hnf' | hnf'
        · -- the finding it is under now is the one it was under then
          obtain ⟨j, g, hg, hjkey⟩ := h.findings nf' hnf'
          obtain ⟨g₁, hg₁, hkey₁⟩ := hkept hg
          have hij : i = j := hunique i j g' g₁ hg' hg₁ (hgkey.trans (hkey₁.trans hjkey).symm)
          exact .inl (.inr ⟨nf', hnf', j, g, hg, hjkey, hij ▸ hsg⟩)
        · rw [List.mem_singleton.mp hnf'] at hgkey hsg
          exact .inr (hunique i fid g' f hg' hf (hgkey.trans hkey.symm) ▸ hsg)

theorem Wrote.foldl {start : Db} (nfs : List NormalizedFinding) : ∀ {acc : Ingest} {done : List NormalizedFinding},
    Wrote start acc.1 rid policy done →
      Wrote start (nfs.foldl (ingestFinding ext rid run raw policy ctx ts) acc).1 rid policy (done ++ nfs) := by
  induction nfs with
  | nil =>
    intro acc done h
    rwa [List.append_nil]
  | cons nf nfs ih =>
    intro acc done h
    have hrest := ih (@Wrote.step ext rid run raw policy ctx ts start acc done h nf)
    rwa [List.append_assoc] at hrest

end Loop

/-! ## Runs and their sightings -/

/-- Every sighting is of a run that is there. -/
def SightingsOfRuns (db : Db) : Prop := ∀ sg ∈ db.sightings.rows, sg.scanRunId ≤ db.scanRuns.size

theorem ids_of_mem_rowsOf {fid rid : Nat} {nf : NormalizedFinding} {policy : Option (List NormalizedFinding)}
    {sg : Sighting} (h : sg ∈ rowsOf fid rid nf policy) : sg.findingId = fid ∧ sg.scanRunId = rid := by
  obtain ⟨s, -, hs⟩ := List.mem_flatMap.mp h
  unfold sightingRows at hs
  split at hs
  · rcases List.mem_cons.mp hs with rfl | hs
    · exact ⟨rfl, rfl⟩
    · split at hs
      · cases hs
      · split at hs <;>
        · rw [List.mem_singleton.mp hs]
          exact ⟨rfl, rfl⟩
  · cases hs

section Run

variable {ext : External} {db db' : Db} {meta_ : RunMeta} {jobs : List ScanJobEvidence}
  {upperBounds : List (String × String)} {ts : DateTime} {result : IngestResult}

/-- The loop of an ingestion writes all findings of the raw scan, and keeps the runs. -/
theorem ingestLoop_wrote (hu : KeysUnique db) (scans : RunScans) :
    Wrote db (ingestLoop ext db meta_ jobs scans upperBounds ts).1 db.scanRuns.nextId
      (scans.policy.map fun p => normalize p.vulns p.configs) (normalize scans.raw.vulns scans.raw.configs) ∧
    (ingestLoop ext db meta_ jobs scans upperBounds ts).1.scanRuns = db.scanRuns.insert (runRow meta_ jobs scans ts) ∧
    (ingestLoop ext db meta_ jobs scans upperBounds ts).2.scanRunId = db.scanRuns.nextId := by
  have hstart : Wrote db (ingestStart db meta_ jobs scans ts) db.scanRuns.nextId
      (scans.policy.map fun p => normalize p.vulns p.configs) [] := by
    refine ⟨hu, fun nf h => absurd h List.not_mem_nil, fun sg => ⟨.inl, fun h => h.elim id ?_⟩⟩
    rintro ⟨nf, hnf, -⟩
    exact absurd hnf List.not_mem_nil
  refine ⟨?_, ?_, ?_⟩
  · rw [← List.nil_append (normalize scans.raw.vulns scans.raw.configs)]
    exact Wrote.foldl _ hstart
  · exact (findingOf_foldl (normalize_keys_nodup _ _) "" _).1
  · exact Rows.foldl_frame (fun acc : Ingest => acc.2.scanRunId)
      (f := ingestStep ext db meta_ jobs scans upperBounds ts) (fun _ _ _ => rfl) _

theorem ingestRun_sightingsOfRuns (hu : KeysUnique db) (hs : SightingsOfRuns db)
    (h : ingestRun ext db meta_ jobs upperBounds ts = .ok (db', result)) : SightingsOfRuns db' := by
  rcases ingestRun_eq_ok h with ⟨rfl, -, -⟩ | ⟨scans, -, -, -, -, rfl⟩
  · exact hs
  · obtain ⟨hwrote, hruns, -⟩ := @ingestLoop_wrote ext db meta_ jobs upperBounds ts hu scans
    intro sg hsg
    show sg.scanRunId ≤ (ingestLoop ext db meta_ jobs scans upperBounds ts).1.scanRuns.size
    rw [hruns, Table.size_insert]
    rcases (hwrote.sightings sg).mp hsg with hsg | ⟨nf, -, fid, f, -, -, hsg⟩
    · exact Nat.le_succ_of_le (hs sg hsg)
    · exact (ids_of_mem_rowsOf hsg).2.le

end Run

theorem Commits.sightingsOfRuns {c : Controller} {S : Scope} {db db' : Db} (h : Commits c S db db') (hu : KeysUnique db)
    (hs : SightingsOfRuns db) : SightingsOfRuns db' := by
  cases h with
  | units h =>
    intro sg hsg
    rw [h.sightings] at hsg
    rw [h.scanRuns]
    exact hs sg hsg
  | @evaluation env tx h rid =>
    intro sg hsg
    have hsg' : sg ∈ tx.db.sightings.rows := hsg
    rw [h.sightings] at hsg'
    show sg.scanRunId ≤ (Table.modify tx.db.scanRuns rid _).size
    rw [Table.size_modify, h.scanRuns]
    exact hs sg hsg'
  | ingested h => exact ingestRun_sightingsOfRuns hu hs h

/-- **Every sighting of a reachable state is of a run that is there.** -/
theorem Reachable.sightingsOfRuns {c : Controller} {s : Sys} (h : Reachable c s) : SightingsOfRuns s.db := by
  have hboth : KeysUnique s.db ∧ SightingsOfRuns s.db :=
    h.invariant (fun s => KeysUnique s.db ∧ SightingsOfRuns s.db)
      ⟨KeysUnique.empty, fun sg hsg => absurd hsg List.not_mem_nil⟩
      fun s a hs => ⟨(exec_commits c s a).keysUnique hs.1, (exec_commits c s a).sightingsOfRuns hs.1 hs.2⟩
  exact hboth.2

/-! ## What is stored of a policy scan -/

/-- The present policy sightings of a finding: of the scanners that report it in both scans, as the policy scan has
it. -/
theorem mem_policyRows {fid rid : Nat} {nf : NormalizedFinding} {pnfs : List NormalizedFinding}
    (hnd : (pnfs.map NormalizedFinding.dedupeKey).Nodup) {severity : Option Severity} :
    (∃ sg ∈ rowsOf fid rid nf (some pnfs), sg.mode = .policy ∧ sg.present = true ∧ sg.findingId = fid ∧
      sg.severity = severity) ↔
    ∃ s ∈ nf.reportedBy, ∃ pnf ∈ pnfs, pnf.dedupeKey = nf.dedupeKey ∧ s ∈ pnf.reportedBy ∧
      Dict.get? pnf.severityByScanner s = severity := by
  constructor
  · rintro ⟨sg, hsg, hmode, hpresent, -, rfl⟩
    obtain ⟨s, -, hs⟩ := List.mem_flatMap.mp hsg
    unfold sightingRows at hs
    split at hs
    · rename_i hrep
      rcases List.mem_cons.mp hs with rfl | hs
      · cases hmode
      · dsimp only at hs
        split at hs
        · rename_i pnf hfind
          have hsome := List.find?_some hfind
          obtain ⟨hkey, hpnf⟩ := Bool.and_eq_true_iff.mp hsome
          rw [List.mem_singleton.mp hs]
          exact ⟨s, hrep, pnf, List.mem_of_find?_eq_some hfind, eq_of_beq hkey, of_decide_eq_true hpnf, rfl⟩
        · rw [List.mem_singleton.mp hs] at hpresent
          cases hpresent
    · cases hs
  · rintro ⟨s, hrep, pnf, hpnf, hkey, hs, rfl⟩
    have hall : s ∈ [Scanner.trivy, .grype] := by cases s <;> decide
    have hfind : (pnfs.find? fun pnf => pnf.dedupeKey == nf.dedupeKey && decide (s ∈ pnf.reportedBy)) = some pnf := by
      cases hfind : pnfs.find? fun pnf => pnf.dedupeKey == nf.dedupeKey && decide (s ∈ pnf.reportedBy) with
      | none =>
        have hno := List.find?_eq_none.mp hfind pnf hpnf
        simp [hkey, hs] at hno
      | some pnf' =>
        have hsome := List.find?_some hfind
        obtain ⟨hkey', -⟩ := Bool.and_eq_true_iff.mp hsome
        have hsame := List.inj_on_of_nodup_map hnd (List.mem_of_find?_eq_some hfind) hpnf
          ((eq_of_beq hkey').trans hkey.symm)
        rw [hsame]
    refine ⟨⟨fid, rid, s, .policy, true, Dict.get? pnf.severityByScanner s,
      (Dict.get? pnf.fixVersionsByScanner s).getD []⟩, List.mem_flatMap.mpr ⟨s, hall, ?_⟩, rfl, rfl, rfl, rfl⟩
    unfold sightingRows
    rw [if_pos hrep]
    simp only [hfind]
    exact List.mem_cons_of_mem _ List.mem_cons_self

/-- A severity that the controller sees a finding with: of the last policy record of a scanner that reports it raw. -/
def Shown (raw policy : ScanJobEvidence) (key : String) (severity : Severity) : Prop :=
  ∃ last, lastOf last.scanner (ofKey key policy.records) = some last ∧
    (∃ r ∈ ofKey key raw.records, r.scanner = last.scanner) ∧ last.severity = severity

/-- What the two normalizations have of a finding, in terms of the records. -/
theorem shown_iff {raw policy : ScanJobEvidence} {nf : NormalizedFinding} (hnf : nf ∈ normalize raw.vulns raw.configs)
    {severity : Severity} :
    (∃ s ∈ nf.reportedBy, ∃ pnf ∈ normalize policy.vulns policy.configs, pnf.dedupeKey = nf.dedupeKey ∧
      s ∈ pnf.reportedBy ∧ (Dict.get? pnf.severityByScanner s).getD .unknown = severity) ↔
    Shown raw policy nf.dedupeKey severity := by
  have hraw := (normalize_tells hnf).1
  constructor
  · rintro ⟨s, hs, pnf, hpnf, hkey, hsp, hsev⟩
    have hpolicy := (normalize_tells hpnf).1
    rw [hkey] at hpolicy
    obtain ⟨last, hlast⟩ := exists_lastOf ((hpolicy.reported s).mp hsp)
    have hscanner := (lastOf_mem hlast).2
    rw [hpolicy.severities, hlast] at hsev
    exact ⟨last, hscanner ▸ hlast, hscanner ▸ (hraw.reported s).mp hs, hsev⟩
  · rintro ⟨last, hlast, hrep, rfl⟩
    have hmem := (lastOf_mem hlast).1
    have hkey : nf.dedupeKey ∈ policy.records.map ScanRecord.key := by
      obtain ⟨hrec, hreckey⟩ := List.mem_filter.mp hmem
      exact of_decide_eq_true hreckey ▸ List.mem_map_of_mem hrec
    obtain ⟨pnf, hpnf, hpkey⟩ := List.mem_map.mp (keys_normalize.mpr hkey)
    have hpolicy := (normalize_tells hpnf).1
    rw [hpkey] at hpolicy
    refine ⟨last.scanner, (hraw.reported _).mpr hrep, pnf, hpnf, hpkey, (hpolicy.reported _).mpr ⟨last, hmem, rfl⟩, ?_⟩
    rw [hpolicy.severities]
    exact congrArg (fun o => (Option.map ScanRecord.severity o).getD .unknown) hlast

/-- What a database holds of the policy scan of a run. -/
structure Stored (raw policy : ScanJobEvidence) (db : Db) (rid : Nat) : Prop where
  unique : KeysUnique db
  findings : ∀ key severity, Shown raw policy key severity → ∃ fid f, db.findings.get? fid = some f ∧ f.dedupeKey = key
  sightings : ∀ fid severity, (fid, severity) ∈ presentSightings db rid .policy ↔
    ∃ f, db.findings.get? fid = some f ∧ Shown raw policy f.dedupeKey severity

theorem exists_normalized_of_shown {raw policy : ScanJobEvidence} {key : String} {severity : Severity}
    (h : Shown raw policy key severity) : ∃ nf ∈ normalize raw.vulns raw.configs, nf.dedupeKey = key := by
  obtain ⟨last, -, ⟨r, hr, -⟩, -⟩ := h
  obtain ⟨hrec, hkey⟩ := List.mem_filter.mp hr
  exact List.mem_map.mp (keys_normalize.mpr (of_decide_eq_true hkey ▸ List.mem_map_of_mem hrec))

/-- **What an ingestion stores of the policy scan.** -/
theorem ingestRun_stored {ext : External} {db db' : Db} {meta_ : RunMeta} {jobs : List ScanJobEvidence}
    {upperBounds : List (String × String)} {ts : DateTime} {result : IngestResult} {scans : RunScans}
    {policy : ScanJobEvidence} (hu : KeysUnique db) (hs : SightingsOfRuns db)
    (h : ingestRun ext db meta_ jobs upperBounds ts = .ok (db', result)) (hcreated : result.created = true)
    (hcheck : checkJobs meta_ jobs = .ok scans) (hpolicy : scans.policy = some policy) :
    Stored scans.raw policy db' result.scanRunId := by
  rcases ingestRun_eq_ok h with ⟨-, hno, -⟩ | ⟨scans', -, hcheck', -, hresult, rfl⟩
  · rw [hcreated] at hno
    cases hno
  · rw [hcheck] at hcheck'
    cases hcheck'
    obtain ⟨hwrote, -, hrid⟩ := @ingestLoop_wrote ext db meta_ jobs upperBounds ts hu scans
    have hrid' : result.scanRunId = db.scanRuns.nextId := by
      rw [hresult]
      exact hrid
    rw [hpolicy, Option.map_some] at hwrote
    refine ⟨hwrote.unique, fun key severity hshown => ?_, fun fid severity => ?_⟩
    · obtain ⟨nf, hnf, rfl⟩ := exists_normalized_of_shown hshown
      exact hwrote.findings nf hnf
    · rw [hrid']
      constructor
      · intro hrow
        obtain ⟨sg, hsg, heq⟩ := List.mem_map.mp hrow
        obtain ⟨hsg, hsel⟩ := List.mem_filter.mp hsg
        simp only [Bool.and_eq_true, beq_iff_eq] at hsel
        obtain ⟨⟨hsgrid, hmode⟩, hpresent⟩ := hsel
        cases heq
        rcases (hwrote.sightings sg).mp hsg with hold | ⟨nf, hnf, fid, f, hf, hkey, hnew⟩
        · have hle := hs sg hold
          rw [hsgrid] at hle
          exact absurd hle (by simp [Table.nextId, Table.size])
        · have hfid : sg.findingId = fid := (ids_of_mem_rowsOf hnew).1
          obtain ⟨s, hrep, pnf, hpnf, hpkey, hsp, hsev⟩ := (mem_policyRows (normalize_keys_nodup _ _)).mp
            ⟨sg, hnew, hmode, hpresent, hfid, rfl⟩
          refine ⟨f, hfid ▸ hf, hkey ▸ (shown_iff hnf).mp ⟨s, hrep, pnf, hpnf, hpkey, hsp, ?_⟩⟩
          rw [hsev]
      · rintro ⟨f, hf, hshown⟩
        obtain ⟨nf, hnf, hkey⟩ := exists_normalized_of_shown hshown
        rw [← hkey] at hshown
        obtain ⟨s, hrep, pnf, hpnf, hpkey, hsp, hsev⟩ := (shown_iff hnf).mpr hshown
        obtain ⟨sg, hsg, hmode, hpresent, hfid, hsgsev⟩ :=
          (@mem_policyRows fid db.scanRuns.nextId nf _ (normalize_keys_nodup _ _) _).mpr
            ⟨s, hrep, pnf, hpnf, hpkey, hsp, rfl⟩
        refine List.mem_map.mpr ⟨sg, List.mem_filter.mpr ⟨?_, ?_⟩, ?_⟩
        · exact (hwrote.sightings sg).mpr (.inr ⟨nf, hnf, fid, f, hf, hkey.symm, hsg⟩)
        · simp [hmode, hpresent, (ids_of_mem_rowsOf hsg).2]
        · rw [hfid, hsgsev, hsev]

/-! ## What the workflow sees -/

theorem Greatest.unique {s s' : Severity} {records : List ScanRecord} (h : Greatest s records)
    (h' : Greatest s' records) :
    s = s' := by
  obtain ⟨⟨r, hr, rfl⟩, hle⟩ := h
  obtain ⟨⟨r', hr', rfl⟩, hle'⟩ := h'
  exact rank_injective (Nat.le_antisymm (hle' r hr) (hle r' hr'))

/-- The vulnerability records of a key. -/
def vulnsOf (key : String) (vulns : List RawVuln) : List ScanRecord :=
  (vulns.filter (·.dedupeKey = key)).map RawVuln.toRecord

/-- The workflow sees each vulnerability once, with the greatest severity of its records. -/
theorem mem_normalize_vulns {vulns : List RawVuln} {key : String} {severity : Severity} :
    (∃ nf ∈ normalize vulns [], nf.dedupeKey = key ∧ nf.severity = severity) ↔
      Greatest severity (vulnsOf key vulns) := by
  have hgreatest {nf : NormalizedFinding} (h : Dict.get? (merged vulns []) key = some nf) :
      Greatest nf.severity (vulnsOf key vulns) := by
    have hunder := underKey vulns [] key
    rw [h] at hunder
    cases hunder with
    | vulns rv rest hv hc =>
      rw [vulnsOf, hv]
      exact greatest_vulns rv rv rest
    | configs rc rest hv hc => cases hc
  constructor
  · rintro ⟨nf, hnf, rfl, rfl⟩
    obtain ⟨k, hk⟩ := mem_normalize.mp hnf
    obtain ⟨rfl, -⟩ := merged_tells hk
    exact hgreatest hk
  · intro h
    cases hget : Dict.get? (merged vulns []) key with
    | some nf => exact ⟨nf, mem_normalize.mpr ⟨key, hget⟩, (merged_tells hget).1, (hgreatest hget).unique h⟩
    | none =>
      have hunder := underKey vulns [] key
      rw [hget] at hunder
      cases hunder with
      | nothing hv hc =>
        obtain ⟨⟨r, hr, -⟩, -⟩ := h
        rw [vulnsOf, hv] at hr
        cases hr

/-! ## Agreement -/

/-- The workflow's gate over the policy job and the controller's over the stored run agree: they see the same findings
with the same severities, count as many of each severity, and come to the same verdict. -/
structure GatesAgree (mode : GateMode) (policy : ScanJobEvidence) (db : Db) (rid : Nat) : Prop where
  findings : ∀ key severity, (∃ nf ∈ normalize policy.vulns [], nf.dedupeKey = key ∧ nf.severity = severity) ↔
    ∃ fid f, db.findings.get? fid = some f ∧ f.dedupeKey = key ∧
      Dict.get? (highest (presentSightings db rid .policy)) fid = some severity
  results : ∃ g, gateJob policy mode = .ok g ∧ g.verdict = runGate mode db rid ∧
    ∀ s : Severity, (Dict.get? g.countsBySeverity s.value).getD 0 =
      (Dict.get? (policyCountsBySeverity db rid) s.value).getD 0

/-- The policy scan is within the raw scan: no configuration finding is in both, and of every policy vulnerability some
scanner that reports it in both scans has a record of the greatest severity last. -/
structure PolicyWithin (raw policy : ScanJobEvidence) : Prop where
  configs : ∀ rc ∈ policy.configs, ∀ rc' ∈ raw.configs, rc.dedupeKey ≠ rc'.dedupeKey
  vulns : ∀ rv ∈ policy.vulns, ∃ last, lastOf last.scanner (ofKey rv.dedupeKey policy.records) = some last ∧
    (∃ r ∈ ofKey rv.dedupeKey raw.records, r.scanner = last.scanner) ∧
      ∀ rv' ∈ policy.vulns, rv'.dedupeKey = rv.dedupeKey → rv'.severity.rank ≤ last.severity.rank

section Agreement

variable {raw policy : ScanJobEvidence} {db : Db} {rid : Nat}

/-- The controller sees a finding with the highest severity shown of it. -/
theorem Stored.mem_highest (h : Stored raw policy db rid) {key : String} {severity : Severity} :
    (∃ fid f, db.findings.get? fid = some f ∧ f.dedupeKey = key ∧
      Dict.get? (highest (presentSightings db rid .policy)) fid = some severity) ↔
    Shown raw policy key severity ∧ ∀ s', Shown raw policy key s' → s'.rank ≤ severity.rank := by
  constructor
  · rintro ⟨fid, f, hf, rfl, hget⟩
    obtain ⟨hrow, hle⟩ := get?_highest.mp hget
    obtain ⟨f', hf', hshown⟩ := (h.sightings fid severity).mp hrow
    rw [hf] at hf'
    cases hf'
    exact ⟨hshown, fun s' hs' => hle s' ((h.sightings fid s').mpr ⟨f, hf, hs'⟩)⟩
  · rintro ⟨hshown, hle⟩
    obtain ⟨fid, f, hf, rfl⟩ := h.findings key severity hshown
    refine ⟨fid, f, hf, rfl, get?_highest.mpr ⟨(h.sightings fid severity).mpr ⟨f, hf, hshown⟩, fun s' hs' => ?_⟩⟩
    obtain ⟨f', hf', hshown'⟩ := (h.sightings fid s').mp hs'
    rw [hf] at hf'
    cases hf'
    exact hle s' hshown'

/-- What the controller counts is there. -/
theorem Stored.finding (h : Stored raw policy db rid) {fid : Nat} {severity : Severity}
    (hmem : (fid, severity) ∈ highest (presentSightings db rid .policy)) :
    Dict.get? (highest (presentSightings db rid .policy)) fid = some severity ∧ ∃ f, db.findings.get? fid = some f := by
  have hget := Dict.get?_of_mem (nodup_highest _) hmem
  obtain ⟨f, hf, -⟩ := (h.sightings fid severity).mp (get?_highest.mp hget).1
  exact ⟨hget, f, hf⟩

/-- Gates that see the same findings count alike. -/
theorem Stored.counts_eq (h : Stored raw policy db rid)
    (hfindings : ∀ key severity, (∃ nf ∈ normalize policy.vulns [], nf.dedupeKey = key ∧ nf.severity = severity) ↔
      ∃ fid f, db.findings.get? fid = some f ∧ f.dedupeKey = key ∧
        Dict.get? (highest (presentSightings db rid .policy)) fid = some severity) (s : Severity) :
    (Dict.get? (policyCounts policy) s.value).getD 0 = (Dict.get? (policyCountsBySeverity db rid) s.value).getD 0 := by
  let seen := (normalize policy.vulns []).map fun nf => (some nf.dedupeKey, nf.severity)
  let stored := (highest (presentSightings db rid .policy)).map fun row =>
    ((db.findings.get? row.1).map Finding.dedupeKey, row.2)
  have hseen : seen.Nodup := by
    refine List.Nodup.of_map Prod.fst ?_
    rw [List.map_map]
    show ((normalize policy.vulns []).map (some ∘ NormalizedFinding.dedupeKey)).Nodup
    rw [← List.map_map]
    exact (nodup_normalize _ _).map (Option.some_injective _)
  have hstored : stored.Nodup := by
    refine List.Nodup.map_on ?_ (List.Nodup.of_map Prod.fst (nodup_highest _))
    rintro ⟨i, si⟩ hi ⟨j, sj⟩ hj heq
    obtain ⟨-, f, hf⟩ := h.finding hi
    obtain ⟨-, g, hg⟩ := h.finding hj
    simp only [hf, hg, Option.map_some, Prod.mk.injEq, Option.some.injEq] at heq
    rw [h.unique i j f g hf hg heq.1, heq.2]
  have hperm : seen.Perm stored := by
    refine (List.perm_ext_iff_of_nodup hseen hstored).mpr ?_
    rintro ⟨key, severity⟩
    constructor
    · intro hmem
      obtain ⟨nf, hnf, heq⟩ := List.mem_map.mp hmem
      cases heq
      obtain ⟨fid, f, hf, hkey, hget⟩ := (hfindings _ _).mp ⟨nf, hnf, rfl, rfl⟩
      exact List.mem_map.mpr ⟨(fid, nf.severity), Dict.mem_of_get? hget, by simp [hf, hkey]⟩
    · intro hmem
      obtain ⟨⟨fid, s'⟩, hrow, heq⟩ := List.mem_map.mp hmem
      obtain ⟨hget, f, hf⟩ := h.finding hrow
      simp only [hf, Option.map_some, Prod.mk.injEq] at heq
      obtain ⟨rfl, rfl⟩ := heq
      obtain ⟨nf, hnf, hkey, hsev⟩ := (hfindings _ _).mpr ⟨fid, f, hf, rfl, hget⟩
      exact List.mem_map.mpr ⟨nf, hnf, by rw [hkey, hsev]⟩
  have hcount := (hperm.map Prod.snd).count_eq s
  rw [List.map_map, List.map_map] at hcount
  rw [count_policyCounts, policyCountsBySeverity, count_countsBySeverity]
  exact hcount

theorem gateVerdict_congr (mode : GateMode) {counts counts' : List (String × Nat)}
    (h : ∀ s : Severity, (Dict.get? counts s.value).getD 0 = (Dict.get? counts' s.value).getD 0) :
    gateVerdict mode counts = gateVerdict mode counts' := by
  unfold gateVerdict
  rw [h, h]

/-- The gates agree if they see the same findings. -/
theorem Stored.agree_iff (h : Stored raw policy db rid) (hmode : policy.mode = .policy) (mode : GateMode) :
    GatesAgree mode policy db rid ↔ ∀ key severity, Greatest severity (vulnsOf key policy.vulns) ↔
      Shown raw policy key severity ∧ ∀ s', Shown raw policy key s' → s'.rank ≤ severity.rank := by
  constructor
  · intro hagree key severity
    rw [← mem_normalize_vulns, hagree.findings, h.mem_highest]
  · intro hsame
    have hfindings : ∀ key severity, _ := fun key severity =>
      (mem_normalize_vulns.trans (hsame key severity)).trans h.mem_highest.symm
    have hcounts := h.counts_eq hfindings
    exact ⟨hfindings, _, if_neg (not_not_intro hmode), gateVerdict_congr mode hcounts, hcounts⟩

theorem severity_rank_le (s : Severity) : s.rank ≤ 4 := by
  cases s <;> decide

/-- Of what is shown of a finding, something is the highest. -/
theorem exists_highest_shown {key : String} {severity : Severity} (h : Shown raw policy key severity) :
    ∃ s, Shown raw policy key s ∧ ∀ s', Shown raw policy key s' → s'.rank ≤ s.rank := by
  obtain ⟨s, hs, hmin⟩ := (measure fun s : Severity => 4 - s.rank).wf.has_min {s | Shown raw policy key s} ⟨severity, h⟩
  refine ⟨s, hs, fun s' hs' => ?_⟩
  have hle : ¬ 4 - s'.rank < 4 - s.rank := hmin s' hs'
  have hs4 := severity_rank_le s
  have hs4' := severity_rank_le s'
  omega

/-- A policy record of a key that the policy scan has a vulnerability of is of a vulnerability. -/
theorem mem_vulnsOf {key : String} {rv : RawVuln} (hrv : rv.dedupeKey = key) {r : ScanRecord}
    (hr : r ∈ ofKey key policy.records) : r ∈ vulnsOf key policy.vulns := by
  rw [ofKey, ScanJobEvidence.records, filter_scanRecords] at hr
  rcases List.mem_append.mp hr with hr | hr
  · exact hr
  · obtain ⟨rc, hrc, -⟩ := List.mem_map.mp hr
    exact absurd (hrv.trans (of_decide_eq_true (List.mem_filter.mp hrc).2).symm) (vuln_ne_config rv rc)

/-- The gates see the same findings exactly when the policy scan is within the raw scan. -/
theorem sees_same_iff : (∀ key severity, Greatest severity (vulnsOf key policy.vulns) ↔
      Shown raw policy key severity ∧ ∀ s', Shown raw policy key s' → s'.rank ≤ severity.rank) ↔
    PolicyWithin raw policy := by
  constructor
  · intro hsame
    refine ⟨fun rc hrc rc' hrc' heq => ?_, fun rv hrv => ?_⟩
    · -- a configuration finding of both is shown, but no vulnerability
      have hmem : rc.toRecord ∈ ofKey rc.dedupeKey policy.records :=
        List.mem_filter.mpr ⟨List.mem_append_right _ (List.mem_map_of_mem hrc), by simp [RawConfigFinding.toRecord]⟩
      obtain ⟨last, hlast⟩ := exists_lastOf ⟨_, hmem, rfl⟩
      have hscanner := (lastOf_mem hlast).2
      have hraw : rc'.toRecord ∈ ofKey rc.dedupeKey raw.records :=
        List.mem_filter.mpr ⟨List.mem_append_right _ (List.mem_map_of_mem hrc'), by
          simp [RawConfigFinding.toRecord, heq]⟩
      have hsc : rc'.toRecord.scanner = last.scanner := rc'.scanner_eq.trans (rc.scanner_eq.symm.trans hscanner.symm)
      obtain ⟨s, hs⟩ := exists_highest_shown ⟨last, hscanner ▸ hlast, ⟨_, hraw, hsc⟩, rfl⟩
      obtain ⟨⟨r, hr, -⟩, -⟩ := (hsame _ s).mpr hs
      obtain ⟨rv, hrv, -⟩ := List.mem_map.mp hr
      exact vuln_ne_config rv rc (of_decide_eq_true (List.mem_filter.mp hrv).2)
    · have hmem {rv' : RawVuln} (hrv' : rv' ∈ policy.vulns) (hkey : rv'.dedupeKey = rv.dedupeKey) :
          rv'.toRecord ∈ vulnsOf rv.dedupeKey policy.vulns :=
        List.mem_map_of_mem (List.mem_filter.mpr ⟨hrv', by simpa using hkey⟩)
      obtain ⟨nf, hnf, hnfkey⟩ := List.mem_map.mp ((@keys_normalize policy.vulns [] rv.dedupeKey).mpr
        (List.mem_map.mpr ⟨rv.toRecord, List.mem_append_left _ (List.mem_map_of_mem hrv), rfl⟩))
      have hgreatest := mem_normalize_vulns.mp ⟨nf, hnf, hnfkey, rfl⟩
      obtain ⟨⟨last, hlast, hrep, hsev⟩, -⟩ := (hsame _ _).mp hgreatest
      exact ⟨last, hlast, hrep, fun rv' hrv' hkey => hsev ▸ hgreatest.2 _ (hmem hrv' hkey)⟩
  · intro hwithin key severity
    -- of a vulnerability, the record that is last is of the greatest severity
    have hforward {s : Severity} (h : Greatest s (vulnsOf key policy.vulns)) :
        Shown raw policy key s ∧ ∀ s', Shown raw policy key s' → s'.rank ≤ s.rank := by
      obtain ⟨⟨r, hr, hrs⟩, hle⟩ := h
      obtain ⟨rv, hrv, rfl⟩ := List.mem_map.mp hr
      obtain ⟨hrv, hkey⟩ := List.mem_filter.mp hrv
      have hkey : rv.dedupeKey = key := of_decide_eq_true hkey
      obtain ⟨last, hlast, hrep, hgreatest⟩ := hwithin.vulns rv hrv
      rw [hkey] at hlast hrep
      have hlast_le := hle last (mem_vulnsOf hkey (lastOf_mem hlast).1)
      have hle_last : rv.severity.rank ≤ last.severity.rank := hgreatest rv hrv rfl
      have heq : last.severity = s := rank_injective (Nat.le_antisymm hlast_le (hrs ▸ hle_last))
      refine ⟨⟨last, hlast, hrep, heq⟩, ?_⟩
      rintro s' ⟨last', hlast', -, rfl⟩
      exact hle last' (mem_vulnsOf hkey (lastOf_mem hlast').1)
    refine ⟨hforward, ?_⟩
    rintro ⟨hshown, hmax⟩
    obtain ⟨last, hlast, ⟨r, hr, hscanner⟩, hsev⟩ := hshown
    have hmem := (lastOf_mem hlast).1
    rw [ofKey, ScanJobEvidence.records, filter_scanRecords] at hmem hr
    rcases List.mem_append.mp hmem with hmem | hmem
    · obtain ⟨rv, hrv, hrvlast⟩ := List.mem_map.mp hmem
      obtain ⟨hrv, hkey⟩ := List.mem_filter.mp hrv
      have hkey : rv.dedupeKey = key := of_decide_eq_true hkey
      obtain ⟨nf, hnf, hnfkey⟩ := List.mem_map.mp ((@keys_normalize policy.vulns [] key).mpr
        (List.mem_map.mpr ⟨rv.toRecord, List.mem_append_left _ (List.mem_map_of_mem hrv), hkey⟩))
      have hgreatest := mem_normalize_vulns.mp ⟨nf, hnf, hnfkey, rfl⟩
      obtain ⟨hshown', hmax'⟩ := hforward hgreatest
      have heq : nf.severity = severity := rank_injective (Nat.le_antisymm (hmax _ hshown')
        (hmax' _ ⟨last, hlast, ⟨r, by rw [ofKey, ScanJobEvidence.records, filter_scanRecords]; exact hr, hscanner⟩,
        hsev⟩))
      exact heq ▸ hgreatest
    · obtain ⟨rc, hrc, -⟩ := List.mem_map.mp hmem
      obtain ⟨hrc, hkey⟩ := List.mem_filter.mp hrc
      rcases List.mem_append.mp hr with hr | hr
      · obtain ⟨rv, hrv, -⟩ := List.mem_map.mp hr
        exact absurd ((of_decide_eq_true (List.mem_filter.mp hrv).2 : rv.dedupeKey = key).trans
          (of_decide_eq_true hkey : rc.dedupeKey = key).symm) (vuln_ne_config rv rc)
      · obtain ⟨rc', hrc', -⟩ := List.mem_map.mp hr
        obtain ⟨hrc', hkey'⟩ := List.mem_filter.mp hrc'
        exact absurd ((of_decide_eq_true hkey : rc.dedupeKey = key).trans
          (of_decide_eq_true hkey' : rc'.dedupeKey = key).symm) (hwithin.configs rc hrc rc' hrc')

end Agreement

theorem checkJobs_policy {meta_ : RunMeta} {jobs : List ScanJobEvidence} {scans : RunScans} {policy : ScanJobEvidence}
    (h : checkJobs meta_ jobs = .ok scans) (hpolicy : scans.policy = some policy) : policy.mode = .policy := by
  unfold checkJobs at h
  dsimp only at h
  split at h
  · repeat' split at h
    all_goals cases h
    have hmem := List.mem_of_mem_head? hpolicy
    exact eq_of_beq (List.mem_filter.mp hmem).2
  · cases h

/-- **Two gates**: whatever the mode, the gate of the workflow and the gate of the controller agree on an ingested run
exactly when its policy scan is within its raw scan. -/
theorem gates_agree_iff {c : Controller} {s : Sys} {meta_ : RunMeta} {jobs : List ScanJobEvidence}
    {upperBounds : List (String × String)} {now : DateTime} {db' : Db} {result : IngestResult} {scans : RunScans}
    {policy : ScanJobEvidence} (hreach : Reachable c s)
    (h : ingestRun c.ext s.db meta_ jobs upperBounds now = .ok (db', result)) (hcreated : result.created = true)
    (hcheck : checkJobs meta_ jobs = .ok scans) (hpolicy : scans.policy = some policy) (mode : GateMode) :
    GatesAgree mode policy db' result.scanRunId ↔ PolicyWithin scans.raw policy := by
  have hstored := ingestRun_stored (keysUnique_reachable hreach) hreach.sightingsOfRuns h hcreated hcheck hpolicy
  rw [hstored.agree_iff (checkJobs_policy hcheck hpolicy), sees_same_iff]

def gateRun : RunMeta :=
  { externalRunId := "1", trigger := .push, sourceRepo := forkRepo, sourceBranch := remediationBranch,
    sourceSha := "sha-1"
    platform := "linux/amd64", leanDigest := some "sha256:0", finishedAt := some 10 }

/-- The policy scan of an image that reports what its raw scan does. -/
def policyOf (scan : ScanJobEvidence) : ScanJobEvidence := { scan with mode := .policy }

/-- A vulnerability that both scanners report in both scans. -/
theorem pair_gates_agree : ∃ db' result,
    ingestRun sampleExternal .empty gateRun [sampleScan (samplePair "CVE-1" "openssl" "1"),
      policyOf (sampleScan (samplePair "CVE-1" "openssl" "1"))] [] 10 = .ok (db', result) ∧
    GatesAgree .enforce (policyOf (sampleScan (samplePair "CVE-1" "openssl" "1"))) db' result.scanRunId := by
  have hok : (ingestRun sampleExternal .empty gateRun [sampleScan (samplePair "CVE-1" "openssl" "1"),
      policyOf (sampleScan (samplePair "CVE-1" "openssl" "1"))] [] 10).toOption.any (fun r => r.2.created) = true := by
    decide +kernel
  obtain ⟨⟨db', result⟩, hrun, hcreated⟩ := Fallible.exists_ok_of_any hok
  refine ⟨db', result, hrun, (gates_agree_iff (s := Sys.initial) (c := sampleController)
    (Machine.Reachable.refl _) hrun hcreated rfl rfl .enforce).mpr ⟨fun rc hrc => absurd hrc List.not_mem_nil, ?_⟩⟩
  intro rv hrv
  have hkey : rv.dedupeKey = (sampleVuln .grype "CVE-1" "openssl" "1").dedupeKey ∧ rv.severity = .high := by
    have hall : ∀ rv ∈ (policyOf (sampleScan (samplePair "CVE-1" "openssl" "1"))).vulns,
        rv.dedupeKey = (sampleVuln .grype "CVE-1" "openssl" "1").dedupeKey ∧ rv.severity = .high := by decide +kernel
    exact hall rv hrv
  rw [hkey.1]
  refine ⟨(sampleVuln .grype "CVE-1" "openssl" "1").toRecord, by decide +kernel, by decide +kernel, ?_⟩
  decide +kernel

/-- A configuration finding of high severity in both scans: the workflow's gate passes, the controller's does not. -/
theorem config_gates_disagree :
    ¬ ∀ (meta_ : RunMeta) (raw policy : ScanJobEvidence) (db' : Db) (result : IngestResult) (mode : GateMode),
      checkJobs meta_ [raw, policy] = .ok ⟨raw, some policy, [raw, policy], []⟩ →
      ingestRun sampleExternal .empty meta_ [raw, policy] [] 10 = .ok (db', result) → result.created = true →
        (gateJob policy mode).toOption.map GateResult.verdict = some (runGate mode db' result.scanRunId) := by
  intro hall
  have hok :
      (ingestRun sampleExternal .empty gateRun [dockerScan ["Dockerfile"], policyOf (dockerScan ["Dockerfile"])] []
      10).toOption.any (fun r => r.2.created &&
        ((gateJob (policyOf (dockerScan ["Dockerfile"])) .enforce).toOption.map GateResult.verdict !=
          some (runGate .enforce r.1 r.2.scanRunId))) = true := by decide +kernel
  obtain ⟨⟨db', result⟩, hrun, hdiffer⟩ := Fallible.exists_ok_of_any hok
  obtain ⟨hcreated, hdiffer⟩ := Bool.and_eq_true_iff.mp hdiffer
  exact absurd (hall gateRun _ _ db' result .enforce rfl hrun hcreated) (by simpa using hdiffer)

end HardeningLoop
