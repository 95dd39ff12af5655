import HardeningLoop.Ingest.Acceptance
import HardeningLoop.Lib.Fallible
import Mathlib.Data.List.MinMax

/-!
# Scans in any order

Scans finish in one order and are ingested in another. What a finding shows of the scans that reported it:

- `findingOf_ingestRun`: what the ingestion of one scan does to the finding of a key;
- `Shows`: the finding as the scans that reported it, in the order of their ingestion, leave it. The last to finish
  describes it, the first to finish is its first, and the first to be ingested opened it;
- `current_view`: the description does not depend on the order;
- `provenance_iff`: the opening provenance does.
-/

namespace HardeningLoop

open Fallible Rows

/-! ## Keys -/

/-- The findings of a normalization are under their keys, one under each. -/
def Keyed (merged : Merged) : Prop := (merged.map Prod.fst).Nodup ∧ ∀ kv ∈ merged, kv.2.dedupeKey = kv.1

theorem Keyed.set {merged : Merged} (h : Keyed merged) {key : String} {nf : NormalizedFinding}
    (hkey : nf.dedupeKey = key) :
    Keyed (Dict.set merged key nf) := by
  refine ⟨Dict.nodup_keys_set h.1 _ _, fun kv hkv => ?_⟩
  rcases Dict.mem_set hkv with hkv | rfl
  · exact h.2 kv hkv
  · exact hkey

/-- What is merged under a key has the key. -/
theorem Keyed.getD {merged : Merged} (h : Keyed merged) {key : String} {nf : NormalizedFinding}
    (hkey : nf.dedupeKey = key) : ((Dict.get? merged key).getD nf).dedupeKey = key := by
  cases hk : Dict.get? merged key with
  | none => exact hkey
  | some nf' => exact h.2 _ (Dict.mem_of_get? hk)

theorem Keyed.mergeVuln {merged : Merged} (h : Keyed merged) (rv : RawVuln) : Keyed (mergeVuln merged rv) :=
  h.set (h.getD rfl)

theorem Keyed.mergeConfig {merged : Merged} (h : Keyed merged) (rc : RawConfigFinding) :
    Keyed (mergeConfig merged rc) :=
  h.set (h.getD rfl)

/-- A normalization has one finding for each key. -/
theorem normalize_keys_nodup (vulns : List RawVuln) (configs : List RawConfigFinding) :
    ((normalize vulns configs).map NormalizedFinding.dedupeKey).Nodup := by
  have hnil : Keyed [] := ⟨List.nodup_nil, fun _ h => absurd h List.not_mem_nil⟩
  have hv : Keyed (vulns.foldl HardeningLoop.mergeVuln []) :=
    Rows.foldl_invariant Keyed (fun _ rv _ h => h.mergeVuln rv) hnil
  have hc : Keyed (configs.foldl HardeningLoop.mergeConfig (vulns.foldl HardeningLoop.mergeVuln [])) :=
    Rows.foldl_invariant Keyed (fun _ rc _ h => h.mergeConfig rc) hv
  have hkeys : (configs.foldl HardeningLoop.mergeConfig (vulns.foldl HardeningLoop.mergeVuln [])).map
      (NormalizedFinding.dedupeKey ∘ Prod.snd) =
      (configs.foldl HardeningLoop.mergeConfig (vulns.foldl HardeningLoop.mergeVuln [])).map Prod.fst :=
    List.map_congr_left fun kv hkv => hc.2 kv hkv
  unfold normalize
  rw [((List.perm_insertionSort _ _).map _).nodup_iff, Dict.values, List.map_map, hkeys]
  exact hc.1

/-! ## One scan -/

/-- The finding of a key. -/
def Db.findingOf (db : Db) (key : String) : Option Finding :=
  (db.findings.first fun f => f.dedupeKey == key).bind db.findings.get?

theorem reportAgain_dedupeKey (db : Db) (rid : Nat) (run : ScanRun) (raw : ScanJobEvidence) (nf : NormalizedFinding)
    (cls : Classification) (ts : DateTime) (f : Finding) :
    (Finding.reportAgain db rid run raw nf cls ts f).dedupeKey = f.dedupeKey := by
  unfold Finding.reportAgain
  dsimp only
  repeat' split
  all_goals rfl

/-- Whether a run finished before another depends on the runs only. -/
theorem reportAgain_congr {db db' : Db} (h : db'.scanRuns = db.scanRuns) (rid : Nat) (run : ScanRun)
    (raw : ScanJobEvidence) (nf : NormalizedFinding) (cls : Classification) (ts : DateTime) :
    Finding.reportAgain db' rid run raw nf cls ts = Finding.reportAgain db rid run raw nf cls ts := by
  have hbefore : finishedBefore db' rid run = finishedBefore db rid run := by
    funext other
    unfold finishedBefore
    rw [h]
  funext f
  unfold Finding.reportAgain
  rw [hbefore]

section Upsert

variable {db db' : Db} {rid fid : Nat} {run : ScanRun} {raw : ScanJobEvidence} {nf : NormalizedFinding}
  {cls : Classification} {ts : DateTime} {isNew : Bool}

/-- A scan's report of a finding, as it leaves the finding of a key. -/
theorem findingOf_upsertFinding (h : upsertFinding db rid run raw nf cls ts = (db', fid, isNew)) (key : String) :
    db'.findingOf key = if nf.dedupeKey = key then
        some ((db.findingOf key).elim ((newFinding rid raw nf ts).refresh rid raw nf cls ts)
          (Finding.reportAgain db rid run raw nf cls ts))
      else db.findingOf key := by
  unfold upsertFinding at h
  cases hfirst : db.findings.first fun f => f.dedupeKey == nf.dedupeKey with
  | none =>
    simp only [hfirst, Prod.mk.injEq] at h
    obtain ⟨rfl, -, -⟩ := h
    simp only [Db.findingOf, Table.first_insert]
    by_cases hkey : nf.dedupeKey = key
    · subst hkey
      rw [hfirst, if_pos rfl]
      simp [newFinding, Finding.refresh]
    · have hnew : ((newFinding rid raw nf ts).refresh rid raw nf cls ts).dedupeKey ≠ key := hkey
      rw [if_neg hkey]
      simp only [beq_eq_false_iff_ne.mpr hnew, Bool.false_eq_true, if_false, Option.or_none]
      cases hold : db.findings.first fun f => f.dedupeKey == key with
      | none => rfl
      | some i =>
        obtain ⟨f, hf, -⟩ := Table.first_eq_some hold
        simp [hf, Table.get?_insert_of_some]
  | some i =>
    simp only [hfirst, Prod.mk.injEq] at h
    obtain ⟨rfl, -, -⟩ := h
    have hkeep (k : String) : (db.findings.modify i (Finding.reportAgain db rid run raw nf cls ts)).first
        (fun f => f.dedupeKey == k) = db.findings.first fun f => f.dedupeKey == k :=
      Table.first_modify i fun f => by rw [reportAgain_dedupeKey]
    obtain ⟨f, hf, hfkey⟩ := Table.first_eq_some hfirst
    simp only [Db.findingOf, hkeep]
    by_cases hkey : nf.dedupeKey = key
    · subst hkey
      simp [hfirst, hf]
    · rw [if_neg hkey]
      cases hold : db.findings.first fun f => f.dedupeKey == key with
      | none => rfl
      | some j =>
        obtain ⟨g, hg, hgkey⟩ := Table.first_eq_some hold
        have hne : j ≠ i := by
          rintro rfl
          rw [hf] at hg
          cases hg
          exact hkey ((eq_of_beq hfkey).symm.trans (eq_of_beq hgkey))
        simp [Table.get?_modify_of_ne _ hne]

theorem upsertFinding_scanRuns (h : upsertFinding db rid run raw nf cls ts = (db', fid, isNew)) :
    db'.scanRuns = db.scanRuns := by
  unfold upsertFinding at h
  cases hfirst : db.findings.first fun f => f.dedupeKey == nf.dedupeKey <;>
  · simp only [hfirst, Prod.mk.injEq] at h
    obtain ⟨rfl, -, -⟩ := h
    rfl

end Upsert

section Ingest

variable {ext : External} {rid : Nat} {run : ScanRun} {raw : ScanJobEvidence} {policy : Option (List NormalizedFinding)}
  {ctx : ClassificationContext} {ts : DateTime}

/-- One normalized finding, as it leaves the finding of a key and the runs. -/
theorem findingOf_ingestFinding (acc : Ingest) (nf : NormalizedFinding) (key : String) :
    (ingestFinding ext rid run raw policy ctx ts acc nf).1.scanRuns = acc.1.scanRuns ∧
      (ingestFinding ext rid run raw policy ctx ts acc nf).1.findingOf key = if nf.dedupeKey = key then
        some ((acc.1.findingOf key).elim ((newFinding rid raw nf ts).refresh rid raw nf (classify ext nf ctx) ts)
          (Finding.reportAgain acc.1 rid run raw nf (classify ext nf ctx) ts))
      else acc.1.findingOf key := by
  obtain ⟨⟨db', fid, isNew⟩, hup⟩ : ∃ r, upsertFinding acc.1 rid run raw nf (classify ext nf ctx) ts = r := ⟨_, rfl⟩
  rw [← findingOf_upsertFinding hup key, ← upsertFinding_scanRuns hup]
  unfold ingestFinding
  dsimp only
  rw [hup]
  dsimp only
  split <;> exact ⟨rfl, rfl⟩

/-- The normalized findings of a scan, as they leave the finding of a key: the one with the key, if there is one,
reports it. -/
theorem findingOf_foldl {nfs : List NormalizedFinding} (hnd : (nfs.map NormalizedFinding.dedupeKey).Nodup)
    (key : String) :
    ∀ acc : Ingest, (nfs.foldl (ingestFinding ext rid run raw policy ctx ts) acc).1.scanRuns = acc.1.scanRuns ∧
      (nfs.foldl (ingestFinding ext rid run raw policy ctx ts) acc).1.findingOf key =
        match nfs.find? fun nf => nf.dedupeKey == key with
        | none => acc.1.findingOf key
        | some nf =>
          some ((acc.1.findingOf key).elim ((newFinding rid raw nf ts).refresh rid raw nf (classify ext nf ctx) ts)
            (Finding.reportAgain acc.1 rid run raw nf (classify ext nf ctx) ts)) := by
  induction nfs with
  | nil => exact fun acc => ⟨rfl, rfl⟩
  | cons nf nfs ih =>
    intro acc
    rw [List.map_cons, List.nodup_cons] at hnd
    obtain ⟨hruns, hfinding⟩ := @findingOf_ingestFinding ext rid run raw policy ctx ts acc nf key
    obtain ⟨hruns', hfinding'⟩ := ih hnd.2 (ingestFinding ext rid run raw policy ctx ts acc nf)
    rw [List.foldl_cons]
    refine ⟨hruns'.trans hruns, ?_⟩
    rw [hfinding', hfinding]
    by_cases hkey : nf.dedupeKey = key
    · have hnone : (nfs.find? fun nf => nf.dedupeKey == key) = none := by
        refine List.find?_eq_none.mpr fun nf' hnf' hsame => hnd.1 ?_
        rw [hkey, ← eq_of_beq hsame]
        exact List.mem_map_of_mem hnf'
      simp [hkey, hnone]
    · rw [List.find?_cons_of_neg (by simpa using hkey), if_neg hkey]
      cases nfs.find? fun nf => nf.dedupeKey == key with
      | none => rfl
      | some nf' =>
        dsimp only
        rw [reportAgain_congr hruns]

end Ingest

/-! ## Scans -/

/-- A scan to ingest. -/
structure Scan where
  run : RunMeta
  jobs : List ScanJobEvidence
  upperBounds : List (String × String)

namespace Scan

variable (ext : External) (scan : Scan) (key : String)

/-- The raw scan that findings are opened from. -/
def raw? : Option ScanJobEvidence := (checkJobs scan.run scan.jobs).toOption.map RunScans.raw

/-- The finding of a key that the scan reports, with the raw scan it is from. -/
def report : Option (ScanJobEvidence × NormalizedFinding) := do
  let raw ← scan.raw?
  let nf ← (normalize raw.vulns raw.configs).find? fun nf => nf.dedupeKey == key
  some (raw, nf)

/-- How the scan classifies a finding. -/
def classify (raw : ScanJobEvidence) (nf : NormalizedFinding) : Classification :=
  HardeningLoop.classify ext nf
    { scannerJobSuccess := fun s => raw.succeeded s.value, upperBounds := scan.upperBounds }

/-- The runs are told apart by their external id. -/
def stamp : String × Option DateTime := (scan.run.externalRunId, scan.run.finishedAt)

def finished : DateTime := scan.run.finishedAt.getD 0

end Scan

/-- What a scan rewrites of a finding: all but its identity, its runs, its dates, its opening and its owner. -/
def Finding.described (f : Finding) : Finding :=
  { f with vulnId := "", layer := .os, openedByTrivy := false, openedByGrype := false, openingDbBuiltAt := none
           firstSeenRunId := 0, lastSeenRunId := 0, createdAt := 0, updatedAt := 0 }

/-- Where a finding was opened: its detectors and the age of their databases. -/
def Finding.provenance (f : Finding) : Bool × Bool × Option DateTime :=
  (f.openedByTrivy, f.openedByGrype, f.openingDbBuiltAt)

/-- The finding of a key as a scan describes it. -/
def Scan.describe (ext : External) (scan : Scan) (key : String) : Option Finding :=
  (scan.report key).map fun r =>
    ((newFinding 0 r.1 r.2 0).refresh 0 r.1 r.2 (scan.classify ext r.1 r.2) 0).described

/-- The provenance of a finding that a scan opens. -/
def Scan.opens (scan : Scan) (key : String) : Option (Bool × Bool × Option DateTime) :=
  (scan.report key).map fun r =>
    (decide (.trivy ∈ r.2.reportedBy), decide (.grype ∈ r.2.reportedBy), openingDb r.1.tools)

/-- Ingest scans in turn, each at its moment. -/
def ingestScans (ext : External) : Db → List (Scan × DateTime) → Except IngestError Db
  | db, [] => .ok db
  | db, (scan, ts) :: scans =>
    match ingestRun ext db scan.run scan.jobs scan.upperBounds ts with
    | .error e => .error e
    | .ok (db', _) => ingestScans ext db' scans

/-! ## What one scan does -/

theorem Scan.report_dedupeKey {scan : Scan} {key : String} {r : ScanJobEvidence × NormalizedFinding}
    (h : scan.report key = some r) : r.2.dedupeKey = key := by
  simp only [Scan.report, Option.bind_eq_bind, Option.bind_eq_some_iff, Option.some.injEq] at h
  obtain ⟨raw, -, nf, hnf, rfl⟩ := h
  simpa using List.find?_some hnf

/-- The ingestion of a scan whose run is not there: a row for the run, and the findings it reports. -/
theorem findingOf_ingestRun {ext : External} {db db' : Db} {scan : Scan} {ts : DateTime} {result : IngestResult}
    (h : ingestRun ext db scan.run scan.jobs scan.upperBounds ts = .ok (db', result))
    (hnew : ∀ rid r, db.scanRuns.get? rid = some r → r.externalRunId ≠ scan.run.externalRunId) :
    ∃ run : ScanRun, (run.externalRunId, run.finishedAt) = scan.stamp ∧ db'.scanRuns = db.scanRuns.insert run ∧
      ∀ key, db'.findingOf key = match scan.report key with
        | none => db.findingOf key
        | some (raw, nf) => some ((db.findingOf key).elim
            ((newFinding db.scanRuns.nextId raw nf ts).refresh db.scanRuns.nextId raw nf (scan.classify ext raw nf) ts)
            (Finding.reportAgain db' db.scanRuns.nextId run raw nf (scan.classify ext raw nf) ts)) := by
  unfold ingestRun at h
  have hnone : (db.scanRuns.first fun r => r.externalRunId == scan.run.externalRunId) = none := by
    cases hfirst : db.scanRuns.first fun r => r.externalRunId == scan.run.externalRunId with
    | none => rfl
    | some rid =>
      obtain ⟨r, hr, hsame⟩ := Table.first_eq_some hfirst
      exact absurd (eq_of_beq hsame) (hnew rid r hr)
  rw [hnone] at h
  cases hcheck : checkJobs scan.run scan.jobs with
  | error e => simp [hcheck] at h
  | ok scans =>
    simp only [hcheck] at h
    split at h
    · simp only [Except.ok.injEq, Prod.mk.injEq] at h
      obtain ⟨rfl, -⟩ := h
      refine ⟨runRow scan.run scan.jobs scans ts, rfl, ?_⟩
      set policy := scans.policy.map fun p => normalize p.vulns p.configs
      have hfold (key : String) :=
        @findingOf_foldl ext db.scanRuns.nextId (runRow scan.run scan.jobs scans ts) scans.raw
        policy (scans.context scan.upperBounds) ts
        (normalize scans.raw.vulns scans.raw.configs) (normalize_keys_nodup _ _) key
        ({ db with scanRuns := db.scanRuns.insert (runRow scan.run scan.jobs scans ts)
                   scanJobs := ⟨db.scanJobs.rows ++ runJobRows db.scanRuns.nextId scan.run scans⟩ },
          { scanRunId := db.scanRuns.nextId, created := true })
      refine ⟨(hfold "").1, fun key => ?_⟩
      have hreport : scan.report key = ((normalize scans.raw.vulns scans.raw.configs).find?
          fun nf => nf.dedupeKey == key).map fun nf => (scans.raw, nf) := by
        unfold Scan.report Scan.raw?
        rw [hcheck]
        cases hfind : (normalize scans.raw.vulns scans.raw.configs).find? fun nf => nf.dedupeKey == key <;>
          simp [hfind, Except.toOption]
      have hfinding := (hfold key).2
      rw [hreport]
      refine Eq.trans hfinding ?_
      cases (normalize scans.raw.vulns scans.raw.configs).find? fun nf => nf.dedupeKey == key with
      | none => rfl
      | some nf =>
        refine congrArg some ?_
        dsimp only [Option.map_some]
        rw [reportAgain_congr (hfold key).1.symm]
        rfl
    · cases h

/-! ## What a finding shows -/

/-- The stamp of a run on record. -/
def Db.stampOf (db : Db) (rid : Nat) : Option (String × Option DateTime) :=
  (db.scanRuns.get? rid).map fun r => (r.externalRunId, r.finishedAt)

/-- The finding of `key` shows the scans that reported it, in the order of their ingestion. -/
structure Shows (ext : External) (db : Db) (key : String) (scans : List Scan) (f : Finding) : Prop where
  last : ∃ s, scans.argmax Scan.finished = some s ∧ some f.described = s.describe ext key ∧
    db.stampOf f.lastSeenRunId = some s.stamp
  first : ∃ s, scans.argmin Scan.finished = some s ∧ db.stampOf f.firstSeenRunId = some s.stamp
  opener : ∃ s, scans.head? = some s ∧ some f.provenance = s.opens key

section Shows

variable {ext : External} {db db' : Db} {key : String} {scans : List Scan} {scan : Scan} {f : Finding} {rid : Nat}
  {run : ScanRun} {raw : ScanJobEvidence} {nf : NormalizedFinding} {cls : Classification} {ts : DateTime}

theorem reportedState_fresh {s : FindingState} {kind : Option Kind} (h : s = .«open» ∨ s = .unclassified) :
    reportedState s kind = reportedState .«open» kind := by
  rcases h with rfl | rfl <;> cases kind <;> rfl

/-- A finding that only scans have written is described anew by the next one. -/
theorem refresh_described (hkey : nf.dedupeKey = key)
    (hf : ∃ s : Scan, some f.described = s.describe ext key) :
    (f.refresh rid raw nf cls ts).described = ((newFinding 0 raw nf 0).refresh 0 raw nf cls 0).described := by
  obtain ⟨s, hs⟩ := hf
  obtain ⟨r, hr, hdescribed⟩ := Option.map_eq_some_iff.mp hs.symm
  have hkey' : f.dedupeKey = r.2.dedupeKey := congrArg Finding.dedupeKey hdescribed.symm
  have howner : f.workItemId = none := congrArg Finding.workItemId hdescribed.symm
  have hcloser : f.closedByRunId = none := congrArg Finding.closedByRunId hdescribed.symm
  have hstate : f.state = reportedState .«open» (s.classify ext r.1 r.2).kind :=
    congrArg Finding.state hdescribed.symm
  have hfresh : f.state = .«open» ∨ f.state = .unclassified := by
    rw [hstate]
    cases (s.classify ext r.1 r.2).kind
    · exact Or.inr rfl
    · exact Or.inl rfl
  rw [Scan.report_dedupeKey hr, ← hkey] at hkey'
  simp [Finding.described, Finding.refresh, newFinding, hkey', howner, hcloser, reportedState_fresh hfresh]

/-- Whether the run of a new scan finished before a run on record. -/
theorem finishedBefore_eq {other : Nat} {s : Scan} (hrun : (run.externalRunId, run.finishedAt) = scan.stamp)
    (hother : db.stampOf other = some s.stamp) (hruns : db'.scanRuns = db.scanRuns.insert run)
    (hfinished : scan.run.finishedAt.isSome ∧ s.run.finishedAt.isSome) :
    finishedBefore db' db.scanRuns.nextId run other = decide (scan.finished < s.finished) := by
  obtain ⟨r, hr, hstamp⟩ := Option.map_eq_some_iff.mp hother
  have hne : other ≠ db.scanRuns.nextId := by
    rintro rfl
    rw [Table.get?_nextId] at hr
    cases hr
  obtain ⟨t, ht⟩ := Option.isSome_iff_exists.mp hfinished.1
  obtain ⟨t', ht'⟩ := Option.isSome_iff_exists.mp hfinished.2
  have hrunAt : run.finishedAt = some t := (congrArg Prod.snd hrun).trans ht
  have hotherAt : r.finishedAt = some t' := (congrArg Prod.snd hstamp).trans ht'
  unfold finishedBefore
  rw [hruns, Table.get?_insert_of_some _ hr, Option.bind_some, hrunAt, hotherAt]
  simp [hne, Scan.finished, ht, ht']

/-- A stamp stays when a run is added. -/
theorem stampOf_insert (hruns : db'.scanRuns = db.scanRuns.insert run) {other : Nat} {v : String × Option DateTime}
    (h : db.stampOf other = some v) : db'.stampOf other = some v := by
  obtain ⟨r, hr, rfl⟩ := Option.map_eq_some_iff.mp h
  unfold Db.stampOf
  rw [hruns, Table.get?_insert_of_some _ hr]
  rfl

theorem Shows.insert (h : Shows ext db key scans f) (hruns : db'.scanRuns = db.scanRuns.insert run) :
    Shows ext db' key scans f := by
  obtain ⟨⟨last, hlast, hdescribed, hstamp⟩, ⟨first, hfirst, hstamp'⟩, hopener⟩ := h
  exact ⟨⟨last, hlast, hdescribed, stampOf_insert hruns hstamp⟩, ⟨first, hfirst, stampOf_insert hruns hstamp'⟩, hopener⟩

/-- The scan that opens a finding. -/
theorem shows_new (hreport : scan.report key = some (raw, nf)) (hrun : (run.externalRunId, run.finishedAt) = scan.stamp)
    (hruns : db'.scanRuns = db.scanRuns.insert run) :
    Shows ext db' key [scan]
      ((newFinding db.scanRuns.nextId raw nf ts).refresh db.scanRuns.nextId raw nf (scan.classify ext raw nf) ts) := by
  have hstamp : db'.stampOf db.scanRuns.nextId = some scan.stamp := by
    unfold Db.stampOf
    rw [hruns, Table.get?_insert_self, Option.map_some, hrun]
  refine ⟨⟨scan, rfl, ?_, hstamp⟩, ⟨scan, rfl, hstamp⟩, ⟨scan, rfl, ?_⟩⟩
  · rw [Scan.describe, hreport]
    rfl
  · rw [Scan.opens, hreport]
    rfl

/-- A scan that reports a finding again: it describes it unless it finished before the last one, and is its first if it
finished before the first one. -/
theorem Shows.report (h : Shows ext db key scans f) (hreport : scan.report key = some (raw, nf))
    (hrun : (run.externalRunId, run.finishedAt) = scan.stamp) (hruns : db'.scanRuns = db.scanRuns.insert run)
    (hfinished : scan.run.finishedAt.isSome ∧ ∀ s ∈ scans, s.run.finishedAt.isSome)
    (hne : ∀ s ∈ scans, s.finished ≠ scan.finished) :
    Shows ext db' key (scans ++ [scan])
      (Finding.reportAgain db' db.scanRuns.nextId run raw nf (scan.classify ext raw nf) ts f) := by
  obtain ⟨⟨last, hlast, hdescribed, hstamp⟩, ⟨first, hfirst, hstamp'⟩, ⟨opener, hopener, hprovenance⟩⟩ := h
  have hlastMem : last ∈ scans := List.argmax_mem hlast
  have hfirstMem : first ∈ scans := List.argmin_mem hfirst
  have hnew : db'.stampOf db.scanRuns.nextId = some scan.stamp := by
    unfold Db.stampOf
    rw [hruns, Table.get?_insert_self, Option.map_some, hrun]
  have hbeforeFirst := finishedBefore_eq hrun hstamp' hruns ⟨hfinished.1, hfinished.2 first hfirstMem⟩
  have hbeforeLast := finishedBefore_eq hrun hstamp hruns ⟨hfinished.1, hfinished.2 last hlastMem⟩
  have hmin := List.argmin_concat Scan.finished scan scans
  have hmax := List.argmax_concat Scan.finished scan scans
  rw [hfirst] at hmin
  rw [hlast] at hmax
  dsimp only at hmin hmax
  have hhead : (scans ++ [scan]).head? = some opener := by
    rw [List.head?_append, hopener]
    rfl
  unfold Finding.reportAgain
  rw [hbeforeFirst]
  dsimp only
  -- whichever run is first, the rest of the finding is as before
  obtain ⟨g, hg, hgdescribed, hglast, hgfirst, hgprovenance⟩ : ∃ g : Finding,
      (if decide (scan.finished < first.finished) = true then { f with firstSeenRunId := db.scanRuns.nextId } else
      f) = g ∧
        g.described = f.described ∧ g.lastSeenRunId = f.lastSeenRunId ∧
        (∃ s, (scans ++ [scan]).argmin Scan.finished = some s ∧ db'.stampOf g.firstSeenRunId = some s.stamp) ∧
        g.provenance = f.provenance := by
    refine ⟨_, rfl, ?_⟩
    by_cases hlt : scan.finished < first.finished
    · rw [if_pos hlt] at hmin
      rw [if_pos (decide_eq_true hlt)]
      exact ⟨rfl, rfl, ⟨scan, hmin, hnew⟩, rfl⟩
    · rw [if_neg hlt] at hmin
      rw [if_neg (by simpa using hlt)]
      exact ⟨rfl, rfl, ⟨first, hmin, stampOf_insert hruns hstamp'⟩, rfl⟩
  rw [hg, hglast, hbeforeLast]
  by_cases hlt : scan.finished < last.finished
  · rw [if_neg (not_lt.mpr hlt.le)] at hmax
    rw [if_pos (decide_eq_true hlt)]
    refine ⟨⟨last, hmax, by rw [hgdescribed]; exact hdescribed, ?_⟩, hgfirst,
      ⟨opener, hhead, by rw [hgprovenance]; exact hprovenance⟩⟩
    rw [hglast]
    exact stampOf_insert hruns hstamp
  · have hgt : last.finished < scan.finished := lt_of_le_of_ne (not_lt.mp hlt) (hne last hlastMem)
    rw [if_pos hgt] at hmax
    rw [if_neg (by simpa using hlt)]
    refine ⟨⟨scan, hmax, ?_, hnew⟩, ?_, ⟨opener, hhead, ?_⟩⟩
    · rw [refresh_described (Scan.report_dedupeKey hreport) ⟨last, by rw [hgdescribed]; exact hdescribed⟩,
        Scan.describe,
        hreport]
      rfl
    · exact hgfirst
    · exact (congrArg some hgprovenance).trans hprovenance

end Shows

/-! ## Scans in any order -/

/-- A scan of the lean image that reports one package by `scanners` and finished at `finishedAt`. -/
def datedScan (name : String) (finishedAt : DateTime) (severity : Severity) (scanners : List Scanner) : Scan :=
  let vuln (scanner : Scanner) : RawVuln :=
    { scanner := scanner, primaryId := "CVE-1", pkgName := "openssl", pkgVersion := "1", ecosystem := .deb
      layer := .os, layer_eq := rfl, severity := severity, fixedVersions := ["2"], fixState := "fixed" }
  { run := { externalRunId := name, trigger := .push, sourceRepo := forkRepo, sourceBranch := remediationBranch
             sourceSha := "sha-" ++ name, platform := "linux/amd64", leanDigest := none, finishedAt := some finishedAt }
    jobs := [{ mode := .raw, imageRef := "lean", imageTarget := .lean, platform := "linux/amd64",
               layerScope := "all-layers"
               startedAt := ⟨0, "1970-01-01T00:00:00+00:00"⟩, finishedAt := ⟨0, "1970-01-01T00:00:00+00:00"⟩
               tools := { syft := "1.45.1", trivy := "0.71.2", grype := "0.114.0", trivyDbUpdatedAt := none
                          grypeDbBuiltAt := none }
               trivyVulns := (scanners.filter (· = .trivy)).map vuln
               grypeVulns := (scanners.filter (· = .grype)).map vuln }]
    upperBounds := [] }

/-- The key of that package's finding. -/
def datedKey : String := "vuln|CVE-1|deb|openssl|1|os"

/-- The scans that report a finding. -/
def reporters (key : String) (scans : List Scan) : List Scan := scans.filter fun s => (s.report key).isSome

/-- Different runs, which finished at different known times. -/
structure Chronological (scans : List Scan) : Prop where
  finished : ∀ s ∈ scans, s.run.finishedAt.isSome
  distinct : (scans.map Scan.finished).Nodup
  runs : (scans.map fun s => s.run.externalRunId).Nodup

theorem Chronological.perm {scans scans' : List Scan} (h : Chronological scans) (hperm : scans.Perm scans') :
    Chronological scans' :=
  ⟨fun s hs => h.finished s (hperm.mem_iff.mpr hs), (hperm.map _).nodup_iff.mp h.distinct,
    (hperm.map _).nodup_iff.mp h.runs⟩

/-- What the database shows of the scans that were ingested into it. -/
structure Chronicle (ext : External) (db : Db) (scans : List Scan) : Prop where
  runs : ∀ rid r, db.scanRuns.get? rid = some r → ∃ s ∈ scans, r.externalRunId = s.run.externalRunId
  unseen : ∀ key, db.findingOf key = none → reporters key scans = []
  shows : ∀ key f, db.findingOf key = some f → Shows ext db key (reporters key scans) f

section Run

variable {ext : External} {db db' : Db} {scans : List Scan}

theorem Chronicle.empty (ext : External) : Chronicle ext .empty [] := by
  refine ⟨fun rid r hr => ?_, fun _ _ => rfl, fun key f hf => ?_⟩
  · rw [show Db.empty.scanRuns.get? rid = none from Table.get?_empty rid] at hr
    cases hr
  · cases hf

/-- One scan keeps the chronicle. -/
theorem Chronicle.ingest (h : Chronicle ext db scans) {scan : Scan} {ts : DateTime} {result : IngestResult}
    (hstep : ingestRun ext db scan.run scan.jobs scan.upperBounds ts = .ok (db', result))
    (hall : Chronological (scans ++ [scan])) : Chronicle ext db' (scans ++ [scan]) := by
  have hruns := hall.runs
  have hdistinct := hall.distinct
  rw [List.map_append, List.map_singleton, ← List.concat_eq_append, List.nodup_concat] at hruns hdistinct
  have hnew : ∀ rid r, db.scanRuns.get? rid = some r → r.externalRunId ≠ scan.run.externalRunId := by
    intro rid r hr hsame
    obtain ⟨s, hs, hext⟩ := h.runs rid r hr
    exact hruns.1 (List.mem_map.mpr ⟨s, hs, hext.symm.trans hsame⟩)
  obtain ⟨run, hrun, hinsert, hfinding⟩ := findingOf_ingestRun hstep hnew
  have hreporters (key : String) : reporters key (scans ++ [scan]) =
      reporters key scans ++ if (scan.report key).isSome then [scan] else [] := by
    unfold reporters
    rw [List.filter_append]
    by_cases hreport : (scan.report key).isSome <;> simp [hreport]
  refine ⟨fun rid r hr => ?_, fun key hnone => ?_, fun key f hf => ?_⟩
  · rw [hinsert, Table.get?_insert] at hr
    split at hr
    · cases hr
      exact ⟨scan, List.mem_append_right _ List.mem_cons_self, congrArg Prod.fst hrun⟩
    · obtain ⟨s, hs, hext⟩ := h.runs rid r hr
      exact ⟨s, List.mem_append_left _ hs, hext⟩
  · rw [hfinding] at hnone
    rw [hreporters]
    cases hreport : scan.report key with
    | none =>
      rw [hreport] at hnone
      rw [h.unseen key hnone]
      rfl
    | some r =>
      rw [hreport] at hnone
      cases hnone
  · rw [hfinding] at hf
    rw [hreporters]
    cases hreport : scan.report key with
    | none =>
      rw [hreport] at hf
      rw [Option.isSome_none, if_neg Bool.false_ne_true, List.append_nil]
      exact (h.shows key f hf).insert hinsert
    | some r =>
      obtain ⟨raw, nf⟩ := r
      rw [hreport] at hf
      rw [Option.isSome_some, if_pos rfl]
      cases hold : db.findingOf key with
      | none =>
        rw [hold] at hf
        cases hf
        rw [h.unseen key hold]
        exact shows_new hreport hrun hinsert
      | some g =>
        rw [hold] at hf
        cases hf
        have hmem {s : Scan} (hs : s ∈ reporters key scans) : s ∈ scans := (List.mem_filter.mp hs).1
        refine (h.shows key g hold).report hreport hrun hinsert ⟨?_, fun s hs => ?_⟩ fun s hs hsame => ?_
        · exact hall.finished scan (List.mem_append_right _ List.mem_cons_self)
        · exact hall.finished s (List.mem_append_left _ (hmem hs))
        · exact hdistinct.1 (List.mem_map.mpr ⟨s, hmem hs, hsame⟩)

theorem Chronicle.ingestScans (h : Chronicle ext db scans) {rest : List (Scan × DateTime)}
    (hrest : ingestScans ext db rest = .ok db') (hall : Chronological (scans ++ rest.map Prod.fst)) :
    Chronicle ext db' (scans ++ rest.map Prod.fst) := by
  induction rest generalizing db scans with
  | nil =>
    cases hrest
    rw [List.map_nil, List.append_nil]
    exact h
  | cons st rest ih =>
    obtain ⟨scan, ts⟩ := st
    rw [HardeningLoop.ingestScans] at hrest
    split at hrest
    · cases hrest
    · rename_i db'' result hstep
      have hassoc : scans ++ ((scan, ts) :: rest).map Prod.fst = scans ++ [scan] ++ rest.map Prod.fst := by simp
      rw [hassoc] at hall ⊢
      refine ih (h.ingest hstep ?_) hrest hall
      refine ⟨fun s hs => hall.finished s (List.mem_append_left _ hs), ?_, ?_⟩
      · have hdistinct := hall.distinct
        rw [List.map_append] at hdistinct
        exact hdistinct.of_append_left
      · have hruns := hall.runs
        rw [List.map_append] at hruns
        exact hruns.of_append_left

end Run

/-- The current view of a finding: its description and state, and its last and first run. -/
def Db.view (db : Db) (key : String) :
    Option (Finding × Option (String × Option DateTime) × Option (String × Option DateTime)) :=
  (db.findingOf key).map fun f => (f.described, db.stampOf f.lastSeenRunId, db.stampOf f.firstSeenRunId)

/-- `last` describes the finding of `key` and `first` is its first run: of the scans that report it, they are the last
and the first to finish. -/
def Views (ext : External) (db : Db) (key : String) (scans : List Scan) : Prop :=
  (reporters key scans = [] ∧ db.view key = none) ∨
    ∃ last ∈ reporters key scans, ∃ first ∈ reporters key scans,
      (∀ s ∈ reporters key scans, s.finished ≤ last.finished ∧ first.finished ≤ s.finished) ∧
      ∃ f, last.describe ext key = some f ∧ db.view key = some (f, some last.stamp, some first.stamp)

section Order

variable {ext : External} {db db' : Db} {L L' : List (Scan × DateTime)}

theorem Chronicle.views {scans : List Scan} (h : Chronicle ext db scans) (key : String) : Views ext db key scans := by
  unfold Views Db.view
  cases hf : db.findingOf key with
  | none => exact Or.inl ⟨h.unseen key hf, rfl⟩
  | some f =>
    obtain ⟨⟨last, hlast, hdescribed, hstamp⟩, ⟨first, hfirst, hstamp'⟩, -⟩ := h.shows key f hf
    refine Or.inr ⟨last, List.argmax_mem hlast, first, List.argmin_mem hfirst, fun s hs => ?_, f.described,
      hdescribed.symm, ?_⟩
    · exact ⟨List.le_of_mem_argmax hs hlast, List.le_of_mem_argmin hs hfirst⟩
    · rw [Option.map_some, hstamp, hstamp']

theorem chronicle_of_ingestScans (hL : Chronological (L.map Prod.fst)) (h : ingestScans ext .empty L = .ok db) :
    Chronicle ext db (L.map Prod.fst) := by
  have hchronicle := (Chronicle.empty ext).ingestScans h (by simpa using hL)
  simpa using hchronicle

/-- **The current view does not depend on the order of ingestion.** It is that of the last scan to finish of those that
report the finding, with the first one to finish as its first run. -/
theorem current_view (hL : Chronological (L.map Prod.fst)) (hperm : (L.map Prod.fst).Perm (L'.map Prod.fst))
    (h : ingestScans ext .empty L = .ok db) (h' : ingestScans ext .empty L' = .ok db') (key : String) :
    db.view key = db'.view key ∧ Views ext db key (L.map Prod.fst) := by
  have hviews := (chronicle_of_ingestScans hL h).views key
  have hviews' := (chronicle_of_ingestScans (hL.perm hperm) h').views key
  refine ⟨?_, hviews⟩
  have hmem (s : Scan) : s ∈ reporters key (L.map Prod.fst) ↔ s ∈ reporters key (L'.map Prod.fst) :=
    (hperm.filter _).mem_iff
  have hinj {s s' : Scan} (hs : s ∈ reporters key (L.map Prod.fst)) (hs' : s' ∈ reporters key (L.map Prod.fst))
      (hsame : s.finished = s'.finished) : s = s' :=
    List.inj_on_of_nodup_map hL.distinct (List.mem_filter.mp hs).1 (List.mem_filter.mp hs').1 hsame
  rcases hviews with ⟨hnil, hnone⟩ | ⟨last, hlast, first, hfirst, hall, f, hf, hview⟩
  · rcases hviews' with ⟨-, hnone'⟩ | ⟨last', hlast', -⟩
    · rw [hnone, hnone']
    · rw [← hmem, hnil] at hlast'
      cases hlast'
  · rcases hviews' with ⟨hnil', -⟩ | ⟨last', hlast', first', hfirst', hall', f', hf', hview'⟩
    · rw [hmem, hnil'] at hlast
      cases hlast
    · have hlastSame : last = last' :=
        hinj hlast ((hmem _).mpr hlast')
          (le_antisymm (hall' last ((hmem _).mp hlast)).1 (hall last' ((hmem _).mpr hlast')).1)
      have hfirstSame : first = first' :=
        hinj hfirst ((hmem _).mpr hfirst')
          (le_antisymm (hall first' ((hmem _).mpr hfirst')).2 (hall' first ((hmem _).mp hfirst)).2)
      subst hlastSame hfirstSame
      rw [hview, hview', Option.some.inj (hf.symm.trans hf')]

/-- Two scans, ingested as they finished and the other way round. -/
theorem current_view_dated : ∃ db db',
    ingestScans sampleReader.toExternal .empty
    [(datedScan "a" 10 .high [.trivy], 1), (datedScan "b" 20 .low [.grype], 2)] =
      .ok db ∧
    ingestScans sampleReader.toExternal .empty
    [(datedScan "b" 20 .low [.grype], 3), (datedScan "a" 10 .high [.trivy], 4)] =
      .ok db' ∧ db.view datedKey = db'.view datedKey := by
  have hok : (ingestScans sampleReader.toExternal .empty
      [(datedScan "a" 10 .high [.trivy], 1), (datedScan "b" 20 .low [.grype], 2)]).toOption.isSome = true := by
    decide +kernel
  have hok' : (ingestScans sampleReader.toExternal .empty
      [(datedScan "b" 20 .low [.grype], 3), (datedScan "a" 10 .high [.trivy], 4)]).toOption.isSome = true := by
    decide +kernel
  obtain ⟨db, h⟩ := exists_ok_of_isSome hok
  obtain ⟨db', h'⟩ := exists_ok_of_isSome hok'
  refine ⟨db, db', h, h', (current_view ⟨?_, ?_, ?_⟩ ?_ h h' datedKey).1⟩
  · decide
  · decide
  · decide
  · exact List.Perm.swap _ _ _

/-- The opening provenance of every finding is that of its first run, the first to finish of those that report it. -/
def OpenedByFirst (db : Db) (scans : List Scan) : Prop :=
  ∀ key f, db.findingOf key = some f → ∃ first, (reporters key scans).argmin Scan.finished = some first ∧
    some f.provenance = first.opens key

/-- **The opening provenance does depend on the order.** It is written by the scan that is ingested first and stays,
also when an earlier scan becomes the first run of the finding. -/
theorem provenance_iff (hL : Chronological (L.map Prod.fst)) (h : ingestScans ext .empty L = .ok db) :
    OpenedByFirst db (L.map Prod.fst) ↔ ∀ key opener first, (reporters key (L.map Prod.fst)).head? = some opener →
      (reporters key (L.map Prod.fst)).argmin Scan.finished = some first → opener.opens key = first.opens key := by
  have hchronicle := chronicle_of_ingestScans hL h
  constructor
  · intro hopened key opener first hhead hfirst
    cases hf : db.findingOf key with
    | none =>
      rw [hchronicle.unseen key hf] at hhead
      cases hhead
    | some f =>
      obtain ⟨opener', hhead', hprovenance⟩ := (hchronicle.shows key f hf).opener
      obtain ⟨first', hfirst', hprovenance'⟩ := hopened key f hf
      cases hhead.symm.trans hhead'
      cases hfirst.symm.trans hfirst'
      exact hprovenance.symm.trans hprovenance'
  · intro hsame key f hf
    obtain ⟨opener, hhead, hprovenance⟩ := (hchronicle.shows key f hf).opener
    obtain ⟨first, hfirst, -⟩ := (hchronicle.shows key f hf).first
    exact ⟨first, hfirst, hprovenance.trans (hsame key opener first hhead hfirst)⟩

end Order

/-- The scan that finished last, of both scanners, is ingested first; the scan of Trivy alone becomes the first run of
the finding, which stays opened by both. -/
theorem provenance_stale : ∃ (L : List (Scan × DateTime)) (db : Db), Chronological (L.map Prod.fst) ∧
    ingestScans sampleReader.toExternal .empty L = .ok db ∧ ¬ OpenedByFirst db (L.map Prod.fst) := by
  have hok : (ingestScans sampleReader.toExternal .empty
      [(datedScan "b" 20 .high [.trivy, .grype], 1), (datedScan "a" 10 .high [.trivy], 2)]).toOption.isSome = true := by
    decide +kernel
  obtain ⟨db, h⟩ := exists_ok_of_isSome hok
  have hL : Chronological ([((datedScan "b" 20 .high [.trivy, .grype], 1) : Scan × DateTime),
      (datedScan "a" 10 .high [.trivy], 2)].map Prod.fst) := ⟨by decide, by decide, by decide⟩
  refine ⟨_, db, hL, h, fun hopened => ?_⟩
  have hdiffers :
      ((reporters datedKey [datedScan "b" 20 .high [.trivy, .grype], datedScan "a" 10 .high [.trivy]]).head?.bind
        fun s => s.opens datedKey) ≠
      ((reporters datedKey [datedScan "b" 20 .high [.trivy, .grype], datedScan "a" 10 .high [.trivy]]).argmin
        Scan.finished).bind fun s => s.opens datedKey := by decide +kernel
  refine hdiffers ?_
  have hsame := (provenance_iff hL h).mp hopened datedKey
  rw [List.map_cons, List.map_cons, List.map_nil] at hsame
  cases hreporters : reporters datedKey [datedScan "b" 20 .high [.trivy, .grype], datedScan "a" 10 .high [.trivy]] with
  | nil => rfl
  | cons opener rest =>
    rw [hreporters] at hsame
    cases hfirst : (opener :: rest).argmin Scan.finished with
    | none => cases List.argmin_eq_none.mp hfirst
    | some first => exact hsame opener first rfl hfirst

/-- Two scans of Trivy alone, ingested the other way round: both open the finding alike. -/
theorem provenance_alike : ∃ db, ingestScans sampleReader.toExternal .empty
      [(datedScan "b" 20 .high [.trivy], 1), (datedScan "a" 10 .high [.trivy], 2)] = .ok db ∧
    OpenedByFirst db [datedScan "b" 20 .high [.trivy], datedScan "a" 10 .high [.trivy]] := by
  have hok : (ingestScans sampleReader.toExternal .empty
      [(datedScan "b" 20 .high [.trivy], 1), (datedScan "a" 10 .high [.trivy], 2)]).toOption.isSome = true := by
    decide +kernel
  obtain ⟨db, h⟩ := exists_ok_of_isSome hok
  have hL : Chronological ([((datedScan "b" 20 .high [.trivy], 1) : Scan × DateTime),
      (datedScan "a" 10 .high [.trivy], 2)].map Prod.fst) := ⟨by decide, by decide, by decide⟩
  refine ⟨db, h, (provenance_iff hL h).mpr fun key opener first hhead hfirst => ?_⟩
  have hopens : ∀ s ∈ reporters key [datedScan "b" 20 .high [.trivy], datedScan "a" 10 .high [.trivy]],
      s.opens key = (datedScan "a" 10 .high [.trivy]).opens key := by
    intro s hs
    rcases List.mem_pair.mp (List.mem_filter.mp hs).1 with rfl | rfl <;> rfl
  rw [hopens opener (List.mem_of_mem_head? hhead), hopens first (List.argmin_mem hfirst)]

end HardeningLoop
