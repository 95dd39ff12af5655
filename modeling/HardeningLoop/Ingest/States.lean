import HardeningLoop.Ingest.Chronology

/-!
# What a scan does to the states of findings

A scan that reports a finding rewrites its state along with its description, and leaves no trace of it on the log.

- `KeysUnique`: no two findings have one key (`keysUnique_ingestRun`);
- `Scan.reclassifies`: the scan changes the state of a finding that is there;
- `ingestRun_leaves`: what a scan leaves of a finding; `ingestRun_keeps_iff`: it keeps its state exactly without that.
-/

namespace HardeningLoop

open Rows

/-- No two findings have the same key. -/
def KeysUnique (db : Db) : Prop :=
  ∀ i j f g, db.findings.get? i = some f → db.findings.get? j = some g → f.dedupeKey = g.dedupeKey → i = j

theorem KeysUnique.empty : KeysUnique .empty := by
  intro i j f g hf
  rw [show Db.empty.findings.get? i = none from Table.get?_empty i] at hf
  cases hf

/-- The first finding of a key is the only one. -/
theorem KeysUnique.first {db : Db} (h : KeysUnique db) {fid : Nat} {f : Finding} (hf : db.findings.get? fid = some f)
    (key : String) : (db.findings.first fun g => g.dedupeKey == key) = some fid ↔ f.dedupeKey = key := by
  constructor
  · intro hfirst
    obtain ⟨g, hg, hkey⟩ := Table.first_eq_some hfirst
    rw [hf] at hg
    cases hg
    exact eq_of_beq hkey
  · rintro rfl
    cases hfirst : db.findings.first fun g => g.dedupeKey == f.dedupeKey with
    | none =>
      have hno := Table.first_eq_none hfirst hf
      simp at hno
    | some i =>
      obtain ⟨g, hg, hkey⟩ := Table.first_eq_some hfirst
      rw [h i fid g f hg hf (eq_of_beq hkey)]

section Upsert

variable {ext : External} {rid : Nat} {run : ScanRun} {raw : ScanJobEvidence} {policy : Option (List NormalizedFinding)}
  {ctx : ClassificationContext} {ts : DateTime}

/-- One normalized finding, as it leaves the rows that are there. -/
theorem row_ingestFinding (acc : Ingest) (nf : NormalizedFinding) (hu : KeysUnique acc.1) {fid : Nat} {f : Finding}
    (hf : acc.1.findings.get? fid = some f) :
    (ingestFinding ext rid run raw policy ctx ts acc nf).1.findings.get? fid =
      some (if f.dedupeKey = nf.dedupeKey then Finding.reportAgain acc.1 rid run raw nf (classify ext nf ctx) ts f else
      f) := by
  have hfirst := hu.first hf nf.dedupeKey
  unfold ingestFinding upsertFinding
  dsimp only
  cases hold : acc.1.findings.first fun g => g.dedupeKey == nf.dedupeKey with
  | none =>
    have hother : f.dedupeKey ≠ nf.dedupeKey := by
      intro hkey
      rw [hfirst.mpr hkey] at hold
      cases hold
    rw [if_neg hother]
    exact Table.get?_insert_of_some _ hf
  | some i =>
    dsimp only
    rw [if_neg Bool.false_ne_true, Table.get?_modify, hf]
    by_cases hi : fid = i
    · rw [if_pos hi, if_pos (hfirst.mp (hi ▸ hold))]
      rfl
    · have hother : f.dedupeKey ≠ nf.dedupeKey := by
        intro hkey
        rw [hfirst.mpr hkey] at hold
        exact hi (Option.some.inj hold)
      rw [if_neg hi, if_neg hother]

theorem keysUnique_ingestFinding {acc : Ingest} (nf : NormalizedFinding) (hu : KeysUnique acc.1) :
    KeysUnique (ingestFinding ext rid run raw policy ctx ts acc nf).1 := by
  have hrow {i : Nat} {f' : Finding}
      (hf : (ingestFinding ext rid run raw policy ctx ts acc nf).1.findings.get? i = some f') :
      (∃ f, acc.1.findings.get? i = some f ∧ f'.dedupeKey = f.dedupeKey) ∨
        i = acc.1.findings.nextId ∧ f'.dedupeKey = nf.dedupeKey ∧
          (acc.1.findings.first fun g => g.dedupeKey == nf.dedupeKey) = none := by
    unfold ingestFinding upsertFinding at hf
    dsimp only at hf
    cases hold : acc.1.findings.first fun g => g.dedupeKey == nf.dedupeKey with
    | none =>
      rw [hold] at hf
      dsimp only at hf
      rw [if_pos rfl, Table.get?_insert] at hf
      split at hf
      · rename_i hi
        cases hf
        exact Or.inr ⟨hi, rfl, rfl⟩
      · exact Or.inl ⟨f', hf, rfl⟩
    | some k =>
      rw [hold] at hf
      dsimp only at hf
      rw [if_neg Bool.false_ne_true, Table.get?_modify] at hf
      split at hf
      · obtain ⟨f, hf', rfl⟩ := Option.map_eq_some_iff.mp hf
        exact Or.inl ⟨f, hf', reportAgain_dedupeKey ..⟩
      · exact Or.inl ⟨f', hf, rfl⟩
  have hold {i : Nat} {f : Finding} (hf : acc.1.findings.get? i = some f)
      (hnone : (acc.1.findings.first fun g => g.dedupeKey == nf.dedupeKey) = none) : f.dedupeKey ≠ nf.dedupeKey := by
    intro hkey
    have hno := Table.first_eq_none hnone hf
    simp [hkey] at hno
  intro i j f' g' hf hg hkey
  rcases hrow hf with ⟨f, hf, hfkey⟩ | ⟨hi, hfkey, hnone⟩ <;> rcases hrow hg with ⟨g, hg, hgkey⟩ | ⟨hj, hgkey, hnone'⟩
  · exact hu i j f g hf hg (hfkey.symm.trans (hkey.trans hgkey))
  · exact absurd (hfkey.symm.trans (hkey.trans hgkey)) (hold hf hnone')
  · exact absurd (hgkey.symm.trans (hkey.symm.trans hfkey)) (hold hg hnone)
  · rw [hi, hj]

end Upsert

/-! ## A run -/

/-- The scan finished before the run that reported the finding last. -/
def Scan.olderThan (scan : Scan) (db : Db) (f : Finding) : Bool :=
  match scan.run.finishedAt, (db.scanRuns.get? f.lastSeenRunId).bind ScanRun.finishedAt with
  | some t, some t' => t < t'
  | _, _ => false

/-- The scan is taken in as a new run: its run is not there yet, its jobs pass their checks and its rows can be
written. -/
def Scan.taken (ext : External) (scan : Scan) (db : Db) : Bool :=
  (db.scanRuns.first fun r => r.externalRunId == scan.run.externalRunId).isNone &&
    (checkJobs scan.run scan.jobs).toOption.any fun scans =>
      Writable ext db.scanRuns.nextId scan.run scan.jobs scans scan.upperBounds

/-- The state a scan leaves a finding in: it reports it, and no later scan has. -/
def Scan.stateOf (ext : External) (scan : Scan) (db : Db) (f : Finding) : FindingState :=
  match scan.report f.dedupeKey with
  | some (raw, nf) => if scan.olderThan db f then f.state else reportedState f.state (scan.classify ext raw nf).kind
  | none => f.state

/-- The scan is taken in and reports a finding that is not closed and that no later scan has reported; it cannot
classify the finding, which was not unclassified, or it classifies one that was. -/
def Scan.reclassifies (ext : External) (scan : Scan) (db : Db) (f : Finding) : Bool :=
  scan.taken ext db && !f.state.isClosing && (scan.report f.dedupeKey).any fun (raw, nf) =>
    !scan.olderThan db f && (scan.classify ext raw nf).kind.isNone != (f.state == .unclassified)

theorem reportedState_ne (s : FindingState) (kind : Option Kind) :
    (reportedState s kind != s) = (!s.isClosing && kind.isNone != (s == .unclassified)) := by
  cases kind <;> cases s <;> rfl

/-- It does so exactly when the state it leaves the finding in is another one. -/
theorem Scan.reclassifies_eq {ext : External} {scan : Scan} {db : Db} {f : Finding} :
    scan.reclassifies ext db f = (scan.taken ext db && scan.stateOf ext db f != f.state) := by
  unfold Scan.reclassifies Scan.stateOf
  rw [Bool.and_assoc]
  congr 1
  split
  · rename_i raw nf hreport
    rw [hreport, Option.any_some]
    cases scan.olderThan db f with
    | true => simp
    | false =>
      simp only [Bool.not_false, Bool.true_and, Bool.false_eq_true, if_false, reportedState_ne]
  · rename_i hreport
    rw [hreport]
    simp

/-- Scans lead into no state but `open` and `unclassified`. -/
theorem Scan.stateOf_eq {ext : External} {scan : Scan} {db : Db} {f : Finding} :
    scan.stateOf ext db f = f.state ∨ scan.stateOf ext db f ∈ [FindingState.«open», .unclassified] := by
  unfold Scan.stateOf
  split
  · split
    · exact Or.inl rfl
    · unfold reportedState
      split
      · exact Or.inl rfl
      · split
        · exact Or.inr (by decide)
        · split
          · exact Or.inr (by decide)
          · exact Or.inl rfl
  · exact Or.inl rfl

/-- A state that no scan leads into. -/
theorem Scan.leaves_iff {ext : External} {scan : Scan} {db : Db} {f : Finding} {s : FindingState}
    (hs : s ∉ [FindingState.«open», .unclassified]) :
    (if scan.taken ext db then scan.stateOf ext db f else f.state) = s ↔ f.state = s ∧
    scan.reclassifies ext db f = false := by
  rw [Scan.reclassifies_eq]
  cases htaken : scan.taken ext db with
  | false => simp
  | true =>
    rcases @Scan.stateOf_eq ext scan db f with hstate | hstate
    · simp [hstate]
    · have hne : scan.stateOf ext db f ≠ s := fun h => hs (h ▸ hstate)
      simp only [if_true, hne, Bool.true_and, bne_eq_false_iff_eq, false_iff, not_and]
      rintro rfl
      exact hne

/-- The severity and the risk a scan leaves a finding with. -/
def Scan.priorityOf (ext : External) (scan : Scan) (db : Db) (f : Finding) : Severity × Risk :=
  match scan.report f.dedupeKey with
  | some (raw, nf) =>
    if scan.olderThan db f then (f.severity, f.risk) else (nf.severity, (scan.classify ext raw nf).risk)
  | none => (f.severity, f.risk)

/-- What a scan leaves of a finding. -/
structure Scan.Leaves (ext : External) (scan : Scan) (db : Db) (f f' : Finding) : Prop where
  key : f'.dedupeKey = f.dedupeKey
  owner : f'.workItemId = f.workItemId
  state : f'.state = if scan.taken ext db then scan.stateOf ext db f else f.state
  priority : (f'.severity, f'.risk) = if scan.taken ext db then scan.priorityOf ext db f else (f.severity, f.risk)

theorem Scan.Leaves.untaken {ext : External} {scan : Scan} {db : Db} (h : scan.taken ext db = false) (f : Finding) :
    scan.Leaves ext db f f := by
  refine ⟨rfl, rfl, ?_, ?_⟩ <;> rw [h, if_neg Bool.false_ne_true]

/-- What a report rewrites of a finding, apart from its description. -/
theorem reportAgain_row (db : Db) (rid : Nat) (run : ScanRun) (raw : ScanJobEvidence) (nf : NormalizedFinding)
    (cls : Classification) (ts : DateTime) (f : Finding) :
    (Finding.reportAgain db rid run raw nf cls ts f).workItemId = f.workItemId ∧
    (Finding.reportAgain db rid run raw nf cls ts f).state =
      (if finishedBefore db rid run f.lastSeenRunId then f.state else reportedState f.state cls.kind) ∧
    ((Finding.reportAgain db rid run raw nf cls ts f).severity, (Finding.reportAgain db rid run raw nf cls ts f).risk) =
      if finishedBefore db rid run f.lastSeenRunId then (f.severity, f.risk) else (nf.severity, cls.risk) := by
  unfold Finding.reportAgain
  dsimp only
  set g := if finishedBefore db rid run f.firstSeenRunId then { f with firstSeenRunId := rid } else f with hg
  have hsame : g.workItemId = f.workItemId ∧ g.state = f.state ∧ g.lastSeenRunId = f.lastSeenRunId ∧
      g.severity = f.severity ∧ g.risk = f.risk := by
    rw [hg]
    split <;> exact ⟨rfl, rfl, rfl, rfl, rfl⟩
  obtain ⟨howner, hstate, hlast, hseverity, hrisk⟩ := hsame
  rw [hlast]
  split
  · exact ⟨howner, hstate, by rw [hseverity, hrisk]⟩
  · exact ⟨howner, congrArg (reportedState · cls.kind) hstate, rfl⟩

/-- A new run finished before another one by the times on record. -/
theorem finishedBefore_insert {db db' : Db} {run : ScanRun} (hruns : db'.scanRuns = db.scanRuns.insert run)
    (other : Nat) :
    finishedBefore db' db.scanRuns.nextId run other =
      match run.finishedAt, (db.scanRuns.get? other).bind ScanRun.finishedAt with
      | some t, some t' => t < t'
      | _, _ => false := by
  unfold finishedBefore
  rw [hruns, Table.get?_insert]
  by_cases hother : other = db.scanRuns.nextId
  · rw [hother, Table.get?_nextId]
    cases run.finishedAt <;> simp
  · rw [if_neg hother]
    exact congrArg (· && _) (decide_eq_true hother)

section Run

variable {ext : External} {db db' : Db} {scan : Scan} {ts : DateTime} {result : IngestResult}

/-- What the loop over the findings of a scan leaves of a row. -/
theorem row_foldl {rid : Nat} {run : ScanRun} {raw : ScanJobEvidence} {policy : Option (List NormalizedFinding)}
    {ctx : ClassificationContext} {nfs : List NormalizedFinding} (hnd : (nfs.map NormalizedFinding.dedupeKey).Nodup)
    {fid : Nat} {f : Finding} : ∀ acc : Ingest, KeysUnique acc.1 → acc.1.findings.get? fid = some f →
      KeysUnique (nfs.foldl (ingestFinding ext rid run raw policy ctx ts) acc).1 ∧
      (nfs.foldl (ingestFinding ext rid run raw policy ctx ts) acc).1.findings.get? fid =
        match nfs.find? fun nf => nf.dedupeKey == f.dedupeKey with
        | none => some f
        | some nf => some (Finding.reportAgain acc.1 rid run raw nf (classify ext nf ctx) ts f) := by
  induction nfs generalizing f with
  | nil => exact fun acc hu hf => ⟨hu, hf⟩
  | cons nf nfs ih =>
    intro acc hu hf
    rw [List.map_cons, List.nodup_cons] at hnd
    have hrow := @row_ingestFinding ext rid run raw policy ctx ts acc nf hu fid f hf
    have hu' := @keysUnique_ingestFinding ext rid run raw policy ctx ts acc nf hu
    have hruns := (@findingOf_ingestFinding ext rid run raw policy ctx ts acc nf "").1
    rw [List.foldl_cons]
    by_cases hkey : f.dedupeKey = nf.dedupeKey
    · rw [if_pos hkey] at hrow
      obtain ⟨hu'', hrest⟩ := ih hnd.2 _ hu' hrow
      refine ⟨hu'', hrest.trans ?_⟩
      have hnone : (nfs.find? fun nf' => nf'.dedupeKey == f.dedupeKey) = none := by
        refine List.find?_eq_none.mpr fun nf' hnf' hsame => hnd.1 ?_
        rw [← hkey, ← eq_of_beq hsame]
        exact List.mem_map_of_mem hnf'
      rw [reportAgain_dedupeKey, hnone]
      simp [hkey]
    · rw [if_neg hkey] at hrow
      obtain ⟨hu'', hrest⟩ := ih hnd.2 _ hu' hrow
      refine ⟨hu'', hrest.trans ?_⟩
      rw [List.find?_cons_of_neg (by simpa using Ne.symm hkey)]
      cases nfs.find? fun nf' => nf'.dedupeKey == f.dedupeKey with
      | none => rfl
      | some nf' =>
        dsimp only
        rw [reportAgain_congr hruns]

/-- **What a scan leaves of the findings.** -/
theorem ingestRun_leaves (h : ingestRun ext db scan.run scan.jobs scan.upperBounds ts = .ok (db', result))
    (hu : KeysUnique db) : KeysUnique db' ∧ ∀ fid f, db.findings.get? fid = some f →
      ∃ f', db'.findings.get? fid = some f' ∧ scan.Leaves ext db f f' := by
  unfold ingestRun at h
  cases hfirst : db.scanRuns.first fun r => r.externalRunId == scan.run.externalRunId with
  | some rid =>
    simp only [hfirst, Except.ok.injEq, Prod.mk.injEq] at h
    obtain ⟨rfl, -⟩ := h
    exact ⟨hu, fun fid f hf => ⟨f, hf, .untaken (by simp [Scan.taken, hfirst]) f⟩⟩
  | none =>
    rw [hfirst] at h
    cases hcheck : checkJobs scan.run scan.jobs with
    | error e => simp [hcheck] at h
    | ok scans =>
      simp only [hcheck] at h
      split at h
      · rename_i hnd
        have htaken : scan.taken ext db = true := by
          simp only [Scan.taken, hfirst, hcheck, Except.toOption, Option.isNone_none, Option.any_some, Bool.true_and]
          exact decide_eq_true hnd
        simp only [Except.ok.injEq, Prod.mk.injEq] at h
        obtain ⟨rfl, -⟩ := h
        have hreport (key : String) : scan.report key = ((normalize scans.raw.vulns scans.raw.configs).find?
            fun nf => nf.dedupeKey == key).map fun nf => (scans.raw, nf) := by
          unfold Scan.report Scan.raw?
          rw [hcheck]
          cases hfind : (normalize scans.raw.vulns scans.raw.configs).find? fun nf => nf.dedupeKey == key <;>
            simp [hfind, Except.toOption]
        set start : Ingest := ({ db with
          scanRuns := db.scanRuns.insert (runRow scan.run scan.jobs scans ts)
          scanJobs := ⟨db.scanJobs.rows ++ runJobRows db.scanRuns.nextId scan.run scans⟩ },
            { scanRunId := db.scanRuns.nextId, created := true }) with hstart
        have hu₀ : KeysUnique start.1 := hu
        have hloop {fid : Nat} {f : Finding} (hf : db.findings.get? fid = some f) :=
          @row_foldl ext ts db.scanRuns.nextId (runRow scan.run scan.jobs scans ts) scans.raw
            (scans.policy.map fun p => normalize p.vulns p.configs)
            (scans.context scan.upperBounds)
            (normalize scans.raw.vulns scans.raw.configs) (normalize_keys_nodup _ _) fid f start hu₀ hf
        refine ⟨?_, fun fid f hf => ?_⟩
        · exact Rows.foldl_invariant (fun acc : Ingest => KeysUnique acc.1)
            (fun acc nf _ hacc => keysUnique_ingestFinding nf hacc) hu₀
        · have hrow := (hloop hf).2
          have holder : finishedBefore start.1 db.scanRuns.nextId (runRow scan.run scan.jobs scans ts) f.lastSeenRunId =
              scan.olderThan db f := finishedBefore_insert (show start.1.scanRuns = _ from rfl) _
          cases hfind : (normalize scans.raw.vulns scans.raw.configs).find? fun nf => nf.dedupeKey == f.dedupeKey with
          | none =>
            rw [hfind] at hrow
            refine ⟨f, hrow, rfl, rfl, ?_, ?_⟩
            · rw [htaken, if_pos rfl, Scan.stateOf, hreport, hfind]
              rfl
            · rw [htaken, if_pos rfl, Scan.priorityOf, hreport, hfind]
              rfl
          | some nf =>
            rw [hfind] at hrow
            obtain ⟨howner, hstate, hpriority⟩ := reportAgain_row start.1 db.scanRuns.nextId
              (runRow scan.run scan.jobs scans ts) scans.raw nf (scan.classify ext scans.raw nf) ts f
            refine ⟨_, hrow, reportAgain_dedupeKey .., howner, ?_, ?_⟩
            · rw [htaken, if_pos rfl, Scan.stateOf, hreport, hfind]
              exact hstate.trans (by rw [holder]; rfl)
            · rw [htaken, if_pos rfl, Scan.priorityOf, hreport, hfind]
              exact hpriority.trans (by rw [holder]; rfl)
      · cases h

/-- A scan gives no finding to an item. -/
theorem ingestRun_owner (h : ingestRun ext db scan.run scan.jobs scan.upperBounds ts = .ok (db', result)) {fid : Nat}
    {f' : Finding} (hf' : db'.findings.get? fid = some f') :
    f'.workItemId = none ∨ ∃ f, db.findings.get? fid = some f ∧ f.workItemId = f'.workItemId := by
  unfold ingestRun at h
  cases hfirst : db.scanRuns.first fun r => r.externalRunId == scan.run.externalRunId with
  | some rid =>
    simp only [hfirst, Except.ok.injEq, Prod.mk.injEq] at h
    obtain ⟨rfl, -⟩ := h
    exact Or.inr ⟨f', hf', rfl⟩
  | none =>
    rw [hfirst] at h
    cases hcheck : checkJobs scan.run scan.jobs with
    | error e => simp [hcheck] at h
    | ok scans =>
      simp only [hcheck] at h
      split at h
      · simp only [Except.ok.injEq, Prod.mk.injEq] at h
        obtain ⟨rfl, -⟩ := h
        refine Rows.foldl_invariant (fun acc : Ingest => ∀ f', acc.1.findings.get? fid = some f' →
          f'.workItemId = none ∨ ∃ f, db.findings.get? fid = some f ∧ f.workItemId = f'.workItemId) ?_ ?_ f' hf'
        · intro acc nf _ hacc f' hf'
          unfold ingestFinding upsertFinding at hf'
          dsimp only at hf'
          cases hold : acc.1.findings.first fun g => g.dedupeKey == nf.dedupeKey with
          | none =>
            rw [hold] at hf'
            dsimp only at hf'
            rw [if_pos rfl, Table.get?_insert] at hf'
            split at hf'
            · cases hf'
              exact Or.inl rfl
            · exact hacc f' hf'
          | some k =>
            rw [hold] at hf'
            dsimp only at hf'
            rw [if_neg Bool.false_ne_true, Table.get?_modify] at hf'
            split at hf'
            · obtain ⟨f, hf, rfl⟩ := Option.map_eq_some_iff.mp hf'
              rw [(reportAgain_row ..).1]
              exact hacc f hf
            · exact hacc f' hf'
        · exact fun f hf => Or.inr ⟨f, hf, rfl⟩
      · cases h

/-- A scan neither closes a finding nor opens a closed one. -/
theorem Scan.Leaves.isClosing {f f' : Finding} (h : scan.Leaves ext db f f') :
    f'.state.isClosing = f.state.isClosing := by
  have hreported (s : FindingState) (kind : Option Kind) : (reportedState s kind).isClosing = s.isClosing := by
    cases kind <;> cases s <;> rfl
  rw [h.state]
  split
  · unfold Scan.stateOf
    split
    · split
      · rfl
      · exact hreported ..
    · rfl
  · rfl

theorem keysUnique_ingestRun (h : ingestRun ext db scan.run scan.jobs scan.upperBounds ts = .ok (db', result))
    (hu : KeysUnique db) : KeysUnique db' := (ingestRun_leaves h hu).1

/-- A scan that reclassifies a finding changes its state, and no other scan does. -/
theorem ingestRun_keeps_iff (h : ingestRun ext db scan.run scan.jobs scan.upperBounds ts = .ok (db', result))
    (hu : KeysUnique db) {fid : Nat} {f : Finding} (hf : db.findings.get? fid = some f) :
    db'.findingState fid = some f.state ↔ scan.reclassifies ext db f = false := by
  obtain ⟨f', hf', hleaves⟩ := (ingestRun_leaves h hu).2 fid f hf
  rw [Db.findingState, hf', Option.map_some, hleaves.state, Scan.reclassifies_eq]
  cases scan.taken ext db <;> simp

/-- A scan that is refused is not taken in. -/
theorem taken_of_error {e : IngestError} (h : ingestRun ext db scan.run scan.jobs scan.upperBounds ts = .error e) :
    scan.taken ext db = false := by
  unfold ingestRun at h
  cases hfirst : db.scanRuns.first fun r => r.externalRunId == scan.run.externalRunId with
  | some rid => simp [hfirst] at h
  | none =>
    rw [hfirst] at h
    cases hcheck : checkJobs scan.run scan.jobs with
    | error e => simp [Scan.taken, hcheck, Except.toOption]
    | ok scans =>
      simp only [hcheck] at h
      split at h
      · cases h
      · rename_i hnd
        simp only [Scan.taken, hfirst, hcheck, Except.toOption, Option.isNone_none, Option.any_some, Bool.true_and]
        exact decide_eq_false hnd

end Run

end HardeningLoop
