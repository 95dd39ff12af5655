import HardeningLoop.Orchestrator.GateAgreement
import Mathlib.Data.Finset.Card

/-!
# The summary of a run

`summarizeRun` is what the dashboard shows of one scan run: its row, the findings it shows by severity, raw and under
the policy, and the verdict of the gate. It is computed anew from the sightings whenever it is asked for.

- `summary_settled`: it never changes once the run is ingested, whatever the controller does and whichever runs follow;
- `summary_counts`: what its totals count, and when its gate passes.
-/

namespace HardeningLoop

open Rows (Table)

def rawCountsBySeverity (db : Db) (rid : Nat) : List (String × Nat) := countsBySeverity db rid .raw

structure RunSummary where
  id : Nat
  externalRunId : String
  sourceBranch : String
  sourceSha : String
  trigger : String
  status : String
  isBaseline : Bool
  ingestedAt : DateTime
  leanDigest : Option String
  scanGateMode : GateMode
  tools : RunTools
  rawBySeverity : List (String × Nat)
  policyBySeverity : List (String × Nat)
  rawTotal : Nat
  policyTotal : Nat
  gate : GateVerdict
  readyForEnforce : Bool

/-- `summarize_run`. -/
def summarizeRun (db : Db) (rid : Nat) (run : ScanRun) : RunSummary :=
  let raw := rawCountsBySeverity db rid
  let pol := policyCountsBySeverity db rid
  let gate := gateVerdict run.scanGateMode pol
  { id := rid, externalRunId := run.externalRunId, sourceBranch := run.sourceBranch, sourceSha := run.sourceSha
    trigger := run.trigger.value, status := run.status.value, isBaseline := run.isBaseline, ingestedAt := run.ingestedAt
    leanDigest := run.leanDigest, scanGateMode := run.scanGateMode, tools := run.tools
    rawBySeverity := raw, policyBySeverity := pol
    rawTotal := (Dict.values raw).sum, policyTotal := (Dict.values pol).sum
    gate := gate, readyForEnforce := gate.readyForEnforce }

/-! ## What is kept of a run -/

/-- The runs that are there stay as they were ingested, with their sightings; only that they were applied is noted. -/
def KeepsRuns (db db' : Db) : Prop :=
  ∀ rid run, db.scanRuns.get? rid = some run →
    (∃ applied, db'.scanRuns.get? rid = some { run with closureAppliedAt := applied }) ∧
        db'.sightingsOf rid = db.sightingsOf rid

section Kept

variable {db db' db'' : Db} {rid : Nat} {run : ScanRun}

theorem KeepsRuns.of_same (hr : db'.scanRuns = db.scanRuns) (hs : db'.sightings = db.sightings) : KeepsRuns db db' := by
  intro rid run hrun
  refine ⟨⟨run.closureAppliedAt, ?_⟩, ?_⟩
  · rw [hr, hrun]
  · rw [Db.sightingsOf, hs, Db.sightingsOf]

theorem KeepsRuns.trans (h : KeepsRuns db db') (h' : KeepsRuns db' db'') : KeepsRuns db db'' := by
  intro rid run hrun
  obtain ⟨⟨applied, hrun'⟩, hs⟩ := h rid run hrun
  obtain ⟨hrun'', hs'⟩ := h' rid _ hrun'
  exact ⟨hrun'', hs'.trans hs⟩

theorem keepsRuns_markApplied (db : Db) (rid : Nat) (now : DateTime) : KeepsRuns db (db.markApplied rid now) := by
  intro rid' run hrun
  refine ⟨?_, rfl⟩
  rw [Db.markApplied, Table.get?_modify]
  split
  · exact ⟨some now, by rw [hrun]; rfl⟩
  · exact ⟨run.closureAppliedAt, hrun⟩

/-- The loop of an ingestion only adds sightings, and of its own run. -/
theorem foldl_sightings {ext : External} {raw : ScanJobEvidence} {policy : Option (List NormalizedFinding)}
    {ctx : ClassificationContext} {ts : DateTime} (nfs : List NormalizedFinding) (acc : Ingest) :
    ∃ l, (nfs.foldl (ingestFinding ext rid run raw policy ctx ts) acc).1.sightings.rows = acc.1.sightings.rows ++ l ∧
      ∀ sg ∈ l, sg.scanRunId = rid := by
  induction nfs generalizing acc with
  | nil => exact ⟨[], (List.append_nil _).symm, fun sg hsg => absurd hsg List.not_mem_nil⟩
  | cons nf nfs ih =>
    obtain ⟨fid, -, -, -, hrows⟩ := @ingestFinding_sightings ext rid run raw policy ctx ts acc nf
    obtain ⟨l, hl, hall⟩ := ih (ingestFinding ext rid run raw policy ctx ts acc nf)
    refine ⟨rowsOf fid rid nf policy ++ l, ?_, fun sg hsg => ?_⟩
    · rw [List.foldl_cons, hl, hrows, List.append_assoc]
    · rcases List.mem_append.mp hsg with hsg | hsg
      · exact (ids_of_mem_rowsOf hsg).2
      · exact hall sg hsg

/-- An ingestion adds to no run that is there. -/
theorem keepsRuns_ingestRun {ext : External} {meta_ : RunMeta} {jobs : List ScanJobEvidence}
    {upperBounds : List (String × String)} {ts : DateTime} {result : IngestResult} (hu : KeysUnique db)
    (h : ingestRun ext db meta_ jobs upperBounds ts = .ok (db', result)) : KeepsRuns db db' := by
  rcases ingestRun_eq_ok h with ⟨rfl, -, -⟩ | ⟨scans, -, -, -, -, rfl⟩
  · exact .of_same rfl rfl
  · intro rid run hrun
    obtain ⟨-, hruns, -⟩ := @ingestLoop_wrote ext db meta_ jobs upperBounds ts hu scans
    obtain ⟨l, hl, hall⟩ : ∃ l, (ingestLoop ext db meta_ jobs scans upperBounds ts).1.sightings.rows =
        db.sightings.rows ++ l ∧ ∀ sg ∈ l, sg.scanRunId = db.scanRuns.nextId := foldl_sightings _ _
    refine ⟨⟨run.closureAppliedAt, ?_⟩, ?_⟩
    · show (ingestLoop ext db meta_ jobs scans upperBounds ts).1.scanRuns.get? rid = _
      rw [hruns]
      exact Table.get?_insert_of_some _ hrun
    · have hnone : l.filter (fun sg => sg.scanRunId == rid) = [] := by
        refine List.filter_eq_nil_iff.mpr fun sg hsg hrid => ?_
        -- the id of the new run is not the id of one that is there
        rw [← eq_of_beq hrid, hall sg hsg, Table.get?_nextId] at hrun
        cases hrun
      show ((ingestLoop ext db meta_ jobs scans upperBounds ts).1.sightings.rows.filter fun sg =>
        sg.scanRunId == rid) = _
      rw [hl, List.filter_append, hnone, List.append_nil]
      rfl

/-- The counts of a run are of its own sightings. -/
theorem presentSightings_eq (db : Db) (rid : Nat) (mode : ScanMode) : presentSightings db rid mode =
    ((db.sightingsOf rid).filter fun sg => sg.mode == mode && sg.present).map fun sg =>
      (sg.findingId, sg.severity.getD .unknown) := by
  rw [presentSightings, Db.sightingsOf, List.filter_filter]
  congr 1
  refine List.filter_congr fun sg _ => ?_
  rw [Bool.and_assoc, Bool.and_comm]

theorem KeepsRuns.summarizeRun (h : KeepsRuns db db') (hrun : db.scanRuns.get? rid = some run) :
    ∃ run', db'.scanRuns.get? rid = some run' ∧ summarizeRun db' rid run' = summarizeRun db rid run := by
  obtain ⟨⟨applied, hrun'⟩, hs⟩ := h rid run hrun
  have hcounts (m : ScanMode) : countsBySeverity db' rid m = countsBySeverity db rid m := by
    rw [countsBySeverity, presentSightings_eq, hs, ← presentSightings_eq, countsBySeverity]
  refine ⟨_, hrun', ?_⟩
  unfold HardeningLoop.summarizeRun
  simp only [rawCountsBySeverity, policyCountsBySeverity, hcounts]

end Kept

section Runs

variable {c : Controller} {s : Sys} {rid : Nat} {run : ScanRun}

theorem Commits.keepsRuns {S : Scope} {db db' : Db} (h : Commits c S db db') (hu : KeysUnique db) :
    KeepsRuns db db' := by
  cases h with
  | units h => exact .of_same h.scanRuns h.sightings
  | evaluation h rid => exact (KeepsRuns.of_same h.scanRuns h.sightings).trans (keepsRuns_markApplied _ rid _)
  | ingested h => exact keepsRuns_ingestRun hu h

/-- **A summary is settled when its run is ingested.** In every later state of the controller, the counts, the totals
and the verdict of a run are what they were: no run that follows rescores it, and neither applying it nor ingesting it
again does. -/
theorem summary_settled (h : Reachable c s) (hrun : s.db.scanRuns.get? rid = some run) (later : List Action) :
    ∃ run', (Machine.run (exec c) s later).db.scanRuns.get? rid = some run' ∧
      summarizeRun (Machine.run (exec c) s later).db rid run' = summarizeRun s.db rid run := by
  have hboth : KeysUnique (Machine.run (exec c) s later).db ∧ KeepsRuns s.db (Machine.run (exec c) s later).db :=
    Machine.run_invariant (fun s' : Sys => KeysUnique s'.db ∧ KeepsRuns s.db s'.db)
      (fun s' a hs => ⟨(exec_commits c s' a).keysUnique hs.1, hs.2.trans ((exec_commits c s' a).keepsRuns hs.1)⟩)
      ⟨keysUnique_reachable h, .of_same rfl rfl⟩ later
  exact hboth.2.summarizeRun hrun

end Runs

/-- A run that rates the vulnerability critical, and a tick that applies both runs. -/
def rescoringTrace : List Action :=
  [sampleIngest "2" 20 ((samplePair "CVE-1" "openssl" "1").map fun rv => { rv with severity := .critical }), .beginTick,
    .next true none, .applyRun 21 linearCompare, .applyRun 22 linearCompare, .stop]

/-- The finding is critical now; the run that first reported it still has it as high. -/
theorem summary_settled_rescored : let s := sampleState [sampleIngest "1" 10 (samplePair "CVE-1" "openssl" "1")]
    let s' := Machine.run (exec sampleController) s rescoringTrace
    (s'.db.findings.get? 1).map Finding.severity = some .critical ∧ ∃ run run', s'.db.scanRuns.get? 1 = some run' ∧
      Dict.get? (summarizeRun s'.db 1 run').rawBySeverity Severity.high.value = some 1 ∧
      summarizeRun s'.db 1 run' = summarizeRun s.db 1 run := by
  intro s s'
  obtain ⟨run, hrun⟩ : ∃ run, s.db.scanRuns.get? 1 = some run := Option.isSome_iff_exists.mp (by decide +kernel)
  have hreach : Reachable sampleController s := sampleState_reachable _
  obtain ⟨run', hrun', hsame⟩ := summary_settled hreach hrun rescoringTrace
  refine ⟨by decide +kernel, run, run', hrun', ?_, hsame⟩
  show Dict.get? (rawCountsBySeverity s'.db 1) Severity.high.value = some 1
  decide +kernel

/-! ## What is counted -/

/-- The findings a run shows in a mode. -/
def Db.shown (db : Db) (rid : Nat) (mode : ScanMode) : Finset Nat :=
  ((presentSightings db rid mode).map Prod.fst).toFinset

/-- A finding that a policy scan shows is shown by the raw scan of the run. -/
def PolicyBesideRaw (db : Db) : Prop :=
  ∀ sg ∈ db.sightings.rows, sg.mode = .policy → sg.present = true →
    ∃ sg' ∈ db.sightings.rows, sg'.mode = .raw ∧ sg'.present = true ∧ sg'.findingId = sg.findingId ∧
        sg'.scanRunId = sg.scanRunId

section Counts

variable {db : Db} {rid : Nat} {mode : ScanMode} {gateMode : GateMode}

theorem mem_presentSightings {fid : Nat} {severity : Severity} : (fid, severity) ∈ presentSightings db rid mode ↔
    ∃ sg ∈ db.sightings.rows, sg.scanRunId = rid ∧ sg.mode = mode ∧ sg.present = true ∧ sg.findingId = fid ∧
      sg.severity.getD .unknown = severity := by
  simp [presentSightings, and_assoc]

theorem mem_shown {fid : Nat} : fid ∈ db.shown rid mode ↔
    ∃ sg ∈ db.sightings.rows, sg.scanRunId = rid ∧ sg.mode = mode ∧ sg.present = true ∧ sg.findingId = fid := by
  simp [Db.shown, mem_presentSightings]

/-- Every finding is counted at one severity. -/
theorem sum_count (l : List Severity) :
    ([Severity.critical, .high, .medium, .low, .unknown].map fun s => l.count s).sum = l.length := by
  induction l with
  | nil => rfl
  | cons severity l ih =>
    simp only [List.map_cons, List.map_nil, List.sum_cons, List.sum_nil, List.count_cons, List.length_cons] at ih ⊢
    cases severity <;> simp <;> omega

theorem mem_keys_highest {rows : List (Nat × Severity)} {fid : Nat} :
    fid ∈ (highest rows).map Prod.fst ↔ fid ∈ rows.map Prod.fst := by
  rw [highest_eq_fill, Dict.mem_keys_fill]
  simp

/-- A finding is counted once, however many scanners report it. -/
theorem sum_countsBySeverity (db : Db) (rid : Nat) (mode : ScanMode) :
    (Dict.values (countsBySeverity db rid mode)).sum = (db.shown rid mode).card := by
  have hvalues : Dict.values (countsBySeverity db rid mode) =
      [Severity.critical, .high, .medium, .low, .unknown].map fun s =>
        (Dict.get? (countsBySeverity db rid mode) s.value).getD 0 := rfl
  have hkeys : ((highest (presentSightings db rid mode)).map Prod.fst).toFinset = db.shown rid mode := by
    ext fid
    rw [Db.shown, List.mem_toFinset, List.mem_toFinset, mem_keys_highest]
  rw [hvalues]
  simp only [count_countsBySeverity]
  rw [sum_count, List.length_map, ← hkeys, List.toFinset_card_of_nodup (nodup_highest _), List.length_map]

/-- A severity that a finding is counted at, other than `unknown`, is the severity of one of its sightings. -/
theorem exists_of_mem_highest {severity : Severity} (hs : severity ≠ .unknown)
    (h : severity ∈ (highest (presentSightings db rid mode)).map Prod.snd) :
    ∃ sg ∈ db.sightings.rows, sg.scanRunId = rid ∧ sg.mode = mode ∧ sg.present = true ∧
    sg.severity = some severity := by
  obtain ⟨⟨fid, severity⟩, hrow, rfl⟩ := List.mem_map.mp h
  have hget := get?_highest.mp (Dict.get?_of_mem (nodup_highest _) hrow)
  obtain ⟨sg, hsg, hrid, hmode, hpresent, -, hseverity⟩ := mem_presentSightings.mp hget.1
  refine ⟨sg, hsg, hrid, hmode, hpresent, ?_⟩
  cases hsome : sg.severity with
  | none =>
    rw [hsome] at hseverity
    exact absurd hseverity.symm hs
  | some severity' =>
    rw [hsome] at hseverity
    exact congrArg some hseverity

/-- A finding is counted at least at the severity of each of its sightings. -/
theorem exists_highest_of_mem {sg : Sighting} (hsg : sg ∈ db.sightings.rows) (hpresent : sg.present = true) :
    ∃ severity ∈ (highest (presentSightings db sg.scanRunId sg.mode)).map Prod.snd,
      (sg.severity.getD .unknown).rank ≤ severity.rank := by
  have hrow : (sg.findingId, sg.severity.getD .unknown) ∈ presentSightings db sg.scanRunId sg.mode :=
    mem_presentSightings.mpr ⟨sg, hsg, rfl, rfl, hpresent, rfl, rfl⟩
  have hkey := mem_keys_highest.mpr (List.mem_map_of_mem hrow)
  obtain ⟨severity, hget⟩ := Option.isSome_iff_exists.mp (Dict.get?_isSome.mpr hkey)
  exact ⟨severity, List.mem_map_of_mem (Dict.mem_of_get? hget), (get?_highest.mp hget).2 _ hrow⟩

/-- Nothing is counted at the severities of the gate if and only if no sighting has one of them. -/
theorem gated_eq_zero_iff : (gateVerdict gateMode (policyCountsBySeverity db rid)).gatedCount = 0 ↔
    ∀ sg ∈ db.sightings.rows, sg.scanRunId = rid → sg.mode = .policy → sg.present = true →
      sg.severity ≠ some .high ∧ sg.severity ≠ some .critical := by
  have hcount : (gateVerdict gateMode (policyCountsBySeverity db rid)).gatedCount =
      (Dict.get? (countsBySeverity db rid .policy) Severity.high.value).getD 0 +
        (Dict.get? (countsBySeverity db rid .policy) Severity.critical.value).getD 0 := by cases gateMode <;> rfl
  rw [hcount, count_countsBySeverity, count_countsBySeverity, Nat.add_eq_zero_iff, List.count_eq_zero,
    List.count_eq_zero]
  constructor
  · rintro ⟨hhigh, hcritical⟩ sg hsg rfl hmode hpresent
    obtain ⟨severity, hmem, hrank⟩ := exists_highest_of_mem hsg hpresent
    rw [hmode] at hmem
    constructor <;>
    · intro hsome
      rw [hsome] at hrank
      cases severity with
      | high => exact hhigh hmem
      | critical => exact hcritical hmem
      | _ => exact absurd hrank (by decide)
  · intro h
    refine ⟨fun hmem => ?_, fun hmem => ?_⟩
    · obtain ⟨sg, hsg, hrid, hmode, hpresent, hsome⟩ := exists_of_mem_highest (by decide) hmem
      exact (h sg hsg hrid hmode hpresent).1 hsome
    · obtain ⟨sg, hsg, hrid, hmode, hpresent, hsome⟩ := exists_of_mem_highest (by decide) hmem
      exact (h sg hsg hrid hmode hpresent).2 hsome

/-- What an ingestion adds under the policy, it adds of the raw scan. -/
theorem raw_of_mem_rowsOf {fid : Nat} {nf : NormalizedFinding} {policy : Option (List NormalizedFinding)}
    {sg : Sighting} (h : sg ∈ rowsOf fid rid nf policy) :
    ∃ sg' ∈ rowsOf fid rid nf policy, sg'.mode = .raw ∧ sg'.present = true ∧ sg'.findingId = fid ∧
    sg'.scanRunId = rid := by
  obtain ⟨s, hs, hmem⟩ := List.mem_flatMap.mp h
  obtain ⟨sg', hhead, hraw⟩ : ∃ sg' ∈ sightingRows fid rid nf policy s,
      sg'.mode = .raw ∧ sg'.present = true ∧ sg'.findingId = fid ∧ sg'.scanRunId = rid := by
    unfold sightingRows at hmem ⊢
    split at hmem
    · rename_i hrep
      rw [if_pos hrep]
      exact ⟨_, List.mem_cons_self, rfl, rfl, rfl, rfl⟩
    · cases hmem
  exact ⟨sg', List.mem_flatMap.mpr ⟨s, hs, hhead⟩, hraw⟩

end Counts

section Runs

variable {c : Controller} {s : Sys} {rid : Nat}

theorem Commits.policyBesideRaw {S : Scope} {db db' : Db} (h : Commits c S db db') (hu : KeysUnique db)
    (hp : PolicyBesideRaw db) : PolicyBesideRaw db' := by
  cases h with
  | units h =>
    rw [PolicyBesideRaw, h.sightings]
    exact hp
  | @evaluation env tx h rid =>
    have hsame : (tx.db.markApplied rid env.now).sightings = db.sightings := h.sightings
    rw [PolicyBesideRaw, hsame]
    exact hp
  | @ingested meta_ jobs upperBounds now _ _ h =>
    rcases ingestRun_eq_ok h with ⟨rfl, -, -⟩ | ⟨scans, -, -, -, -, rfl⟩
    · exact hp
    · have hwrote := (@ingestLoop_wrote c.ext db meta_ jobs upperBounds now hu scans).1
      intro sg hsg hmode hpresent
      rcases (hwrote.sightings sg).mp hsg with hold | ⟨nf, hnf, fid, f, hf, hkey, hnew⟩
      · obtain ⟨sg', hsg', hraw⟩ := hp sg hold hmode hpresent
        exact ⟨sg', (hwrote.sightings sg').mpr (.inl hsg'), hraw⟩
      · obtain ⟨hfid, hrid⟩ := ids_of_mem_rowsOf hnew
        obtain ⟨sg', hsg', hmode', hpresent', hfid', hrid'⟩ := raw_of_mem_rowsOf hnew
        exact ⟨sg', (hwrote.sightings sg').mpr (.inr ⟨nf, hnf, fid, f, hf, hkey, hsg'⟩), hmode', hpresent',
          hfid'.trans hfid.symm, hrid'.trans hrid.symm⟩

/-- **What a summary says.** In every state the controller can be in, the totals of a run are the numbers of different
findings that its scans show; every finding that the policy scan shows is among the raw ones; and the gate passes if and
only if it only reports or no policy sighting of the run is high or critical. -/
theorem summary_counts (h : Reachable c s) (rid : Nat) (run : ScanRun) :
    let summary := summarizeRun s.db rid run
    summary.rawTotal = (s.db.shown rid .raw).card ∧ summary.policyTotal = (s.db.shown rid .policy).card ∧
      s.db.shown rid .policy ⊆ s.db.shown rid .raw ∧
      (summary.gate.passed = true ↔ run.scanGateMode = .report ∨
        ∀ sg ∈ s.db.sightings.rows, sg.scanRunId = rid → sg.mode = .policy → sg.present = true →
          sg.severity ≠ some .high ∧ sg.severity ≠ some .critical) := by
  have hboth : KeysUnique s.db ∧ PolicyBesideRaw s.db :=
    h.invariant (fun s => KeysUnique s.db ∧ PolicyBesideRaw s.db)
      ⟨KeysUnique.empty, fun sg hsg => absurd hsg List.not_mem_nil⟩
      fun s a hs => ⟨(exec_commits c s a).keysUnique hs.1, (exec_commits c s a).policyBesideRaw hs.1 hs.2⟩
  refine ⟨sum_countsBySeverity s.db rid .raw, sum_countsBySeverity s.db rid .policy, fun fid hfid => ?_, ?_⟩
  · obtain ⟨sg, hsg, hrid, hmode, hpresent, hid⟩ := mem_shown.mp hfid
    obtain ⟨sg', hsg', hmode', hpresent', hid', hrid'⟩ := hboth.2 sg hsg hmode hpresent
    exact mem_shown.mpr ⟨sg', hsg', hrid'.trans hrid, hmode', hpresent', hid'.trans hid⟩
  · rw [← @gated_eq_zero_iff s.db rid run.scanGateMode]
    show (gateVerdict run.scanGateMode (policyCountsBySeverity s.db rid)).passed = true ↔ _
    cases run.scanGateMode with
    | report => exact iff_of_true rfl (.inl rfl)
    | enforce =>
      rw [or_iff_right (show GateMode.enforce ≠ .report by decide)]
      show ((gateVerdict .enforce (policyCountsBySeverity s.db rid)).gatedCount == 0) = true ↔ _
      exact beq_iff_eq

end Runs

/-- A run whose policy scan shows one high finding, of the two of its raw scan. -/
theorem summary_counts_policy :
    let raw := samplePair "CVE-1" "openssl" "1" ++ samplePair "CVE-2" "zlib" "1"
    let s := sampleState [.ingest { gateRun with scanGateMode := .enforce }
      [sampleScan raw, policyOf (sampleScan (samplePair "CVE-1" "openssl" "1"))] [] 10]
    (s.db.shown 1 .raw).card = 2 ∧ ∃ run, s.db.scanRuns.get? 1 = some run ∧
      let summary := summarizeRun s.db 1 run
      summary.policyTotal = (s.db.shown 1 .policy).card ∧ summary.gate.passed = false := by
  intro raw s
  have henforce : ((s.db.scanRuns.get? 1).filter fun run => run.scanGateMode = .enforce).isSome = true := by
    decide +kernel
  obtain ⟨run, hrun⟩ := Option.isSome_iff_exists.mp henforce
  obtain ⟨hrun, hmodes⟩ := Option.filter_eq_some_iff.mp hrun
  obtain ⟨-, hpolicy, -, hgate⟩ := summary_counts (c := sampleController) (sampleState_reachable _) 1 run
  refine ⟨by decide +kernel, run, hrun, hpolicy, Bool.eq_false_iff.mpr fun hpassed => ?_⟩
  have hhigh : ∃ sg ∈ s.db.sightings.rows, sg.scanRunId = 1 ∧ sg.mode = .policy ∧ sg.present = true ∧
      sg.severity = some .high := by
    decide +kernel
  obtain ⟨sg, hsg, hrid, hmode, hpresent, hsome⟩ := hhigh
  rcases hgate.mp hpassed with hreport | hnone
  · rw [of_decide_eq_true hmodes] at hreport
    cases hreport
  · exact (hnone sg hsg hrid hmode hpresent).1 hsome

end HardeningLoop
