import HardeningLoop.Lib.Lists
import HardeningLoop.Orchestrator.System

/-!
# What a rung of the ladder stands for

`evaluate` gives each rung a status from the check runs of a head. Here it is read in terms of the runs alone.

- `Component.Proven`, `Component.Refuted`: what the runs say about a component;
- `componentStatus_passed_iff`, `componentStatus_failed_iff`, `rungStatus_passed_iff`: the statuses one level at a time;
- `ladder_read`: every rung, the highest passed depth, and what does not change them.
-/

namespace HardeningLoop

open Rows (Table)

/-- The run belongs to the check: it has its name, or is an entry of its matrix. -/
def CheckRun.Matches (r : CheckRun) (check : String) : Prop :=
  r.name = check ∨ (check ++ " (").toList <+: r.name.toList

def CheckRun.Completed (r : CheckRun) : Prop := r.status = "completed"

def CheckRun.Succeeded (r : CheckRun) : Prop := r.conclusion = some "success"

/-- The run concluded other than success, skipped or neutral. -/
def CheckRun.Failed (r : CheckRun) : Prop :=
  r.conclusion ∉ [some "success", some "skipped", some "neutral"]

instance (r : CheckRun) (check : String) : Decidable (r.Matches check) := inferInstanceAs (Decidable (_ ∨ _))
instance (r : CheckRun) : Decidable r.Completed := inferInstanceAs (Decidable (_ = _))
instance (r : CheckRun) : Decidable r.Succeeded := inferInstanceAs (Decidable (_ = _))
instance (r : CheckRun) : Decidable r.Failed := inferInstanceAs (Decidable (_ ∉ _))

/-- The component names a check that has runs, all of them completed with success. -/
def Component.Proven (comp : Component) (runs : List CheckRun) : Prop :=
  ∃ check, comp.check = some check ∧ (∃ r ∈ runs, r.Matches check) ∧
    ∀ r ∈ runs, r.Matches check → r.Completed ∧ r.Succeeded

/-- The component names a check whose runs are all completed, one of them without success. -/
def Component.Refuted (comp : Component) (runs : List CheckRun) : Prop :=
  ∃ check, comp.check = some check ∧ (∀ r ∈ runs, r.Matches check → r.Completed) ∧
    ∃ r ∈ runs, r.Matches check ∧ r.Failed

/-- The rung has components, and the runs prove them all. -/
def RungProven (ladder : VerificationDepth → List Component) (runs : List CheckRun) (d : VerificationDepth) : Prop :=
  ladder d ≠ [] ∧ ∀ comp ∈ ladder d, comp.Proven runs

section Components

variable {check : String} {runs runs' : List CheckRun}

theorem mem_matchingRuns {r : CheckRun} : r ∈ matchingRuns check runs ↔ r ∈ runs ∧ r.Matches check := by
  unfold matchingRuns CheckRun.Matches hasPrefix
  simp only [List.mem_filter, Bool.or_eq_true, beq_iff_eq, List.isPrefixOf_iff_prefix]

theorem isSuccess_iff {r : CheckRun} : isSuccess r = true ↔ r.Succeeded := by
  rw [isSuccess, beq_iff_eq, CheckRun.Succeeded]

theorem isFailure_iff {r : CheckRun} : isFailure r = true ↔ r.Failed := by
  simp [isFailure, isSuccess, CheckRun.Failed, and_assoc]

theorem CheckRun.Failed.not_succeeded {r : CheckRun} (h : r.Failed) : ¬ r.Succeeded := by
  intro hs
  rw [CheckRun.Failed, show r.conclusion = some "success" from hs] at h
  simp at h

/-- The status of a component with a check, by what its runs are. -/
theorem componentStatus_eq : (componentStatus check runs).1 =
    if matchingRuns check runs = [] then .unavailable
    else if ∃ r ∈ matchingRuns check runs, ¬ r.Completed then .pending
    else if ∃ r ∈ matchingRuns check runs, r.Failed then .failed
    else if ∀ r ∈ matchingRuns check runs, ¬ r.Succeeded then .unavailable
    else if ∃ r ∈ matchingRuns check runs, ¬ r.Succeeded then .partial_
    else .passed := by
  have hrunning : ((matchingRuns check runs).filter fun r => r.status ≠ "completed") ≠ [] ↔
      ∃ r ∈ matchingRuns check runs, ¬ r.Completed := by
    simp [List.filter_eq_nil_iff, CheckRun.Completed]
  have hfailed : (matchingRuns check runs).filter isFailure ≠ [] ↔ ∃ r ∈ matchingRuns check runs, r.Failed := by
    simp [List.filter_eq_nil_iff, isFailure_iff]
  have hsucceeded : (matchingRuns check runs).filter isSuccess = [] ↔ ∀ r ∈ matchingRuns check runs, ¬ r.Succeeded := by
    simp [List.filter_eq_nil_iff, isSuccess_iff]
  have hskipped : ((matchingRuns check runs).filter fun r => !isSuccess r) ≠ [] ↔
      ∃ r ∈ matchingRuns check runs, ¬ r.Succeeded := by
    simp [List.filter_eq_nil_iff, ← isSuccess_iff]
  unfold componentStatus
  simp only [hrunning, hfailed, hsucceeded, hskipped]
  split_ifs <;> rfl

/-- Matrix runs are read as a set. -/
theorem componentStatus_perm (h : runs.Perm runs') :
    (componentStatus check runs).1 = (componentStatus check runs').1 := by
  have hmem (r : CheckRun) : r ∈ matchingRuns check runs ↔ r ∈ matchingRuns check runs' := by
    rw [mem_matchingRuns, mem_matchingRuns, h.mem_iff]
  have hnil : matchingRuns check runs = [] ↔ matchingRuns check runs' = [] := by
    simp only [List.eq_nil_iff_forall_not_mem, hmem]
  rw [componentStatus_eq, componentStatus_eq]
  simp only [hmem, hnil]

theorem componentStatus_passed_iff : (componentStatus check runs).1 = .passed ↔
    (∃ r ∈ runs, r.Matches check) ∧ ∀ r ∈ runs, r.Matches check → r.Completed ∧ r.Succeeded := by
  have hruns : (∃ r ∈ runs, r.Matches check) ↔ matchingRuns check runs ≠ [] := by
    simp [List.eq_nil_iff_forall_not_mem, mem_matchingRuns]
  have hall : (∀ r ∈ runs, r.Matches check → r.Completed ∧ r.Succeeded) ↔
      ∀ r ∈ matchingRuns check runs, r.Completed ∧ r.Succeeded := by
    simp only [mem_matchingRuns, and_imp]
  rw [hruns, hall, componentStatus_eq]
  constructor
  · intro h
    split_ifs at h with hnil hrunning hfailed hnone hskipped
    refine ⟨hnil, fun r hr => ⟨?_, ?_⟩⟩
    · by_contra hc
      exact hrunning ⟨r, hr, hc⟩
    · by_contra hs
      exact hskipped ⟨r, hr, hs⟩
  · rintro ⟨hnil, hall⟩
    obtain ⟨r, hr⟩ := List.exists_mem_of_ne_nil _ hnil
    rw [if_neg hnil, if_neg, if_neg, if_neg, if_neg]
    · rintro ⟨r, hr, hs⟩
      exact hs (hall r hr).2
    · intro hnone
      exact hnone r hr (hall r hr).2
    · rintro ⟨r, hr, hf⟩
      exact hf.not_succeeded (hall r hr).2
    · rintro ⟨r, hr, hc⟩
      exact hc (hall r hr).1

theorem componentStatus_failed_iff : (componentStatus check runs).1 = .failed ↔
    (∀ r ∈ runs, r.Matches check → r.Completed) ∧ ∃ r ∈ runs, r.Matches check ∧ r.Failed := by
  have hall : (∀ r ∈ runs, r.Matches check → r.Completed) ↔ ∀ r ∈ matchingRuns check runs, r.Completed := by
    simp only [mem_matchingRuns, and_imp]
  have hfailed : (∃ r ∈ runs, r.Matches check ∧ r.Failed) ↔ ∃ r ∈ matchingRuns check runs, r.Failed := by
    simp only [mem_matchingRuns, and_assoc]
  rw [hall, hfailed, componentStatus_eq]
  constructor
  · intro h
    split_ifs at h with hnil hrunning hfailed hnone hskipped
    refine ⟨fun r hr => ?_, hfailed⟩
    by_contra hc
    exact hrunning ⟨r, hr, hc⟩
  · rintro ⟨hall, r, hr, hf⟩
    rw [if_neg (List.ne_nil_of_mem hr), if_neg, if_pos ⟨r, hr, hf⟩]
    rintro ⟨r, hr, hc⟩
    exact hc (hall r hr)

theorem componentStatus_pending_iff : (componentStatus check runs).1 = .pending ↔
    ∃ r ∈ runs, r.Matches check ∧ ¬ r.Completed := by
  have hrunning : (∃ r ∈ runs, r.Matches check ∧ ¬ r.Completed) ↔ ∃ r ∈ matchingRuns check runs, ¬ r.Completed := by
    simp only [mem_matchingRuns, and_assoc]
  rw [hrunning, componentStatus_eq]
  constructor
  · intro h
    split_ifs at h with hnil hrunning
    exact hrunning
  · rintro ⟨r, hr, hc⟩
    rw [if_neg (List.ne_nil_of_mem hr), if_pos ⟨r, hr, hc⟩]

end Components

section Rungs

variable {ladder : VerificationDepth → List Component} {runs runs' : List CheckRun} {statuses : List CheckStatus}
  {d : VerificationDepth} {comp : Component}

theorem rungStatus_failed_iff : rungStatus statuses = .failed ↔ .failed ∈ statuses := by
  unfold rungStatus
  split_ifs <;> simp_all

theorem rungStatus_pending (h : rungStatus statuses = .pending) : .pending ∈ statuses := by
  unfold rungStatus at h
  simp only [List.any_eq_true, beq_iff_eq, exists_eq_right] at h
  split_ifs at h with _ hpending
  exact hpending

/-- A rung without a component is never passed to `rungStatus`. -/
theorem rungStatus_passed_iff (h : statuses ≠ []) : rungStatus statuses = .passed ↔ ∀ s ∈ statuses, s = .passed := by
  obtain ⟨s₀, hs₀⟩ := List.exists_mem_of_ne_nil _ h
  unfold rungStatus
  simp only [List.any_eq_true, List.all_eq_true, beq_iff_eq, exists_eq_right]
  constructor
  · intro h
    split_ifs at h with _ _ _ hall
    exact hall
  · intro hall
    have hno (s : CheckStatus) (hs : s ≠ .passed) : s ∉ statuses := fun hmem => hs (hall s hmem)
    rw [if_neg (hno .failed (by decide)), if_neg (hno .pending (by decide)), if_neg, if_pos hall]
    intro hnone
    cases (hall s₀ hs₀).symm.trans (hnone s₀ hs₀)

theorem componentRecord_passed_iff : (componentRecord runs d comp).status = .passed ↔ comp.Proven runs := by
  unfold componentRecord Component.Proven
  cases comp.check with
  | none => simp
  | some check => simpa using componentStatus_passed_iff

theorem componentRecord_failed_iff : (componentRecord runs d comp).status = .failed ↔ comp.Refuted runs := by
  unfold componentRecord Component.Refuted
  cases comp.check with
  | none => simp
  | some check => simpa using componentStatus_failed_iff

theorem componentRecord_perm (h : runs.Perm runs') :
    (componentRecord runs d comp).status = (componentRecord runs' d comp).status := by
  unfold componentRecord
  cases comp.check with
  | none => rfl
  | some check => exact componentStatus_perm h

/-- The status of a rung. -/
def rungOf (runs : List CheckRun) (ladder : VerificationDepth → List Component) (d : VerificationDepth) : CheckStatus :=
  if ladder d = [] then .unavailable else rungStatus ((ladder d).map fun comp => (componentRecord runs d comp).status)

theorem mem_depths (d : VerificationDepth) : d ∈ depths := by
  cases d <;> decide

theorem evaluate_rungs : (evaluate runs ladder).rungs = depths.map fun d => (d, rungOf runs ladder d) := rfl

theorem mem_rungs {s : CheckStatus} : (d, s) ∈ (evaluate runs ladder).rungs ↔ rungOf runs ladder d = s := by
  rw [evaluate_rungs, List.mem_map]
  constructor
  · rintro ⟨d', -, h⟩
    cases h
    rfl
  · rintro rfl
    exact ⟨d, mem_depths d, rfl⟩

theorem rungOf_passed_iff : rungOf runs ladder d = .passed ↔ RungProven ladder runs d := by
  unfold rungOf RungProven
  split
  · rename_i hnil
    simp [hnil]
  · rename_i hne
    rw [rungStatus_passed_iff (by simpa using hne)]
    simp [hne, componentRecord_passed_iff]

theorem rungOf_failed_iff : rungOf runs ladder d = .failed ↔ ∃ comp ∈ ladder d, comp.Refuted runs := by
  unfold rungOf
  split
  · rename_i hnil
    simp [hnil]
  · simp [rungStatus_failed_iff, componentRecord_failed_iff]

theorem rungOf_pending (h : rungOf runs ladder d = .pending) :
    ∃ comp ∈ ladder d, ∃ check, comp.check = some check ∧ ∃ r ∈ runs, r.Matches check ∧ ¬ r.Completed := by
  unfold rungOf at h
  split_ifs at h
  obtain ⟨comp, hcomp, hstatus⟩ := List.mem_map.mp (rungStatus_pending h)
  refine ⟨comp, hcomp, ?_⟩
  unfold componentRecord at hstatus
  split at hstatus
  · cases hstatus
  · rename_i check hcheck
    exact ⟨check, hcheck, componentStatus_pending_iff.mp hstatus⟩

theorem rungOf_perm (h : runs.Perm runs') : rungOf runs ladder d = rungOf runs' ladder d := by
  unfold rungOf
  simp only [componentRecord_perm h]

/-- The highest passed depth is the greatest rung that is passed. -/
theorem highestPassed_eq_some_iff : (evaluate runs ladder).highestPassed = some d ↔
    RungProven ladder runs d ∧ ∀ d', RungProven ladder runs d' → d'.toNat ≤ d.toNat := by
  have hfilter : (((evaluate runs ladder).rungs.filter fun r => r.2 == .passed).map Prod.fst) =
      depths.filter fun d => rungOf runs ladder d == .passed := by
    rw [evaluate_rungs, List.filter_map, List.map_map]
    exact List.map_id _
  have hsorted : depths.Pairwise fun d d' => d.toNat < d'.toNat := by decide
  rw [DepthEvaluation.highestPassed, hfilter, Rows.getLast?_filter_eq_some_iff hsorted]
  simp only [beq_iff_eq, rungOf_passed_iff, mem_depths, true_and, forall_const]

theorem highestPassed_eq_none_iff : (evaluate runs ladder).highestPassed = none ↔ ∀ d, ¬ RungProven ladder runs d := by
  unfold DepthEvaluation.highestPassed
  rw [List.getLast?_eq_none_iff, List.map_eq_nil_iff, List.filter_eq_nil_iff]
  simp only [beq_iff_eq, ← rungOf_passed_iff]
  constructor
  · intro h d hd
    exact h (d, .passed) (mem_rungs.mpr hd) rfl
  · rintro h ⟨d, s⟩ hmem rfl
    exact h d (mem_rungs.mp hmem)

end Rungs

section Depth

variable {env : Env} {tx : Tx} {wid pid : Nat} {item : WorkItem} {row : PullRequest} {headSha : String}
  {runs : List CheckRun}

/-- What `recordDepth` writes on the pull request and on the item, whatever the session's output is. -/
theorem recordDepth_db (hi : tx.db.workItems.get? wid = some item) (hrow : tx.db.pullRequests.get? pid = some row) :
    (recordDepth env tx wid pid headSha runs).db.pullRequests = tx.db.pullRequests.modify pid (fun row => { row with
      verificationDepth := (evaluate runs defaultLadder).highestPassed
      depthRungs := (evaluate runs defaultLadder).rungSummary }) ∧
    (recordDepth env tx wid pid headSha runs).db.workItems = tx.db.workItems.modify wid (fun w => { w with
      verificationDepth := (evaluate runs defaultLadder).highestPassed }) := by
  have hloop (records : List CheckRecord) : (records.foldl (recordComponent env pid headSha) tx).db.pullRequests =
      tx.db.pullRequests ∧ (records.foldl (recordComponent env pid headSha) tx).db.workItems = tx.db.workItems :=
    Rows.foldl_invariant (fun t : Tx => t.db.pullRequests = tx.db.pullRequests ∧ t.db.workItems = tx.db.workItems)
      (fun t rec _ (h : t.db.pullRequests = tx.db.pullRequests ∧ t.db.workItems = tx.db.workItems) =>
        show (recordComponent env pid headSha t rec).db.pullRequests = _ ∧ _ from h) ⟨rfl, rfl⟩
  unfold recordDepth
  rw [hi, hrow]
  dsimp only
  split
  · simp only [Tx.modifyItem, Tx.modifyPullRequest, Tx.event, (hloop _).1, (hloop _).2, and_self]
  · simp only [Tx.modifyItem, Tx.modifyPullRequest, (hloop _).1, (hloop _).2, and_self]

end Depth

/-- What a rung's status and the highest passed depth say about the runs of a head. -/
structure LadderRead (ladder : VerificationDepth → List Component) (runs : List CheckRun) (ev : DepthEvaluation) :
    Prop where
  one : ∀ d, ∃! s, (d, s) ∈ ev.rungs
  passed : ∀ d, (d, .passed) ∈ ev.rungs ↔ RungProven ladder runs d
  failed : ∀ d, (d, .failed) ∈ ev.rungs ↔ ∃ comp ∈ ladder d, comp.Refuted runs
  highest : ∀ d, ev.highestPassed = some d ↔ RungProven ladder runs d ∧ ∀ d', RungProven ladder runs d' →
    d'.toNat ≤ d.toNat
  nothing : ev.highestPassed = none ↔ ∀ d, ¬ RungProven ladder runs d

theorem evaluate_read (ladder : VerificationDepth → List Component) (runs : List CheckRun) :
    LadderRead ladder runs (evaluate runs ladder) where
  one d := ⟨rungOf runs ladder d, mem_rungs.mpr rfl, fun _ hs => (mem_rungs.mp hs).symm⟩
  passed _ := mem_rungs.trans rungOf_passed_iff
  failed _ := mem_rungs.trans rungOf_failed_iff
  highest _ := highestPassed_eq_some_iff
  nothing := highestPassed_eq_none_iff

/-- **A rung is passed** when it has components and the runs prove them all, and failed when they refute one. The order
of the runs changes no rung, and neither does the output of the session: what is recorded is the evaluation of the
runs. -/
theorem ladder_read (ladder : VerificationDepth → List Component) (runs : List CheckRun) :
    LadderRead ladder runs (evaluate runs ladder) ∧
    (∀ runs', runs.Perm runs' → (evaluate runs' ladder).rungs = (evaluate runs ladder).rungs) ∧
    ∀ (env : Env) (tx : Tx) (wid pid sid : Nat) (headSha : String) (output : Option Json) (item : WorkItem)
    (row : PullRequest),
      tx.db.workItems.get? wid = some item → tx.db.pullRequests.get? pid = some row →
      let t := recordDepth env (tx.modifySession sid fun s =>
      { s with structuredOutput := output }) wid pid headSha runs
      t.db.pullRequests.get? pid = some { row with
        verificationDepth := (evaluate runs defaultLadder).highestPassed
        depthRungs := (evaluate runs defaultLadder).rungSummary } ∧
      t.db.workItems.get? wid = some
        { item with verificationDepth := (evaluate runs defaultLadder).highestPassed } := by
  refine ⟨evaluate_read ladder runs, fun runs' h => ?_, fun env tx wid pid sid headSha output item row hi hrow => ?_⟩
  · rw [evaluate_rungs, evaluate_rungs]
    simp only [rungOf_perm h]
  · obtain ⟨hpulls, hitems⟩ := @recordDepth_db env
      (tx.modifySession sid fun s => { s with structuredOutput := output }) wid pid item row headSha runs hi hrow
    dsimp only
    rw [hpulls, hitems, Table.get?_modify_self, Table.get?_modify_self]
    exact ⟨congrArg _ hrow, congrArg _ hi⟩

/-- A head whose image starts, and whose unit tests fail on one version. -/
def mixedRuns : List CheckRun := [
  { name := "lean-smoke", status := "completed", conclusion := some "success" },
  { name := "unit-tests (3.10)", status := "completed", conclusion := some "success" },
  { name := "unit-tests (3.11)", status := "completed", conclusion := some "failure" }]

example : (evaluate mixedRuns defaultLadder).highestPassed = some .importMigrations := by decide +kernel

theorem ladder_read_mixed :
    (evaluate mixedRuns.reverse defaultLadder).rungs = (evaluate mixedRuns defaultLadder).rungs ∧
    ∃ row, (recordDepth (sampleController.env 15) (Tx.modifySession { db := (sampleState sampleReady).db } 1 fun s =>
      { s with structuredOutput := some (.arr []) }) 1 1 "a" mixedRuns).db.pullRequests.get? 1 = some row ∧
      row.depthRungs = (evaluate mixedRuns defaultLadder).rungSummary := by
  obtain ⟨-, hperm, hrecorded⟩ := ladder_read defaultLadder mixedRuns
  obtain ⟨item, hi⟩ := Option.isSome_iff_exists.mp
    (by decide +kernel : ((sampleState sampleReady).db.workItems.get? 1).isSome = true)
  obtain ⟨row, hrow⟩ := Option.isSome_iff_exists.mp
    (by decide +kernel : ((sampleState sampleReady).db.pullRequests.get? 1).isSome = true)
  generalize (sampleState sampleReady).db = db at hi hrow ⊢
  exact ⟨hperm _ (List.reverse_perm _).symm, _, (hrecorded _ { db := db } 1 1 1 "a" _ item row hi hrow).1, rfl⟩

end HardeningLoop
