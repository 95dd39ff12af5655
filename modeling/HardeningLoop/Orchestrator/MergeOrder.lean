import HardeningLoop.Orchestrator.Settling
import HardeningLoop.Orchestrator.Disposition
import HardeningLoop.Orchestrator.Merging

/-!
# The order of a merge and its rescans

A run may be applied before a poll sees the merge it confirms, or after. The poll replays the runs that were applied,
the others are applied to the merged item; either way the first of them that is evaluated verifies the item.

- `Confirms.settles`: a run that is valid for every member and shows none verifies the item;
- `closeFromAppliedRuns_confirmed`, `applyRuns_confirmed`: what was applied is replayed, what is left is applied;
- `merge_order`: the item is verified in any order, and its members are closed.
-/

namespace HardeningLoop

open Rows (Table)

/-- The runs that finished at or after a time. -/
def runsSince (db : Db) (t : DateTime) : List Nat := db.scanRuns.select fun r => r.finishedAt.any (t ≤ ·)

/-- The run is a valid closing run of the item for every member, and no scanner shows a version of any of them. -/
structure Confirms (env : Env) (cmp : Compare) (db : Db) (wid : Nat) (item : WorkItem) (ev : Evidence) : Prop where
  valid : ∀ k ∈ db.members wid, ∀ f, db.findings.get? k = some f → (memberValidity env cmp db ev item k f).valid = true
  absent : ∀ k ∈ db.members wid, ∀ f, db.findings.get? k = some f → familyKey f ∉ presentFamilies db ev.sightings

/-- The state of a finding that is shown to be gone: what is closed stays as it was closed. -/
def FindingState.whenAbsent (s : FindingState) : FindingState := if s.isClosing then s else .fixed

/-- The item with the merge of its pull request. -/
def WorkItem.mergedAs (item : WorkItem) (pr : PullRequestInfo) (mergedAt : DateTime) : WorkItem :=
  { item with mergeSha := pr.mergeCommitSha, mergedAt := some mergedAt }

/-- A poll sees that the pull request which the item tracks was merged. -/
structure SeesMerge (env : Env) (db : Db) (wid number : Nat) (item : WorkItem) (pr : PullRequestInfo)
    (mergedAt : DateTime) : Prop where
  found : db.workItems.get? wid = some item
  polled : item.state ∈ prStates
  tracks : item.prNumber = some number
  row : ∃ pid, (db.pullRequests.first fun row => row.repo == env.settings.repo && row.number == number) = some pid
  merged : pr.merged = true
  mergedAt : pr.mergedAt = some mergedAt

/-- Runs applied one after the other, each at its time and with what GitHub answers then. -/
def applyRuns (c : Controller) (steps : List (DateTime × Compare × Nat)) (db : Db) : Db :=
  steps.foldl (fun db step => (applyScanRun (c.env step.1) step.2.1 step.2.2 { db := db }).db) db

theorem FindingState.whenAbsent_isClosing (s : FindingState) : s.whenAbsent.isClosing = true := by
  cases s <;> rfl

/-! ## A run that confirms the merge -/

section Confirming

variable {env : Env} {cmp : Compare} {db : Db} {wid : Nat} {item : WorkItem} {ev : Evidence}

/-- What no scanner shows in any version no detector shows. -/
theorem not_shown_of_absent {fid : Nat} {f : Finding} (hf : db.findings.get? fid = some f)
    (habsent : familyKey f ∉ presentFamilies db ev.sightings) :
    shownBy f (sightingsFor fid ev.rid ev.sightings (familyIds db f)) = false := by
  unfold shownBy
  rw [List.any_eq_false]
  intro s _ hs
  exact habsent (present_of_shown hf hs)

theorem Confirms.outcome (h : Confirms env cmp db wid item ev) {k : Nat} (hk : k ∈ db.members wid) {f : Finding}
    (hf : db.findings.get? k = some f) : memberOutcome env cmp db ev item k f = .fixed :=
  memberOutcome_eq_fixed.mpr ⟨h.valid k hk f hf, not_shown_of_absent hf (h.absent k hk f hf)⟩

/-- **A run that confirms the merge verifies the item.** -/
theorem Confirms.settles (h : Confirms env cmp db wid item ev) (hne : db.members wid ≠ []) :
    settledState env cmp db ev wid item = .verified := by
  refine settledState_eq_verified.mpr ⟨h.valid, hne, fun k hk f hf => ?_⟩
  rw [h.outcome hk hf]
  cases hc : f.state.isClosing with
  | true => exact Or.inl rfl
  | false => exact Or.inr (by simp [hasEdge, hc])

/-- A member whose outcome is `fixed`. -/
theorem settledMember_of_fixed {k : Nat} {h : History} (ho : memberOutcome env cmp db ev item k h.1 = .fixed) :
    (settledMember env cmp db ev wid item k h).1.state = h.1.state.whenAbsent ∧
      (settledMember env cmp db ev wid item k h).1.core = h.1.core := by
  have hevent : closingEvent ev.run.externalRunId .fixed =
      some (.closingAbsent, "absent in run " ++ ev.run.externalRunId, "scanner") := rfl
  unfold settledMember judged
  rw [ho, hevent]
  dsimp only
  rw [if_neg (by decide)]
  unfold fired FindingState.whenAbsent
  rw [next_closingAbsent]
  cases h.1.state.isClosing with
  | true => exact ⟨rfl, rfl⟩
  | false => exact ⟨rfl, rfl⟩

/-- A closed finding that the run does not show is neither reopened nor closed for drift. -/
theorem closed_of_absent {fid : Nat} {h : History} (hc : h.1.state.isClosing = true)
    (habsent : familyKey h.1 ∉ presentFamilies db ev.sightings) :
    afterDrift env db ev fid (afterRegression env cmp db ev fid h) = h := by
  have hopens : reopens env cmp db ev fid h.1 = false := by simp [reopens, habsent]
  have hdrifts : drifts env db ev h.1 = false := by
    have hno : h.1.state ∉ driftStates := by
      revert hc
      cases h.1.state <;> decide
    simp [drifts, hno]
  unfold afterRegression
  rw [hopens, if_neg Bool.false_ne_true]
  unfold afterDrift
  rw [hdrifts, if_neg Bool.false_ne_true]

theorem evaluated_of_absent {fid : Nat} {h : History} (hc : h.1.state.isClosing = true)
    (habsent : familyKey h.1 ∉ presentFamilies db ev.sightings) : evaluated env cmp db ev fid h = h := by
  unfold evaluated
  rw [afterClosing_of_closing hc]
  exact closed_of_absent hc habsent

/-- A member of an item that waits for a run, when the run confirms the merge. -/
theorem Confirms.evaluated (h : Confirms env cmp db wid item ev) (hi : db.workItems.get? wid = some item)
    (hst : item.state ∈ [WorkItemState.merged, .awaitingRescan]) {k : Nat} (hk : k ∈ db.members wid) {hist : History}
    (hf : db.findings.get? k = some hist.1) :
    evaluated env cmp db ev k hist = settledMember env cmp db ev wid item k hist := by
  obtain ⟨f, hf', howner⟩ := Db.mem_members.mp hk
  cases hf.symm.trans hf'
  obtain ⟨hstate, hcore⟩ := settledMember_of_fixed (h := hist) (h.outcome hk hf)
  unfold HardeningLoop.evaluated afterClosing
  rw [judge_eq_some.mpr ⟨howner, hi, hst⟩]
  refine closed_of_absent ?_ ?_
  · rw [hstate]
    exact FindingState.whenAbsent_isClosing _
  · rw [Finding.of_core familyKey (fun _ => rfl) hcore]
    exact h.absent k hk _ hf

end Confirming

/-! ## A merged item that waits for a run -/

/-- The members of an item are as they were, up to what a merge writes. -/
structure SameMembers (db : Db) (wid : Nat) (db' : Db) : Prop where
  evidence : SameEvidence db db'
  scans : SameScans db db'
  members : db'.members wid = db.members wid
  rows : ∀ k ∈ db.members wid, ∀ f, db.findings.get? k = some f → ∃ f', db'.findings.get? k = some f' ∧
    f'.core = f.core ∧
    f'.closedByRunId = f.closedByRunId ∧ f'.state.whenAbsent = f.state.whenAbsent

/-- The item waits for a closing run on the terms of `item`, with its members. -/
structure Awaits (db : Db) (wid : Nat) (item : WorkItem) (db' : Db) : Prop extends SameMembers db wid db' where
  waits : ∃ item', db'.workItems.get? wid = some item' ∧ item'.state ∈ [WorkItemState.merged, .awaitingRescan] ∧
    item'.terms = item.terms

/-- The item is verified and its members are closed: as they were, or as fixed. -/
structure Confirmed (db : Db) (wid : Nat) (db' : Db) : Prop where
  scans : SameScans db db'
  verified : db'.itemState wid = some .verified
  rows : ∀ k ∈ db.members wid, ∀ f, db.findings.get? k = some f → ∃ f', db'.findings.get? k = some f' ∧
    f'.core = f.core ∧
    f'.state = f.state.whenAbsent

section Waiting

variable {env : Env} {cmp : Compare} {db db' : Db} {wid rid : Nat} {item item' : WorkItem} {ev : Evidence}

/-- The validity of a run for a member depends on the terms of the item, on what was reported and on what closed it. -/
theorem memberValidity_congr {k : Nat} {f f' : Finding} (hterms : item'.terms = item.terms) (hcore : f'.core = f.core)
    (hclosed : f'.closedByRunId = f.closedByRunId) :
    memberValidity env cmp db ev item' k f' = memberValidity env cmp db ev item k f := by
  obtain ⟨hsha, -, hkind, hresolution⟩ : item'.mergeSha = item.mergeSha ∧ item'.mergedAt = item.mergedAt ∧
      item'.kind = item.kind ∧ item'.humanResolution = item.humanResolution := by
    simpa [WorkItem.terms] using hterms
  have hlast := Finding.of_core Finding.lastSeenRunId (fun _ => rfl) hcore
  have hlater : laterRunSaw db ev.rid ev.run f' = laterRunSaw db ev.rid ev.run f := by
    unfold laterRunSaw
    rw [hlast, hclosed]
  have hvalid (policy : Bool) (later : Option ScanRun) :
      validateClosingRun env.ext ev.run ev.jobs f' item.mergeSha (isAncestor cmp ⟨true, ev.rid, k⟩) policy later =
        validateClosingRun env.ext ev.run ev.jobs f item.mergeSha (isAncestor cmp ⟨true, ev.rid, k⟩) policy later :=
    Finding.of_core
      (fun f => validateClosingRun env.ext ev.run ev.jobs f item.mergeSha (isAncestor cmp ⟨true, ev.rid, k⟩)
      policy later) (fun _ => rfl) hcore
  unfold memberValidity
  rw [hsha, hkind, hresolution, hlater]
  exact hvalid _ _

theorem Awaits.evidence_eq (h : Awaits db wid item db') (rid : Nat) : db'.evidence rid = db.evidence rid := by
  unfold Db.evidence Db.jobsOf Db.sightingsOf
  rw [h.evidence.scanRuns, h.scans.scanJobs, h.scans.sightings]

/-- What confirmed the merge when it was seen confirms it as long as the item waits. -/
theorem Awaits.confirms (h : Awaits db wid item db') (hi : db'.workItems.get? wid = some item')
    (hc : Confirms env cmp db wid item ev) : Confirms env cmp db' wid item' ev := by
  obtain ⟨_, hi', -, hterms⟩ := h.waits
  cases hi.symm.trans hi'
  have hrow : ∀ k ∈ db'.members wid, ∀ f', db'.findings.get? k = some f' → ∃ f, k ∈ db.members wid ∧
      db.findings.get? k = some f ∧ f'.core = f.core ∧ f'.closedByRunId = f.closedByRunId := by
    intro k hk f' hf'
    rw [h.members] at hk
    obtain ⟨f, hf, -⟩ := Db.mem_members.mp hk
    obtain ⟨f'', hf'', hcore, hclosed, -⟩ := h.rows k hk f hf
    cases hf'.symm.trans hf''
    exact ⟨f, hk, hf, hcore, hclosed⟩
  constructor
  · intro k hk f' hf'
    obtain ⟨f, hk, hf, hcore, hclosed⟩ := hrow k hk f' hf'
    rw [h.evidence.memberValidity, memberValidity_congr hterms hcore hclosed]
    exact hc.valid k hk f hf
  · intro k hk f' hf'
    obtain ⟨f, hk, hf, hcore, -⟩ := hrow k hk f' hf'
    rw [h.evidence.presentFamilies, Finding.of_core familyKey (fun _ => rfl) hcore]
    exact hc.absent k hk f hf

/-- The rows of the members once a run that confirms the merge has judged them. -/
theorem Awaits.rows_settled (h : Awaits db wid item db') (hi : db'.workItems.get? wid = some item')
    (hc : Confirms env cmp db wid item ev) {db'' : Db}
    (hafter : ∀ k ∈ db'.members wid, db''.history k = (db'.history k).map (settledMember env cmp db' ev wid item' k)) :
    ∀ k ∈ db.members wid, ∀ f, db.findings.get? k = some f → ∃ f', db''.findings.get? k = some f' ∧ f'.core = f.core ∧
      f'.state = f.state.whenAbsent := by
  intro k hk f hf
  obtain ⟨f', hf', hcore, -, hstate⟩ := h.rows k hk f hf
  have hk' : k ∈ db'.members wid := h.members ▸ hk
  have hhist : db'.history k = some (f', db'.transitions k) := history_eq_some.mpr ⟨hf', rfl⟩
  have hrow := hafter k hk'
  rw [hhist, Option.map_some] at hrow
  have hfixed : memberOutcome env cmp db' ev item' k f' = .fixed := (h.confirms hi hc).outcome hk' hf'
  obtain ⟨hs, hcore'⟩ := settledMember_of_fixed (h := (f', db'.transitions k)) hfixed
  exact ⟨_, (history_eq_some.mp hrow).1, hcore'.trans hcore, hs.trans hstate⟩

/-- A run is replayed for the item. -/
theorem Awaits.replayed {t : Tx} (h : Awaits db wid item t.db) (hne : db.members wid ≠ [])
    (hev : db.evidence rid = some ev)
    (hc : Confirms env cmp db wid item ev) : Confirmed db wid (replayRun env cmp wid t rid).db := by
  obtain ⟨item', hi, hst, -⟩ := h.waits
  have hwaits : (t.db.workItems.get? wid).any (fun w => w.state ∈ [WorkItemState.merged, .awaitingRescan]) = true := by
    rw [hi, Option.any_some]
    exact decide_eq_true hst
  have hrun : replayRun env cmp wid t rid = closeWorkItem env cmp ev t wid := by
    unfold replayRun
    rw [if_pos hwaits, h.evidence_eq, hev]
  have hacts := closeWorkItem_does env cmp ev t wid
  rw [hrun]
  constructor
  case scans =>
    exact ⟨hacts.findings_core.trans h.scans.core, hacts.scanJobs.trans h.scans.scanJobs,
      hacts.sightings.trans h.scans.sightings⟩
  case verified =>
    rw [closeWorkItem_itemState hi hst, (h.confirms hi hc).settles (by rwa [h.members])]
  case rows =>
    refine h.rows_settled hi hc fun k hk => ?_
    rw [closeWorkItem_history hi, if_pos hk]

/-- A verified item is not replayed any more. -/
theorem Confirmed.replayed {t : Tx} (h : Confirmed db wid t.db) :
    Confirmed db wid (replayRun env cmp wid t rid).db := by
  obtain ⟨item', hi, hstate⟩ := Option.map_eq_some_iff.mp h.verified
  have hno : (t.db.workItems.get? wid).any (fun w => w.state ∈ [WorkItemState.merged, .awaitingRescan]) = false := by
    rw [hi, Option.any_some, hstate]
    rfl
  unfold replayRun
  rw [hno]
  exact h

/-- **The replay verifies the item**, if any run was applied since the merge. -/
theorem closeFromAppliedRuns_confirmed {t : Tx} {mergedAt : DateTime} (h : Awaits db wid item t.db)
    (hat : item.mergedAt = some mergedAt) (hne : db.members wid ≠ [])
    (hc : ∀ rid ∈ runsSince db mergedAt, ∀ ev, db.evidence rid = some ev → Confirms env cmp db wid item ev) :
    (Confirmed db wid (closeFromAppliedRuns env cmp t wid).db) ∨
      ((∀ rid ∈ runsSince db mergedAt, ∀ ev, db.evidence rid = some ev → ev.run.closureAppliedAt = none) ∧
        Awaits db wid item (closeFromAppliedRuns env cmp t wid).db) := by
  obtain ⟨item', hi, -, hterms⟩ := h.waits
  have hmerged : (t.db.workItems.get? wid).bind WorkItem.mergedAt = some mergedAt := by
    have hsame : item'.mergedAt = item.mergedAt := congrArg (fun terms => terms.2.1) hterms
    rw [hi, Option.bind_some, hsame, hat]
  have hreplay : closeFromAppliedRuns env cmp t wid = (replayedRuns t.db mergedAt).foldl (replayRun env cmp wid) t := by
    unfold closeFromAppliedRuns
    rw [hmerged]
  have hmem (rid : Nat) : rid ∈ replayedRuns t.db mergedAt ↔ ∃ run, db.scanRuns.get? rid = some run ∧
      run.closureAppliedAt.isSome = true ∧ run.finishedAt.any (mergedAt ≤ ·) = true := by
    rw [replayedRuns, List.mem_insertionSort, h.evidence.scanRuns, Table.mem_select]
    simp only [Bool.and_eq_true]
  rw [hreplay]
  cases hruns : replayedRuns t.db mergedAt with
  | nil =>
    refine Or.inr ⟨fun rid hrid ev hev => ?_, h⟩
    by_contra hsome
    obtain ⟨hrun, -⟩ := evidence_eq_some.mp hev
    obtain ⟨run, hrun', hsince⟩ := Table.mem_select.mp hrid
    cases hrun.symm.trans hrun'
    have hin := (hmem rid).mpr ⟨ev.run, hrun, Option.isSome_iff_ne_none.mpr hsome, hsince⟩
    rw [hruns] at hin
    cases hin
  | cons rid rids =>
    obtain ⟨run, hrun, -, hsince⟩ := (hmem rid).mp (hruns ▸ List.mem_cons_self)
    have hev : db.evidence rid = some ⟨rid, run, db.jobsOf rid, db.sightingsOf rid⟩ := by
      rw [Db.evidence, hrun]
      rfl
    have hfirst : Confirmed db wid (replayRun env cmp wid t rid).db :=
      h.replayed hne hev (hc rid (Table.mem_select.mpr ⟨run, hrun, hsince⟩) _ hev)
    refine Or.inl ?_
    rw [List.foldl_cons]
    exact Rows.foldl_invariant (fun t : Tx => Confirmed db wid t.db) (fun _ _ _ h => h.replayed) hfirst

end Waiting

/-! ## The poll that sees the merge -/

section Poll

variable {env : Env} {db : Db} {wid number : Nat} {item : WorkItem} {pr : PullRequestInfo} {t t' : Tx}

/-- What a merge writes to a member. -/
theorem fired_prMerged (fid : Nat) (reason actor : String) (h : History) :
    (fired env fid .prMerged reason actor none h).1.core = h.1.core ∧
      (fired env fid .prMerged reason actor none h).1.closedByRunId = h.1.closedByRunId ∧
      (fired env fid .prMerged reason actor none h).1.state.whenAbsent = h.1.state.whenAbsent := by
  have hopen : ∀ s after, nextFindingState s .prMerged = some after → s.isClosing = false ∧
    after.isClosing = false := by
    intro s after
    cases s <;> cases after <;> decide
  unfold fired
  cases hn : nextFindingState h.1.state .prMerged with
  | none => exact ⟨rfl, rfl, rfl⟩
  | some after =>
    obtain ⟨hbefore, hafter⟩ := hopen _ _ hn
    refine ⟨rfl, ?_, ?_⟩
    · dsimp only [Tx.settled]
      rw [hafter]
      rfl
    · dsimp only [Tx.settled]
      unfold FindingState.whenAbsent
      rw [hbefore, hafter, if_neg Bool.false_ne_true, if_neg Bool.false_ne_true]

namespace SameMembers

theorem refl (db : Db) (wid : Nat) : SameMembers db wid db :=
  ⟨⟨rfl, rfl⟩, .refl db, rfl, fun _ _ f hf => ⟨f, hf, rfl, rfl, rfl⟩⟩

/-- A unit that leaves the findings alone. -/
theorem frame {S : Scope} (h : SameMembers db wid t.db) (hacts : Acts env S t t') (hS : ∀ k, ¬ S.findings k) :
    SameMembers db wid t'.db := by
  have hrow (k : Nat) : t'.db.findings.get? k = t.db.findings.get? k := row_of_history (hacts.history (hS k))
  constructor
  case evidence => exact h.evidence.trans hacts.sameEvidence
  case scans =>
    exact ⟨hacts.findings_core.trans h.scans.core, hacts.scanJobs.trans h.scans.scanJobs,
      hacts.sightings.trans h.scans.sightings⟩
  case members =>
    rw [← h.members]
    exact Table.select_congr hacts.sameEvidence.size fun k => by rw [hrow]
  case rows =>
    intro k hk f hf
    rw [hrow]
    exact h.rows k hk f hf

/-- A merge writes one member. -/
theorem mergeMember (h : SameMembers db wid t.db) (sha : String) (fid : Nat) :
    SameMembers db wid (mergeMember env sha t fid).db := by
  have hacts : Acts env (.findingsOnly (· = fid)) t (HardeningLoop.mergeMember env sha t fid) :=
    Acts.refl.finding rfl (Or.inr (by decide)) ..
  have hhist (k : Nat) : (HardeningLoop.mergeMember env sha t fid).db.history k =
      if k = fid then (t.db.history k).map (fired env fid .prMerged sha "controller" none) else t.db.history k :=
    history_finding ..
  have hrow (k : Nat) (f : Finding) (hf : t.db.findings.get? k = some f) : ∃ f',
      (HardeningLoop.mergeMember env sha t fid).db.findings.get? k = some f' ∧ f'.workItemId = f.workItemId ∧
        f'.core = f.core ∧ f'.closedByRunId = f.closedByRunId ∧ f'.state.whenAbsent = f.state.whenAbsent := by
    have hbefore : t.db.history k = some (f, t.db.transitions k) := history_eq_some.mpr ⟨hf, rfl⟩
    have hafter := hhist k
    rw [hbefore, Option.map_some] at hafter
    split at hafter
    · exact ⟨_, (history_eq_some.mp hafter).1, fired_owner .., fired_prMerged ..⟩
    · exact ⟨f, (history_eq_some.mp hafter).1, rfl, rfl, rfl, rfl⟩
  constructor
  case evidence => exact h.evidence.trans hacts.sameEvidence
  case scans =>
    exact ⟨hacts.findings_core.trans h.scans.core, hacts.scanJobs.trans h.scans.scanJobs,
      hacts.sightings.trans h.scans.sightings⟩
  case members =>
    rw [← h.members]
    refine Table.select_congr hacts.sameEvidence.size fun k => ?_
    cases hf : t.db.findings.get? k with
    | none =>
      cases hf' : (HardeningLoop.mergeMember env sha t fid).db.findings.get? k with
      | none => rfl
      | some f' =>
        obtain ⟨f, hback, -⟩ := hacts.finding_back hf'
        rw [hf] at hback
        cases hback
    | some f =>
      obtain ⟨f', hf', howner, -⟩ := hrow k f hf
      rw [hf', Option.any_some, Option.any_some, howner]
  case rows =>
    intro k hk f hf
    obtain ⟨f₁, hf₁, hcore₁, hclosed₁, hstate₁⟩ := h.rows k hk f hf
    obtain ⟨f₂, hf₂, -, hcore₂, hclosed₂, hstate₂⟩ := hrow k f₁ hf₁
    exact ⟨f₂, hf₂, hcore₂.trans hcore₁, hclosed₂.trans hclosed₁, hstate₂.trans hstate₁⟩

end SameMembers

/-- The merge on the item, with the level of its pull request. -/
theorem itemTerms_recordMerge {mergedAt : DateTime} (hat : pr.mergedAt = some mergedAt) (pid : Nat)
    (h : t.db.itemTerms wid = some item.terms) :
    (recordMerge env t wid pid pr).db.itemTerms wid = some (item.mergedAs pr mergedAt).terms := by
  obtain ⟨w, hw, hterms⟩ := Option.map_eq_some_iff.mp h
  obtain ⟨-, -, hkind, hresolution⟩ : w.mergeSha = item.mergeSha ∧ w.mergedAt = item.mergedAt ∧ w.kind = item.kind ∧
      w.humanResolution = item.humanResolution := by
    simpa [WorkItem.terms] using hterms
  have hrow : (recordMerge env t wid pid pr).db.workItems.get? wid = some (w.mergedAs pr mergedAt) := by
    simp only [recordMerge, Tx.modifyItem, Tx.modifyPullRequest, Table.get?_modify_self, hw, Option.map_some, hat,
      Option.getD_some]
    rfl
  rw [Db.itemTerms, hrow, Option.map_some]
  simp only [WorkItem.mergedAs, WorkItem.terms, hkind, hresolution]

/-- A new head of a pull request that is merged is recorded, and nothing is verified again. -/
theorem itemTerms_applyNewHead (hm : pr.merged = true) (pid : Nat) (row : PullRequest) :
    (applyNewHead env t wid pid row pr).db.itemTerms wid = t.db.itemTerms wid := by
  unfold applyNewHead
  split
  · rfl
  · simp only [hm, Bool.not_true, Bool.false_and, Bool.false_eq_true, if_false]
    exact itemTerms_modifyItem _ wid fun _ => rfl

/-- **A poll that sees the merge** is the replay of the applied runs, for an item that waits for one. -/
theorem SeesMerge.poll {mergedAt : DateTime} (h : SeesMerge env db wid number item pr mergedAt) (checks : List CheckRun)
    (answers : PrAnswers) : ∃ t : Tx, Awaits db wid (item.mergedAs pr mergedAt) t.db ∧
      pollPullRequest env wid number pr checks answers
      { db := db } = closeFromAppliedRuns env answers.compare t wid := by
  obtain ⟨pid, hfirst⟩ := h.row
  obtain ⟨row, hrow, -⟩ := Table.first_eq_some hfirst
  set t₀ : Tx := { db := db } with ht₀
  set t₁ :=
    applyNewHead env (t₀.modifyPullRequest pid fun row => { row with updatedAt := env.now }) wid pid row pr with ht₁
  set t₂ := recordMerge env t₁ wid pid pr with ht₂
  set t₃ := blockUnverified env t₂ wid with ht₃
  have hhead : OnPull env wid t₀ t₁ := (polledHead_does env t₀ wid pid row pr).onChecks.onPull
  have hrecord : OnPull env wid t₁ t₂ := (recordMerge_does env t₁ wid pid pr).closing_onPull
  have hstate₀ : t₂.db.itemState wid = some item.state := by
    have hsame : t₁.db.itemState wid = t₀.db.itemState wid :=
      (polledHead_standing (Or.inl h.merged) t₀ wid pid row).2 wid
    have hrecorded : t₂.db.itemState wid = t₁.db.itemState wid := by
      simp only [ht₂, recordMerge, Db.itemState, Tx.modifyItem, Tx.modifyPullRequest, Table.get?_modify_self,
        Option.map_map]
      rfl
    rw [hrecorded, hsame, ht₀, Db.itemState, h.found, Option.map_some]
  obtain ⟨s, hs, hstate⟩ := accepted_blockUnverified env hstate₀ h.polled
  have haccepted : mergeAccepted t₃.db wid = true := by
    rw [mergeAccepted, hstate, Option.any_some, decide_eq_true_eq]
    exact hs
  have hmerged : nextWorkItemState s .humanMerged = some .merged := by
    revert hs
    cases s <;> decide
  set t₄ := t₃.wi env wid .humanMerged (pr.mergeCommitSha.getD "") "human" with ht₄
  set t₅ := raiseLevel env t₄ wid pid .merged "merged" with ht₅
  have hwaits : t₅.db.itemState wid = some .merged := by
    have hraise : Acts env ⟨fun _ => False, False, fun _ => True, fun _ => False, False, fun _ => True⟩ t₄ t₅ :=
      raiseLevel_acts env t₄ trivial pid (Or.inr (by decide)) (Or.inl trivial) "merged"
    exact hraise.unmoved (fun _ => not_false) (Tx.wi_itemState env t₃ hstate hmerged _ _)
  have hterms : t₅.db.itemTerms wid = some (item.mergedAs pr mergedAt).terms := by
    have hbefore : t₁.db.itemTerms wid = some item.terms := by
      rw [ht₁, itemTerms_applyNewHead h.merged]
      exact congrArg (Option.map WorkItem.terms) h.found
    have hblock : t₃.db.itemTerms wid = t₂.db.itemTerms wid := by
      rw [ht₃]
      unfold blockUnverified
      split
      · rfl
      · exact itemTerms_wi ..
    rw [ht₅, itemTerms_raiseLevel, ht₄, itemTerms_wi, hblock]
    exact itemTerms_recordMerge h.mergedAt pid hbefore
  have hfrozen : SameMembers db wid t₅.db := by
    have hblock : Acts env (.closing wid fun _ => False) t₂ t₃ := (blockUnverified_does env t₂ wid).closing
    have hfire : OnItem env wid t₃ t₄ := Acts.refl.fire .humanMerged _ _ (by decide)
    refine SameMembers.frame ?_ (raiseLevel_does env t₄ wid pid (by decide) "merged") fun _ => not_false
    refine SameMembers.frame ?_ ((hblock.trans hfire.closing).closing_onPull) fun _ => not_false
    exact (SameMembers.refl db wid).frame (hhead.trans hrecord) fun _ => not_false
  set members := t₅.db.members wid
  refine ⟨members.foldl (mergeMember env (pr.mergeCommitSha.getD "")) t₅, ⟨?_, ?_⟩, ?_⟩
  · exact Rows.foldl_invariant (fun t : Tx => SameMembers db wid t.db) (fun t fid _ h => h.mergeMember _ fid) hfrozen
  · have hitems : (members.foldl (mergeMember env (pr.mergeCommitSha.getD "")) t₅).db.workItems = t₅.db.workItems := by
      refine Rows.foldl_frame (fun t : Tx => t.db.workItems) (fun t fid _ => ?_) t₅
      have hacts : Acts env (.findingsOnly (· = fid)) t (mergeMember env (pr.mergeCommitSha.getD "") t fid) :=
        Acts.refl.finding rfl (Or.inr (by decide)) ..
      exact hacts.workItems not_false fun _ => not_false
    obtain ⟨item', hi', hst'⟩ := Option.map_eq_some_iff.mp hwaits
    rw [Db.itemTerms, hi', Option.map_some, Option.some.injEq] at hterms
    refine ⟨item', by rw [hitems, hi'], ?_, hterms⟩
    rw [hst']
    exact List.mem_cons_self
  · rw [pollPullRequest_eq h.found h.polled h.tracks hfirst hrow]
    unfold applyPr applyMerge completeMerge
    dsimp only
    rw [if_pos h.merged, if_pos haccepted]

end Poll

/-! ## Runs that are applied to the merged item -/

section Applying

variable {env : Env} {cmp : Compare} {db : Db} {wid rid : Nat} {item : WorkItem} {ev : Evidence}

/-- What the scans show is the same as long as they are. -/
theorem SameScans.presentFamilies {db' : Db} (h : SameScans db db') (sightings : List Sighting) :
    presentFamilies db' sightings = HardeningLoop.presentFamilies db sightings := by
  have hev : SameEvidence db { db' with scanRuns := db.scanRuns } := ⟨rfl, h.core⟩
  exact hev.presentFamilies sightings

/-- An evaluation leaves the scans as they are. -/
theorem applyScanRun_sameScans (t : Tx) : SameScans t.db (applyScanRun env cmp rid t).db := by
  unfold applyScanRun
  split
  · split
    · exact .refl _
    · rename_i ev _ _
      have hacts : Acts env _ t _ := evaluation_does env cmp ev t
      exact ⟨hacts.findings_core, hacts.scanJobs, hacts.sightings⟩
  · exact .refl _

/-- **A pending run verifies the item** that waits for it. -/
theorem Awaits.applied {t : Tx} (h : Awaits db wid item t.db) (hne : db.members wid ≠ [])
    (hev : db.evidence rid = some ev) (hnone : ev.run.closureAppliedAt = none) (hc : Confirms env cmp db wid item ev) :
    Confirmed db wid (applyScanRun env cmp rid t).db := by
  obtain ⟨item', hi, hst, -⟩ := h.waits
  have hconfirms : Confirms env cmp t.db wid item' ev := h.confirms hi hc
  have hev' : t.db.evidence rid = some ev := (h.evidence_eq rid).trans hev
  constructor
  case scans => exact h.scans.trans (applyScanRun_sameScans t)
  case verified =>
    have hnot : t.db.itemState wid ≠ some .verified := by
      rw [Db.itemState, hi, Option.map_some]
      intro hverified
      rw [Option.some.inj hverified] at hst
      exact absurd hst (by decide)
    refine (applyScanRun_verified hev' hnone hnot).mpr ⟨item', hi, hst, hconfirms.settles ?_⟩
    rw [h.members]
    exact hne
  case rows =>
    refine h.rows_settled hi hc fun k hk => ?_
    obtain ⟨f, hf, -⟩ := Db.mem_members.mp hk
    have hhist : t.db.history k = some (f, t.db.transitions k) := history_eq_some.mpr ⟨hf, rfl⟩
    have hafter : (applyScanRun env cmp rid t).db.history k = (t.db.history k).map (evaluated env cmp t.db ev k) :=
      applyScanRun_history hev' hnone k
    rw [hafter, hhist, Option.map_some, Option.map_some]
    exact congrArg some (hconfirms.evaluated hi hst hk hf)

/-- An item that is verified stays so, with its members. -/
theorem Confirmed.applied {db' : Db} (h : Confirmed db wid db')
    (habsent : ∀ k ∈ db.members wid, ∀ f, db.findings.get? k = some f →
      familyKey f ∉ presentFamilies db (db.sightingsOf rid)) :
    Confirmed db wid (applyScanRun env cmp rid { db := db' }).db := by
  by_cases howed : ∃ ev, db'.evidence rid = some ev ∧ ev.run.closureAppliedAt = none
  · obtain ⟨ev, hev, hnone⟩ := howed
    have hsightings : ev.sightings = db.sightingsOf rid := by
      rw [(evidence_eq_some.mp hev).2.2.2, Db.sightingsOf, h.scans.sightings]
      rfl
    constructor
    case scans => exact h.scans.trans (applyScanRun_sameScans { db := db' })
    case verified =>
      have hcommits :
          Commits ⟨env.settings, env.ext, env.playbookIds⟩ _ db' (applyScanRun env cmp rid { db := db' }).db :=
        applyScanRun_commits env cmp rid db'
      exact hcommits.stays_verified h.verified
    case rows =>
      intro k hk f hf
      obtain ⟨f', hf', hcore, hstate⟩ := h.rows k hk f hf
      have hhist : db'.history k = some (f', db'.transitions k) := history_eq_some.mpr ⟨hf', rfl⟩
      have hafter : (applyScanRun env cmp rid { db := db' }).db.history k =
          (db'.history k).map (evaluated env cmp db' ev k) := applyScanRun_history hev hnone k
      have hsame : evaluated env cmp db' ev k (f', db'.transitions k) = (f', db'.transitions k) := by
        refine evaluated_of_absent ?_ ?_
        · rw [hstate]
          exact FindingState.whenAbsent_isClosing _
        · rw [h.scans.presentFamilies, Finding.of_core familyKey (fun _ => rfl) hcore, hsightings]
          exact habsent k hk f hf
      rw [hhist, Option.map_some, hsame] at hafter
      exact ⟨f', (history_eq_some.mp hafter).1, hcore, hstate⟩
  · have hidle : applyScanRun env cmp rid { db := db' } = { db := db' } := by
      refine applyScanRun_idle fun ev hev => ?_
      rw [Option.isSome_iff_ne_none]
      exact fun hnone => howed ⟨ev, hev, hnone⟩
    rw [hidle]
    exact h

variable {c : Controller} {steps : List (DateTime × Compare × Nat)}

theorem Confirmed.runs {db' : Db} (h : Confirmed db wid db')
    (hsteps : ∀ step ∈ steps, ∀ k ∈ db.members wid, ∀ f, db.findings.get? k = some f →
      familyKey f ∉ presentFamilies db (db.sightingsOf step.2.2)) : Confirmed db wid (applyRuns c steps db') :=
  Rows.foldl_invariant (Confirmed db wid) (fun _ step hstep h => h.applied (hsteps step hstep)) h

/-- **The runs verify the item**, if one of them is pending. -/
theorem applyRuns_confirmed {db' : Db} (h : Awaits db wid item db') (hne : db.members wid ≠ [])
    (hsteps : ∀ step ∈ steps, ∃ ev, db.evidence step.2.2 = some ev ∧ Confirms (c.env step.1) step.2.1 db wid item ev)
    (hpending : ∃ step ∈ steps, ∀ ev, db.evidence step.2.2 = some ev → ev.run.closureAppliedAt = none) :
    Confirmed db wid (applyRuns c steps db') := by
  induction steps with
  | nil =>
    obtain ⟨_, hstep, -⟩ := hpending
    cases hstep
  | cons step steps ih =>
    obtain ⟨ev, hev, hc⟩ := hsteps step List.mem_cons_self
    have hrest := fun step' hstep' => hsteps step' (List.mem_cons_of_mem step hstep')
    unfold applyRuns
    rw [List.foldl_cons]
    by_cases hnone : ev.run.closureAppliedAt = none
    · refine Confirmed.runs (Awaits.applied (t := { db := db' }) h hne hev hnone hc) fun step' hstep' => ?_
      obtain ⟨ev', hev', hc'⟩ := hrest step' hstep'
      rw [← (evidence_eq_some.mp hev').2.2.2]
      exact hc'.absent
    · have hidle : applyScanRun (c.env step.1) step.2.1 step.2.2 { db := db' } = { db := db' } := by
        refine applyScanRun_idle fun ev' hev' => ?_
        have hsame : db'.evidence step.2.2 = some ev := (h.evidence_eq step.2.2).trans hev
        cases hsame.symm.trans hev'
        exact Option.isSome_iff_ne_none.mpr hnone
      rw [hidle]
      refine ih hrest ?_
      obtain ⟨step', hstep', hpending⟩ := hpending
      rcases List.mem_cons.mp hstep' with rfl | hstep'
      · exact absurd (hpending ev hev) hnone
      · exact ⟨step', hstep', hpending⟩

end Applying

/-- **A merge and its rescans in any order.** Whichever runs since the merge were applied before a poll sees it and
whichever are applied after, the item is verified. Its members are closed as fixed, and those that were closed stay as
they were. -/
theorem merge_order {c : Controller} {now : DateTime} {db : Db} {wid number : Nat} {item : WorkItem}
    {pr : PullRequestInfo}
    {mergedAt : DateTime} (h : SeesMerge (c.env now) db wid number item pr mergedAt) (checks : List CheckRun)
    (answers : PrAnswers) (later : List (DateTime × Compare × Nat)) (hmembers : db.members wid ≠ [])
    (hruns : runsSince db mergedAt ≠ [])
    (hbefore : ∀ rid ∈ runsSince db mergedAt, ∀ ev, db.evidence rid = some ev →
      Confirms (c.env now) answers.compare db wid (item.mergedAs pr mergedAt) ev)
    (hafter : ∀ step ∈ later, step.2.2 ∈ runsSince db mergedAt ∧ ∀ ev, db.evidence step.2.2 = some ev →
      Confirms (c.env step.1) step.2.1 db wid (item.mergedAs pr mergedAt) ev)
    (hall : ∀ rid ∈ runsSince db mergedAt, (∀ ev, db.evidence rid = some ev → ev.run.closureAppliedAt = none) →
      ∃ step ∈ later, step.2.2 = rid) :
    (applyRuns c later (pollPullRequest (c.env now) wid number pr checks answers { db := db }).db).itemState wid =
        some .verified ∧
      ∀ k ∈ db.members wid, ∀ f, db.findings.get? k = some f →
        (applyRuns c later (pollPullRequest (c.env now) wid number pr checks answers { db := db }).db).findingState k =
          some f.state.whenAbsent := by
  have hevidence : ∀ rid ∈ runsSince db mergedAt, ∃ ev, db.evidence rid = some ev := by
    intro rid hrid
    obtain ⟨run, hrun, -⟩ := Table.mem_select.mp hrid
    exact ⟨⟨rid, run, db.jobsOf rid, db.sightingsOf rid⟩, evidence_eq_some.mpr ⟨hrun, rfl, rfl, rfl⟩⟩
  have hsteps : ∀ step ∈ later, ∃ ev, db.evidence step.2.2 = some ev ∧
      Confirms (c.env step.1) step.2.1 db wid (item.mergedAs pr mergedAt) ev := by
    intro step hstep
    obtain ⟨hrid, hc⟩ := hafter step hstep
    obtain ⟨ev, hev⟩ := hevidence _ hrid
    exact ⟨ev, hev, hc ev hev⟩
  suffices hconfirmed : Confirmed db wid
      (applyRuns c later (pollPullRequest (c.env now) wid number pr checks answers { db := db }).db) by
    refine ⟨hconfirmed.verified, fun k hk f hf => ?_⟩
    obtain ⟨f', hf', -, hstate⟩ := hconfirmed.rows k hk f hf
    rw [Db.findingState, hf', Option.map_some, hstate]
  obtain ⟨t, hawaits, hpoll⟩ := h.poll checks answers
  rw [hpoll]
  rcases closeFromAppliedRuns_confirmed hawaits rfl hmembers hbefore with hconfirmed | ⟨hnone, hawaits⟩
  · refine hconfirmed.runs fun step hstep => ?_
    obtain ⟨ev, hev, hc⟩ := hsteps step hstep
    rw [← (evidence_eq_some.mp hev).2.2.2]
    exact hc.absent
  · refine applyRuns_confirmed hawaits hmembers hsteps ?_
    obtain ⟨rid, hrid⟩ := List.exists_mem_of_ne_nil _ hruns
    obtain ⟨step, hstep, hsame⟩ := hall rid hrid (hnone rid hrid)
    exact ⟨step, hstep, hsame ▸ hnone rid hrid⟩

instance confirmsDecidable (env : Env) (cmp : Compare) (db : Db) (wid : Nat) (item : WorkItem) (ev : Evidence) :
    Decidable (Confirms env cmp db wid item ev) :=
  decidable_of_iff
    ((∀ k ∈ db.members wid, ∀ f ∈ db.findings.get? k, (memberValidity env cmp db ev item k f).valid = true) ∧
      ∀ k ∈ db.members wid, ∀ f ∈ db.findings.get? k, familyKey f ∉ presentFamilies db ev.sightings)
    ⟨fun ⟨h₁, h₂⟩ => ⟨h₁, h₂⟩, fun ⟨h₁, h₂⟩ => ⟨h₁, h₂⟩⟩

/-- The pull request was merged at 15. Of the two scans since, the first one is applied before a poll sees the merge. -/
def racedTrace : List Action :=
  sampleReady ++ [sampleIngest "2" 20 []] ++ sampleApply 21 ++ [sampleIngest "3" 30 []]

theorem merge_order_raced :
    let s := sampleState racedTrace
    (applyRuns sampleController [(40, linearCompare, 3)]
      (pollPullRequest (sampleController.env 35) 1 1 (sampleMerged "a" 15) [] { compare := linearCompare }
        { db := s.db }).db).itemState 1 = some .verified := by
  intro s
  have hall : (s.db.workItems.get? 1).any (fun item => decide (item.state ∈ prStates) && item.prNumber == some 1 &&
      decide (∀ rid ∈ runsSince s.db 15, ∀ ev ∈ s.db.evidence rid,
      Confirms (sampleController.env 35) linearCompare s.db 1
        (item.mergedAs (sampleMerged "a" 15) 15) ev) &&
      decide (∀ ev ∈ s.db.evidence 3, Confirms (sampleController.env 40) linearCompare s.db 1
        (item.mergedAs (sampleMerged "a" 15) 15) ev)) = true := by decide +kernel
  have hfirst : (s.db.pullRequests.first fun row => row.repo == forkRepo && row.number == 1) = some 1 := by
    decide +kernel
  have hmembers : s.db.members 1 ≠ [] := by decide +kernel
  have hruns : runsSince s.db 15 = [2, 3] := by decide +kernel
  have happlied : ((s.db.evidence 2).map fun ev => ev.run.closureAppliedAt) = some (some 21) := by decide +kernel
  obtain ⟨item, hi, hall⟩ := (Option.any_eq_true ..).mp hall
  simp only [Bool.and_eq_true, beq_iff_eq, decide_eq_true_eq] at hall
  obtain ⟨⟨⟨hp, hn⟩, hbefore⟩, hafter⟩ := hall
  have hsees : SeesMerge (sampleController.env 35) s.db 1 1 item (sampleMerged "a" 15) 15 :=
    ⟨hi, hp, hn, ⟨1, hfirst⟩, rfl, rfl⟩
  refine (merge_order hsees [] { compare := linearCompare } [(40, linearCompare, 3)] hmembers ?_ hbefore ?_ ?_).1
  · rw [hruns]
    exact List.cons_ne_nil _ _
  · intro step hstep
    obtain rfl := List.mem_singleton.mp hstep
    refine ⟨?_, hafter⟩
    rw [hruns]
    exact List.mem_cons_of_mem _ List.mem_cons_self
  · intro rid hrid hnone
    rw [hruns] at hrid
    rcases List.mem_cons.mp hrid with rfl | hrid
    · obtain ⟨ev, hev, happlied⟩ := Option.map_eq_some_iff.mp happlied
      rw [hnone ev hev] at happlied
      cases happlied
    · exact ⟨_, List.mem_cons_self, (List.mem_singleton.mp hrid).symm⟩

/-- A package without a fix that both scanners report. -/
def unfixedPair (vuln : String) : List RawVuln :=
  (samplePair vuln "openssl" "1").map fun v =>
    { v with purl := some "pkg:deb/debian/openssl@1", fixedVersions := [], fixState := "not-fixed" }

/-- A push whose raw scan reports `vulns`, and `kept` under the policy documents. -/
def samplePolicyIngest (name : String) (finishedAt : DateTime) (vulns kept : List RawVuln) (documents : List Json) :
    Action :=
  .ingest { externalRunId := name, trigger := .push, sourceRepo := forkRepo, sourceBranch := remediationBranch
            sourceSha := "sha-" ++ name, platform := "linux/amd64", leanDigest := some "sha256:0"
            finishedAt := some finishedAt }
    [sampleScan vulns, { sampleScan kept with mode := .policy, vexDocuments := documents }] [] finishedAt

/-- Two findings without a fix, whose item has a pull request. A human accepts a disposition, which the second run
applies to the first finding; the second one is still present. The third run, after the merge at 30, shows neither. -/
def disposedTrace : List Action :=
  let vulns := unfixedPair "CVE-1" ++ unfixedPair "CVE-2"
  [sampleIngest "1" 10 vulns] ++ sampleReserve 11 ++ sampleCreate 12 ++ sampleOpen 13 "a" ++
    samplePoll 14 (samplePull "a") sampleGreen (sampleReview .cancelled "a") ++
    [.beginTick, .pollHumanLabel 15 1 7 "open" [HumanLabel.dispositionApproved.value], .stop,
      samplePolicyIngest "2" 20 vulns (unfixedPair "CVE-2")
        [approvedDocument sampleIssue.url "CVE-1" ["pkg:deb/debian/openssl@1"]]] ++
    sampleApply 21 ++ [samplePolicyIngest "3" 40 [] [] []]

/-- The only run since the merge shows every member absent and verifies the item, and one member is not fixed: it stays
accepted. -/
theorem disposition_stays : ∃ s item ev, Reachable sampleController s ∧
    SeesMerge (sampleController.env 45) s.db 1 1 item (sampleMerged "a" 30) 30 ∧ runsSince s.db 30 = [3] ∧
    s.db.evidence 3 = some ev ∧
    Confirms (sampleController.env 45) linearCompare s.db 1 (item.mergedAs (sampleMerged "a" 30) 30) ev ∧
    Confirms (sampleController.env 50) linearCompare s.db 1 (item.mergedAs (sampleMerged "a" 30) 30) ev ∧
    s.db.members 1 = [1, 2] ∧
    (applyRuns sampleController [(50, linearCompare, 3)]
      (pollPullRequest (sampleController.env 45) 1 1 (sampleMerged "a" 30) [] { compare := linearCompare }
        { db := s.db }).db).findingState 1 = some .approvedDisposition := by
  have hall : ((sampleState disposedTrace).db.workItems.get? 1).any (fun item =>
      ((sampleState disposedTrace).db.evidence 3).any fun ev => decide (item.state ∈ prStates) &&
        item.prNumber == some 1 &&
        decide (Confirms (sampleController.env 45) linearCompare (sampleState disposedTrace).db 1
          (item.mergedAs (sampleMerged "a" 30) 30) ev) &&
        decide (Confirms (sampleController.env 50) linearCompare (sampleState disposedTrace).db 1
          (item.mergedAs (sampleMerged "a" 30) 30) ev)) = true := by decide +kernel
  have hfirst : ((sampleState disposedTrace).db.pullRequests.first fun row => row.repo == forkRepo && row.number == 1) =
      some 1 := by decide +kernel
  obtain ⟨item, hi, hall⟩ := (Option.any_eq_true ..).mp hall
  obtain ⟨ev, hev, hall⟩ := (Option.any_eq_true ..).mp hall
  simp only [Bool.and_eq_true, beq_iff_eq, decide_eq_true_eq] at hall
  obtain ⟨⟨⟨hp, hn⟩, hbefore⟩, hafter⟩ := hall
  refine ⟨sampleState disposedTrace, item, ev, sampleState_reachable _, ⟨hi, hp, hn, ⟨1, hfirst⟩, rfl, rfl⟩,
    ?_, hev, hbefore,
    hafter, ?_, ?_⟩
  · decide +kernel
  · decide +kernel
  · decide +kernel

end HardeningLoop
