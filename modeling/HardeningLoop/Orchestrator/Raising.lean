import HardeningLoop.Orchestrator.Ownership

/-!
# The rows an evaluation and a merge raise

When a run verifies a work item, the level of one row of a pull request is raised with it: the first row of the item. A
merge raises the polled row, and replays the runs that were applied before.

- `closeWorkItem_pulls`, `closeItems_pull`: the rows after the closing of one item, and of all that wait for a run;
- `applyScanRun_verified`, `applyScanRun_pulls`: an evaluation verifies what the run verifies, and its other loops leave
  the rows alone;
- `applyMerge_pulls`: the rows after a merge;
- `Acts.stays_verified`, `Acts.verified_back`: a verified item stays so, and one event alone leads there.
-/

namespace HardeningLoop

open Rows (Table)

/-- The first row of an item. -/
def firstPull (rows : Table PullRequest) (wid : Nat) : Option Nat := rows.first fun row => row.workItemId == wid

/-- A row raised to a level. -/
def PullRequest.raised (level : LifecycleLevel) (row : PullRequest) : PullRequest :=
  if level.toNat > row.lifecycleLevel.toNat then { row with lifecycleLevel := level } else row

/-- The rows after the verification of an item. -/
def verifiedPulls (rows : Table PullRequest) (wid : Nat) : Table PullRequest :=
  match firstPull rows wid with
  | some pid => rows.modify pid (PullRequest.raised .rescanVerified)
  | none => rows

/-! ## What leaves the rows alone -/

section Frame

variable {env : Env} {cmp : Compare} {ev : Evidence} {tx t : Tx} {wid : Nat} {item : WorkItem}

theorem pulls_wi (event : WorkItemEvent) (reason actor : String) :
    (t.wi env wid event reason actor).db.pullRequests = t.db.pullRequests := by rw [Tx.wi_db]

theorem pulls_finding (fid : Nat) (event : FindingEvent) (reason actor : String) (runId : Option Nat) :
    (t.finding env fid event reason actor runId).1.db.pullRequests = t.db.pullRequests := by
  unfold Tx.finding
  split
  · rfl
  · rw [Tx.findingFrom_db]

theorem judgeMembers_pulls : (judgeMembers env cmp ev tx wid item).1.db.pullRequests = tx.db.pullRequests := by
  refine Rows.foldl_frame (fun acc : Judged => acc.1.db.pullRequests) (fun acc fid _ => ?_) (tx, [])
  unfold closeMember
  split
  · rfl
  · dsimp only
    split
    · exact pulls_finding ..
    · rfl

theorem beginRescan_pulls (run : ScanRun) : (beginRescan env t wid run).db.pullRequests = t.db.pullRequests := by
  unfold beginRescan
  split
  · exact pulls_wi ..
  · rfl

theorem stillPresent_pulls (run : ScanRun) (still : List Nat) :
    (stillPresent env t wid run still).db.pullRequests = t.db.pullRequests := by
  unfold stillPresent
  split
  · rfl
  · exact (Rows.foldl_frame (fun t : Tx => t.db.pullRequests) (fun t fid _ => pulls_finding ..) _).trans (pulls_wi ..)

theorem raiseLevel_pulls (pid : Nat) (level : LifecycleLevel) (why : String) :
    (raiseLevel env t wid pid level why).db.pullRequests = t.db.pullRequests.modify pid (PullRequest.raised level) := by
  unfold raiseLevel
  dsimp only
  split
  · split <;> rfl
  · rfl

theorem raiseVerified_pulls (run : ScanRun) :
    (raiseVerified env t wid run).db.pullRequests = verifiedPulls t.db.pullRequests wid := by
  unfold raiseVerified verifiedPulls firstPull
  cases t.db.pullRequests.first fun row => row.workItemId == wid with
  | some pid => exact raiseLevel_pulls ..
  | none => rfl

/-- A verified item raises its first row. -/
theorem verifyItem_pulls (states : List FindingState) :
    (verifyItem env t wid ev states).db.pullRequests = verifiedPulls t.db.pullRequests wid := by
  have hraised (t' : Tx) (h : t'.db.pullRequests = t.db.pullRequests) :
      (raiseVerified env t' wid ev.run).db.pullRequests = verifiedPulls t.db.pullRequests wid := by
    rw [raiseVerified_pulls, h]
  unfold verifyItem
  dsimp only
  split <;> exact hraised _ (pulls_wi ..)

/-- **The rows after the closing of an item.** -/
theorem closeWorkItem_pulls (hi : tx.db.workItems.get? wid = some item) :
    (closeWorkItem env cmp ev tx wid).db.pullRequests =
      if settledState env cmp tx.db ev wid item = .verified then verifiedPulls tx.db.pullRequests wid
      else tx.db.pullRequests := by
  unfold closeWorkItem settleItem settledState
  rw [hi]
  dsimp only
  rw [judgeMembers_notes, verdicts_any_invalid, verdicts_ids, beginRescan_statesOf, issueMayClose_members]
  cases runApplies env cmp tx.db ev wid item with
  | false => exact (pulls_wi ..).trans judgeMembers_pulls
  | true =>
    simp only [Bool.not_true, Bool.false_eq_true, if_false]
    cases allSettled env cmp tx.db ev wid item with
    | true =>
      rw [if_pos rfl, if_pos rfl, if_pos rfl, verifyItem_pulls, beginRescan_pulls, judgeMembers_pulls]
    | false =>
      simp only [Bool.false_eq_true, if_false]
      rw [stillPresent_pulls, beginRescan_pulls, judgeMembers_pulls, if_neg]
      split <;> decide

theorem regressions_pulls : (regressions env cmp ev tx).db.pullRequests = tx.db.pullRequests := by
  unfold regressions
  dsimp only
  split
  · rfl
  · refine Rows.foldl_frame (fun t : Tx => t.db.pullRequests) (fun t fid _ => ?_) tx
    unfold regressFinding
    split
    · rfl
    · rename_i f _
      have hfired := @pulls_finding env t fid .reappeared ("present again in run " ++ ev.run.externalRunId) "scanner"
        (some ev.rid)
      split
      · rfl
      · split
        · rfl
        · split
          · rfl
          · unfold reopenFinding
            dsimp only
            split
            · exact hfired
            · split <;> exact hfired

theorem drift_pulls : (drift env ev tx).db.pullRequests = tx.db.pullRequests := by
  have hsupersede (l : List Nat) (t : Tx) : (l.foldl (supersedeItem env ev) t).db.pullRequests = t.db.pullRequests := by
    refine Rows.foldl_frame (fun t : Tx => t.db.pullRequests) (fun t wid _ => ?_) t
    unfold supersedeItem
    split
    · dsimp only
      split <;> exact pulls_wi ..
    · rfl
  unfold drift
  dsimp only
  refine (hsupersede _ _).trans
    (Rows.foldl_frame (fun acc : Tx × List Nat => acc.1.db.pullRequests) (fun acc fid _ => ?_) (tx, []))
  unfold driftFinding
  split
  · rfl
  · split
    · rfl
    · split
      · rfl
      · dsimp only
        split
        · rfl
        · dsimp only
          split <;> exact pulls_finding ..

end Frame

/-! ## The rows of an evaluation -/

section Rows

variable {rows : Table PullRequest} {wid pid : Nat}

theorem raised_workItemId (level : LifecycleLevel) (row : PullRequest) :
    (row.raised level).workItemId = row.workItemId := by
  unfold PullRequest.raised
  split <;> rfl

theorem firstPull_verifiedPulls (w : Nat) : firstPull (verifiedPulls rows w) wid = firstPull rows wid := by
  unfold verifiedPulls
  split
  · exact Table.first_modify _ fun row => by rw [raised_workItemId]
  · rfl

theorem get?_verifiedPulls : (verifiedPulls rows wid).get? pid =
    if firstPull rows wid = some pid then (rows.get? pid).map (PullRequest.raised .rescanVerified) else
    rows.get? pid := by
  unfold verifiedPulls
  cases h : firstPull rows wid with
  | none => rw [if_neg nofun]
  | some p =>
    dsimp only
    rw [Table.get?_modify]
    by_cases hp : pid = p
    · rw [if_pos hp, hp, if_pos rfl]
    · rw [if_neg hp, if_neg fun he => hp (Option.some.inj he).symm]

/-- The first row of an item is the item's. -/
theorem firstPull_owner (h : firstPull rows wid = some pid) :
    ∃ row, rows.get? pid = some row ∧ row.workItemId = wid := by
  obtain ⟨row, hrow, howner⟩ := Table.first_eq_some h
  exact ⟨row, hrow, eq_of_beq howner⟩

end Rows

section Evaluation

variable {env : Env} {cmp : Compare} {ev : Evidence} {tx : Tx}

/-- The run verifies the item. -/
def verifies (env : Env) (cmp : Compare) (db : Db) (ev : Evidence) (wid : Nat) : Prop :=
  ∃ item, db.workItems.get? wid = some item ∧ item.state ∈ [WorkItemState.merged, .awaitingRescan] ∧
    settledState env cmp db ev wid item = .verified

/-- The closing of an item that waits for it, in a state where what it reads is as it was. -/
theorem closeWorkItem_pull {t : Tx} {wid : Nat} (hwid : wid ∈ closingItems tx.db) (h : ItemAsAt tx.db t.db wid)
    (hfirst : firstPull t.db.pullRequests wid = firstPull tx.db.pullRequests wid) (pid : Nat) :
    (firstPull tx.db.pullRequests wid = some pid ∧ verifies env cmp tx.db ev wid →
      (closeWorkItem env cmp ev t wid).db.pullRequests.get? pid =
        (t.db.pullRequests.get? pid).map (PullRequest.raised .rescanVerified)) ∧
    (¬ (firstPull tx.db.pullRequests wid = some pid ∧ verifies env cmp tx.db ev wid) →
      (closeWorkItem env cmp ev t wid).db.pullRequests.get? pid = t.db.pullRequests.get? pid) := by
  obtain ⟨item, hi, hst⟩ := mem_closingItems.mp hwid
  have hpulls : (closeWorkItem env cmp ev t wid).db.pullRequests = _ := closeWorkItem_pulls (h.item.trans hi)
  rw [h.settledState] at hpulls
  constructor
  · rintro ⟨hpid, item', hi', -, hverified⟩
    cases hi.symm.trans hi'
    rw [hpulls, if_pos hverified, get?_verifiedPulls, hfirst, if_pos hpid]
  · intro hno
    rw [hpulls]
    split
    · rename_i hverified
      rw [get?_verifiedPulls, hfirst, if_neg fun hpid => hno ⟨hpid, item, hi, hst, hverified⟩]
    · rfl

/-- **The first loop, for each row**: the first row of every item that the run verifies is raised. -/
theorem closeItems_pull (pid : Nat) :
    (∀ wid, firstPull tx.db.pullRequests wid = some pid → verifies env cmp tx.db ev wid →
      (closeItems env cmp ev tx).db.pullRequests.get? pid =
        (tx.db.pullRequests.get? pid).map (PullRequest.raised .rescanVerified)) ∧
    ((∀ wid, firstPull tx.db.pullRequests wid = some pid → ¬ verifies env cmp tx.db ev wid) →
      (closeItems env cmp ev tx).db.pullRequests.get? pid = tx.db.pullRequests.get? pid) := by
  have hkeeps : Rows.Keeps (fun (t : Tx) wid => ItemAsAt tx.db t.db wid ∧
      firstPull t.db.pullRequests wid = firstPull tx.db.pullRequests wid) (closeWorkItem env cmp ev)
      (closingItems tx.db) := by
    intro t wid hwid wid' hwid' hne h h'
    refine ⟨closeWorkItem_keeps t wid hwid wid' hwid' hne h.1 h'.1, ?_⟩
    obtain ⟨item, hi, -⟩ := mem_closingItems.mp hwid
    rw [closeWorkItem_pulls (h.1.item.trans hi)]
    split
    · rw [firstPull_verifiedPulls, h'.2]
    · exact h'.2
  have hloop := Rows.foldl_owned (fun (t : Tx) pid => t.db.pullRequests.get? pid)
    (fun wid pid => firstPull tx.db.pullRequests wid = some pid ∧ verifies env cmp tx.db ev wid)
    (fun _ _ => Option.map (PullRequest.raised .rescanVerified)) (Table.nodup_select ..) hkeeps
    (fun wid _ wid' _ pid h h' => ?_) (fun t wid hwid h pid => (closeWorkItem_pull hwid h.1 h.2 pid).1)
    (fun t wid hwid h pid => (closeWorkItem_pull hwid h.1 h.2 pid).2) (fun wid _ => ⟨ItemAsAt.refl tx.db wid, rfl⟩) pid
  · refine ⟨fun wid hpid hverifies => hloop.1 wid ?_ ⟨hpid, hverifies⟩, fun hno => hloop.2 fun wid _ h =>
      hno wid h.1 h.2⟩
    obtain ⟨item, hi, hst, -⟩ := hverifies
    exact mem_closingItems.mpr ⟨item, hi, hst⟩
  · obtain ⟨row, hrow, rfl⟩ := firstPull_owner h.1
    obtain ⟨row', hrow', rfl⟩ := firstPull_owner h'.1
    cases hrow.symm.trans hrow'
    rfl

/-- A verified item stays verified. -/
theorem Acts.stays_verified {S : Scope} {t : Tx} (h : Acts env S tx t) {wid : Nat}
    (hs : tx.db.itemState wid = some .verified) : t.db.itemState wid = some .verified := by
  induction h with
  | refl => exact hs
  | quiet _ hq ih => simpa only [Db.itemState, hq.workItems] using ih
  | @editItem t _ w _ f hf ih =>
    obtain ⟨item, hi, hstate⟩ := Option.map_eq_some_iff.mp ih
    simp only [Db.itemState, Tx.modifyItem, Table.get?_modify]
    split
    · rw [hi, Option.map_some, Option.map_some, (hf item).state, hstate]
    · exact ih
  | editPull _ _ _ _ _ ih => exact ih
  | insertPull _ _ _ _ ih => exact ih
  | insertItem _ _ _ ih =>
    obtain ⟨item, hi, hstate⟩ := Option.map_eq_some_iff.mp ih
    exact Option.map_eq_some_iff.mpr ⟨item, Table.get?_insert_of_some _ hi, hstate⟩
  | @wi t _ w _ e _ reason actor ih =>
    obtain ⟨item, hi, hstate⟩ := Option.map_eq_some_iff.mp ih
    have hterminal : ∀ e, nextWorkItemState .verified e = none := by
      intro e
      cases e <;> rfl
    have hrow : (Tx.wiRow env e reason item).state = .verified := by
      rcases Tx.wiRow_state env e reason item with h | h | h
      · rw [hstate, hterminal] at h
        cases h
      · rw [hstate, hterminal] at h
        cases h
      · rw [h, hstate]
    simp only [Db.itemState, Tx.wi_db, Table.get?_modify]
    split
    · rw [hi, Option.map_some, Option.map_some, hrow]
    · exact ih
  | findingFrom _ _ _ _ _ _ _ ih =>
    rw [Tx.findingFrom_db]
    exact ih
  | own _ _ _ ih => exact ih

/-- Only `rescan_verified` verifies an item. -/
theorem Acts.verified_back {S : Scope} (hS : ¬ S.fires .rescanVerified) {t : Tx} (h : Acts env S tx t) {wid : Nat}
    (hs : t.db.itemState wid = some .verified) : tx.db.itemState wid = some .verified := by
  have hback : ∀ s e s', S.fires e ∨ e = .blocked → nextWorkItemState s e = some s' → s' = .verified →
    s = .verified := by
    rintro s e _ he hn rfl
    have hverified := next_eq_verified hn
    rcases he with he | he
    · exact absurd (hverified ▸ he) hS
    · rw [hverified] at he
      cases he
  obtain ⟨s, hs, rfl⟩ := h.state_back (· = .verified) (fun _ => by decide) hback hs rfl
  exact hs

/-- The scope of one event of any item. -/
def Scope.firing (event : WorkItemEvent) : Scope :=
  ⟨(· = event), False, fun _ => True, fun _ => True, False, fun _ => True⟩

/-- An item that drift retires is not verified. -/
theorem supersedeItem_verified {t : Tx} {w wid : Nat}
    (h : (supersedeItem env ev t w).db.itemState wid = some .verified) :
    t.db.itemState wid = some .verified := by
  have hwi (reason actor : String) : Acts env (.firing .superseded) t (t.wi env w .superseded reason actor) :=
    Acts.refl.wi trivial rfl reason actor
  unfold supersedeItem at h
  split at h
  · dsimp only at h
    split at h <;> exact (hwi _ _).verified_back (fun h => by cases h) h
  · exact h

theorem drift_verified {t : Tx} {wid : Nat} (h : (drift env ev t).db.itemState wid = some .verified) :
    t.db.itemState wid = some .verified := by
  have hfindings (present : List (String × String × Option String × String)) (fids : List Nat) :
      (fids.foldl (driftFinding env ev present) (t, [])).1.db.itemState wid = t.db.itemState wid := by
    refine Rows.foldl_frame (fun acc : Tx × List Nat => acc.1.db.itemState wid) (fun acc fid _ => ?_) (t, [])
    have hacts : Acts env (.findingsOnly (· = fid)) acc.1 (driftFinding env ev present acc fid).1 :=
      driftFinding_does env ev present acc fid
    unfold Db.itemState
    rw [hacts.workItems not_false fun _ => not_false]
  have hitems (l : List Nat) (t₀ : Tx) (h : (l.foldl (supersedeItem env ev) t₀).db.itemState wid = some .verified) :
      t₀.db.itemState wid = some .verified := by
    revert h
    exact Rows.foldl_invariant (f := supersedeItem env ev)
      (fun t' : Tx => t'.db.itemState wid = some .verified → t₀.db.itemState wid = some .verified)
      (fun t' w _ ih hw => ih (supersedeItem_verified hw)) id
  unfold drift at h
  exact (hfindings _ _).symm.trans (hitems _ _ h)

/-- **What an evaluation verifies**: the items that the run verifies. -/
theorem applyScanRun_verified {rid : Nat} (hev : tx.db.evidence rid = some ev) (hnone : ev.run.closureAppliedAt = none)
    {wid : Nat} (hnot : tx.db.itemState wid ≠ some .verified) :
    (applyScanRun env cmp rid tx).db.itemState wid = some .verified ↔ verifies env cmp tx.db ev wid := by
  have happlied : (applyScanRun env cmp rid tx).db.itemState wid =
      (drift env ev (regressions env cmp ev (closeItems env cmp ev tx))).db.itemState wid := by
    unfold applyScanRun
    rw [hev]
    dsimp only
    rw [hnone]
    rfl
  have hregressions : (regressions env cmp ev (closeItems env cmp ev tx)).db.itemState wid =
      (closeItems env cmp ev tx).db.itemState wid := by
    unfold Db.itemState
    rw [(regressions_does env cmp ev (closeItems env cmp ev tx)).workItems not_false fun _ => not_false]
  rw [happlied]
  have hdrift : (drift env ev (regressions env cmp ev (closeItems env cmp ev tx))).db.itemState wid = some .verified ↔
      (closeItems env cmp ev tx).db.itemState wid = some .verified :=
    ⟨fun h => hregressions ▸ drift_verified h, fun h => (drift_does env ev _).stays_verified (hregressions.trans h)⟩
  rw [hdrift, closeItems_itemState]
  split
  · rename_i hwid
    obtain ⟨item, hi, hst⟩ := mem_closingItems.mp hwid
    rw [hi, Option.map_some, Option.some.injEq]
    refine ⟨fun h => ⟨item, hi, hst, h⟩, ?_⟩
    rintro ⟨item', hi', -, h⟩
    cases hi.symm.trans hi'
    exact h
  · rename_i hwid
    refine iff_of_false hnot ?_
    rintro ⟨item, hi, hst, -⟩
    exact hwid (mem_closingItems.mpr ⟨item, hi, hst⟩)

/-- The rows of an evaluation are those of its first loop. -/
theorem applyScanRun_pulls {rid : Nat} (hev : tx.db.evidence rid = some ev) (hnone : ev.run.closureAppliedAt = none) :
    (applyScanRun env cmp rid tx).db.pullRequests = (closeItems env cmp ev tx).db.pullRequests := by
  have happlied : (applyScanRun env cmp rid tx).db.pullRequests =
      (drift env ev (regressions env cmp ev (closeItems env cmp ev tx))).db.pullRequests := by
    unfold applyScanRun
    rw [hev]
    dsimp only
    rw [hnone]
    rfl
  rw [happlied, drift_pulls, regressions_pulls]

end Evaluation

/-! ## The rows of a poll -/

section Polls

variable {env : Env} {cmp : Compare} {tx t : Tx} {wid pid : Nat} {pr : PullRequestInfo}

/-- The replay of the applied runs verifies the item and raises its first row, or does neither. -/
theorem closeFromAppliedRuns_pulls (hnot : t.db.itemState wid ≠ some .verified) :
    (closeFromAppliedRuns env cmp t wid).db.itemState wid ≠ some .verified ∧
        (closeFromAppliedRuns env cmp t wid).db.pullRequests = t.db.pullRequests ∨
      (closeFromAppliedRuns env cmp t wid).db.itemState wid = some .verified ∧
        (closeFromAppliedRuns env cmp t wid).db.pullRequests = verifiedPulls t.db.pullRequests wid := by
  unfold closeFromAppliedRuns
  split
  · exact Or.inl ⟨hnot, rfl⟩
  · refine Rows.foldl_invariant (fun t' : Tx => t'.db.itemState wid ≠ some .verified ∧
      t'.db.pullRequests = t.db.pullRequests ∨
      t'.db.itemState wid = some .verified ∧ t'.db.pullRequests = verifiedPulls t.db.pullRequests wid)
      (fun t' rid _ ih => ?_) (Or.inl ⟨hnot, rfl⟩)
    unfold replayRun
    split
    · rename_i hwaits
      obtain ⟨item, hi, hst⟩ := (Option.any_eq_true ..).mp hwaits
      have hst' : item.state ∈ [WorkItemState.merged, .awaitingRescan] := of_decide_eq_true hst
      split
      · rename_i ev _
        have hrows : t'.db.pullRequests = t.db.pullRequests := by
          rcases ih with ⟨-, hrows⟩ | ⟨hverified, -⟩
          · exact hrows
          · rw [Db.itemState, hi, Option.map_some, Option.some.injEq] at hverified
            rw [hverified] at hst'
            exact absurd hst' (by decide)
        have hstate :
            (closeWorkItem env cmp ev t' wid).db.itemState wid = some (settledState env cmp t'.db ev wid item) :=
          closeWorkItem_itemState hi hst'
        have hpulls : (closeWorkItem env cmp ev t' wid).db.pullRequests = _ := closeWorkItem_pulls hi
        by_cases hverified : settledState env cmp t'.db ev wid item = .verified
        · right
          rw [if_pos hverified, hrows] at hpulls
          rw [hverified] at hstate
          exact ⟨hstate, hpulls⟩
        · left
          rw [if_neg hverified, hrows] at hpulls
          exact ⟨fun h => hverified (Option.some.inj (hstate.symm.trans h)), hpulls⟩
      · exact ih
    · exact ih

/-- The merge on the row. -/
def PullRequest.mergedAs (env : Env) (pr : PullRequestInfo) (row : PullRequest) : PullRequest :=
  { row with state := "merged", mergeSha := pr.mergeCommitSha, mergedAt := some (pr.mergedAt.getD env.now) }

theorem blockUnverified_verified (h : (blockUnverified env t wid).db.itemState wid = some .verified) :
    t.db.itemState wid = some .verified := by
  unfold blockUnverified at h
  split at h
  · exact h
  · exact (Acts.refl.wi trivial rfl _ _ : Acts env (.firing .blocked) t _).verified_back (fun h => by cases h) h

theorem blockUnverified_pulls : (blockUnverified env t wid).db.pullRequests = t.db.pullRequests := by
  unfold blockUnverified
  split
  · rfl
  · exact pulls_wi ..

/-- A merge up to the replay of the applied runs. -/
theorem completeMerge_pulls (hnot : t.db.itemState wid ≠ some .verified) (sha : String) :
    (completeMerge env t wid pid sha cmp).db.itemState wid ≠ some .verified ∧
        (completeMerge env t wid pid sha cmp).db.pullRequests = t.db.pullRequests.modify pid
        (PullRequest.raised .merged) ∨
      (completeMerge env t wid pid sha cmp).db.itemState wid = some .verified ∧
        (completeMerge env t wid pid sha cmp).db.pullRequests =
          verifiedPulls (t.db.pullRequests.modify pid (PullRequest.raised .merged)) wid := by
  unfold completeMerge
  dsimp only
  generalize hmembers : List.foldl (mergeMember env sha) _ _ = t'
  have hrows : t'.db.pullRequests = t.db.pullRequests.modify pid (PullRequest.raised .merged) := by
    rw [← hmembers]
    refine (Rows.foldl_frame (fun t : Tx => t.db.pullRequests) (fun t fid _ => pulls_finding ..) _).trans ?_
    rw [raiseLevel_pulls, pulls_wi]
  have hmerged : Acts env (.firing .humanMerged) t t' := by
    have hfired : Acts env (.firing .humanMerged) t (t.wi env wid .humanMerged sha "human") :=
      Acts.refl.wi trivial rfl _ _
    have hlevel : LifecycleLevel.merged ∉ headLevels := by decide
    have hraised : Acts env (.firing .humanMerged) t
        (raiseLevel env (t.wi env wid .humanMerged sha "human") wid pid .merged "merged") :=
      hfired.trans (raiseLevel_acts env _ trivial pid (Or.inr hlevel) (Or.inl trivial) "merged")
    rw [← hmembers]
    exact .foldl _ hraised fun t fid _ => Acts.refl.finding trivial (Or.inl trivial) ..
  have hstate : t'.db.itemState wid ≠ some .verified := fun h => hnot (hmerged.verified_back (fun h => by cases h) h)
  rw [← hrows]
  exact closeFromAppliedRuns_pulls hstate

/-- **The rows of a merge**: the polled one is merged, and the first row of the item is raised when it is verified. -/
theorem applyMerge_pulls (hnot : t.db.itemState wid ≠ some .verified) :
    (applyMerge env t wid pid pr cmp).db.itemState wid ≠ some .verified ∧
        ((applyMerge env t wid pid pr cmp).db.pullRequests = t.db.pullRequests.modify pid
        (PullRequest.mergedAs env pr) ∨
          (applyMerge env t wid pid pr cmp).db.pullRequests =
            (t.db.pullRequests.modify pid (PullRequest.mergedAs env pr)).modify pid (PullRequest.raised .merged)) ∨
      (applyMerge env t wid pid pr cmp).db.itemState wid = some .verified ∧
        (applyMerge env t wid pid pr cmp).db.pullRequests = verifiedPulls
          ((t.db.pullRequests.modify pid (PullRequest.mergedAs env pr)).modify pid (PullRequest.raised .merged))
          wid := by
  have hrows : (blockUnverified env (recordMerge env t wid pid pr) wid).db.pullRequests =
      t.db.pullRequests.modify pid (PullRequest.mergedAs env pr) := blockUnverified_pulls
  have hstate : (blockUnverified env (recordMerge env t wid pid pr) wid).db.itemState wid ≠ some .verified := by
    intro h
    have hbefore := blockUnverified_verified h
    simp only [recordMerge, Db.itemState, Tx.modifyItem, Tx.modifyPullRequest, Table.get?_modify_self,
      Option.map_map] at hbefore
    exact hnot hbefore
  unfold applyMerge
  dsimp only
  split
  · rcases @completeMerge_pulls env cmp _ wid pid hstate (pr.mergeCommitSha.getD "")
      with ⟨hno, hpulls⟩ | ⟨hverified, hpulls⟩
    · exact Or.inl ⟨hno, Or.inr (hpulls.trans (by rw [hrows]))⟩
    · exact Or.inr ⟨hverified, hpulls.trans (by rw [hrows])⟩
  · exact Or.inl ⟨hstate, Or.inl hrows⟩

end Polls

end HardeningLoop
