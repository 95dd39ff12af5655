import HardeningLoop.Orchestrator.Verified

/-!
# Observing a merge

A poll that sees the tracked pull request merged records the merge, moves the item to `merged` and replays the runs that
were applied since.

- `accepted_blockUnverified`: whatever state the item is polled in, the merge is accepted there or after the hand-over;
- `merge_silent_iff`: a merge that is on record already is passed over exactly when the item is polled no more.
-/

namespace HardeningLoop

open Rows (Table)

/-! ## A merge that is on record -/

/-- A transition of a work item or of one of its findings. -/
def Event.transitionOf (wid : Nat) (fids : List Nat) (e : Event) : Bool :=
  match e.event with
  | .workItem _ => e.entityType == .workItem && e.entityId == wid
  | .finding _ => e.entityType == .finding && e.entityId ∈ fids
  | .log _ => false

/-- A call a human sees on an issue. -/
def Call.onIssue : Call → Bool
  | .addLabels .. | .removeLabel .. | .commentIssue .. => true
  | _ => false

/-- A unit that records no transition of a work item and its findings, and changes no label and writes no comment. -/
structure Silent (db : Db) (wid : Nat) (tx : Tx) : Prop where
  transitions : ∀ e ∈ tx.db.events.drop db.events.length, e.transitionOf wid (db.members wid) = false
  calls : ∀ e ∈ tx.effects, ∀ call ∈ e.calls, call.onIssue = false

/-- The merge of the pull request an item tracks is on record, as GitHub reports it. -/
structure MergeOnRecord (env : Env) (db : Db) (wid number : Nat) (item : WorkItem) (pr : PullRequestInfo) : Prop where
  found : db.workItems.get? wid = some item
  tracks : item.prNumber = some number
  merged : pr.merged = true
  row : ∃ pid row, (db.pullRequests.first fun row => row.repo == env.settings.repo && row.number == number) = some pid ∧
    db.pullRequests.get? pid = some row ∧ row.state = "merged" ∧ row.headSha = pr.headSha ∧
      row.mergeSha = pr.mergeCommitSha

section Merge

variable {env : Env} {wid : Nat} {t : Tx} {s : WorkItemState}

/-- Whatever state the item is polled in, a merge is accepted there or after the hand-over to a human. -/
theorem accepted_blockUnverified (env : Env) (hs : t.db.itemState wid = some s) (hp : s ∈ prStates) :
    ∃ s' ∈ [WorkItemState.readyForHuman, .needsHuman], (blockUnverified env t wid).db.itemState wid = some s' := by
  unfold blockUnverified mergeAccepted
  rw [hs]
  split
  · rename_i hacc
    exact ⟨s, by simpa using hacc, hs⟩
  · rename_i hno
    have hblock : nextWorkItemState s .blocked = some .needsHuman := by
      revert hp hno
      cases s <;> decide
    exact ⟨.needsHuman, by decide, Tx.wi_itemState env t hs hblock _ _⟩

/-- The merge of a polled item is a transition. -/
theorem applyMerge_event (env : Env) (hs : t.db.itemState wid = some s) (hp : s ∈ prStates) (pid : Nat)
    (pr : PullRequestInfo) (cmp : Compare) : ∃ l, (applyMerge env t wid pid pr cmp).db.events = t.db.events ++ l ∧
      ∃ e ∈ l, e.entityType = .workItem ∧ e.entityId = wid ∧ e.event = .workItem .humanMerged := by
  have hrecord : (recordMerge env t wid pid pr).db.itemState wid = some s := by
    simpa [recordMerge, Db.itemState, Tx.modifyItem, Tx.modifyPullRequest, Option.map_map, Function.comp_def] using hs
  obtain ⟨s', hs', hstate⟩ := accepted_blockUnverified env hrecord hp
  obtain ⟨l₁, hl₁, -⟩ := ((recordMerge_does env t wid pid pr).trans (blockUnverified_does env _ wid).closing).events
  set b := blockUnverified env (recordMerge env t wid pid pr) wid with hb
  have haccepted : mergeAccepted b.db wid = true := by
    rw [mergeAccepted, hstate, Option.any_some, decide_eq_true_eq]
    exact hs'
  have hmerged : nextWorkItemState s' .humanMerged = some .merged := by
    revert hs'
    cases s' <;> decide
  obtain ⟨item, hitem, rfl⟩ := Option.map_eq_some_iff.mp hstate
  have happly : applyMerge env t wid pid pr cmp = completeMerge env b wid pid (pr.mergeCommitSha.getD "") cmp := by
    unfold applyMerge
    dsimp only
    rw [if_pos haccepted]
  set m := b.wi env wid .humanMerged (pr.mergeCommitSha.getD "") "human" with hm
  obtain ⟨e, hfire, htype, hid, hevent⟩ : ∃ e : Event, m.db.events = b.db.events ++ [e] ∧ e.entityType = .workItem ∧
      e.entityId = wid ∧ e.event = .workItem .humanMerged := by
    refine ⟨⟨env.now, "human", .workItem, wid, .workItem .humanMerged, some item.state.value,
      some WorkItemState.merged.value, some (pr.mergeCommitSha.getD ""), []⟩, ?_, rfl, rfl, rfl⟩
    rw [hm, Tx.wi_db]
    simp only [hitem, Option.elim, Tx.wiLog, hmerged]
  have hrest :
      Acts env (.closing wid fun _ => True) m (completeMerge env b wid pid (pr.mergeCommitSha.getD "") cmp) := by
    refine .trans ?_ (closeFromAppliedRuns_does env cmp _ wid)
    exact .foldl _ (closing_writing env (raiseLevel_does env _ wid pid (by decide) _)) fun t fid _ =>
      Acts.refl.finding trivial (Or.inr (by decide)) ..
  obtain ⟨l₂, hl₂, -⟩ := hrest.events
  rw [hl₁, List.append_assoc] at hfire
  rw [hfire] at hl₂
  refine ⟨_, by rw [happly, hl₂, List.append_assoc], e, ?_, htype, hid, hevent⟩
  exact List.mem_append_left _ (List.mem_append_right _ List.mem_cons_self)

/-- **A merge that is on record is passed over exactly when** the item is in no state in which pull requests are
polled. -/
theorem merge_silent_iff {db : Db} {number : Nat} {item : WorkItem} {pr : PullRequestInfo}
    (hm : MergeOnRecord env db wid number item pr) (checks : List CheckRun) (answers : PrAnswers) :
    Silent db wid (pollPullRequest env wid number pr checks answers { db := db }) ↔ item.state ∉ prStates := by
  obtain ⟨pid, row, hfirst, hrow, -, hhead, -⟩ := hm.row
  constructor
  · intro hsilent hp
    have hpoll : pollPullRequest env wid number pr checks answers { db := db } =
        applyMerge env (({ db := db } : Tx).modifyPullRequest pid fun row => { row with updatedAt := env.now })
          wid pid pr answers.compare := by
      rw [pollPullRequest_eq hm.found hp hm.tracks hfirst hrow]
      unfold applyPr applyNewHead
      simp only [hm.merged, hhead, if_true]
    have hs :
        (({ db := db } : Tx).modifyPullRequest pid fun row => { row with updatedAt := env.now }).db.itemState wid =
        some item.state := by
      simp only [Db.itemState, Tx.modifyPullRequest, hm.found, Option.map_some]
    obtain ⟨l, hl, e, he, htype, hid, hevent⟩ := applyMerge_event env hs hp pid pr answers.compare
    have hnew :
        e ∈ (pollPullRequest env wid number pr checks answers { db := db }).db.events.drop db.events.length := by
      rw [hpoll, hl]
      simpa [Tx.modifyPullRequest] using he
    have hno := hsilent.transitions e hnew
    simp [Event.transitionOf, hevent, htype, hid] at hno
  · intro hp
    have hidle : pollPullRequest env wid number pr checks answers { db := db } = { db := db } :=
      pollPullRequest_idle hm.found hp
    rw [hidle]
    exact ⟨by simp, by simp⟩

end Merge

/-- The rescan after a merge still shows the finding. -/
def stillShownTrace : List Action :=
  sampleReady ++ samplePoll 15 (sampleMerged "a" 15) [] (sampleReview .completed "a") ++
    [sampleIngest "2" 20 (samplePair "CVE-1" "openssl" "1")] ++ sampleApply 21

instance (db : Db) (wid : Nat) (tx : Tx) : Decidable (Silent db wid tx) :=
  decidable_of_iff ((∀ e ∈ tx.db.events.drop db.events.length, e.transitionOf wid (db.members wid) = false) ∧
      ∀ e ∈ tx.effects, ∀ call ∈ e.calls, call.onIssue = false)
    ⟨fun ⟨h₁, h₂⟩ => ⟨h₁, h₂⟩, fun ⟨h₁, h₂⟩ => ⟨h₁, h₂⟩⟩

/-- The item waits for a human with its merge on record, and the next poll sends it through the merge once more. -/
theorem merge_repeats : ∃ s item, Reachable sampleController s ∧
    MergeOnRecord (sampleController.env 22) s.db 1 1 item (sampleMerged "a" 15) ∧ item.state = .needsHuman ∧
      ¬ Silent s.db 1 (pollPullRequest (sampleController.env 22) 1 1 (sampleMerged "a" 15) [] {} { db := s.db }) := by
  have hall : ((sampleState stillShownTrace).db.workItems.get? 1).any (fun item => item.state == .needsHuman &&
      item.prNumber == some 1) = true := by decide +kernel
  have hrow : ((sampleState stillShownTrace).db.pullRequests.get? 1).any (fun row => row.state == "merged" &&
      row.headSha == "a" && row.mergeSha == some "m") = true := by decide +kernel
  have hfirst :
      ((sampleState stillShownTrace).db.pullRequests.first fun row => row.repo == forkRepo && row.number == 1) =
      some 1 := by decide +kernel
  obtain ⟨item, hi, hall⟩ := (Option.any_eq_true ..).mp hall
  obtain ⟨row, hr, hrow⟩ := (Option.any_eq_true ..).mp hrow
  simp only [Bool.and_eq_true, beq_iff_eq] at hall hrow
  refine ⟨sampleState stillShownTrace, item, sampleState_reachable _, ⟨hi, hall.2, rfl, 1, row, hfirst, hr, ?_⟩,
    hall.1, ?_⟩
  · exact ⟨hrow.1.1, hrow.1.2, hrow.2⟩
  · decide +kernel

/-- A merged item that waits for its rescan is left alone. -/
theorem merge_silent_waiting :
    let s := sampleState (sampleReady ++ samplePoll 15 (sampleMerged "a" 15) [] (sampleReview .completed "a"))
    Silent s.db 1 (pollPullRequest (sampleController.env 22) 1 1 (sampleMerged "a" 15) [] {} { db := s.db }) := by
  intro s
  have hall : (s.db.workItems.get? 1).any (fun item => item.state == .merged && item.prNumber == some 1) = true := by
    decide +kernel
  have hrow : (s.db.pullRequests.get? 1).any (fun row => row.state == "merged" && row.headSha == "a" &&
      row.mergeSha == some "m") = true := by decide +kernel
  have hfirst : (s.db.pullRequests.first fun row => row.repo == forkRepo && row.number == 1) = some 1 := by
    decide +kernel
  obtain ⟨item, hi, hall⟩ := (Option.any_eq_true ..).mp hall
  obtain ⟨row, hr, hrow⟩ := (Option.any_eq_true ..).mp hrow
  simp only [Bool.and_eq_true, beq_iff_eq] at hall hrow
  have hm : MergeOnRecord (sampleController.env 22) s.db 1 1 item (sampleMerged "a" 15) :=
    ⟨hi, hall.2, rfl, 1, row, hfirst, hr, hrow.1.1, hrow.1.2, hrow.2⟩
  refine (merge_silent_iff hm [] {}).mpr ?_
  rw [hall.1]
  decide

end HardeningLoop
