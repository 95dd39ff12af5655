import HardeningLoop.Orchestrator.Advancing

/-!
# The approval of a pull request

`checkApproval` records the first approval of the head that it finds among the reviews; it never takes one back. The
approval of a head by its approvers is what their latest deciding reviews say.

- `ApprovalStands`: some approver's latest deciding review of the head is an approval;
- `Keeps`: what a unit leaves of the approval and the level of an item;
- `follows_iff`: after which polls the record follows the reviews.
-/

namespace HardeningLoop

open Rows (Table)

/-- A review of the head by the author that decides: not a comment. -/
def Review.decides (r : Review) (author head : String) : Bool :=
  r.author == author && r.commitSha == head && r.state ∈ ["APPROVED", "CHANGES_REQUESTED", "DISMISSED"]

/-- Some approver's latest deciding review of the head is an approval; GitHub lists the reviews as they were
submitted. -/
def ApprovalStands (approvers : List String) (head : String) (reviews : List Review) : Prop :=
  ∃ author ∈ approvers, ((reviews.filter fun r => r.decides author head).getLast?).any
    (fun r => r.state == "APPROVED") = true

instance (approvers : List String) (head : String) (reviews : List Review) :
    Decidable (ApprovalStands approvers head reviews) :=
  inferInstanceAs (Decidable (∃ author ∈ approvers, _))

/-- The author of the first approval of the head, whatever came of it. -/
def firstApprover (approvers : List String) (head : String) (reviews : List Review) : Option String :=
  (reviews.find? fun r => r.state == "APPROVED" && r.author ∈ approvers && r.commitSha == head).map Review.author

/-- An approval that stands was given. -/
theorem ApprovalStands.given {approvers : List String} {head : String} {reviews : List Review}
    (h : ApprovalStands approvers head reviews) : (firstApprover approvers head reviews).isSome := by
  obtain ⟨author, hauthor, hlast⟩ := h
  obtain ⟨r, hr, happroved⟩ := (Option.any_eq_true ..).mp hlast
  obtain ⟨hmem, hdecides⟩ := List.mem_filter.mp (List.mem_of_getLast? hr)
  simp only [Review.decides, Bool.and_eq_true, beq_iff_eq] at hdecides
  rw [firstApprover, Option.isSome_map, List.find?_isSome]
  refine ⟨r, hmem, ?_⟩
  simp only [Bool.and_eq_true, decide_eq_true_eq, beq_iff_eq]
  exact ⟨⟨beq_iff_eq.mp happroved, hdecides.1.1 ▸ hauthor⟩, hdecides.1.2⟩

/-- The approval that is recorded for a pull request. -/
def Db.approval (db : Db) (pid : Nat) : Option String := (db.pullRequests.get? pid).bind PullRequest.approvedBy

/-! ## What the steps before the approval leave -/

/-- The approval is the same, and the level is the same or was raised below an approval. -/
structure Keeps (wid pid : Nat) (db db' : Db) : Prop where
  approval : db'.approval pid = db.approval pid
  level : ∀ level', db'.level wid = some level' → ∃ level, db.level wid = some level ∧
    (level' = level ∨
    (level.toNat < LifecycleLevel.humanApproved.toNat ∧ level'.toNat < LifecycleLevel.humanApproved.toNat))

section Keeping

variable {env : Env} {db : Db} {tx t : Tx} {wid pid : Nat} {pr : PullRequestInfo} {checks : List CheckRun}

namespace Keeps

theorem of_same {db' : Db} (hi : db'.workItems = db.workItems) (hp : db'.pullRequests = db.pullRequests) :
    Keeps wid pid db db' :=
  ⟨by rw [Db.approval, Db.approval, hp], fun level' hl => ⟨level', by rwa [Db.level, hi] at hl, Or.inl rfl⟩⟩

theorem refl (db : Db) : Keeps wid pid db db := .of_same rfl rfl

theorem trans {db' db'' : Db} (h : Keeps wid pid db db') (h' : Keeps wid pid db' db'') : Keeps wid pid db db'' := by
  refine ⟨h'.approval.trans h.approval, fun l'' hl'' => ?_⟩
  obtain ⟨l', hl', hraised'⟩ := h'.level l'' hl''
  obtain ⟨l, hl, hraised⟩ := h.level l' hl'
  refine ⟨l, hl, ?_⟩
  rcases hraised' with rfl | hraised'
  · exact hraised
  · rcases hraised with rfl | hraised
    · exact Or.inr hraised'
    · exact Or.inr ⟨hraised.1, hraised'.2⟩

theorem pulls (h : Keeps wid pid db t.db) (k : Nat) {f : PullRequest → PullRequest}
    (hf : ∀ row, (f row).approvedBy = row.approvedBy) : Keeps wid pid db (t.modifyPullRequest k f).db := by
  refine ⟨Eq.trans ?_ h.approval, h.level⟩
  simp only [Db.approval, Tx.modifyPullRequest, Table.get?_modify]
  split
  · cases t.db.pullRequests.get? pid with
    | none => rfl
    | some row => exact hf row
  · rfl

theorem edit (h : Keeps wid pid db t.db) (k : Nat) {f : WorkItem → WorkItem}
    (hf : ∀ w, (f w).lifecycleLevel = w.lifecycleLevel) : Keeps wid pid db (t.modifyItem k f).db := by
  refine ⟨h.approval, fun l hl => h.level l ?_⟩
  simpa [Db.level, Tx.modifyItem, Table.get?_modify, apply_ite (Option.map WorkItem.lifecycleLevel), Option.map_map,
    Function.comp_def, hf] using hl

theorem wi (h : Keeps wid pid db t.db) (k : Nat) (e : WorkItemEvent) (reason actor : String) :
    Keeps wid pid db (t.wi env k e reason actor).db := by
  refine h.trans ⟨by rw [Db.approval, Db.approval, Tx.wi_db], fun l hl => ⟨l, ?_, Or.inl rfl⟩⟩
  simp only [Db.level, Tx.wi_db, Table.get?_modify] at hl ⊢
  split at hl
  · simpa [Option.map_map, Function.comp_def, (Tx.wiRow_tracking env e reason _).2] using hl
  · exact hl

/-- A level below an approval is raised. -/
theorem raiseLevel (h : Keeps wid pid db t.db) {level : LifecycleLevel}
    (hl : level.toNat < LifecycleLevel.humanApproved.toNat)
    (k : Nat) (why : String) : Keeps wid pid db (raiseLevel env t wid k level why).db := by
  have hrow (row : PullRequest) : (if level.toNat > row.lifecycleLevel.toNat then { row with lifecycleLevel := level }
      else row).approvedBy = row.approvedBy := by
    split <;> rfl
  unfold HardeningLoop.raiseLevel
  dsimp only
  refine h.trans (.pulls ?_ k hrow)
  split
  · rename_i item hi
    split
    · rename_i hlt
      refine ⟨rfl, fun l' hl' => ⟨item.lifecycleLevel, by rw [Db.level, hi, Option.map_some], Or.inr ⟨?_, ?_⟩⟩⟩
      · exact lt_trans hlt hl
      · have hlevel : l' = level := by
          simpa [Db.level, Tx.modifyItem, Tx.event, hi, eq_comm] using hl'
        rw [hlevel]
        exact hl
    · exact .refl t.db
  · exact .refl t.db

end Keeps

theorem reviewTimeout_keeps (head why : String) : Keeps wid pid t.db (reviewTimeout env t wid head why).db := by
  unfold reviewTimeout
  dsimp only
  split
  · split
    · exact (Keeps.refl t.db).wi ..
    · exact .refl t.db
  · exact .refl t.db

theorem observeReview_keeps (head : String) (snap : ReviewSnapshot) :
    Keeps wid pid t.db (observeReview env t wid pid head snap).db := by
  have hseen (id sha status : Option String) : Keeps wid pid t.db (t.modifyPullRequest pid fun row =>
      { row with reviewId := id, reviewHeadSha := sha, reviewStatus := status }).db := by
    refine (Keeps.refl t.db).pulls pid ?_
    exact fun _ => rfl
  unfold observeReview
  dsimp only
  split
  · exact reviewTimeout_keeps ..
  · split
    · exact ((hseen ..).wi ..).raiseLevel (by decide) ..
    · exact (hseen ..).trans (reviewTimeout_keeps ..)

theorem triggerReview_keeps (reason : String) (answer : Except String ReviewSnapshot) :
    Keeps wid pid t.db (triggerReview env t wid pid pr reason answer).db := by
  have hlogged (sha : Option String) :
      Keeps wid pid t.db ((t.answered (.triggerReview pr.url)).event env .pullRequest pid
    (.log "review_triggered") none sha reason "controller" []).db := .of_same rfl rfl
  unfold triggerReview
  split
  · exact (Keeps.refl t.db).trans (@reviewTimeout_keeps env (t.attempt _) ..)
  · exact (hlogged _).trans (observeReview_keeps ..)

theorem checkReview_keeps (answers : PrAnswers) : Keeps wid pid t.db (checkReview env t wid pid pr answers).db := by
  unfold checkReview
  dsimp only
  split
  · exact reviewTimeout_keeps ..
  · exact triggerReview_keeps ..
  · split
    · split
      · exact (Keeps.refl t.db).wi ..
      · exact triggerReview_keeps ..
    · exact (Keeps.refl t.db).wi ..
    · exact observeReview_keeps ..

/-- The checks and the review of a head, up to its approval. -/
theorem reviewWaiting_keeps (answers : PrAnswers) :
    Keeps wid pid t.db (reviewWaiting env (checksPassed env t wid pid pr) wid pid pr answers).db := by
  have hpassed : Keeps wid pid t.db (checksPassed env t wid pid pr).db := by
    unfold checksPassed
    split
    · refine Keeps.raiseLevel (.wi (.pulls (.refl t.db) pid fun row => ?_) ..) (by decide) ..
      unfold firstHeadSeen
      split <;> rfl
    · exact .refl t.db
  unfold reviewWaiting
  split
  · exact hpassed.trans (checkReview_keeps answers)
  · exact hpassed

theorem checksSeen_keeps : Keeps wid pid t.db (checksSeen env t wid pid pr checks).db := by
  have hrecords : Keeps wid pid t.db (checks.foldl (recordCheck env pid pr.headSha) t).db :=
    Rows.foldl_invariant (fun t' : Tx => Keeps wid pid t.db t'.db) (fun t' c _ (h : Keeps wid pid t.db t'.db) =>
      show Keeps wid pid t.db (recordCheck env pid pr.headSha t' c).db from h.trans (.of_same rfl rfl)) (.refl t.db)
  have hdepth (t' : Tx) : Keeps wid pid t'.db (recordDepth env t' wid pid pr.headSha checks).db := by
    have hloop (records : List CheckRecord) :
        Keeps wid pid t'.db (records.foldl (recordComponent env pid pr.headSha) t').db :=
      Rows.foldl_invariant (fun t : Tx => Keeps wid pid t'.db t.db) (fun t rec _ (h : Keeps wid pid t'.db t.db) =>
        show Keeps wid pid t'.db (recordComponent env pid pr.headSha t rec).db
          from h.trans (.of_same rfl rfl)) (.refl t'.db)
    unfold recordDepth
    split
    · dsimp only
      refine .edit (.pulls ?_ pid ?_) wid ?_
      · split
        · exact (hloop _).trans (.of_same rfl rfl)
        · exact hloop _
      · exact fun _ => rfl
      · exact fun _ => rfl
    · exact .refl t'.db
  unfold checksSeen
  dsimp only
  split
  · exact (hrecords.trans (hdepth _)).wi ..
  · exact hrecords.trans (hdepth _)

end Keeping

/-! ## A poll that leaves the item ready for its human -/

section Ready

variable {env : Env} {tx t : Tx} {wid pid : Nat} {pr : PullRequestInfo} {checks : List CheckRun} {s : WorkItemState}

/-- What is ready after a unit that observes no head was ready before. -/
theorem Stays.ready {db db' : Db} (h : Stays wid db db') (hafter : db'.itemState wid = some .readyForHuman) :
    db.itemState wid = some .readyForHuman := h.state _ (by decide) hafter

theorem applyMerge_not_ready (cmp : Compare) :
    (applyMerge env tx wid pid pr cmp).db.itemState wid ≠ some .readyForHuman := by
  have hfires : ∀ e ∈ [WorkItemEvent.checksGreen, .reviewCompleted], ¬ e ∉ .dispatchStarted :: headEvents := by decide
  unfold applyMerge
  dsimp only
  generalize blockUnverified env (recordMerge env tx wid pid pr) wid = t
  split
  · rename_i haccepted
    obtain ⟨s, hs, hmem⟩ := (Option.any_eq_true ..).mp haccepted
    have hn : nextWorkItemState s .humanMerged = some .merged := by
      revert hmem
      cases s <;> decide
    intro hready
    have hclosing :
        Acts env (.closing wid fun _ => True) (t.wi env wid .humanMerged (pr.mergeCommitSha.getD "") "human")
        (completeMerge env t wid pid (pr.mergeCommitSha.getD "") cmp) := by
      refine .trans ?_ (closeFromAppliedRuns_does env cmp _ wid)
      refine .foldl _ ?_ fun t fid _ => Acts.refl.finding trivial (Or.inr (by decide)) ..
      exact closing_writing env (raiseLevel_does env _ wid pid (by decide) _)
    have hbefore := (@Acts.stays env _ _ _ wid hclosing not_false hfires).ready hready
    rw [Tx.wi_itemState env t hs hn] at hbefore
    cases hbefore
  · rename_i hrefused
    intro hready
    refine hrefused ?_
    rw [mergeAccepted, hready]
    rfl

theorem applyClosed_not_ready (hs : tx.db.itemState wid = some s) (hmem : s ∈ prStates) :
    (if tx.db.itemState wid = some .needsHuman then tx
      else tx.wi env wid .prClosedUnmerged pr.url "human").db.itemState wid ≠ some .readyForHuman := by
  split
  · rename_i hneeds
    rw [hneeds]
    decide
  · rename_i hother
    rw [hs, Option.some.injEq] at hother
    have hn : nextWorkItemState s .prClosedUnmerged = some .needsHuman := by
      revert hmem hother
      cases s <;> decide
    rw [Tx.wi_itemState env tx hs hn]
    decide

/-- The checks of an item that is ready afterwards are running, or green. -/
theorem applyChecks_ready (answers : PrAnswers)
    (hready : (applyChecks env tx wid pid pr checks answers).db.itemState wid = some .readyForHuman) :
    (checksVerdict env.settings checks = .running ∧
      applyChecks env tx wid pid pr checks answers = checksSeen env tx wid pid pr checks) ∨
    (checksVerdict env.settings checks = .green ∧ applyChecks env tx wid pid pr checks answers = checkApproval env
      (reviewWaiting env (checksPassed env (checksSeen env tx wid pid pr checks) wid pid pr) wid pid pr answers) wid
      pid pr answers.reviews) := by
  have hfires : ∀ e ∈ [WorkItemEvent.checksGreen, .reviewCompleted], ¬ e ∉ .dispatchStarted :: headEvents := by decide
  unfold applyChecks at hready ⊢
  dsimp only at hready ⊢
  cases hverdict : checksVerdict env.settings checks with
  | running => exact Or.inl ⟨rfl, rfl⟩
  | red =>
    rw [hverdict] at hready
    dsimp only at hready
    exfalso
    split at hready
    · rename_i hany
      obtain ⟨s, hs, hmem⟩ := (Option.any_eq_true ..).mp hany
      have hn : nextWorkItemState s .checksRed = some .checksFailed := by
        revert hmem
        cases s <;> decide
      have hbefore :=
        (@Acts.stays env _ _ _ wid (retryOrFail_does env _ wid pid pr checks) not_false hfires).ready hready
      rw [Tx.wi_itemState env _ hs hn] at hbefore
      cases hbefore
    · rename_i hnone
      rw [hready] at hnone
      exact hnone rfl
  | green =>
    rw [hverdict] at hready
    refine Or.inr ⟨rfl, ?_⟩
    dsimp only
    unfold applyGreen at hready ⊢
    dsimp only at hready ⊢
    split at hready
    · rename_i hstate
      rw [if_pos hstate]
    · rename_i hstate
      exact absurd hready hstate

/-- A poll that leaves the item ready found the pull request open. -/
theorem applyPr_ready (row : PullRequest) (answers : PrAnswers) (hs : tx.db.itemState wid = some s)
    (hmem : s ∈ prStates)
    (hready : (applyPr env tx wid pid row pr checks answers).db.itemState wid = some .readyForHuman) :
    (pr.merged = false ∧ pr.state ≠ "closed") ∧
      applyPr env tx wid pid row pr checks answers =
        applyChecks env
          (applyNewHead env (tx.modifyPullRequest pid fun row => { row with updatedAt := env.now }) wid pid row pr)
          wid pid pr checks answers := by
  obtain ⟨s', hat, hmem', -⟩ :=
    @applyNewHead_at env (tx.modifyPullRequest pid fun row => { row with updatedAt := env.now }) wid s
    hs hmem pid row pr
  unfold applyPr at hready ⊢
  dsimp only at hready ⊢
  split at hready
  · exact absurd hready (applyMerge_not_ready _)
  · rename_i hmerged
    rw [if_neg hmerged]
    split at hready
    · exact absurd hready (applyClosed_not_ready (hat.pulls pid _).state hmem')
    · rename_i hopen
      rw [if_neg hopen]
      split at hready
      · rename_i hneeds
        cases hneeds.symm.trans hready
      · rename_i hother
        rw [if_neg hother]
        exact ⟨⟨Bool.eq_false_iff.mpr hmerged, hopen⟩, rfl⟩

end Ready

/-! ## The record of an approval -/

/-- A new head takes a level down. -/
def reopenedLevel (level : LifecycleLevel) : LifecycleLevel :=
  if LifecycleLevel.prOpened.toNat < level.toNat then .prOpened else level

/-- The approval of a head that is on record before a poll: that of another head does not count. -/
def heldApproval (db : Db) (pid : Nat) (head : String) : Option String :=
  if (db.pullRequests.get? pid).any fun row => row.headSha == head then db.approval pid else none

/-- The level of an item that is on record for a head before a poll. -/
def heldLevel (db : Db) (wid pid : Nat) (head : String) : LifecycleLevel :=
  let level := (db.level wid).getD .none
  if (db.pullRequests.get? pid).any fun row => row.headSha == head then level else reopenedLevel level

section Records

variable {env : Env} {tx t : Tx} {wid pid : Nat} {pr : PullRequestInfo} {checks : List CheckRun} {item : WorkItem}
  {row : PullRequest}

theorem resetLevel_level (hi : t.db.workItems.get? wid = some item) (why : String) :
    (resetLevel env t wid pid .prOpened why).db.level wid = some (reopenedLevel item.lifecycleLevel) := by
  unfold resetLevel reopenedLevel
  dsimp only
  rw [hi]
  dsimp only
  split
  · simp only [Db.level, Tx.modifyPullRequest, Tx.modifyItem, Tx.event, Table.get?_modify_self, hi, Option.map_some]
  · simp only [Db.level, Tx.modifyPullRequest, hi, Option.map_some]

theorem resetLevel_approval (level : LifecycleLevel) (why : String) :
    (resetLevel env t wid pid level why).db.approval pid = t.db.approval pid := by
  have hrow (row : PullRequest) : (if level.toNat < row.lifecycleLevel.toNat then { row with lifecycleLevel := level }
      else row).approvedBy = row.approvedBy := by
    split <;> rfl
  have hpulls (t' : Tx) (h : t'.db.pullRequests = t.db.pullRequests) : (t'.modifyPullRequest pid fun row =>
      if level.toNat < row.lifecycleLevel.toNat then { row with lifecycleLevel := level } else row).db.approval pid =
        t.db.approval pid := by
    simp only [Db.approval, Tx.modifyPullRequest, Table.get?_modify_self, h, Option.bind_map, Function.comp_def, hrow]
  unfold resetLevel
  dsimp only
  refine hpulls _ ?_
  split
  · split <;> rfl
  · rfl

theorem reverifyNewHead_held (hi : t.db.workItems.get? wid = some item) (headSha : String) :
    (reverifyNewHead env t wid pid headSha).db.approval pid = t.db.approval pid ∧
      (reverifyNewHead env t wid pid headSha).db.level wid = some (reopenedLevel item.lifecycleLevel) := by
  have hdepth (t' : Tx) :
      (((t'.modifyPullRequest pid fun row => { row with verificationDepth := none, depthRungs := [] }).modifyItem
      wid fun w => { w with verificationDepth := none }).db.approval pid = t'.db.approval pid) ∧
      ((t'.modifyPullRequest pid fun row => { row with verificationDepth := none, depthRungs := [] }).modifyItem
      wid fun w => { w with verificationDepth := none }).db.level wid = t'.db.level wid := by
    simp only [Db.approval, Db.level, Tx.modifyPullRequest, Tx.modifyItem, Table.get?_modify_self, Option.bind_map,
      Option.map_map, Function.comp_def]
    exact ⟨trivial, trivial⟩
  obtain ⟨t₁, ht₁, happroval, item₁, hi₁, hlevel₁⟩ : ∃ t₁ : Tx, t₁ = (if (t.db.itemState wid).any
      (· ∈ [WorkItemState.reviewPending, .readyForHuman]) then
        t.wi env wid .newHeadPushed ("new head " ++ takeText 12 headSha) "controller" else t) ∧
      t₁.db.approval pid = t.db.approval pid ∧ ∃ item₁, t₁.db.workItems.get? wid = some item₁ ∧
        item₁.lifecycleLevel = item.lifecycleLevel := by
    have hfired (reason : String) : (t.wi env wid .newHeadPushed reason "controller").db.workItems.get? wid =
        some (Tx.wiRow env .newHeadPushed reason item) := by
      rw [Tx.wi_db, Table.get?_modify_self, hi, Option.map_some]
    refine ⟨_, rfl, ?_⟩
    split
    · exact ⟨by rw [Db.approval, Db.approval, Tx.wi_db], _, hfired _, (Tx.wiRow_tracking ..).2⟩
    · exact ⟨rfl, item, hi, rfl⟩
  unfold reverifyNewHead
  dsimp only
  rw [← ht₁, (hdepth _).1, (hdepth _).2, resetLevel_approval, resetLevel_level hi₁, happroval, hlevel₁]
  exact ⟨rfl, rfl⟩

/-- What a poll of an open pull request finds on record. -/
theorem applyNewHead_held (hi : tx.db.workItems.get? wid = some item) (hrow : tx.db.pullRequests.get? pid = some row)
    (hopen : pr.merged = false ∧ pr.state ≠ "closed") :
    let t := applyNewHead env (tx.modifyPullRequest pid fun row => { row with updatedAt := env.now }) wid pid row pr
    t.db.approval pid = heldApproval tx.db pid pr.headSha ∧
      t.db.level wid = some (heldLevel tx.db wid pid pr.headSha) := by
  have hlevel : tx.db.level wid = some item.lifecycleLevel := by rw [Db.level, hi, Option.map_some]
  have hgo : (!pr.merged && decide (pr.state ≠ "closed")) = true := by simp [hopen]
  unfold heldApproval heldLevel applyNewHead
  rw [hlevel]
  dsimp only
  rw [hrow, Option.any_some, Option.getD_some]
  by_cases hsame : pr.headSha = row.headSha
  · rw [if_pos hsame, if_pos (beq_iff_eq.mpr hsame.symm), if_pos (beq_iff_eq.mpr hsame.symm)]
    refine ⟨?_, hlevel⟩
    simp only [Db.approval, Tx.modifyPullRequest, Table.get?_modify_self, hrow, Option.map_some, Option.bind_some]
  · have hother : ¬ (row.headSha == pr.headSha) = true := fun h => hsame (beq_iff_eq.mp h).symm
    rw [if_neg hsame, if_neg hother, if_neg hother, hgo, if_pos rfl]
    have hseen (t : Tx) (ht : t.db.workItems = tx.db.workItems) : ((t.modifyPullRequest pid fun row =>
        { row with headSha := pr.headSha, reviewStatus := none, approvedBy := none }).modifyItem wid fun w =>
          { w with prHeadSha := some pr.headSha }).db.workItems.get? wid = some
            { item with prHeadSha := some pr.headSha } := by
      simp only [Tx.modifyPullRequest, Tx.modifyItem, Table.get?_modify_self, ht, hi, Option.map_some]
    obtain ⟨happroval, hlevel'⟩ := @reverifyNewHead_held env _ wid pid _ (hseen ((tx.modifyPullRequest pid fun row =>
      { row with updatedAt := env.now }).event env .pullRequest pid (.log "head_changed") (some row.headSha)
        (some pr.headSha) "new push" "controller" []) rfl) pr.headSha
    refine ⟨happroval.trans ?_, hlevel'⟩
    simp only [Db.approval, Tx.modifyPullRequest, Tx.modifyItem, Table.get?_modify_self, Option.bind_map,
      Function.comp_def,
      Option.bind_fun_none]

end Records

section Outcome

variable {env : Env} {tx t : Tx} {wid pid : Nat} {pr : PullRequestInfo} {checks : List CheckRun} {item : WorkItem}
  {row : PullRequest} {reviews : List Review}

theorem checkApproval_none (h : firstApprover env.settings.approverLogins pr.headSha reviews = none) :
    checkApproval env t wid pid pr reviews = t := by
  rw [firstApprover, Option.map_eq_none_iff] at h
  unfold checkApproval
  rw [h]

/-- An approval is recorded, with its level where another one or none was recorded. -/
theorem checkApproval_some (hi : t.db.workItems.get? wid = some item) (hrow : t.db.pullRequests.get? pid = some row)
    {author : String} (h : firstApprover env.settings.approverLogins pr.headSha reviews = some author) :
    (checkApproval env t wid pid pr reviews).db.approval pid = some author ∧
    (checkApproval env t wid pid pr reviews).db.level wid = some
    (if t.db.approval pid = some author then item.lifecycleLevel
      else if LifecycleLevel.humanApproved.toNat > item.lifecycleLevel.toNat then .humanApproved
      else item.lifecycleLevel) := by
  obtain ⟨r, hr, rfl⟩ := Option.map_eq_some_iff.mp h
  have hrecorded : t.db.approval pid = row.approvedBy := by rw [Db.approval, hrow, Option.bind_some]
  unfold checkApproval
  rw [hr, hrecorded]
  dsimp only
  rw [hrow, Option.any_some]
  by_cases hsame : row.approvedBy = some r.author
  · rw [if_neg (by simpa using hsame), if_pos hsame, hrecorded]
    exact ⟨hsame, by rw [Db.level, hi, Option.map_some]⟩
  · rw [if_pos (by simpa using hsame), if_neg hsame]
    have hlevels (row : PullRequest) : (if LifecycleLevel.humanApproved.toNat > row.lifecycleLevel.toNat then
        { row with lifecycleLevel := .humanApproved } else row).approvedBy = row.approvedBy := by
      split <;> rfl
    have happroval (t' : Tx) : (t'.modifyPullRequest pid fun row => if LifecycleLevel.humanApproved.toNat >
        row.lifecycleLevel.toNat then { row with lifecycleLevel := .humanApproved } else row).db.approval pid =
          t'.db.approval pid := by
      simp only [Db.approval, Tx.modifyPullRequest, Table.get?_modify_self, Option.bind_map, Function.comp_def, hlevels]
    have hi' : (t.modifyPullRequest pid fun row => { row with approvedBy := some r.author }).db.workItems.get?
      wid = some item := hi
    have hset : (t.modifyPullRequest pid fun row => { row with approvedBy := some r.author }).db.approval pid =
        some r.author := by
      simp only [Db.approval, Tx.modifyPullRequest, Table.get?_modify_self, hrow, Option.map_some, Option.bind_some]
    unfold raiseLevel
    rw [hi']
    dsimp only
    rw [happroval]
    split
    · refine ⟨hset, ?_⟩
      simp only [Db.level, Tx.modifyPullRequest, Tx.modifyItem, Tx.event, Table.get?_modify_self, hi, Option.map_some]
    · exact ⟨hset, by simp only [Db.level, Tx.modifyPullRequest, hi, Option.map_some]⟩

end Outcome

/-- What is on record of an approval: its author on the pull request, and the level of the item. -/
structure OnRecord (db : Db) (wid pid : Nat) (P : Prop) : Prop where
  approval : (db.approval pid).isSome ↔ P
  level : db.level wid = some .humanApproved ↔ P

/-- The reviews that a poll reads, and what was on record before: once the checks are green, an approval that was given
also stands, and is recorded with its level or can be, and one that is recorded was given; checks that run let nothing
change. -/
def ApprovalSeen (approvers : List String) (held : Option String) (level : LifecycleLevel) (verdict : ChecksVerdict)
    (head : String) (reviews : List Review) : Prop :=
  match verdict, firstApprover approvers head reviews with
  | .green, some author => ApprovalStands approvers head reviews ∧
      if held = some author then level = .humanApproved else level.toNat ≤ LifecycleLevel.humanApproved.toNat
  | .green, none => held = none ∧ level ≠ .humanApproved
  | _, _ => (held.isSome ↔ ApprovalStands approvers head reviews) ∧
      (level = .humanApproved ↔ ApprovalStands approvers head reviews)

/-- The action polls the row of an item that is ready for its human afterwards. -/
def ReadyPoll (c : Controller) (s : Sys) (a : Action) (wid pid : Nat) (pr : PullRequestInfo) (checks : List CheckRun)
    (answers : PrAnswers) : Prop :=
  (∃ now number, a = .pollPullRequest now wid number pr checks answers) ∧ polledPull c s a = some (pid, pr) ∧
    (exec c s a).db.itemState wid = some .readyForHuman

/-- After a poll of an item that is ready for its human, the record is what the reviews of the head say. -/
def FollowsReviews (c : Controller) (s : Sys) (a : Action) : Prop :=
  ∀ wid pid pr checks answers, ReadyPoll c s a wid pid pr checks answers →
    OnRecord (exec c s a).db wid pid (ApprovalStands c.settings.approverLogins pr.headSha answers.reviews)

/-- What is read in such a poll agrees with what was on record. -/
def Agrees (c : Controller) (s : Sys) (a : Action) : Prop :=
  ∀ wid pid pr checks answers, ReadyPoll c s a wid pid pr checks answers →
    ApprovalSeen c.settings.approverLogins (heldApproval s.db pid pr.headSha) (heldLevel s.db wid pid pr.headSha)
      (checksVerdict c.settings checks) pr.headSha answers.reviews

section Polls

variable {env : Env} {tx : Tx} {wid pid : Nat} {pr : PullRequestInfo} {checks : List CheckRun} {item : WorkItem}
  {row : PullRequest}

/-- A level that is kept is that of an approval, or at most that, exactly when it was. -/
theorem Keeps.level_iff {db db' : Db} (h : Keeps wid pid db db') {level : LifecycleLevel}
    (hl : db.level wid = some level)
    (hi : db'.workItems.get? wid = some item) :
    (item.lifecycleLevel = .humanApproved ↔ level = .humanApproved) ∧
      (item.lifecycleLevel.toNat ≤ LifecycleLevel.humanApproved.toNat ↔
      level.toNat ≤ LifecycleLevel.humanApproved.toNat) := by
  obtain ⟨level₀, hl₀, hkept⟩ := h.level item.lifecycleLevel (by rw [Db.level, hi, Option.map_some])
  obtain rfl : level₀ = level := Option.some.inj (hl₀.symm.trans hl)
  rcases hkept with hsame | ⟨hbefore, hafter⟩
  · rw [hsame]
    exact ⟨Iff.rfl, Iff.rfl⟩
  · refine ⟨⟨fun heq => ?_, fun heq => ?_⟩, iff_of_true hafter.le hbefore.le⟩
    · rw [heq] at hafter
      exact absurd hafter (lt_irrefl _)
    · rw [heq] at hbefore
      exact absurd hbefore (lt_irrefl _)

/-- A poll of an item whose checks run changes nothing that is on record. -/
theorem record_running {P : Prop} {t : Tx} {held : Option String} {level : LifecycleLevel}
    (happroval : t.db.approval pid = held)
    (hlevel : t.db.level wid = some level)
    (hi : (checksSeen env t wid pid pr checks).db.workItems.get? wid = some item) :
    OnRecord (checksSeen env t wid pid pr checks).db wid pid P ↔ (held.isSome ↔ P) ∧ (level = .humanApproved ↔ P) := by
  have hkept := @checksSeen_keeps env t wid pid pr checks
  have happroval' : (checksSeen env t wid pid pr checks).db.approval pid = held := hkept.approval.trans happroval
  have hlevel' : (checksSeen env t wid pid pr checks).db.level wid = some .humanApproved ↔ level = .humanApproved := by
    rw [Db.level, hi, Option.map_some, Option.some.injEq]
    exact (hkept.level_iff hlevel hi).1
  constructor
  · rintro ⟨ha, hl⟩
    exact ⟨happroval' ▸ ha, hlevel'.symm.trans hl⟩
  · rintro ⟨ha, hl⟩
    exact ⟨happroval' ▸ ha, hlevel'.trans hl⟩

/-- A poll of an item whose checks are green. -/
theorem record_green {t : Tx} {held : Option String} {level : LifecycleLevel} {reviews : List Review}
    (happroval : t.db.approval pid = held) (hi : t.db.workItems.get? wid = some item)
    (hlevel : item.lifecycleLevel = .humanApproved ↔ level = .humanApproved)
    (hle : item.lifecycleLevel.toNat ≤ LifecycleLevel.humanApproved.toNat ↔
    level.toNat ≤ LifecycleLevel.humanApproved.toNat)
    (hrow : t.db.pullRequests.get? pid = some row) :
    OnRecord (checkApproval env t wid pid pr reviews).db wid pid
    (ApprovalStands env.settings.approverLogins pr.headSha reviews) ↔
      ApprovalSeen env.settings.approverLogins held level .green pr.headSha reviews := by
  unfold ApprovalSeen
  cases hfirst : firstApprover env.settings.approverLogins pr.headSha reviews with
  | none =>
    have hnever : ¬ ApprovalStands env.settings.approverLogins pr.headSha reviews := by
      intro h
      have hgiven := h.given
      rw [hfirst] at hgiven
      cases hgiven
    rw [checkApproval_none hfirst]
    have hrecorded : t.db.level wid = some .humanApproved ↔ level = .humanApproved := by
      rw [Db.level, hi, Option.map_some, Option.some.injEq]
      exact hlevel
    constructor
    · rintro ⟨ha, hl⟩
      rw [happroval] at ha
      refine ⟨?_, fun h => hnever (hl.mp (hrecorded.mpr h))⟩
      exact Option.not_isSome_iff_eq_none.mp fun h => hnever (ha.mp h)
    · rintro ⟨ha, hl⟩
      exact ⟨iff_of_false (by rw [happroval, ha]; simp) hnever, iff_of_false (fun h => hl (hrecorded.mp h)) hnever⟩
  | some author =>
    obtain ⟨ha, hl⟩ := @checkApproval_some env t wid pid pr item row reviews hi hrow author hfirst
    have hreached : (checkApproval env t wid pid pr reviews).db.level wid = some .humanApproved ↔
        if held = some author then level = .humanApproved else level.toNat ≤ LifecycleLevel.humanApproved.toNat := by
      rw [hl, happroval, Option.some.injEq]
      split
      · exact hlevel
      · rw [← hle]
        cases item.lifecycleLevel <;> decide
    constructor
    · rintro ⟨happroval', hlevel'⟩
      have hstands := happroval'.mp (by rw [ha]; rfl)
      exact ⟨hstands, hreached.mp (hlevel'.mpr hstands)⟩
    · rintro ⟨hstands, hlevel'⟩
      exact ⟨iff_of_true (by rw [ha]; rfl) hstands, iff_of_true (hreached.mpr hlevel') hstands⟩

end Polls

theorem follows_iff_agrees (c : Controller) (s : Sys) (a : Action) : FollowsReviews c s a ↔ Agrees c s a := by
  refine forall_congr' fun wid => forall_congr' fun pid => forall_congr' fun pr => forall_congr' fun checks =>
    forall_congr' fun answers => forall_congr' fun hpoll => ?_
  obtain ⟨⟨now, number, rfl⟩, hpolled, hready⟩ := hpoll
  obtain ⟨-, -, item, hi, hmem, -⟩ := polledPull_poll hpolled
  rcases exec_poll c s now wid number pr checks answers with ⟨hnone, -⟩ | ⟨pid', row, hpolled', hrow, -, hdb⟩
  · rw [hnone] at hpolled
    cases hpolled
  · obtain rfl : pid' = pid := congrArg Prod.fst (Option.some.inj (hpolled'.symm.trans hpolled))
    have hs : s.db.itemState wid = some item.state := by rw [Db.itemState, hi, Option.map_some]
    rw [hdb] at hready ⊢
    obtain ⟨hopen, happly⟩ :=
      @applyPr_ready (c.env now) { db := s.db } wid pid' pr checks item.state row answers hs hmem hready
    obtain ⟨happroval, hlevel⟩ := @applyNewHead_held (c.env now) { db := s.db } wid pid' pr item row hi hrow hopen
    have hpolledHead := polledHead_does (c.env now) { db := s.db } wid pid' row pr
    rw [happly] at hready ⊢
    generalize applyNewHead (c.env now) _ wid pid' row pr = t at happroval hlevel hpolledHead hready ⊢
    rcases applyChecks_ready answers hready with ⟨hrunning, heq⟩ | ⟨hgreen, heq⟩
    · rw [heq] at hready ⊢
      obtain ⟨item', hi', -⟩ := Option.map_eq_some_iff.mp hready
      rw [record_running happroval hlevel hi', show checksVerdict c.settings checks = .running from hrunning]
      exact Iff.rfl
    · rw [heq] at hready ⊢
      have hseen := checksSeen_does (c.env now) t wid pid' pr checks
      have hpassed := checksPassed_does (c.env now) (checksSeen (c.env now) t wid pid' pr checks) wid pid' pr
      have hwaiting :=
        reviewWaiting_does (c.env now) (checksPassed (c.env now) (checksSeen (c.env now) t wid pid' pr checks) wid
        pid' pr) wid pid' pr answers
      have hkept : Keeps wid pid' t.db _ := (@checksSeen_keeps (c.env now) t wid pid' pr checks).trans
        (@reviewWaiting_keeps (c.env now) _ wid pid' pr answers)
      have hacts := ((hpolledHead.trans hseen.onHead).trans hpassed).trans hwaiting
      obtain ⟨item', hi'⟩ := Option.isSome_iff_exists.mp (hacts.item_isSome (Option.isSome_iff_exists.mpr ⟨item, hi⟩))
      obtain ⟨row', hrow', -⟩ := (hacts.sameOwners not_false).symm.row hrow
      rw [show checksVerdict c.settings checks = .green from hgreen]
      exact record_green (hkept.approval.trans happroval) hi' (hkept.level_iff hlevel hi').1
        (hkept.level_iff hlevel hi').2 hrow'

/-- **The approval on record follows the approvers' latest reviews** in a run exactly when each poll of an item that is
ready for its human reads what agrees with the record. -/
theorem follows_iff (c : Controller) (s : Sys) (trace : List Action) :
    Machine.AllSteps (exec c) (FollowsReviews c) s trace ↔ Machine.AllSteps (exec c) (Agrees c) s trace :=
  Machine.AllSteps.congr_invariant (fun _ => True) (fun _ _ _ _ => trivial)
    (fun s a _ => follows_iff_agrees c s a) trivial

/-- The first approver's reviews of head `a`. -/
def sampleReviews (states : List String) : PrAnswers :=
  { sampleReview .completed "a" with reviews := states.map fun state => ⟨"Hunter-1298", state, "a"⟩ }

/-- An approval of head `a` is polled, and a new tick begins. -/
def approvedOnce : List Action :=
  sampleReady ++ samplePoll 15 (samplePull "a") sampleGreen (sampleReviews ["APPROVED"]) ++ [.beginTick]

/-- The approver asks for changes, or the approval is dismissed: the approval stays on record. -/
theorem approval_kept : let s := sampleState approvedOnce
    Reachable sampleController s ∧
    ¬ FollowsReviews sampleController s (.pollPullRequest 16 1 1 (samplePull "a") sampleGreen
      (sampleReviews ["APPROVED", "CHANGES_REQUESTED"])) ∧
    ¬ FollowsReviews sampleController s
      (.pollPullRequest 16 1 1 (samplePull "a") sampleGreen (sampleReviews ["DISMISSED"])) := by
  refine ⟨sampleState_reachable _, fun h => ?_, fun h => ?_⟩
  · have hrecord := (h 1 1 (samplePull "a") sampleGreen _ ⟨⟨16, 1, rfl⟩, by decide +kernel, by decide +kernel⟩).approval
    revert hrecord
    decide +kernel
  · have hrecord := (h 1 1 (samplePull "a") sampleGreen _ ⟨⟨16, 1, rfl⟩, by decide +kernel, by decide +kernel⟩).approval
    revert hrecord
    decide +kernel

end HardeningLoop
