import HardeningLoop.Orchestrator.Engine.Walks
import HardeningLoop.Orchestrator.Ladder
import HardeningLoop.Orchestrator.Settling

/-!
# The verdict on the checks, and the ladder

The checks of a head are judged twice: `checksVerdict` decides whether the item moves on, and the ladder is what is
displayed of it. Without required names both read the same runs.

- `red_of_rung`, `not_pending_of_green`: what a rung says of the verdict;
- `Stays`: a unit does not move an item on; `applyPr_advances`: a poll that does found the checks green;
- `verdict_agrees`: no step moves on an item that displays a failed rung.
-/

namespace HardeningLoop

open Rows (Table)

/-! ## The verdict and the ladder -/

section Verdict

variable {settings : Settings} {checks : List CheckRun}

theorem checkFailed_iff {r : CheckRun} : checkFailed r = true ↔ r.Completed ∧ ¬ r.Succeeded := by
  simp [checkFailed, CheckRun.Completed, CheckRun.Succeeded]

/-- Without required names every run counts. -/
theorem checksVerdict_eq (h : settings.requiredCheckNames = []) : checksVerdict settings checks =
    if checks = [] then .running
    else if checks.any checkFailed then .red
    else if checks.all fun c => c.status == "completed" && c.conclusion == some "success" then .green
    else .running := by
  simp [checksVerdict, h]

theorem red_of_failed (h : settings.requiredCheckNames = []) {r : CheckRun} (hr : r ∈ checks) (hc : r.Completed)
    (hs : ¬ r.Succeeded) : checksVerdict settings checks = .red := by
  rw [checksVerdict_eq h, if_neg (List.ne_nil_of_mem hr), if_pos]
  exact List.any_eq_true.mpr ⟨r, hr, checkFailed_iff.mpr ⟨hc, hs⟩⟩

theorem of_green (h : settings.requiredCheckNames = []) (hgreen : checksVerdict settings checks = .green) :
    ∀ r ∈ checks, r.Completed ∧ r.Succeeded := by
  rw [checksVerdict_eq h] at hgreen
  split_ifs at hgreen with _ _ hall
  intro r hr
  simpa [CheckRun.Completed, CheckRun.Succeeded] using List.all_eq_true.mp hall r hr

variable {ladder : VerificationDepth → List Component} {d : VerificationDepth}

/-- A failed rung is a failed run. -/
theorem red_of_rung (h : settings.requiredCheckNames = []) (hd : rungOf checks ladder d = .failed) :
    checksVerdict settings checks = .red := by
  obtain ⟨comp, -, check, -, hcompleted, r, hr, hm, hf⟩ := rungOf_failed_iff.mp hd
  exact red_of_failed h hr (hcompleted r hr hm) hf.not_succeeded

theorem not_pending_of_green (h : settings.requiredCheckNames = []) (hgreen : checksVerdict settings checks = .green) :
    rungOf checks ladder d ≠ .pending := by
  intro hd
  obtain ⟨comp, -, check, -, r, hr, -, hc⟩ := rungOf_pending hd
  exact hc (of_green h hgreen r hr).1

end Verdict

/-! ## What moves an item on -/

def Db.level (db : Db) (wid : Nat) : Option LifecycleLevel := (db.workItems.get? wid).map WorkItem.lifecycleLevel

/-- The item moves on by what was seen of its head: into a state, or up to a level, that stands for its checks, its
review or its approval. -/
def Advances (db db' : Db) (wid : Nat) : Prop :=
  (∃ s ∈ [WorkItemState.reviewPending, .readyForHuman], db'.itemState wid = some s ∧ db.itemState wid ≠ some s) ∨
  ∃ level ∈ headLevels, db'.level wid = some level ∧ db.level wid ≠ some level

/-- The item does not move on. -/
structure Stays (wid : Nat) (db db' : Db) : Prop where
  state : ∀ s ∈ [WorkItemState.reviewPending, .readyForHuman], db'.itemState wid = some s → db.itemState wid = some s
  level : ∀ level ∈ headLevels, db'.level wid = some level → db.level wid = some level

theorem Stays.not_advances {db db' : Db} {wid : Nat} (h : Stays wid db db') : ¬ Advances db db' wid := by
  rintro (⟨s, hs, hafter, hbefore⟩ | ⟨level, hl, hafter, hbefore⟩)
  · exact hbefore (h.state s hs hafter)
  · exact hbefore (h.level level hl hafter)

section Staying

variable {env : Env} {S : Scope} {db : Db} {tx t t' : Tx} {wid pid : Nat} {pr : PullRequestInfo}
  {checks : List CheckRun}

theorem Stays.of_items {db' : Db} (h : db'.workItems = db.workItems) : Stays wid db db' := by
  constructor
  · intro s _ hs
    rwa [Db.itemState, h] at hs
  · intro level _ hl
    rwa [Db.level, h] at hl

theorem Stays.trans {db' db'' : Db} (h : Stays wid db db') (h' : Stays wid db' db'') : Stays wid db db'' :=
  ⟨fun s hs hafter => h.state s hs (h'.state s hs hafter), fun l hl hafter => h.level l hl (h'.level l hl hafter)⟩

/-- Only `checks_green` leads to `review_pending`. -/
theorem next_eq_reviewPending {s : WorkItemState} {e : WorkItemEvent}
    (h : nextWorkItemState s e = some .reviewPending) :
    e = .checksGreen := by
  have hall : ∀ row ∈ workItemTransitions, row.2 = WorkItemState.reviewPending → row.1.2 = .checksGreen := by decide
  exact hall _ (mem_of_lookup h) rfl

/-- A unit that observes no head does not move the item on. -/
theorem Acts.stays (h : Acts env S tx t) (hp : ¬ S.pulls)
    (hf : ∀ e ∈ [WorkItemEvent.checksGreen, .reviewCompleted], ¬ S.fires e) :
    Stays wid tx.db t.db := by
  constructor
  · intro s hs hafter
    have hq : s ≠ .queued := by
      revert hs
      cases s <;> decide
    have hback : ∀ s₀ e s', S.fires e ∨ e = .blocked → nextWorkItemState s₀ e = some s' → s' = s → s₀ = s := by
      rintro s₀ e _ he hn rfl
      have hevent : e ∈ [WorkItemEvent.checksGreen, .reviewCompleted] := by
        simp only [List.mem_cons, List.not_mem_nil, or_false] at hs ⊢
        rcases hs with rfl | rfl
        · exact Or.inl (next_eq_reviewPending hn)
        · exact Or.inr (next_eq_readyForHuman hn)
      rcases he with he | rfl
      · exact absurd he (hf e hevent)
      · exact absurd hevent (by decide)
    obtain ⟨s₀, hs₀, rfl⟩ := h.state_back (· = s) (fun _ hs => hq hs.symm) hback hafter rfl
    exact hs₀
  · intro level hl hafter
    obtain ⟨w', hw', rfl⟩ := Option.map_eq_some_iff.mp hafter
    rcases (h.tracking hp hw').2 with hsame | hno
    · exact hsame.symm
    · exact absurd hl hno

theorem Stays.wi (h : Stays wid db t.db) (k : Nat) {e : WorkItemEvent}
    (he : e ∉ [WorkItemEvent.checksGreen, .reviewCompleted])
    (reason actor : String) : Stays wid db (t.wi env k e reason actor).db := by
  refine h.trans
    ((Acts.refl.wi (S := ⟨(· = e), False, fun _ => True, fun _ => False, False, fun _ => False⟩) trivial rfl
    reason actor).stays not_false fun e' he' heq => ?_)
  exact he (heq ▸ he')

theorem Stays.acts (h : Stays wid db t.db) (ha : Acts env S t t') (hp : ¬ S.pulls)
    (hf : ∀ e ∈ [WorkItemEvent.checksGreen, .reviewCompleted], ¬ S.fires e) : Stays wid db t'.db :=
  h.trans (ha.stays hp hf)

theorem Stays.edit (h : Stays wid db t.db) (k : Nat) {f : WorkItem → WorkItem}
    (hf : ∀ w, (f w).state = w.state ∧ (f w).lifecycleLevel = w.lifecycleLevel) :
    Stays wid db (t.modifyItem k f).db := by
  refine h.trans ⟨fun s _ hs => ?_, fun l _ hl => ?_⟩
  · simpa [Db.itemState, Tx.modifyItem, Table.get?_modify, apply_ite (Option.map WorkItem.state), Option.map_map,
      Function.comp_def, hf] using hs
  · simpa [Db.level, Tx.modifyItem, Table.get?_modify, apply_ite (Option.map WorkItem.lifecycleLevel), Option.map_map,
      Function.comp_def, hf] using hl

theorem Stays.pulls (h : Stays wid db t.db) (pid : Nat) (f : PullRequest → PullRequest) :
    Stays wid db (t.modifyPullRequest pid f).db := h.trans (.of_items rfl)

/-- A new head takes levels away. -/
theorem applyNewHead_stays (row : PullRequest) : Stays wid tx.db (applyNewHead env tx wid pid row pr).db := by
  have hlow : LifecycleLevel.prOpened ∉ headLevels := by decide
  unfold applyNewHead
  split
  · exact .of_items rfl
  · dsimp only
    have hseen (f : PullRequest → PullRequest) (reason : String) : Stays wid tx.db (((tx.event env .pullRequest pid
        (.log "head_changed") (some row.headSha) (some pr.headSha) reason "controller" []).modifyPullRequest pid
          f).modifyItem wid fun w => { w with prHeadSha := some pr.headSha }).db := by
      have hlogged : Stays wid tx.db (tx.event env .pullRequest pid (.log "head_changed") (some row.headSha)
        (some pr.headSha) reason "controller" []).db := .of_items rfl
      exact (hlogged.pulls pid f).edit wid fun _ => ⟨rfl, rfl⟩
    split
    · unfold reverifyNewHead
      dsimp only
      have hreset (t : Tx) (ht : Stays wid tx.db t.db) (why : String) :
          Stays wid tx.db (resetLevel env t wid pid .prOpened why).db :=
        ht.acts (resetLevel_edits env t wid pid hlow why) not_false fun _ _ => not_false
      refine ((hreset _ ?_ _).pulls pid _).edit wid fun _ => ⟨rfl, rfl⟩
      split
      · exact (hseen _ _).wi wid (by decide) ..
      · exact hseen _ _
    · exact hseen _ _

theorem checksSeen_stays : Stays wid tx.db (checksSeen env tx wid pid pr checks).db := by
  have h : Stays wid tx.db (recordDepth env (checks.foldl (recordCheck env pid pr.headSha) tx) wid pid pr.headSha
      checks).db := (recordedChecks_edits env tx wid pid pr.headSha checks).stays not_false fun _ _ => not_false
  unfold checksSeen
  dsimp only
  split
  · exact h.wi wid (by decide) ..
  · exact h

/-- Checks that are not green do not move the item on. -/
theorem applyChecks_stays (answers : PrAnswers) (h : checksVerdict env.settings checks ≠ .green) :
    Stays wid tx.db (applyChecks env tx wid pid pr checks answers).db := by
  unfold applyChecks
  dsimp only
  split
  · split
    · have hseen := @checksSeen_stays env tx wid pid pr checks
      refine (hseen.wi wid (by decide) ..).acts (retryOrFail_does env _ wid pid pr checks) not_false ?_
      intro e he hfires
      refine hfires ?_
      revert he
      cases e <;> decide
    · exact checksSeen_stays
  · rename_i hgreen
    exact absurd hgreen h
  · exact checksSeen_stays

/-- Neither does a pull request that is merged or closed, or that a human owns. -/
theorem applyPr_stays (row : PullRequest) (answers : PrAnswers) (h : pr.merged = true ∨ pr.state = "closed" ∨
    (applyNewHead env (tx.modifyPullRequest pid fun row => { row with updatedAt := env.now }) wid pid row
      pr).db.itemState wid = some .needsHuman ∨ checksVerdict env.settings checks ≠ .green) :
    Stays wid tx.db (applyPr env tx wid pid row pr checks answers).db := by
  have hupdated : Stays wid tx.db (tx.modifyPullRequest pid fun row => { row with updatedAt := env.now }).db :=
    .of_items rfl
  have hpolled := hupdated.trans (@applyNewHead_stays env _ wid pid pr row)
  unfold applyPr
  dsimp only
  split
  · refine hpolled.acts (applyMerge_does env _ wid pid pr _) not_false ?_
    intro e he hfires
    refine hfires ?_
    revert he
    cases e <;> decide
  · rename_i hmerged
    split
    · split
      · exact hpolled.pulls pid _
      · exact (hpolled.pulls pid _).wi wid (by decide) ..
    · rename_i hclosed
      split
      · exact hpolled
      · rename_i hhuman
        refine hpolled.trans (applyChecks_stays answers ?_)
        exact ((h.resolve_left hmerged).resolve_left hclosed).resolve_left hhuman

end Staying

/-! ## What is displayed -/

section Shown

variable {env : Env} {db db' : Db} {tx t t' : Tx} {wid pid : Nat} {pr : PullRequestInfo} {checks : List CheckRun}

/-- The same rungs are displayed. -/
def SameRungs (db db' : Db) : Prop :=
  db'.pullRequests.map PullRequest.depthRungs = db.pullRequests.map PullRequest.depthRungs

namespace SameRungs

theorem refl (db : Db) : SameRungs db db := rfl

theorem trans {db'' : Db} (h : SameRungs db db') (h' : SameRungs db' db'') : SameRungs db db'' := Eq.trans h' h

theorem wi (h : SameRungs db t.db) (k : Nat) (e : WorkItemEvent) (reason actor : String) :
    SameRungs db (t.wi env k e reason actor).db := by
  rw [SameRungs, Tx.wi_db]
  exact h

theorem pulls (h : SameRungs db t.db) (pid : Nat) {f : PullRequest → PullRequest}
    (hf : ∀ row, (f row).depthRungs = row.depthRungs) : SameRungs db (t.modifyPullRequest pid f).db :=
  (Table.map_modify_of_eq hf).trans h

theorem raiseLevel (h : SameRungs db t.db) (level : LifecycleLevel) (why : String) :
    SameRungs db (raiseLevel env t wid pid level why).db := by
  unfold HardeningLoop.raiseLevel
  dsimp only
  refine .pulls ?_ pid fun row => ?_
  · split
    · split <;> exact h
    · exact h
  · split <;> rfl

/-- The rungs of a row. -/
theorem rungs (h : SameRungs db db') (pid : Nat) :
    (db'.pullRequests.get? pid).map PullRequest.depthRungs = (db.pullRequests.get? pid).map PullRequest.depthRungs := by
  have hget := congrArg (fun rows => rows.get? pid) h
  simpa only [Table.get?_map] using hget

end SameRungs

theorem reviewTimeout_sameRungs (head why : String) : SameRungs t.db (reviewTimeout env t wid head why).db := by
  unfold reviewTimeout
  dsimp only
  split
  · split
    · exact (SameRungs.refl t.db).wi ..
    · exact .refl t.db
  · exact .refl t.db

theorem observeReview_sameRungs (head : String) (snap : ReviewSnapshot) :
    SameRungs t.db (observeReview env t wid pid head snap).db := by
  have hseen (id sha status : Option String) : SameRungs t.db (t.modifyPullRequest pid fun row =>
      { row with reviewId := id, reviewHeadSha := sha, reviewStatus := status }).db := by
    refine (SameRungs.refl t.db).pulls pid ?_
    exact fun _ => rfl
  unfold observeReview
  dsimp only
  split
  · exact reviewTimeout_sameRungs ..
  · split
    · exact ((hseen ..).wi ..).raiseLevel ..
    · exact (hseen ..).trans (reviewTimeout_sameRungs ..)

theorem triggerReview_sameRungs (reason : String) (answer : Except String ReviewSnapshot) :
    SameRungs t.db (triggerReview env t wid pid pr reason answer).db := by
  unfold triggerReview
  split
  · exact reviewTimeout_sameRungs ..
  · exact observeReview_sameRungs ..

theorem checkReview_sameRungs (answers : PrAnswers) : SameRungs t.db (checkReview env t wid pid pr answers).db := by
  unfold checkReview
  dsimp only
  split
  · exact reviewTimeout_sameRungs ..
  · exact triggerReview_sameRungs ..
  · split
    · split
      · exact (SameRungs.refl t.db).wi ..
      · exact triggerReview_sameRungs ..
    · exact (SameRungs.refl t.db).wi ..
    · exact observeReview_sameRungs ..

theorem checkApproval_sameRungs (reviews : List Review) :
    SameRungs t.db (checkApproval env t wid pid pr reviews).db := by
  unfold checkApproval
  split
  · exact .refl t.db
  · split
    · refine SameRungs.raiseLevel (.pulls (.refl t.db) pid ?_) ..
      exact fun _ => rfl
    · exact .refl t.db

theorem applyGreen_sameRungs (answers : PrAnswers) : SameRungs t.db (applyGreen env t wid pid pr answers).db := by
  have hpassed : SameRungs t.db (checksPassed env t wid pid pr).db := by
    unfold checksPassed
    split
    · refine SameRungs.raiseLevel (.wi (.pulls (.refl t.db) pid fun row => ?_) ..) ..
      unfold firstHeadSeen
      split <;> rfl
    · exact .refl t.db
  have hreview : SameRungs t.db (reviewWaiting env (checksPassed env t wid pid pr) wid pid pr answers).db := by
    unfold reviewWaiting
    split
    · exact hpassed.trans (checkReview_sameRungs answers)
    · exact hpassed
  unfold applyGreen
  dsimp only
  split
  · exact hreview.trans (checkApproval_sameRungs _)
  · exact hreview

/-- The rungs that are displayed are those of the checks that were seen. -/
theorem checksSeen_rungs (hi : (tx.db.workItems.get? wid).isSome) (hrow : (tx.db.pullRequests.get? pid).isSome) :
    ((checksSeen env tx wid pid pr checks).db.pullRequests.get? pid).map PullRequest.depthRungs =
      some (evaluate checks defaultLadder).rungSummary := by
  obtain ⟨item, hi⟩ := Option.isSome_iff_exists.mp hi
  obtain ⟨row, hrow⟩ := Option.isSome_iff_exists.mp hrow
  have hrecorded : (checks.foldl (recordCheck env pid pr.headSha) tx).db.workItems = tx.db.workItems ∧
      (checks.foldl (recordCheck env pid pr.headSha) tx).db.pullRequests = tx.db.pullRequests :=
    Rows.foldl_invariant (fun t : Tx => t.db.workItems = tx.db.workItems ∧ t.db.pullRequests = tx.db.pullRequests)
      (fun t c _ (h : t.db.workItems = tx.db.workItems ∧ t.db.pullRequests = tx.db.pullRequests) =>
        show (recordCheck env pid pr.headSha t c).db.workItems = _ ∧ _ from h) ⟨rfl, rfl⟩
  have hdepth := (@recordDepth_db env _ wid pid item row pr.headSha checks (hrecorded.1 ▸ hi) (hrecorded.2 ▸ hrow)).1
  have hstarted (t : Tx) (reason : String) : (t.wi env wid .checksStarted reason "controller").db.pullRequests =
      t.db.pullRequests := by
    rw [Tx.wi_db]
  unfold checksSeen
  dsimp only
  split
  · rw [hstarted, hdepth, hrecorded.2, Table.get?_modify_self, hrow]
    rfl
  · rw [hdepth, hrecorded.2, Table.get?_modify_self, hrow]
    rfl

end Shown

/-! ## An item that moves on -/

section Moves

variable {env : Env} {tx : Tx} {wid pid : Nat} {pr : PullRequestInfo} {checks : List CheckRun}

/-- A poll that moves the item on found its checks green, and displays what they say. -/
theorem applyPr_advances (row : PullRequest) (answers : PrAnswers) (hi : (tx.db.workItems.get? wid).isSome)
    (hrow : (tx.db.pullRequests.get? pid).isSome)
    (h : Advances tx.db (applyPr env tx wid pid row pr checks answers).db wid) :
    checksVerdict env.settings checks = .green ∧
      ((applyPr env tx wid pid row pr checks answers).db.pullRequests.get? pid).map PullRequest.depthRungs =
        some (evaluate checks defaultLadder).rungSummary := by
  set t := applyNewHead env (tx.modifyPullRequest pid fun row => { row with updatedAt := env.now }) wid pid row pr
    with ht
  have hstays (hcase : pr.merged = true ∨ pr.state = "closed" ∨ t.db.itemState wid = some .needsHuman ∨
      checksVerdict env.settings checks ≠ .green) : False := (applyPr_stays row answers hcase).not_advances h
  have hgreen : checksVerdict env.settings checks = .green := by
    by_contra hne
    exact hstays (.inr (.inr (.inr hne)))
  refine ⟨hgreen, ?_⟩
  have hacts := polledHead_does env tx wid pid row pr
  rw [← ht] at hacts
  have hrow' : (t.db.pullRequests.get? pid).isSome := by
    obtain ⟨row₀, hrow₀⟩ := Option.isSome_iff_exists.mp hrow
    obtain ⟨row', hrow', -⟩ := (hacts.sameOwners not_false).symm.row hrow₀
    exact Option.isSome_iff_exists.mpr ⟨row', hrow'⟩
  have happly : applyPr env tx wid pid row pr checks answers =
      applyGreen env (checksSeen env t wid pid pr checks) wid pid pr answers := by
    unfold applyPr
    dsimp only
    rw [← ht, if_neg fun hm => hstays (.inl hm), if_neg fun hc => hstays (.inr (.inl hc)),
      if_neg fun hn => hstays (.inr (.inr (.inl hn)))]
    unfold applyChecks
    dsimp only
    rw [hgreen]
  rw [happly, (applyGreen_sameRungs answers).rungs, checksSeen_rungs (hacts.item_isSome hi) hrow']

/-- A report of a session does not move the item on. -/
theorem pollSession_stays (sid : String) (snap : SessionSnapshot) (answers : SessionAnswers) (w : Nat) :
    Stays w tx.db (pollSession env wid sid snap answers tx).db := by
  have hlow : LifecycleLevel.prOpened ∉ headLevels := by decide
  have hrecord (t : Tx) (pr : PullRequestInfo) : Stays w t.db (recordPr env t wid pr).db := by
    have hraise (t' : Tx) (pid : Nat) : Stays w t'.db (raiseLevel env t' wid pid .prOpened "pr_opened").db :=
      (raiseLevel_levels env t' wid pid hlow _).stays not_false fun _ _ => not_false
    have hlinked (t' : Tx) (ht : t'.db.workItems = t.db.workItems) : Stays w t.db (t'.modifyItem wid fun w =>
        { w with prNumber := some pr.number, prUrl := some pr.url, prHeadSha := some pr.headSha
                 prOpenedAt := w.prOpenedAt.orElse fun _ => some env.now }).db := by
      have hsame : Stays w t.db t'.db := .of_items ht
      exact hsame.edit wid fun _ => ⟨rfl, rfl⟩
    unfold recordPr
    dsimp only
    refine .trans (hlinked _ ?_) (hraise _ _)
    split <;> rfl
  have hdecision (t : Tx) (row : Nat) (item : WorkItem) (facts : SnapshotFacts) (result : Assessment) :
      Stays w t.db (applyDecision env t wid row item snap facts result).db := by
    have hsent (message : String) : Stays w t.db (sendMessage t row snap.sessionId message).db := .of_items rfl
    have hsame : Stays w t.db t.db := .of_items rfl
    unfold applyDecision
    split
    · exact hsame
    · exact hsent _
    · exact (hsent _).edit wid fun _ => ⟨rfl, rfl⟩
    · have hblocked (reason : String) : Stays w t.db (t.wi env wid .blocked reason "controller").db :=
        hsame.wi wid (by decide) ..
      dsimp only
      split
      · unfold postDisagreementVerdict
        split
        · exact hblocked _
        · exact hblocked _
      · exact hblocked _
    · split
      · exact hsame
      · rename_i pr _
        have hopened : Stays w t.db (((recordPr env t wid pr).wi env wid .prOpened pr.url "controller").wi env wid
            .checksStarted pr.headSha "controller").db := ((hrecord t pr).wi wid (by decide) ..).wi wid (by decide) ..
        dsimp only
        split
        · exact hopened
        · exact hopened
  unfold pollSession
  split
  · exact .of_items rfl
  · split
    · exact .of_items rfl
    · split
      · have hsame : Stays w tx.db tx.db := .of_items rfl
        exact hsame.wi wid (by decide) ..
      · split
        · refine .trans ?_ (hdecision ..)
          exact .of_items rfl
        · exact .of_items rfl

/-- The pull request that the item tracks is displayed with a failed rung. -/
def ShowsFailed (settings : Settings) (db : Db) (wid : Nat) : Prop :=
  ∃ number pid row d, db.tracks wid = some number ∧
    (db.pullRequests.first fun row => row.repo == settings.repo && row.number == number) = some pid ∧
    db.pullRequests.get? pid = some row ∧ (VerificationDepth.name d, CheckStatus.failed.value) ∈ row.depthRungs

/-- The row that a poll is about is the one the item tracks, also afterwards. -/
theorem SameOwners.first {db db' : Db} (h : SameOwners db db') (repo : String) (number : Nat) :
    (db'.pullRequests.first fun row => row.repo == repo && row.number == number) =
      db.pullRequests.first fun row => row.repo == repo && row.number == number := by
  have hview (t : Table PullRequest) : (t.first fun row => row.repo == repo && row.number == number) =
      (t.map PullRequest.owner).first fun owner => owner.2.1 == repo && owner.2.2 == number := by
    rw [Table.first_map]
    rfl
  rw [hview, hview, h.owners]

/-- A rung that is displayed as failed is failed. -/
theorem failed_of_summary {ladder : VerificationDepth → List Component} {d : VerificationDepth}
    (h : (d.name, CheckStatus.failed.value) ∈ (evaluate checks ladder).rungSummary) :
    ∃ d, (d, CheckStatus.failed) ∈ (evaluate checks ladder).rungs := by
  obtain ⟨⟨d', s⟩, hmem, hs⟩ := List.mem_map.mp h
  have hfailed : s = .failed := by
    have hvalue : s.value = CheckStatus.failed.value := congrArg Prod.snd hs
    clear hmem hs
    revert hvalue
    cases s <;> decide
  exact ⟨d', hfailed ▸ hmem⟩

/-- A poll of a row is a poll of the item that tracks it. -/
theorem polledPull_poll {c : Controller} {s : Sys} {now : DateTime} {number : Nat} {answers : PrAnswers}
    (h : polledPull c s (.pollPullRequest now wid number pr checks answers) = some (pid, pr)) :
    (exec c s (.pollPullRequest now wid number pr checks answers)).db =
      (pollPullRequest (c.env now) wid number pr checks answers { db := s.db }).db ∧
    (s.db.pullRequests.first fun row => row.repo == c.settings.repo && row.number == number) = some pid ∧
    ∃ item, s.db.workItems.get? wid = some item ∧ item.state ∈ prStates ∧ item.prNumber = some number := by
  dsimp only [polledPull] at h
  split at h
  · rename_i hflight hphase
    obtain ⟨pid', hrow, hpid⟩ := Option.map_eq_some_iff.mp h
    obtain ⟨rfl, -⟩ := Prod.mk.inj hpid
    obtain ⟨item, hitem, hfirst⟩ := Option.bind_eq_some_iff.mp hrow
    obtain ⟨hi, hguard⟩ := Option.filter_eq_some_iff.mp hitem
    simp only [Bool.and_eq_true, decide_eq_true_eq] at hguard
    refine ⟨?_, hfirst, item, hi, hguard⟩
    simp only [exec, hflight, stepFree, hphase]
    rfl
  · cases h

/-- **A step that moves an item on** leaves no failed rung displayed. -/
theorem exec_advances {c : Controller} {s : Sys} {a : Action} (hreq : c.settings.requiredCheckNames = [])
    (h : Advances s.db (exec c s a).db wid) : ¬ ShowsFailed c.settings (exec c s a).db wid := by
  have hsame (db' : Db) (hdb : db'.workItems = s.db.workItems) : ¬ Advances s.db db' wid :=
    (Stays.of_items hdb).not_advances
  have hrest (hS : ¬ a.scope.pulls) (hf : ∀ e ∈ [WorkItemEvent.checksGreen, .reviewCompleted], ¬ a.scope.fires e) :
      ¬ Advances s.db (exec c s a).db wid := by
    have hcommits := exec_commits c s a
    generalize (exec c s a).db = db' at hcommits
    cases hcommits with
    | units hacts => exact (hacts.stays hS hf).not_advances
    | evaluation hacts rid => exact ((hacts.stays hS hf).trans (.of_items rfl)).not_advances
    | ingested hrun => exact hsame _ (ingestRun_ingested hrun).workItems
  have hno : ∀ e ∈ [WorkItemEvent.checksGreen, .reviewCompleted], e ∈ headEvents := by decide
  have hno' : ∀ e ∈ [WorkItemEvent.checksGreen, .reviewCompleted], e ∈ .dispatchStarted :: headEvents := by decide
  cases a with
  | pollPullRequest now k number pr checks answers =>
    rcases exec_poll c s now k number pr checks answers with ⟨-, hidle⟩ | ⟨pid, row, hpolled, hrow, -, hdb⟩
    · exact absurd h (hsame _ (congrArg Db.workItems hidle))
    · obtain ⟨hexec, hfirst, item, hi, -, hnumber⟩ := polledPull_poll hpolled
      have htracks : s.db.tracks k = some number := by
        rw [Db.tracks, hi]
        exact hnumber
      have hpoll := pollPullRequest_does (c.env now) k number pr checks answers { db := s.db }
      have howners := hpoll.sameOwners (show ¬ Deed.record ∈ [Deed.settle, .retry] by decide)
      rw [← hexec] at howners
      by_cases hk : wid = k
      · subst hk
        rw [hdb] at h
        obtain ⟨hgreen, hrungs⟩ := applyPr_advances row answers (Option.isSome_iff_exists.mpr ⟨item, hi⟩)
          (Option.isSome_iff_exists.mpr ⟨row, hrow⟩) h
        rintro ⟨number', pid', row', d, htracks', hfirst', hrow', hshown⟩
        rw [howners.tracks, htracks, Option.some.injEq] at htracks'
        rw [howners.first, ← htracks', hfirst, Option.some.injEq] at hfirst'
        rw [hdb, ← hfirst'] at hrow'
        rw [hrow', Option.map_some, Option.some.injEq] at hrungs
        obtain ⟨d, hd⟩ := failed_of_summary (hrungs ▸ hshown)
        cases hgreen.symm.trans (red_of_rung hreq (mem_rungs.mp hd))
      · refine absurd h ?_
        have hother := hpoll.item not_false hk
        rw [hexec]
        exact (⟨fun s _ hs => by rwa [Db.itemState, hother] at hs, fun l _ hl => by rwa [Db.level, hother] at hl⟩ :
          Stays wid s.db _).not_advances
  | pollSession now k sid snap answers =>
    refine absurd h ?_
    dsimp only [exec, stepFree]
    split
    · exact hsame _ rfl
    · split
      · exact (pollSession_stays sid snap answers wid).not_advances
      · exact (pollSession_stays sid snap answers wid).not_advances
      · exact hsame _ rfl
  | dispatch now labels => exact absurd h (hrest not_false fun e he hfires => hfires (hno e he))
  | launch now k operator answers => exact absurd h (hrest not_false fun e he hfires => hfires (hno e he))
  | _ => exact absurd h (hrest not_false fun e he hfires => hfires (hno' e he))

end Moves

/-- **The verdict and the ladder agree**: a rung that failed is a red verdict, with a green one no rung is failed or
pending and a component that has runs is passed, and no step of the controller moves an item on that displays a failed
rung. -/
theorem verdict_agrees (settings : Settings) (hreq : settings.requiredCheckNames = []) :
    (∀ ladder runs,
      ((∃ d, (d, .failed) ∈ (evaluate runs ladder).rungs) → checksVerdict settings runs = .red) ∧
      (checksVerdict settings runs = .green →
        (∀ d, (d, .failed) ∉ (evaluate runs ladder).rungs ∧ (d, .pending) ∉ (evaluate runs ladder).rungs) ∧
        ∀ d, ∀ comp ∈ ladder d, ∀ check, comp.check = some check → (∃ r ∈ runs, r.Matches check) →
          (componentRecord runs d comp).status = .passed)) ∧
    ∀ c s a wid, c.settings = settings → Advances s.db (exec c s a).db wid →
      ¬ ShowsFailed settings (exec c s a).db wid := by
  refine ⟨fun ladder runs => ⟨?_, fun hgreen => ⟨fun d => ⟨?_, ?_⟩, ?_⟩⟩, ?_⟩
  · rintro ⟨d, hd⟩
    exact red_of_rung hreq (mem_rungs.mp hd)
  · intro hd
    cases hgreen.symm.trans (red_of_rung hreq (mem_rungs.mp hd))
  · intro hd
    exact not_pending_of_green hreq hgreen (mem_rungs.mp hd)
  · intro d comp _ check hcheck hruns
    exact componentRecord_passed_iff.mpr ⟨check, hcheck, hruns, fun r hr _ => of_green hreq hgreen r hr⟩
  · rintro c s a wid rfl hadvances
    exact exec_advances hreq hadvances

/-- The item of `sampleReady` moved on with every rung it has runs for passed. -/
theorem verdict_agrees_ready : let s := sampleState (sampleReady.dropLast.dropLast)
    Advances s.db
    (exec sampleController s (.pollPullRequest 14 1 1 (samplePull "a") sampleGreen (sampleReview .completed "a"))).db
      1 ∧
    ¬ ShowsFailed sampleController.settings (exec sampleController s
      (.pollPullRequest 14 1 1 (samplePull "a") sampleGreen (sampleReview .completed "a"))).db 1 := by
  have hadvances : Advances (sampleState (sampleReady.dropLast.dropLast)).db (exec sampleController
      (sampleState (sampleReady.dropLast.dropLast)) (.pollPullRequest 14 1 1 (samplePull "a") sampleGreen
        (sampleReview .completed "a"))).db 1 :=
    .inl ⟨.readyForHuman, by decide, by decide +kernel, by decide +kernel⟩
  exact ⟨hadvances, (verdict_agrees sampleController.settings rfl).2 sampleController _ _ 1 rfl hadvances⟩

end HardeningLoop
