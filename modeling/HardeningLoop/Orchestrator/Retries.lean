import HardeningLoop.Orchestrator.Engine.PollCalls
import HardeningLoop.Orchestrator.Engine.Walks
import HardeningLoop.Orchestrator.Intake
import HardeningLoop.Orchestrator.Settling

/-!
# Retries of failed checks

When the checks of a pull request fail, the item's session is asked to fix them, at most `retries_per_work_item` times
between two human retries. `Outbox` runs the controller with the requests that reached Devin: a transaction that raises
is rolled back, the calls it has made are not.

- `applyPr_spends`: a poll sends a message exactly when a fix is due, and counts it;
- `exec_retries`: what a step does to the retries of the items;
- `retries_bounded`: the requests are bounded, and about different heads, where no transaction raises after its request
  and no head is found red twice.
-/

namespace HardeningLoop

open Rows (Table)

/-! ## The retries of an item -/

/-- The retries an item has used. -/
def Db.retriesUsed (db : Db) (wid : Nat) : Nat := ((db.workItems.get? wid).map WorkItem.retriesUsed).getD 0

/-- How often a human has retried an item. -/
def Db.humanRetries (db : Db) (wid : Nat) : Nat :=
  db.events.countP fun e => e.entityType == .workItem && e.entityId == wid && e.event == .workItem .humanRetry

/-- What a retry of an item depends on: its session, and the retries it has used. -/
def WorkItem.retry (w : WorkItem) : Option String × Nat := (w.activeSessionId, w.retriesUsed)

section Frames

variable {env : Env} {S : Scope} {tx t t' : Tx} {wid : Nat}

/-- An event leaves alone what a retry depends on. -/
theorem wiRow_retry (event : WorkItemEvent) (reason : String) (item : WorkItem) :
    (Tx.wiRow env event reason item).retry = item.retry := by
  unfold Tx.wiRow
  split
  · rfl
  · split
    · split <;> rfl
    · rfl

theorem retriesUsed_modifyItem {f : WorkItem → WorkItem} (hf : ∀ w, (f w).retriesUsed = w.retriesUsed) (k : Nat) :
    (t.modifyItem k f).db.retriesUsed wid = t.db.retriesUsed wid := by
  have hmap : (t.db.workItems.modify k f).map WorkItem.retriesUsed = t.db.workItems.map WorkItem.retriesUsed :=
    Table.map_modify_of_eq hf
  have hget := congrArg (fun rows => rows.get? wid) hmap
  simp only [Table.get?_map] at hget
  exact congrArg (Option.getD · 0) hget

theorem retriesUsed_wi (event : WorkItemEvent) (reason actor : String) (k : Nat) :
    (t.wi env k event reason actor).db.retriesUsed wid = t.db.retriesUsed wid := by
  have h := @retriesUsed_modifyItem t wid (Tx.wiRow env event reason)
    (fun w => congrArg Prod.snd (wiRow_retry event reason w)) k
  rw [Tx.wi_db]
  exact h

/-- A unit that neither counts nor resets retries. -/
theorem Acts.retriesUsed (hr : ¬ S.deeds .retry) (h : Acts env S tx t) (wid : Nat) :
    t.db.retriesUsed wid = tx.db.retriesUsed wid := by
  induction h with
  | refl => rfl
  | quiet _ hq ih => rw [Db.retriesUsed, hq.workItems]; exact ih
  | @editItem t _ k _ f hf ih =>
    exact (retriesUsed_modifyItem (fun w => (hf w).retries.resolve_left hr) k).trans ih
  | editPull _ _ _ _ _ ih => exact ih
  | insertPull _ _ _ _ ih => exact ih
  | @insertItem t _ _ item hi ih =>
    rw [← ih]
    simp only [Db.retriesUsed, Tx.insertItem, Table.get?_insert]
    split
    · rename_i hid
      rw [hid, Table.get?_nextId, Option.map_some, Option.getD_some]
      exact hi.retriesUsed
    · rfl
  | wi _ _ _ reason actor ih => exact (retriesUsed_wi ..).trans ih
  | findingFrom _ _ _ _ _ _ _ ih => rw [Tx.findingFrom_db]; exact ih
  | own _ _ _ ih => exact ih

/-- Human retries are never forgotten. -/
theorem humanRetries_append {db db' : Db} {l : List Event} (h : db'.events = db.events ++ l) (wid : Nat) :
    db.humanRetries wid ≤ db'.humanRetries wid := by
  unfold Db.humanRetries
  rw [h, List.countP_append]
  exact Nat.le_add_right _ _

theorem Acts.humanRetries_le (h : Acts env S tx t) (wid : Nat) : tx.db.humanRetries wid ≤ t.db.humanRetries wid := by
  obtain ⟨l, hl, -⟩ := h.events
  exact humanRetries_append hl wid

/-- A human retry that the table has is counted. -/
theorem humanRetries_wi {item : WorkItem} {after : WorkItemState} (hi : t.db.workItems.get? wid = some item)
    (hn : nextWorkItemState item.state .humanRetry = some after) (reason actor : String) :
    (t.wi env wid .humanRetry reason actor).db.humanRetries wid = t.db.humanRetries wid + 1 := by
  simp only [Db.humanRetries, Tx.wi_db, hi, Option.elim, Tx.wiLog, hn, List.countP_append]
  simp

/-- A human retry resets the retries. -/
theorem reset_retries {item : WorkItem} {after : WorkItemState} (hi : t.db.workItems.get? wid = some item)
    (hn : nextWorkItemState item.state .humanRetry = some after) (reason actor : String) {t' : Tx}
    (ht : t' = (t.modifyItem wid fun w =>
      { w with retriesUsed := 0, activeSessionId := none, blockedReason := none }).wi env wid .humanRetry
      reason actor) :
    t'.db.retriesUsed wid = 0 ∧ t.db.humanRetries wid < t'.db.humanRetries wid := by
  subst ht
  have hrow : (t.modifyItem wid fun w =>
      { w with retriesUsed := 0, activeSessionId := none, blockedReason := none }).db.workItems.get? wid =
        some { item with retriesUsed := 0, activeSessionId := none, blockedReason := none } := by
    simp only [Tx.modifyItem, Table.get?_modify_self, hi, Option.map_some]
  constructor
  · rw [retriesUsed_wi, Db.retriesUsed, hrow]
    rfl
  · rw [humanRetries_wi hrow hn]
    exact Nat.lt_succ_self _

end Frames

/-! ## Human retries -/

/-- What a step that asks for no fix does to the retries of an item: nothing, or a human retried it. -/
def Resets (db db' : Db) (wid : Nat) : Prop :=
  db'.retriesUsed wid = db.retriesUsed wid ∨ db'.retriesUsed wid = 0 ∧ db.humanRetries wid < db'.humanRetries wid

section Resets

variable {env : Env} {S : Scope} {tx t t' : Tx} {wid : Nat}

theorem Resets.refl (db : Db) (wid : Nat) : Resets db db wid := Or.inl rfl

/-- Units that leave the retries alone may follow. -/
theorem Resets.acts (h : Resets tx.db t.db wid) (hr : ¬ S.deeds .retry) (ha : Acts env S t t') :
    Resets tx.db t'.db wid := by
  have hle := ha.humanRetries_le wid
  unfold Resets at h ⊢
  rw [ha.retriesUsed hr wid]
  omega

/-- A unit of one item leaves the retries of the others alone. -/
theorem Acts.retriesUsed_of_ne (h : Acts env S tx t) (hins : ¬ S.inserts) (hw : ¬ S.items wid) :
    t.db.retriesUsed wid = tx.db.retriesUsed wid := by
  rw [Db.retriesUsed, Db.retriesUsed, h.item hins hw]

theorem applyLabels_resets {item : WorkItem} (hi : tx.db.workItems.get? wid = some item)
    (hattention : item.state ∈ humanAttentionStates) (issue : Nat) (labels : List String) :
    Resets tx.db (applyLabels env tx wid item issue labels).db wid := by
  have hretry : nextWorkItemState item.state .humanRetry = some .issueOpen := by
    revert hattention
    cases item.state <;> decide
  unfold applyLabels
  split
  · exact Or.inr (reset_retries (t := tx.must _) hi hretry _ _ rfl)
  · split
    · exact (Resets.refl tx.db wid).acts not_false (resolve_does env tx wid _)
    · split
      · exact (Resets.refl tx.db wid).acts not_false (resolve_does env tx wid _)
      · exact .refl _ _

theorem pollHumanLabel_resets (number : Nat) (issueState : String) (labels : List String) (w : Nat) :
    Resets tx.db (pollHumanLabel env wid number issueState labels tx).db w := by
  by_cases hw : w = wid
  · subst hw
    unfold pollHumanLabel
    split
    · exact .refl _ _
    · rename_i item hi
      split
      · exact .refl _ _
      · split
        · dsimp only
          have habandoned : Acts env (.item w fun _ => True) tx
              (tx.wi env w .humanAbandoned "issue closed by human" "human") :=
            Acts.refl.fire .humanAbandoned _ _ (by decide)
          exact (Resets.refl tx.db w).acts (S := .item w fun _ => True) not_false (.foldl _ habandoned fun t fid _ =>
            Acts.refl.finding trivial (Or.inr (by decide)) ..)
        · split
          · rename_i hattention
            exact applyLabels_resets hi hattention number labels
          · exact .refl _ _
  · exact Or.inl ((pollHumanLabel_does env wid number issueState labels tx).retriesUsed_of_ne not_false hw)

theorem relaunch_resets {item : WorkItem} (hi : tx.db.workItems.get? wid = some item)
    (ha : actionFor item.state = (some .relaunch, none)) (operator : String) :
    Resets tx.db (relaunch env tx wid item operator).db wid := by
  have hretry : nextWorkItemState item.state .humanRetry = some .issueOpen := by
    revert ha
    cases item.state <;> decide
  unfold relaunch
  dsimp only
  split
  · exact Or.inr (reset_retries (t := tx.attempt _) hi hretry _ _ rfl)
  · exact Or.inr (reset_retries hi hretry _ _ rfl)

theorem launch_resets (operator : String) (answers : LaunchAnswers) (w : Nat) :
    Resets tx.db (launch env tx wid operator answers).1.db w := by
  by_cases hw : w = wid
  · subst hw
    unfold launch
    split
    · exact .refl _ _
    · rename_i item hi
      split
      · rename_i action haction
        have hfor : actionFor item.state = (some action, none) := (launchPreview_eq_some haction).1
        dsimp only
        set t := if action = .relaunch then _ else tx with ht
        have h : Resets tx.db t.db w := by
          rw [ht]
          split
          · rename_i hre
            exact relaunch_resets hi (hre ▸ hfor) operator
          · exact .refl _ _
        set o := if _ = WorkItemState.queued then _ else (t, true) with ho
        have h' : Resets tx.db o.1.db w := by
          rw [ho]
          split
          · exact h.acts (show Deed.retry ≠ .bind by decide)
              (openIssue_does env t w none answers.listed answers.created)
          · exact h
        split
        · exact h'
        · split
          · exact h'
          · split
            · exact h'.acts not_false (launchReserve_acts env _ w _ _ _ _)
            · exact h'
      · exact Or.inl rfl
  · exact Or.inl ((launch_acts env tx wid operator answers).retriesUsed_of_ne not_false hw)

end Resets

/-! ## What a poll sends -/

section Silence

variable {env : Env} {t : Tx} {wid pid : Nat} {pr : PullRequestInfo}

theorem triggerReview_silent (reason : String) (answer : Except String ReviewSnapshot) :
    SendsNone t (triggerReview env t wid pid pr reason answer) := by
  have hattempt : SendsNone t (t.attempt [.triggerReview pr.url]) :=
    .attempt fun call hcall => List.mem_singleton.mp hcall ▸ rfl
  unfold triggerReview
  split
  · exact hattempt.trans (reviewTimeout_routine ..).sendsNone
  · exact (Makes.event (.answered (by rfl)) ..).trans (observeReview_routine ..).sendsNone

theorem checkReview_silent (answers : PrAnswers) : SendsNone t (checkReview env t wid pid pr answers) := by
  unfold checkReview
  dsimp only
  split
  · exact (reviewTimeout_routine ..).sendsNone
  · exact triggerReview_silent ..
  · split
    · split
      · exact (routine_wi ..).sendsNone
      · exact triggerReview_silent ..
    · exact (routine_wi ..).sendsNone
    · exact (observeReview_routine ..).sendsNone

theorem applyGreen_silent (answers : PrAnswers) : SendsNone t (applyGreen env t wid pid pr answers) := by
  have hreview : SendsNone t (reviewWaiting env (checksPassed env t wid pid pr) wid pid pr answers) := by
    unfold reviewWaiting
    split
    · exact checksPassed_routine.sendsNone.trans (checkReview_silent ..)
    · exact checksPassed_routine.sendsNone
  unfold applyGreen
  dsimp only
  split
  · exact hreview.trans (checkApproval_routine ..).sendsNone
  · exact hreview

end Silence

/-! ## When a fix is due -/

/-- The checks of an open pull request are red, and the item has a session and a retry left. -/
def fixDue (settings : Settings) (db : Db) (wid : Nat) (pr : PullRequestInfo) (checks : List CheckRun) : Bool :=
  !pr.merged && pr.state != "closed" && checksVerdict settings checks == .red &&
    (db.workItems.get? wid).any fun w =>
      w.state != .needsHuman && w.activeSessionId.isSome && w.retriesUsed < settings.retriesPerWorkItem

section Due

variable {env : Env} {tx t : Tx} {wid pid : Nat} {pr : PullRequestInfo} {checks : List CheckRun}

/-- The items keep what a retry of them depends on. -/
def SameRetry (tx t : Tx) : Prop := t.db.workItems.map WorkItem.retry = tx.db.workItems.map WorkItem.retry

namespace SameRetry

theorem refl (t : Tx) : SameRetry t t := rfl

theorem trans {t' : Tx} (h : SameRetry tx t) (h' : SameRetry t t') : SameRetry tx t' := Eq.trans h' h

theorem event (h : SameRetry tx t) (type : EntityType) (id : Nat) (name : EventName) (fromState toState : Option String)
    (reason actor : String) (ids : List Nat) :
    SameRetry tx (t.event env type id name fromState toState reason actor ids) := h

theorem modifyPullRequest (h : SameRetry tx t) (pid : Nat) (f : PullRequest → PullRequest) :
    SameRetry tx (t.modifyPullRequest pid f) := h

theorem modifyItem (h : SameRetry tx t) (k : Nat) {f : WorkItem → WorkItem} (hf : ∀ w, (f w).retry = w.retry) :
    SameRetry tx (t.modifyItem k f) := (Table.map_modify_of_eq hf).trans h

theorem wi (h : SameRetry tx t) (k : Nat) (event : WorkItemEvent) (reason actor : String) :
    SameRetry tx (t.wi env k event reason actor) := by
  rw [SameRetry, Tx.wi_db]
  exact (Table.map_modify_of_eq (wiRow_retry event reason)).trans h

theorem foldl {α : Type*} {f : Tx → α → Tx} (l : List α) (h : SameRetry tx t) (hf : ∀ t, ∀ a ∈ l, SameRetry t (f t a)) :
    SameRetry tx (l.foldl f t) := Rows.foldl_invariant (SameRetry tx) (fun t a ha ht => ht.trans (hf t a ha)) h

theorem row {item : WorkItem} (h : SameRetry tx t) (hi : tx.db.workItems.get? wid = some item) :
    ∃ item', t.db.workItems.get? wid = some item' ∧ item'.activeSessionId = item.activeSessionId ∧
      item'.retriesUsed = item.retriesUsed := by
  have hget := congrArg (fun rows => rows.get? wid) h
  simp only [Table.get?_map, hi, Option.map_some] at hget
  obtain ⟨item', hi', hretry⟩ := Option.map_eq_some_iff.mp hget
  exact ⟨item', hi', congrArg Prod.fst hretry, congrArg Prod.snd hretry⟩

theorem retriesUsed (h : SameRetry tx t) (wid : Nat) : t.db.retriesUsed wid = tx.db.retriesUsed wid := by
  have hget := congrArg (fun rows => rows.get? wid) h
  simp only [Table.get?_map] at hget
  have hused := congrArg (Option.map Prod.snd) hget
  simp only [Option.map_map] at hused
  exact congrArg (Option.getD · 0) hused

end SameRetry

theorem resetLevel_sameRetry (level : LifecycleLevel) (why : String) :
    SameRetry t (resetLevel env t wid pid level why) := by
  unfold resetLevel
  dsimp only
  refine .modifyPullRequest ?_ _ _
  split
  · split
    · refine .modifyItem (.event (.refl t) ..) _ ?_
      exact fun _ => rfl
    · exact .refl t
  · exact .refl t

theorem applyNewHead_sameRetry (row : PullRequest) : SameRetry t (applyNewHead env t wid pid row pr) := by
  unfold applyNewHead
  split
  · exact .refl t
  · dsimp only
    have hseen (f : PullRequest → PullRequest) (reason : String) : SameRetry t (((t.event env .pullRequest pid
        (.log "head_changed") (some row.headSha) (some pr.headSha) reason "controller" []).modifyPullRequest pid
          f).modifyItem wid fun w => { w with prHeadSha := some pr.headSha }) := by
      refine .modifyItem (.modifyPullRequest (.event (.refl t) ..) ..) _ ?_
      exact fun _ => rfl
    split
    · unfold reverifyNewHead
      dsimp only
      refine .modifyItem (.modifyPullRequest (.trans ?_ (resetLevel_sameRetry ..)) _ _) _ ?_
      · split
        · exact (hseen _ _).wi ..
        · exact hseen _ _
      · exact fun _ => rfl
    · exact hseen _ _

theorem checksSeen_sameRetry : SameRetry t (checksSeen env t wid pid pr checks) := by
  have hrecords : SameRetry t (checks.foldl (recordCheck env pid pr.headSha) t) :=
    .foldl checks (.refl t) fun t c _ => (rfl : SameRetry t (recordCheck env pid pr.headSha t c))
  have hdepth : SameRetry t (recordDepth env (checks.foldl (recordCheck env pid pr.headSha) t) wid pid pr.headSha
      checks) := by
    have hcomponents (t' : Tx) (records : List CheckRecord) :
        SameRetry t' (records.foldl (recordComponent env pid pr.headSha) t') :=
      .foldl records (.refl t') fun t rec _ => (rfl : SameRetry t (recordComponent env pid pr.headSha t rec))
    unfold recordDepth
    split
    · dsimp only
      refine .modifyItem (.modifyPullRequest ?_ _ _) _ ?_
      · split
        · exact (hrecords.trans (hcomponents _ _)).event ..
        · exact hrecords.trans (hcomponents _ _)
      · exact fun _ => rfl
    · exact hrecords
  unfold checksSeen
  dsimp only
  split
  · exact hdepth.wi ..
  · exact hdepth

/-- A unit sends `n` messages and counts `n` retries of the item. -/
structure Spends (wid : Nat) (tx t : Tx) (n : Nat) : Prop where
  messages : t.effects.countP Effect.isMessage = tx.effects.countP Effect.isMessage + n
  used : t.db.retriesUsed wid = tx.db.retriesUsed wid + n

theorem Spends.trans {t' : Tx} {n m : Nat} (h : Spends wid tx t n) (h' : Spends wid t t' m) :
    Spends wid tx t' (n + m) :=
  ⟨by rw [h'.messages, h.messages, Nat.add_assoc], by rw [h'.used, h.used, Nat.add_assoc]⟩

theorem Spends.congr {n m : Nat} (h : Spends wid tx t n) (hn : n = m) : Spends wid tx t m := hn ▸ h

/-- A unit that sends nothing and leaves the retries alone. -/
theorem Spends.none (hs : SendsNone tx t) (hu : t.db.retriesUsed wid = tx.db.retriesUsed wid) : Spends wid tx t 0 := by
  refine ⟨?_, hu⟩
  rw [List.countP_eq_length_filter, List.countP_eq_length_filter, hs.messages, Nat.add_zero]

theorem Spends.wi {n : Nat} (h : Spends wid tx t n) (k : Nat) (event : WorkItemEvent) (reason actor : String) :
    Spends wid tx (t.wi env k event reason actor) n :=
  h.trans (m := 0) (.none (routine_wi ..).sendsNone (retriesUsed_wi ..))

theorem Spends.comment {n : Nat} (h : Spends wid tx t n) (issue : Nat) (body : String) :
    Spends wid tx (t.must (.commentIssue issue body)) n :=
  h.trans (m := 0) (.none (.must rfl) rfl)

theorem Spends.modifySession {n : Nat} (h : Spends wid tx t n) (row : Nat) (f : Session → Session) :
    Spends wid tx (t.modifySession row f) n := h.trans (m := 0) (.none (.of_same rfl) rfl)

/-- The message that asks for a fix, and the retry it counts. -/
theorem spends_message {item : WorkItem} (hi : t.db.workItems.get? wid = some item) (sid message : String) :
    Spends wid t ((t.modifyItem wid fun w => { w with retriesUsed := item.retriesUsed + 1 }).must
      (.sendMessage sid message)) 1 := by
  constructor
  · show (t.effects ++ [_]).countP _ = _
    rw [List.countP_append]
    rfl
  · simp only [Db.retriesUsed, Tx.must, Tx.modifyItem, Table.get?_modify_self, hi, Option.map_some, Option.getD_some]

theorem retryOrFail_spends {item : WorkItem} (hi : t.db.workItems.get? wid = some item) :
    Spends wid t (retryOrFail env t wid pid pr checks)
      (if item.activeSessionId.isSome && item.retriesUsed < env.settings.retriesPerWorkItem then 1 else 0) := by
  have hseen : Spends wid t (t.modifyPullRequest pid (firstHeadSeen pr.headSha false)) 0 := .none (.of_same rfl) rfl
  unfold retryOrFail
  dsimp only
  split
  · rename_i hnone
    cases (hi.symm.trans hnone : some item = .none)
  · rename_i item' hitem
    cases (hi.symm.trans hitem : some item = some item')
    split
    · rename_i sid hsid
      rw [hsid, Option.isSome_some, Bool.true_and]
      split
      · rename_i hexhausted
        rw [if_neg (by simpa using hexhausted)]
        exact hseen.wi ..
      · rename_i hleft
        rw [if_pos (by simpa using hleft)]
        have hsent (message : String) :
            Spends wid t (((t.modifyPullRequest pid (firstHeadSeen pr.headSha false)).modifyItem
            wid fun w => { w with retriesUsed := item.retriesUsed + 1 }).must (.sendMessage sid message)) 1 :=
          hseen.trans (n := 0)
            (spends_message (t := t.modifyPullRequest pid (firstHeadSeen pr.headSha false)) hi sid message)
        split
        · refine .comment (.wi ?_ ..) ..
          split
          · exact (hsent _).modifySession ..
          · exact hsent _
        · refine .wi ?_ ..
          split
          · exact (hsent _).modifySession ..
          · exact hsent _
    · rename_i hsid
      rw [hsid]
      exact hseen.wi ..

/-- The checks of an open pull request: a fix is asked for when they are red. -/
theorem applyChecks_spends {item : WorkItem} (hi : tx.db.workItems.get? wid = some item) (hmem : item.state ∈ prStates)
    (hnot : item.state ≠ .needsHuman) (answers : PrAnswers) :
    Spends wid tx (applyChecks env tx wid pid pr checks answers)
      (if checksVerdict env.settings checks == .red && item.activeSessionId.isSome &&
        item.retriesUsed < env.settings.retriesPerWorkItem then 1 else 0) := by
  have hseen : Spends wid tx (checksSeen env tx wid pid pr checks) 0 :=
    .none checksSeen_routine.sendsNone (checksSeen_sameRetry.retriesUsed wid)
  have hstate : (checksSeen env tx wid pid pr checks).db.itemState wid = some (checksStarted item.state) :=
    (checksSeen_at (by rw [Db.itemState, hi, Option.map_some]) pid pr checks).state
  have hfailing : checksStarted item.state ∈ [WorkItemState.checksRunning, .reviewPending, .readyForHuman] := by
    revert hmem hnot
    cases item.state <;> decide
  unfold applyChecks
  dsimp only
  rw [hstate, Option.any_some, decide_eq_true hfailing, if_pos rfl]
  cases hverdict : checksVerdict env.settings checks with
  | red =>
    have hred (reason : String) :
        SameRetry tx ((checksSeen env tx wid pid pr checks).wi env wid .checksRed reason "ci") :=
      checksSeen_sameRetry.wi ..
    dsimp only
    obtain ⟨item', hi', hsession, hused⟩ := (hred (commaJoin ((checks.filter checkFailed).map CheckRun.name))).row hi
    rw [beq_self_eq_true, Bool.true_and, ← hsession, ← hused]
    exact ((hseen.wi ..).trans (n := 0) (retryOrFail_spends hi')).congr (Nat.zero_add _)
  | green =>
    have hgreen : Spends wid (checksSeen env tx wid pid pr checks)
        (applyGreen env (checksSeen env tx wid pid pr checks) wid pid pr answers) 0 :=
      .none (applyGreen_silent answers) ((applyGreen_does env _ wid pid pr answers).retriesUsed not_false wid)
    exact hseen.trans hgreen
  | running => exact hseen

theorem applyPr_spends {item : WorkItem} (hi : tx.db.workItems.get? wid = some item) (hmem : item.state ∈ prStates)
    (row : PullRequest) (answers : PrAnswers) :
    Spends wid tx (applyPr env tx wid pid row pr checks answers)
    (if fixDue env.settings tx.db wid pr checks then 1 else 0) := by
  set t := applyNewHead env (tx.modifyPullRequest pid fun row => { row with updatedAt := env.now }) wid pid row pr
    with ht
  have hsame : SameRetry tx t := (SameRetry.modifyPullRequest (.refl tx) ..).trans (applyNewHead_sameRetry row)
  have hpolled : Spends wid tx t 0 :=
    .none (.trans (Makes.modifyPullRequest (.refl tx) ..) (applyNewHead_routine row).sendsNone) (hsame.retriesUsed wid)
  have hstate :
      (tx.modifyPullRequest pid fun row => { row with updatedAt := env.now }).db.itemState wid = some item.state :=
    congrArg (Option.map WorkItem.state) hi
  obtain ⟨s, hat, hstates, hhuman⟩ := @applyNewHead_at env _ wid item.state hstate hmem pid row pr
  obtain ⟨item', hi', hsession, hused⟩ := hsame.row hi
  have hitem' : item'.state = s := by
    have := hat.state
    rw [← ht, Db.itemState, hi', Option.map_some, Option.some.injEq] at this
    exact this
  simp only [fixDue, hi, Option.any_some]
  unfold applyPr
  dsimp only
  rw [← ht]
  by_cases hm : pr.merged = true
  · rw [if_pos hm, hm]
    have hmerge : Spends wid t (applyMerge env t wid pid pr answers.compare) 0 :=
      .none applyMerge_routine.sendsNone
        ((applyMerge_does env t wid pid pr _).retriesUsed (show Deed.retry ≠ .settle by decide) wid)
    exact hpolled.trans hmerge
  · rw [if_neg hm, Bool.eq_false_iff.mpr hm]
    by_cases hc : pr.state = "closed"
    · rw [if_pos hc, hc]
      have hclosed : Spends wid tx (t.modifyPullRequest pid fun row => { row with state := "closed" }) 0 :=
        hpolled.trans (m := 0) (.none (.of_same rfl) rfl)
      split
      · exact hclosed
      · exact hclosed.wi ..
    · rw [if_neg hc, bne_iff_ne.mpr hc, hat.state]
      by_cases hh : item.state = .needsHuman
      · rw [if_pos (congrArg some (hhuman.mpr hh)), hh]
        simpa using hpolled
      · have hh' : s ≠ .needsHuman := fun h => hh (hhuman.mp h)
        rw [if_neg (fun h => hh' (Option.some.inj h)), bne_iff_ne.mpr hh]
        have hchecks := hpolled.trans (@applyChecks_spends env t wid pid pr checks item' hi' (hitem' ▸ hstates)
          (hitem' ▸ hh') answers)
        rw [hsession, hused] at hchecks
        simpa [Bool.and_assoc] using hchecks

end Due

/-! ## The steps of the controller -/

/-- A request to fix failed checks: of an item that a human retried so often, at a head. -/
structure FixRequest where
  item : Nat
  retries : Nat
  head : String
  deriving DecidableEq, Repr

/-- The calls of the transaction in which a step polls a pull request. -/
def pollEffects (c : Controller) (s : Sys) : Action → List Effect
  | .pollPullRequest now wid number pr checks answers =>
    match s.flight, s.phase with
    | none, .polling => (pollPullRequest (c.env now) wid number pr checks answers { db := s.db }).effects
    | _, _ => []
  | _ => []

/-- What a message sent by a step is about. -/
def requestOf (s : Sys) : Action → Option FixRequest
  | .pollPullRequest _ wid _ pr _ _ => some ⟨wid, s.db.humanRetries wid, pr.headSha⟩
  | _ => none

/-- The requests among the first calls of a step. -/
def requests (c : Controller) (s : Sys) (a : Action) (made : Nat) : List FixRequest :=
  (requestOf s a).elim [] (List.replicate (((pollEffects c s a).take made).countP Effect.isMessage))

/-- The request that is due in a step: it polls an item whose checks are red and that has a retry left. -/
def dueRequest (c : Controller) (s : Sys) : Action → Option FixRequest
  | .pollPullRequest now wid number pr checks _ =>
    match s.flight, s.phase with
    | none, .polling =>
      if (polledRow (c.env now) s.db wid number).isSome && fixDue c.settings s.db wid pr checks then
        some ⟨wid, s.db.humanRetries wid, pr.headSha⟩
      else none
    | _, _ => none
  | _ => none

section Steps

variable {c : Controller} {s : Sys} {a : Action} {r : FixRequest}

/-- A request is due only while the item has a retry left. -/
theorem dueRequest_left (h : dueRequest c s a = some r) :
    s.db.retriesUsed r.item < c.settings.retriesPerWorkItem ∧ r.retries = s.db.humanRetries r.item := by
  cases a with
  | pollPullRequest now wid number pr checks answers =>
    dsimp only [dueRequest] at h
    split at h
    · split at h
      · rename_i hdue
        cases h
        simp only [fixDue, Bool.and_eq_true, Option.any_eq_true, decide_eq_true_eq] at hdue
        obtain ⟨-, -, item, hi, -, hleft⟩ := hdue
        exact ⟨by rw [Db.retriesUsed, hi]; exact hleft, rfl⟩
      · cases h
    · cases h
  | _ => cases h

/-- A poll of a pull request sends the request that is due, and counts it. -/
theorem exec_polls (now : DateTime) (wid number : Nat) (pr : PullRequestInfo) (checks : List CheckRun)
    (answers : PrAnswers) :
    let a := Action.pollPullRequest now wid number pr checks answers
    (pollEffects c s a).countP Effect.isMessage = (dueRequest c s a).toList.length ∧
      (exec c s a).db.retriesUsed wid = s.db.retriesUsed wid + (dueRequest c s a).toList.length := by
  dsimp only [exec, stepFree, pollEffects, dueRequest]
  cases s.flight with
  | some flight => exact ⟨rfl, rfl⟩
  | none =>
    cases s.phase with
    | polling =>
      dsimp only [Sys.commit, Option.isSome_none]
      have hpoll := @pollPullRequest_polled (c.env now) wid number pr checks answers { db := s.db }
      cases hrow : polledRow (c.env now) s.db wid number with
      | none =>
        rw [hrow] at hpoll
        dsimp only at hpoll
        rw [hpoll]
        exact ⟨rfl, rfl⟩
      | some pid =>
        rw [hrow] at hpoll
        obtain ⟨row, hget, heq⟩ := hpoll
        obtain ⟨item, hitem, -⟩ := Option.bind_eq_some_iff.mp hrow
        obtain ⟨hi, hstates⟩ := Option.filter_eq_some_iff.mp hitem
        simp only [Bool.and_eq_true, decide_eq_true_eq] at hstates
        have hspends := @applyPr_spends (c.env now) { db := s.db } wid pid pr checks item hi hstates.1 row answers
        rw [← heq] at hspends
        have hlength : (if fixDue c.settings s.db wid pr checks then 1 else 0) =
            (if fixDue c.settings s.db wid pr checks then
              some (FixRequest.mk wid (s.db.humanRetries wid) pr.headSha) else none).toList.length := by
          split <;> rfl
        rw [Option.isSome_some, Bool.true_and, ← hlength]
        exact ⟨hspends.messages.trans (Nat.zero_add _), hspends.used⟩
    | _ => exact ⟨rfl, rfl⟩

/-- **What a step sends**: the request that is due. -/
theorem exec_requests (c : Controller) (s : Sys) (a : Action) :
    requests c s a (pollEffects c s a).length = (dueRequest c s a).toList := by
  cases a with
  | pollPullRequest now wid number pr checks answers =>
    have hcount := (@exec_polls c s now wid number pr checks answers).1
    unfold requests
    rw [List.take_length, hcount, requestOf, Option.elim_some]
    dsimp only [dueRequest]
    split
    · split <;> rfl
    · rfl
  | _ => rfl

/-- Human retries are never forgotten. -/
theorem exec_humanRetries_le (c : Controller) (s : Sys) (a : Action) (wid : Nat) :
    s.db.humanRetries wid ≤ (exec c s a).db.humanRetries wid := by
  have hcommits := exec_commits c s a
  generalize (exec c s a).db = db' at hcommits ⊢
  cases hcommits with
  | units h => exact h.humanRetries_le wid
  | evaluation h rid => exact h.humanRetries_le wid
  | ingested h =>
    obtain ⟨l, hl, -⟩ := (ingestRun_ingested h).events
    exact humanRetries_append hl wid

/-- **What a step does to the retries**: the request that is due is counted, and what else changes them is a human
retry. -/
theorem exec_retries (c : Controller) (s : Sys) (a : Action) (wid : Nat) :
    match dueRequest c s a with
    | some r => (exec c s a).db.retriesUsed wid = s.db.retriesUsed wid + if r.item = wid then 1 else 0
    | none => Resets s.db (exec c s a).db wid := by
  have hother (hr : ¬ a.licence.deeds .retry) : Resets s.db (exec c s a).db wid := by
    have hcommits := exec_commits_licensed c s a
    generalize (exec c s a).db = db' at hcommits ⊢
    refine Or.inl ?_
    cases hcommits with
    | units h => exact h.retriesUsed hr wid
    | evaluation h rid => exact h.retriesUsed hr wid
    | ingested h => rw [Db.retriesUsed, Db.retriesUsed, (ingestRun_ingested h).workItems]
  cases a with
  | pollPullRequest now w number pr checks answers =>
    have hcount := (@exec_polls c s now w number pr checks answers).2
    have hitem {r : FixRequest} (h : dueRequest c s (.pollPullRequest now w number pr checks answers) = some r) :
        r.item = w := by
      dsimp only [dueRequest] at h
      split at h
      · split at h
        · cases h
          rfl
        · cases h
      · cases h
    by_cases hw : wid = w
    · subst hw
      cases hdue : dueRequest c s (.pollPullRequest now wid number pr checks answers) with
      | none =>
        rw [hdue] at hcount
        exact Or.inl hcount
      | some r =>
        rw [hdue] at hcount
        dsimp only
        rw [if_pos (hitem hdue)]
        exact hcount
    · have hsame :
          (exec c s (.pollPullRequest now w number pr checks answers)).db.retriesUsed wid = s.db.retriesUsed wid := by
        dsimp only [exec, stepFree]
        split
        · rfl
        · split
          · exact (pollPullRequest_does (c.env now) w number pr checks answers _).retriesUsed_of_ne not_false hw
          · rfl
      cases hdue : dueRequest c s (.pollPullRequest now w number pr checks answers) with
      | none => exact Or.inl hsame
      | some r =>
        dsimp only
        rw [if_neg (hitem hdue ▸ Ne.symm hw)]
        exact hsame
  | pollHumanLabel now w number state labels =>
    dsimp only [dueRequest, exec, stepFree]
    cases s.flight with
    | some flight => exact .refl _ _
    | none =>
      cases s.phase with
      | polling => exact @pollHumanLabel_resets (c.env now) { db := s.db } w number state labels wid
      | _ => exact .refl _ _
  | launch now w operator answers =>
    dsimp only [dueRequest, exec, stepFree]
    cases s.flight with
    | some flight => exact .refl _ _
    | none =>
      cases s.phase with
      | idle => exact @launch_resets (c.env now) { db := s.db } w operator answers wid
      | _ => exact .refl _ _
  | applyRun now compare => exact hother (show Deed.retry ∉ [Deed.settle, .reopen] by decide)
  | _ => exact hother fun h => by cases h

end Steps

/-! ## What reaches Devin -/

/-- The controller with the requests that were due in its steps and the ones that reached Devin. -/
structure Outbox where
  sys : Sys
  due : List FixRequest := []
  sent : List FixRequest := []

inductive Turn where
  | commits (a : Action)
  /-- The step's transaction raises after its first calls, and the tick with it; the database is rolled back. -/
  | raises (a : Action) (made : Nat)

namespace Outbox

def initial : Outbox := { sys := .initial }

def exec (c : Controller) (o : Outbox) : Turn → Outbox
  | .commits a =>
    { sys := HardeningLoop.exec c o.sys a
      due := o.due ++ (dueRequest c o.sys a).toList
      sent := o.sent ++ requests c o.sys a (pollEffects c o.sys a).length }
  | .raises a made =>
    { o with
      sys := HardeningLoop.exec c o.sys .stop
      sent := o.sent ++ requests c o.sys a made }

end Outbox

/-- **Bounded retries**: between two human retries an item's session is asked at most `retries_per_work_item` times, and
once for a head. -/
structure BoundedRetries (c : Controller) (o : Outbox) : Prop where
  bound : ∀ wid n, (o.sent.countP fun r => r.item == wid && r.retries == n) ≤ c.settings.retriesPerWorkItem
  once : o.sent.Nodup

/-- A transaction that raises has sent no request, and one that commits finds no head red for which a request was due
before. -/
def FreshlyRed (c : Controller) (o : Outbox) : Turn → Prop
  | .commits a => ∀ r ∈ dueRequest c o.sys a, r ∉ o.due
  | .raises a made => ((pollEffects c o.sys a).take made).countP Effect.isMessage = 0

/-- What holds of the requests in every state of a run. -/
structure Outbox.Counted (c : Controller) (o : Outbox) : Prop where
  within : ∀ wid, o.sys.db.retriesUsed wid ≤ c.settings.retriesPerWorkItem
  past : ∀ r ∈ o.sent, r.retries ≤ o.sys.db.humanRetries r.item
  current :
    ∀ wid, (o.sent.countP fun r => r.item == wid && r.retries == o.sys.db.humanRetries wid) ≤ o.sys.db.retriesUsed wid
  due : ∀ r ∈ o.sent, r ∈ o.due
  bounded : BoundedRetries c o

section Runs

variable {c : Controller} {o : Outbox}

/-- The requests to an item's session since so many human retries. -/
def FixRequest.matches (wid n : Nat) (r : FixRequest) : Bool := r.item == wid && r.retries == n

/-- After a human retry no request has been sent yet. -/
theorem counted_fresh (h : o.Counted c) {wid n : Nat} (hn : o.sys.db.humanRetries wid < n) :
    o.sent.countP (FixRequest.matches wid n) = 0 := by
  rw [List.countP_eq_zero]
  intro r hr hmatch
  simp only [FixRequest.matches, Bool.and_eq_true, beq_iff_eq] at hmatch
  have hpast : r.retries ≤ o.sys.db.humanRetries r.item := h.past r hr
  rw [hmatch.1, hmatch.2] at hpast
  exact absurd hn (Nat.not_lt.mpr hpast)

/-- A step in which no request is due. -/
theorem counted_silent (h : o.Counted c) {a : Action} (hdue : dueRequest c o.sys a = none) :
    (o.exec c (.commits a)).Counted c := by
  have hsent : (o.exec c (.commits a)).sent = o.sent := by
    show o.sent ++ requests .. = _
    rw [exec_requests, hdue, Option.toList_none, List.append_nil]
  have hdues : (o.exec c (.commits a)).due = o.due := by
    show o.due ++ _ = _
    rw [hdue, Option.toList_none, List.append_nil]
  have hle (wid : Nat) := exec_humanRetries_le c o.sys a wid
  have hresets (wid : Nat) : Resets o.sys.db (exec c o.sys a).db wid := by
    have hret := exec_retries c o.sys a wid
    rw [hdue] at hret
    exact hret
  constructor
  · intro wid
    rcases hresets wid with hused | ⟨hused, -⟩
    · exact hused ▸ h.within wid
    · exact hused ▸ Nat.zero_le _
  · intro r hr
    rw [hsent] at hr
    exact Nat.le_trans (h.past r hr) (hle r.item)
  · intro wid
    rw [hsent]
    rcases Nat.eq_or_lt_of_le (hle wid) with hsame | hlater
    · rcases hresets wid with hused | ⟨-, hlt⟩
      · show o.sent.countP (FixRequest.matches wid ((exec c o.sys a).db.humanRetries wid)) ≤
          (exec c o.sys a).db.retriesUsed wid
        rw [← hsame, hused]
        exact h.current wid
      · omega
    · exact Nat.le_trans (Nat.le_of_eq (counted_fresh h hlater)) (Nat.zero_le _)
  · intro r hr
    rw [hsent] at hr
    rw [hdues]
    exact h.due r hr
  · exact ⟨fun wid n => hsent ▸ h.bounded.bound wid n, hsent ▸ h.bounded.once⟩

/-- A step in which a request is due for the first time. -/
theorem counted_asked (h : o.Counted c) {a : Action} {r : FixRequest} (hdue : dueRequest c o.sys a = some r)
    (hfresh : r ∉ o.due) : (o.exec c (.commits a)).Counted c := by
  obtain ⟨hleft, hretries⟩ := dueRequest_left hdue
  have hsent : (o.exec c (.commits a)).sent = o.sent ++ [r] := by
    show o.sent ++ requests .. = _
    rw [exec_requests, hdue, Option.toList_some]
  have hdues : (o.exec c (.commits a)).due = o.due ++ [r] := by
    show o.due ++ _ = _
    rw [hdue, Option.toList_some]
  have hle (wid : Nat) := exec_humanRetries_le c o.sys a wid
  have hused (wid : Nat) : (exec c o.sys a).db.retriesUsed wid = o.sys.db.retriesUsed wid + if r.item = wid then 1 else
    0 := by
    have hret := exec_retries c o.sys a wid
    rw [hdue] at hret
    exact hret
  have hone (wid n : Nat) : (o.sent ++ [r]).countP (FixRequest.matches wid n) =
      o.sent.countP (FixRequest.matches wid n) + if r.item = wid ∧ r.retries = n then 1 else 0 := by
    rw [List.countP_append, List.countP_singleton]
    simp only [FixRequest.matches, Bool.and_eq_true, beq_iff_eq]
  constructor
  · intro wid
    show (exec c o.sys a).db.retriesUsed wid ≤ _
    have hwithin := h.within wid
    rw [hused]
    split
    · rename_i hitem
      rw [← hitem]
      exact hleft
    · exact hwithin
  · intro r' hr'
    rw [hsent, List.mem_append, List.mem_singleton] at hr'
    rcases hr' with hr' | rfl
    · exact Nat.le_trans (h.past r' hr') (hle r'.item)
    · exact hretries ▸ hle r'.item
  · intro wid
    rw [hsent]
    show (o.sent ++ [r]).countP (FixRequest.matches wid ((exec c o.sys a).db.humanRetries wid)) ≤
      (exec c o.sys a).db.retriesUsed wid
    rw [hone, hused]
    rcases Nat.eq_or_lt_of_le (hle wid) with hsame | hlater
    · have hcurrent : o.sent.countP (FixRequest.matches wid (o.sys.db.humanRetries wid)) ≤ o.sys.db.retriesUsed wid :=
        h.current wid
      rw [← hsame]
      split <;> split <;> omega
    · rw [counted_fresh h hlater, if_neg]
      · omega
      · rintro ⟨rfl, hn⟩
        omega
  · intro r' hr'
    rw [hsent, List.mem_append] at hr'
    rw [hdues, List.mem_append]
    exact hr'.imp_left (h.due r')
  · constructor
    · intro wid n
      rw [hsent]
      show (o.sent ++ [r]).countP (FixRequest.matches wid n) ≤ _
      rw [hone]
      split
      · rename_i hmatch
        obtain ⟨rfl, rfl⟩ := hmatch
        have hcurrent : o.sent.countP (FixRequest.matches r.item (o.sys.db.humanRetries r.item)) ≤
            o.sys.db.retriesUsed r.item := h.current r.item
        rw [hretries]
        omega
      · exact h.bounded.bound wid n
    · rw [hsent]
      exact List.nodup_append.mpr ⟨h.bounded.once, List.nodup_singleton r, fun r' hr' r'' hr'' heq =>
        hfresh (List.mem_singleton.mp hr'' ▸ heq ▸ h.due r' hr')⟩

theorem counted_step {m : Turn} (h : o.Counted c) (hm : FreshlyRed c o m) : (o.exec c m).Counted c := by
  cases m with
  | commits a =>
    cases hdue : dueRequest c o.sys a with
    | none => exact counted_silent h hdue
    | some r => exact counted_asked h hdue (hm r hdue)
  | raises a made =>
    have hnone : requests c o.sys a made = [] := by
      unfold requests
      rw [hm]
      cases requestOf o.sys a <;> rfl
    have hsent : (o.exec c (.raises a made)).sent = o.sent := by
      show o.sent ++ requests .. = _
      rw [hnone, List.append_nil]
    exact ⟨h.within, hsent ▸ h.past, hsent ▸ h.current, hsent ▸ h.due, hsent ▸ h.bounded.bound, hsent ▸ h.bounded.once⟩

theorem counted_initial (c : Controller) : Outbox.initial.Counted c := by
  have hnone (wid : Nat) : Sys.initial.db.retriesUsed wid = 0 := by
    unfold Db.retriesUsed
    cases wid <;> rfl
  refine ⟨fun wid => ?_, ?_, fun wid => ?_, ?_, fun wid n => ?_, List.nodup_nil⟩
  · exact Nat.le_trans (Nat.le_of_eq (hnone wid)) (Nat.zero_le _)
  · exact fun r hr => absurd hr List.not_mem_nil
  · exact Nat.zero_le _
  · exact fun r hr => absurd hr List.not_mem_nil
  · exact Nat.zero_le _

end Runs

/-- **Retries are bounded** in every run in which no transaction raises after its request, and no head is found red
again that a request was due for since the last human retry. -/
theorem retries_bounded (c : Controller) (trace : List Turn)
    (h : Machine.AllSteps (Outbox.exec c) (FreshlyRed c) .initial trace) :
    BoundedRetries c (Machine.run (Outbox.exec c) .initial trace) :=
  (Machine.AllSteps.invariant (Outbox.Counted c) (fun _ _ => counted_step) (counted_initial c) h).bounded

instance instDecidableFreshlyRed (c : Controller) (o : Outbox) : (m : Turn) → Decidable (FreshlyRed c o m)
  | .commits a => inferInstanceAs (Decidable (∀ r ∈ dueRequest c o.sys a, r ∉ o.due))
  | .raises a made => inferInstanceAs (Decidable (((pollEffects c o.sys a).take made).countP Effect.isMessage = 0))

/-- The session of the first work item has opened its pull request, at head `a`. -/
def pullOpened : List Action :=
  [sampleIngest "1" 10 (samplePair "CVE-1" "openssl" "1")] ++ sampleReserve 11 ++ sampleCreate 12 ++ sampleOpen 13 "a"

/-- The checks of head `a` are red. -/
def redPoll (now : DateTime) : Action := .pollPullRequest now 1 1 (samplePull "a") sampleRed {}

/-- One poll finds the checks red. -/
theorem red_head_asked : BoundedRetries sampleController (Machine.run (Outbox.exec sampleController) .initial
    ((pullOpened ++ [.beginTick, redPoll 14, .stop]).map .commits)) :=
  retries_bounded sampleController _ (by decide +kernel)

/-- The session is asked, then GitHub refuses the comment on the issue, in three ticks. -/
def commentRefused : List Turn :=
  pullOpened.map .commits ++ [.commits .beginTick, .raises (redPoll 14) 1, .commits .beginTick, .raises (redPoll 15) 1,
    .commits .beginTick, .raises (redPoll 16) 1]

/-- The session was asked, and its last report is read again before it has pushed a fix. -/
def reportReread : List Turn :=
  (pullOpened ++ [.beginTick, redPoll 14, .stop] ++ sampleOpen 15 "a" ++ [.beginTick, redPoll 16, .stop]).map .commits

/-- The item has two retries. A request that the rollback forgets is sent a third time; a report that is read again
brings the same red head back. -/
theorem retries_unbounded :
    ¬ BoundedRetries sampleController (Machine.run (Outbox.exec sampleController) .initial commentRefused) ∧
    ¬ BoundedRetries sampleController (Machine.run (Outbox.exec sampleController) .initial reportReread) := by
  constructor
  · intro h
    have hthree := h.bound 1 0
    revert hthree
    decide +kernel
  · intro h
    have honce := h.once
    revert honce
    decide +kernel

end HardeningLoop
