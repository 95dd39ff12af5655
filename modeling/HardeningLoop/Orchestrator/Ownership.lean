import HardeningLoop.Orchestrator.Intake
import HardeningLoop.Orchestrator.Transactions

/-!
# The owners of pull requests

A session reports the pull request it opened by its URL. The report is checked, and the pull request is recorded: its
row, unless there is one of its number, and the number on the item of the session.

- `pollSession_records`: which pull request a poll records, and that it changes nothing else of what items track;
- `pullOf_repo`: the checks let only pull requests of the fork through, so there is one row of a number
  (`registered_reachable`);
- `exclusive_run_iff`: pull requests are exclusively owned in every state of a run exactly when no session reports one
  that is recorded for another item.
-/

namespace HardeningLoop

open Rows (Table)

/-- The pull request an item tracks. -/
def Db.tracks (db : Db) (wid : Nat) : Option Nat := (db.workItems.get? wid).bind WorkItem.prNumber

/-- No number is tracked by two items, and the row of the number an item tracks is the item's. -/
structure Exclusive (db : Db) : Prop where
  single : ∀ i j n, db.tracks i = some n → db.tracks j = some n → i = j
  recorded : ∀ i n, db.tracks i = some n → ∃ pid row, db.pullRequests.get? pid = some row ∧ row.number = n
  owned : ∀ i n pid row, db.tracks i = some n → db.pullRequests.get? pid = some row → row.number = n →
    row.workItemId = i

/-- No row of a pull request of this number is another item's. -/
def Unclaimed (db : Db) (wid number : Nat) : Prop :=
  ∀ pid row, db.pullRequests.get? pid = some row → row.number = number → row.workItemId = wid

section Frame

variable {db db' : Db}

/-- The same items track the same pull requests, and the rows are the same items'. -/
structure SameOwners (db db' : Db) : Prop where
  tracks : ∀ wid, db'.tracks wid = db.tracks wid
  owners : db'.pullRequests.map PullRequest.owner = db.pullRequests.map PullRequest.owner

theorem SameOwners.refl (db : Db) : SameOwners db db := ⟨fun _ => rfl, rfl⟩

theorem SameOwners.trans {db'' : Db} (h : SameOwners db db') (h' : SameOwners db' db'') : SameOwners db db'' :=
  ⟨fun wid => (h'.tracks wid).trans (h.tracks wid), h'.owners.trans h.owners⟩

theorem SameOwners.symm (h : SameOwners db db') : SameOwners db' db :=
  ⟨fun wid => (h.tracks wid).symm, h.owners.symm⟩

/-- A row has the same owner before. -/
theorem SameOwners.row (h : SameOwners db db') {pid : Nat} {row : PullRequest}
    (hrow : db'.pullRequests.get? pid = some row) :
    ∃ row₀, db.pullRequests.get? pid = some row₀ ∧ row₀.owner = row.owner := by
  have hmap := congrArg (fun table => table.get? pid) h.owners
  simp only [Table.get?_map, hrow, Option.map_some] at hmap
  obtain ⟨row₀, hrow₀, howner⟩ := Option.map_eq_some_iff.mp hmap.symm
  exact ⟨row₀, hrow₀, howner⟩

theorem SameOwners.exclusive (h : SameOwners db db') (hex : Exclusive db) : Exclusive db' := by
  constructor
  · intro i j n hi hj
    rw [h.tracks] at hi hj
    exact hex.single i j n hi hj
  · intro i n hi
    rw [h.tracks] at hi
    obtain ⟨pid, row, hrow, hnumber⟩ := hex.recorded i n hi
    obtain ⟨row', hrow', howner⟩ := h.symm.row hrow
    simp only [PullRequest.owner, Prod.mk.injEq] at howner
    exact ⟨pid, row', hrow', howner.2.2.trans hnumber⟩
  · intro i n pid row hi hrow hnumber
    rw [h.tracks] at hi
    obtain ⟨row₀, hrow₀, howner⟩ := h.row hrow
    simp only [PullRequest.owner, Prod.mk.injEq] at howner
    rw [← howner.1]
    exact hex.owned i n pid row₀ hi hrow₀ (howner.2.2.trans hnumber)

theorem SameOwners.unclaimed (h : SameOwners db db') {wid n : Nat} (hfree : Unclaimed db wid n) :
    Unclaimed db' wid n := by
  intro pid row hrow hnumber
  obtain ⟨row₀, hrow₀, howner⟩ := h.row hrow
  simp only [PullRequest.owner, Prod.mk.injEq] at howner
  rw [← howner.1]
  exact hfree pid row₀ hrow₀ (howner.2.2.trans hnumber)

theorem SameOwners.exclusive_iff (h : SameOwners db db') : Exclusive db' ↔ Exclusive db :=
  ⟨h.symm.exclusive, h.exclusive⟩

end Frame

section Units

variable {env : Env} {S : Scope} {tx t : Tx}

/-- An edit of an item that keeps its number. -/
theorem tracks_modifyItem {w : Nat} {f : WorkItem → WorkItem} (hf : ∀ item, (f item).prNumber = item.prNumber)
    (wid : Nat) :
    (t.modifyItem w f).db.tracks wid = t.db.tracks wid := by
  simp only [Db.tracks, Tx.modifyItem, Table.get?_modify]
  split
  · cases t.db.workItems.get? wid with
    | none => rfl
    | some item => exact hf item
  · rfl

/-- Only a unit that records a pull request changes what the items track. -/
theorem Acts.sameOwners (hr : ¬ S.deeds .record) (h : Acts env S tx t) : SameOwners tx.db t.db := by
  induction h with
  | refl => exact .refl _
  | quiet _ hq ih => exact ih.trans ⟨fun wid => by rw [Db.tracks, Db.tracks, hq.workItems], hq.owners⟩
  | editItem _ _ hf ih => exact ih.trans ⟨tracks_modifyItem fun w => (hf w).number.resolve_left hr, rfl⟩
  | editPull _ pid _ _ ho ih => exact ih.trans ⟨fun _ => rfl, Table.map_modify_of_eq (ho.resolve_left hr)⟩
  | insertPull _ _ hrecord _ _ => exact absurd hrecord hr
  | @insertItem t _ _ item hi ih =>
    refine ih.trans ⟨fun wid => ?_, rfl⟩
    simp only [Db.tracks, Tx.insertItem, Table.get?_insert]
    split
    · rename_i hid
      rw [hid, Table.get?_nextId]
      exact hi.prNumber
    · rfl
  | @wi t _ w _ e _ reason actor ih =>
    refine ih.trans ⟨fun wid => ?_, by rw [Tx.wi_db]⟩
    rw [Tx.wi_db]
    exact tracks_modifyItem (t := t) (fun item => (Tx.wiRow_tracking env e reason item).1) wid
  | findingFrom _ _ _ _ _ _ _ ih => exact ih.trans ⟨fun _ => by rw [Tx.findingFrom_db]; rfl, by rw [Tx.findingFrom_db]⟩
  | own _ _ _ ih => exact ih.trans ⟨fun _ => rfl, rfl⟩

end Units

/-! ## What a poll records -/

section Polls

variable {env : Env} {db : Db} {wid : Nat} {sid : String} {snap : SessionSnapshot} {answers : SessionAnswers}
  {pr : PullRequestInfo}

/-- What the controller decides on a snapshot of an item's session. -/
def decisionOn (env : Env) (item : WorkItem) (session : Session) (snap : SessionSnapshot) (answers : SessionAnswers) :
    Decision :=
  let facts := snapshotFacts env item.kind snap answers
  let question := if snap.isWaitingForUser then answers.question else none
  (assess env.ext snap (sessionFacts env item session snap facts) question).decision

/-- The item waits for this session. -/
def WorkItem.runs (item : WorkItem) (sid : String) : Bool :=
  item.state = .sessionActive && item.activeSessionId = some sid

theorem WorkItem.not_runs (item : WorkItem) (sid : String) :
    (decide (item.state ≠ .sessionActive) || decide (item.activeSessionId ≠ some sid)) = !item.runs sid := by
  simp only [WorkItem.runs, Bool.not_and, ne_eq, decide_not]

/-- The pull request a session reports, when the controller goes on to verify it. -/
def pullOf (env : Env) (db : Db) (wid : Nat) (sid : String) (snap : SessionSnapshot) (answers : SessionAnswers) :
    Option PullRequestInfo :=
  ((db.workItems.get? wid).filter (WorkItem.runs · sid)).bind fun item =>
    (db.sessions.first fun s => s.devinId == sid).bind fun row =>
      (db.sessions.get? row).bind fun session =>
        if decisionOn env item session snap answers = .readyForVerification then
          (snapshotFacts env item.kind snap answers).pr
        else none

/-- A report is verified only with its pull request checked. -/
theorem assess_ready {ext : External} {facts : SessionFacts} {question : Option String}
    (h : (assess ext snap facts question).decision = .readyForVerification) : facts.prVerified = true := by
  have hreport (h : (assessReport ext snap facts).decision = .readyForVerification) : facts.prVerified = true := by
    unfold assessReport at h
    split at h
    · cases h
    · split at h
      · cases h
      · cases h
      · split at h
        · cases h
        · split at h
          · cases h
          · rename_i hverified
            simpa using hverified
      · cases h
  unfold assess at h
  split at h
  · cases h
  · split at h
    · cases h
    · split at h
      · cases h
      · split at h
        · cases h
        · split at h
          · cases h
          · split at h
            · split at h <;> cases h
            · split at h
              · exact hreport h
              · split at h <;> cases h

theorem verifyPullRequest_repo {claimed : Option String} (h : verifyPullRequest pr claimed = []) :
    pr.repo = forkRepo := by
  unfold verifyPullRequest at h
  simp only [List.append_eq_nil_iff] at h
  by_contra hno
  rw [if_pos (by simp [hno])] at h
  cases h.1.1.1

/-- A pull request resolved without a problem is one of the fork. -/
theorem resolvePr_repo {answer : Except String PullRequestInfo} (h : resolvePr env snap answer = (some pr, [])) :
    pr.repo = forkRepo := by
  unfold resolvePr at h
  dsimp only at h
  split at h
  · split at h
    · cases h
    · split at h
      · cases h
      · split at h
        · cases h
        · simp only [Prod.mk.injEq, Option.some.injEq] at h
          exact h.1 ▸ verifyPullRequest_repo h.2
  · cases h

theorem snapshotFacts_pr {kind : Kind} (h : (snapshotFacts env kind snap answers).pr = some pr) :
    resolvePr env snap answers.pullRequest = (some pr, (snapshotFacts env kind snap answers).problems) := by
  unfold snapshotFacts at h ⊢
  dsimp only at h ⊢
  generalize hschema : (if snap.isFinalReport = true then
    env.ext.validateOutput kind (snap.structuredOutput.getD .null) else []) = schemaErrors at h ⊢
  split at h
  · rename_i hfinal
    rw [if_pos hfinal]
    exact Prod.ext h rfl
  · cases h

/-- **The checks of a reported pull request**: what is recorded is a pull request of the fork. -/
theorem pullOf_repo (h : pullOf env db wid sid snap answers = some pr) : pr.repo = forkRepo := by
  obtain ⟨item, -, h⟩ := Option.bind_eq_some_iff.mp h
  obtain ⟨row, -, h⟩ := Option.bind_eq_some_iff.mp h
  obtain ⟨session, -, h⟩ := Option.bind_eq_some_iff.mp h
  split at h
  · rename_i hready
    have hverified := assess_ready hready
    simp only [sessionFacts, Bool.and_eq_true, decide_eq_true_eq] at hverified
    have hresolved := snapshotFacts_pr h
    rw [hverified.2] at hresolved
    exact resolvePr_repo hresolved
  · cases h

/-- The row of a pull request that the report is about. -/
def Db.pullRow (db : Db) (pr : PullRequestInfo) : Option Nat :=
  db.pullRequests.first fun row => row.repo == pr.repo && row.number == pr.number

/-- What recording a pull request does before it raises the level. -/
theorem recordPr_sameOwners (tx : Tx) : ∃ t : Tx, SameOwners t.db (recordPr env tx wid pr).db ∧
    t.db.workItems = tx.db.workItems.modify wid (fun w =>
      { w with prNumber := some pr.number, prUrl := some pr.url, prHeadSha := some pr.headSha
               prOpenedAt := w.prOpenedAt.orElse fun _ => some env.now }) ∧
    t.db.pullRequests.map PullRequest.owner = if (tx.db.pullRow pr).isSome then tx.db.pullRequests.map PullRequest.owner
      else (tx.db.pullRequests.map PullRequest.owner).insert (wid, pr.repo, pr.number) := by
  unfold recordPr
  dsimp only
  refine ⟨_, (raiseLevel_does env _ _ _ (by decide) _).sameOwners (fun h => by cases h), ?_, ?_⟩
  · split <;> rfl
  · unfold Db.pullRow
    split
    · rfl
    · exact Table.map_insert _ _ _

theorem tracks_recordPr {tx : Tx} {item : WorkItem} (hitem : tx.db.workItems.get? wid = some item) (k : Nat) :
    (recordPr env tx wid pr).db.tracks k = if k = wid then some pr.number else tx.db.tracks k := by
  obtain ⟨t, hsame, hitems, -⟩ := @recordPr_sameOwners env wid pr tx
  rw [hsame.tracks, Db.tracks, Db.tracks, hitems, Table.get?_modify]
  split
  · rename_i hk
    rw [hk, hitem]
    rfl
  · rfl

theorem owners_recordPr (tx : Tx) : (recordPr env tx wid pr).db.pullRequests.map PullRequest.owner =
    if (tx.db.pullRow pr).isSome then tx.db.pullRequests.map PullRequest.owner
    else (tx.db.pullRequests.map PullRequest.owner).insert (wid, pr.repo, pr.number) := by
  obtain ⟨t, hsame, -, howners⟩ := @recordPr_sameOwners env wid pr tx
  exact hsame.owners.trans howners

/-- Of what the assessment decides only one part records a pull request. -/
theorem applyDecision_records (tx : Tx) (row : Nat) (item : WorkItem) (facts : SnapshotFacts) (result : Assessment) :
    match if result.decision = .readyForVerification then facts.pr else none with
    | none => SameOwners tx.db (applyDecision env tx wid row item snap facts result).db
    | some pr => SameOwners (recordPr env tx wid pr).db (applyDecision env tx wid row item snap facts result).db := by
  have hitem {t t' : Tx} (h : OnItem env wid t t') : SameOwners t.db t'.db := h.sameOwners not_false
  unfold applyDecision
  cases hdecision : result.decision with
  | continuePolling => exact .refl _
  | answerQuestion => exact hitem (sendMessage_acts env tx row _ _)
  | budgetWarning =>
    exact hitem (.editItem (sendMessage_acts env tx row _ _) rfl fun _ => .plain rfl rfl rfl rfl rfl rfl)
  | needsHuman =>
    rw [if_neg nofun]
    have h : OnItem env wid tx (tx.wi env wid .blocked (takeText 500 (assessmentDetail facts result)) "controller") :=
      Acts.refl.fire .blocked _ _ (by decide)
    dsimp only
    split
    · unfold postDisagreementVerdict
      split
      · exact hitem (h.must _)
      · exact hitem h
    · exact hitem h
  | readyForVerification =>
    rw [if_pos rfl]
    cases facts.pr with
    | none => exact .refl _
    | some pr =>
      have h : OnItem env wid (recordPr env tx wid pr) (((recordPr env tx wid pr).wi env wid .prOpened pr.url
          "controller").wi env wid .checksStarted pr.headSha "controller") :=
        (Acts.refl.fire .prOpened _ _ (by decide)).fire .checksStarted _ _ (by decide)
      dsimp only
      split
      · exact hitem (h.must _)
      · exact hitem h

/-- A poll changes what the items track only by recording the pull request of its report. -/
theorem pollSession_records (wid : Nat) (sid : String) (snap : SessionSnapshot) (answers : SessionAnswers) (tx : Tx) :
    match pullOf env tx.db wid sid snap answers with
    | none => SameOwners tx.db (pollSession env wid sid snap answers tx).db
    | some pr => ∃ (t : Tx) (item : WorkItem), t.db.workItems.get? wid = some item ∧ SameOwners tx.db t.db ∧
        SameOwners (recordPr env t wid pr).db (pollSession env wid sid snap answers tx).db := by
  unfold pollSession pullOf
  cases hi : tx.db.workItems.get? wid with
  | none => exact .refl _
  | some item =>
    rw [Option.filter_some]
    dsimp only
    rw [item.not_runs]
    cases item.runs sid with
    | false => exact .refl _
    | true =>
      rw [if_pos rfl, if_neg nofun, Option.bind_some]
      cases tx.db.sessions.first fun s => s.devinId == sid with
      | none => exact (Acts.refl.fire .blocked _ _ (by decide) : OnItem env wid tx _).sameOwners not_false
      | some row =>
        rw [Option.bind_some]
        dsimp only
        cases tx.db.sessions.get? row with
        | none => exact .refl _
        | some session =>
          rw [Option.bind_some]
          unfold applySnapshot
          dsimp only
          generalize hbefore : Tx.insertPoll _ _ = t
          have hsame : SameOwners tx.db t.db ∧ t.db.workItems = tx.db.workItems := by
            rw [← hbefore]
            exact ⟨⟨fun _ => rfl, rfl⟩, rfl⟩
          have hdecides := @applyDecision_records env wid snap t row item (snapshotFacts env item.kind snap answers)
            (assess env.ext snap (sessionFacts env item session snap (snapshotFacts env item.kind snap answers))
              (if snap.isWaitingForUser then answers.question else none))
          unfold decisionOn
          dsimp only
          split at hdecides
          · rename_i hnone
            rw [hnone]
            exact hsame.1.trans hdecides
          · rename_i pr hsome
            rw [hsome]
            exact ⟨t, item, hsame.2 ▸ hi, hsame.1, hdecides⟩

end Polls

/-! ## Recording a pull request -/

section Records

variable {env : Env} {tx : Tx} {wid : Nat} {pr : PullRequestInfo}

/-- A row that is there afterwards was there, or is the new one of the pull request. -/
theorem recordPr_row {pid : Nat} {row : PullRequest}
    (hrow : (recordPr env tx wid pr).db.pullRequests.get? pid = some row) :
    (∃ row₀, tx.db.pullRequests.get? pid = some row₀ ∧ row₀.owner = row.owner) ∨
      tx.db.pullRow pr = none ∧ pid = tx.db.pullRequests.nextId ∧ row.owner = (wid, pr.repo, pr.number) := by
  have hmap := congrArg (fun table => table.get? pid) (@owners_recordPr env wid pr tx)
  simp only [Table.get?_map, hrow, Option.map_some] at hmap
  split at hmap
  · rw [Table.get?_map] at hmap
    obtain ⟨row₀, hrow₀, howner⟩ := Option.map_eq_some_iff.mp hmap.symm
    exact Or.inl ⟨row₀, hrow₀, howner⟩
  · rename_i hnone
    rw [Table.get?_insert] at hmap
    split at hmap
    · rename_i hpid
      refine Or.inr ⟨Option.not_isSome_iff_eq_none.mp hnone, ?_, Option.some.inj hmap⟩
      rw [hpid, Table.nextId, Table.nextId, Table.map, List.length_map]
    · rw [Table.get?_map] at hmap
      obtain ⟨row₀, hrow₀, howner⟩ := Option.map_eq_some_iff.mp hmap.symm
      exact Or.inl ⟨row₀, hrow₀, howner⟩

/-- The rows that are there keep their owners. -/
theorem recordPr_keeps {pid : Nat} {row : PullRequest} (hrow : tx.db.pullRequests.get? pid = some row) :
    ∃ row', (recordPr env tx wid pr).db.pullRequests.get? pid = some row' ∧ row'.owner = row.owner := by
  have hmap := congrArg (fun table => table.get? pid) (@owners_recordPr env wid pr tx)
  have hbefore : (tx.db.pullRequests.map PullRequest.owner).get? pid = some row.owner := by
    rw [Table.get?_map, hrow, Option.map_some]
  have hafter : ((recordPr env tx wid pr).db.pullRequests.map PullRequest.owner).get? pid = some row.owner := by
    rw [hmap]
    split
    · exact hbefore
    · exact Table.get?_insert_of_some _ hbefore
  rw [Table.get?_map] at hafter
  exact Option.map_eq_some_iff.mp hafter

/-- The pull request has a row afterwards. -/
theorem recordPr_recorded : ∃ pid row, (recordPr env tx wid pr).db.pullRequests.get? pid = some row ∧
    row.number = pr.number := by
  cases hpid : tx.db.pullRow pr with
  | some pid =>
    obtain ⟨row, hrow, hfound⟩ := Table.first_eq_some hpid
    obtain ⟨row', hrow', howner⟩ := @recordPr_keeps env tx wid pr pid row hrow
    simp only [Bool.and_eq_true, beq_iff_eq] at hfound
    simp only [PullRequest.owner, Prod.mk.injEq] at howner
    exact ⟨pid, row', hrow', howner.2.2.trans hfound.2⟩
  | none =>
    have hafter : ((recordPr env tx wid pr).db.pullRequests.map PullRequest.owner).get?
        (tx.db.pullRequests.map PullRequest.owner).nextId = some (wid, pr.repo, pr.number) := by
      rw [owners_recordPr, hpid, if_neg nofun]
      exact Table.get?_insert_self _ _
    rw [Table.get?_map] at hafter
    obtain ⟨row, hrow, howner⟩ := Option.map_eq_some_iff.mp hafter
    simp only [PullRequest.owner, Prod.mk.injEq] at howner
    exact ⟨_, row, hrow, howner.2.2⟩

/-- **Recording a pull request keeps the ownership exclusive exactly when no row of its number is another item's.** -/
theorem recordPr_exclusive_iff {item : WorkItem} (hitem : tx.db.workItems.get? wid = some item)
    (hex : Exclusive tx.db) :
    Exclusive (recordPr env tx wid pr).db ↔ Unclaimed tx.db wid pr.number := by
  have htracks := @tracks_recordPr env wid pr tx item hitem
  constructor
  · intro hafter pid row hrow hnumber
    obtain ⟨row', hrow', howner⟩ := @recordPr_keeps env tx wid pr pid row hrow
    simp only [PullRequest.owner, Prod.mk.injEq] at howner
    rw [← howner.1]
    exact hafter.owned wid pr.number pid row' (by rw [htracks, if_pos rfl]) hrow' (howner.2.2.trans hnumber)
  · intro hfree
    -- another item tracks another number, as before
    have hother {k n : Nat} (hk : (recordPr env tx wid pr).db.tracks k = some n) :
        k = wid ∧ n = pr.number ∨ k ≠ wid ∧ n ≠ pr.number ∧ tx.db.tracks k = some n := by
      rw [htracks] at hk
      split at hk
      · rename_i hwid
        exact Or.inl ⟨hwid, (Option.some.inj hk).symm⟩
      · rename_i hwid
        refine Or.inr ⟨hwid, fun hn => ?_, hk⟩
        obtain ⟨pid, row, hrow, hnumber⟩ := hex.recorded k n hk
        have howner := hex.owned k n pid row hk hrow hnumber
        exact hwid (howner.symm.trans (hfree pid row hrow (hnumber.trans hn)))
    constructor
    · intro i j n hi hj
      rcases hother hi with ⟨rfl, hn⟩ | ⟨-, hn, hi'⟩
      · rcases hother hj with ⟨rfl, -⟩ | ⟨-, hn', -⟩
        · rfl
        · exact absurd hn hn'
      · rcases hother hj with ⟨-, hn'⟩ | ⟨-, -, hj'⟩
        · exact absurd hn' hn
        · exact hex.single i j n hi' hj'
    · intro i n hi
      rcases hother hi with ⟨-, rfl⟩ | ⟨-, -, hi'⟩
      · exact recordPr_recorded
      · obtain ⟨pid, row, hrow, hnumber⟩ := hex.recorded i n hi'
        obtain ⟨row', hrow', howner⟩ := @recordPr_keeps env tx wid pr pid row hrow
        simp only [PullRequest.owner, Prod.mk.injEq] at howner
        exact ⟨pid, row', hrow', howner.2.2.trans hnumber⟩
    · intro i n pid row hi hrow hnumber
      rcases recordPr_row hrow with ⟨row₀, hrow₀, howner⟩ | ⟨-, -, howner⟩
      · simp only [PullRequest.owner, Prod.mk.injEq] at howner
        rw [← howner.1]
        rcases hother hi with ⟨rfl, rfl⟩ | ⟨-, -, hi'⟩
        · exact hfree pid row₀ hrow₀ (howner.2.2.trans hnumber)
        · exact hex.owned i n pid row₀ hi' hrow₀ (howner.2.2.trans hnumber)
      · simp only [PullRequest.owner, Prod.mk.injEq] at howner
        rcases hother hi with ⟨rfl, -⟩ | ⟨-, hn, -⟩
        · exact howner.1
        · exact absurd (hnumber.symm.trans howner.2.2) hn

/-- The rows are of pull requests of the fork, and there is one of a number. -/
structure Registered (db : Db) : Prop where
  fork : ∀ pid row, db.pullRequests.get? pid = some row → row.repo = forkRepo
  single : ∀ i j row row', db.pullRequests.get? i = some row → db.pullRequests.get? j = some row' →
    row.number = row'.number → i = j

theorem SameOwners.registered {db db' : Db} (h : SameOwners db db') (hr : Registered db) : Registered db' := by
  constructor
  · intro pid row hrow
    obtain ⟨row₀, hrow₀, howner⟩ := h.row hrow
    simp only [PullRequest.owner, Prod.mk.injEq] at howner
    exact howner.2.1 ▸ hr.fork pid row₀ hrow₀
  · intro i j row row' hrow hrow' hnumber
    obtain ⟨row₀, hrow₀, howner⟩ := h.row hrow
    obtain ⟨row₀', hrow₀', howner'⟩ := h.row hrow'
    simp only [PullRequest.owner, Prod.mk.injEq] at howner howner'
    exact hr.single i j row₀ row₀' hrow₀ hrow₀' (howner.2.2.trans (hnumber.trans howner'.2.2.symm))

/-- A pull request of the fork gets a row only when there is none of its number. -/
theorem recordPr_registered (hfork : pr.repo = forkRepo) (hr : Registered tx.db) :
    Registered (recordPr env tx wid pr).db := by
  have hfresh (hnone : tx.db.pullRow pr = none) {pid : Nat} {row : PullRequest}
      (hrow : tx.db.pullRequests.get? pid = some row) : row.number ≠ pr.number := by
    intro hnumber
    have hmiss := Table.first_eq_none hnone hrow
    simp only [hr.fork pid row hrow, hfork, hnumber, beq_self_eq_true, Bool.and_self] at hmiss
    cases hmiss
  constructor
  · intro pid row hrow
    rcases recordPr_row hrow with ⟨row₀, hrow₀, howner⟩ | ⟨-, -, howner⟩
    · simp only [PullRequest.owner, Prod.mk.injEq] at howner
      exact howner.2.1 ▸ hr.fork pid row₀ hrow₀
    · simp only [PullRequest.owner, Prod.mk.injEq] at howner
      exact howner.2.1.trans hfork
  · intro i j row row' hrow hrow' hnumber
    rcases recordPr_row hrow with ⟨row₀, hrow₀, howner⟩ | ⟨hnone, hi, howner⟩
    · rcases recordPr_row hrow' with ⟨row₀', hrow₀', howner'⟩ | ⟨hnone, -, howner'⟩
      · simp only [PullRequest.owner, Prod.mk.injEq] at howner howner'
        exact hr.single i j row₀ row₀' hrow₀ hrow₀' (howner.2.2.trans (hnumber.trans howner'.2.2.symm))
      · simp only [PullRequest.owner, Prod.mk.injEq] at howner howner'
        exact absurd (howner.2.2.trans (hnumber.trans howner'.2.2)) (hfresh hnone hrow₀)
    · rcases recordPr_row hrow' with ⟨row₀', hrow₀', howner'⟩ | ⟨-, hj, -⟩
      · simp only [PullRequest.owner, Prod.mk.injEq] at howner howner'
        exact absurd (howner'.2.2.trans (hnumber.symm.trans howner.2.2)) (hfresh hnone hrow₀')
      · exact hi.trans hj.symm

end Records

/-! ## Runs -/

section Runs

variable {c : Controller} {s : Sys}

/-- The pull request a step records, and the item it records it for. -/
def recorded (c : Controller) (s : Sys) : Action → Option (Nat × PullRequestInfo)
  | .pollSession now wid sid snap answers =>
    match s.flight, s.phase with
    | none, .polling | none, .settling => (pullOf (c.env now) s.db wid sid snap answers).map (wid, ·)
    | _, _ => none
  | _ => none

theorem Commits.sameOwners {S : Scope} {db db' : Db} (h : Commits c S db db') (hr : ¬ S.deeds .record) :
    SameOwners db db' := by
  cases h with
  | units h => exact h.sameOwners hr
  | evaluation h rid =>
    have hsame := h.sameOwners hr
    exact ⟨hsame.tracks, hsame.owners⟩
  | ingested h =>
    have hsame := ingestRun_ingested h
    exact ⟨fun wid => by rw [Db.tracks, Db.tracks, hsame.workItems], by rw [hsame.pullRequests]⟩

/-- What a step does to the owners: nothing, or it records a pull request. -/
inductive OwnerStep (db db' : Db) : Option (Nat × PullRequestInfo) → Prop
  | keeps (h : SameOwners db db') : OwnerStep db db' none
  | records {wid : Nat} {pr : PullRequestInfo} (hfork : pr.repo = forkRepo) {env : Env} {t : Tx} {item : WorkItem}
      (hitem : t.db.workItems.get? wid = some item) (hbefore : SameOwners db t.db)
      (hafter : SameOwners (recordPr env t wid pr).db db') : OwnerStep db db' (some (wid, pr))

theorem pollSession_ownerStep (env : Env) (db : Db) (wid : Nat) (sid : String) (snap : SessionSnapshot)
    (answers : SessionAnswers) : OwnerStep db (pollSession env wid sid snap answers { db := db }).db
      ((pullOf env db wid sid snap answers).map (wid, ·)) := by
  have hrecords := @pollSession_records env wid sid snap answers { db := db }
  cases hpull : pullOf env db wid sid snap answers with
  | none =>
    rw [hpull] at hrecords
    exact .keeps hrecords
  | some pr =>
    rw [hpull] at hrecords
    obtain ⟨t, item, hitem, hbefore, hafter⟩ := hrecords
    exact .records (pullOf_repo hpull) hitem hbefore hafter

/-- A step changes what the items track only by recording a pull request. -/
theorem exec_ownerStep (c : Controller) (s : Sys) (a : Action) : OwnerStep s.db (exec c s a).db (recorded c s a) := by
  have hother (hr : ¬ a.licence.deeds .record) : SameOwners s.db (exec c s a).db :=
    (exec_commits_licensed c s a).sameOwners hr
  cases a with
  | pollSession now wid sid snap answers =>
    dsimp only [exec, stepFree, recorded]
    cases s.flight with
    | some flight => exact .keeps (.refl _)
    | none =>
      rw [if_neg nofun]
      cases s.phase with
      | polling => exact pollSession_ownerStep _ _ _ _ _ _
      | settling => exact pollSession_ownerStep _ _ _ _ _ _
      | _ => exact .keeps (.refl _)
  | applyRun now compare =>
    refine .keeps (hother ?_)
    show ¬ Deed.record ∈ [Deed.settle, .reopen]
    decide
  | pollPullRequest now wid number pr checks answers =>
    refine .keeps (hother ?_)
    show ¬ Deed.record ∈ [Deed.settle, .retry]
    decide
  | launch now wid operator answers =>
    refine .keeps (hother ?_)
    show ¬ Deed.record ∈ [Deed.bind, .retry]
    decide
  | _ => exact .keeps (hother fun h => by cases h)

theorem exec_registered {a : Action} (hr : Registered s.db) : Registered (exec c s a).db := by
  have hstep := exec_ownerStep c s a
  generalize recorded c s a = r at hstep
  cases hstep with
  | keeps h => exact h.registered hr
  | records hfork _ hbefore hafter => exact hafter.registered (recordPr_registered hfork (hbefore.registered hr))

/-- There is one row of a number. -/
theorem registered_reachable (h : Reachable c s) : Registered s.db := by
  refine Machine.Reachable.invariant (fun s : Sys => Registered s.db) ?_ (fun _ _ hr => exec_registered hr) h
  constructor
  · intro pid row hrow
    rw [show Sys.initial.db.pullRequests.get? pid = none from Table.get?_empty pid] at hrow
    cases hrow
  · intro i _ row _ hrow
    rw [show Sys.initial.db.pullRequests.get? i = none from Table.get?_empty i] at hrow
    cases hrow

/-- The step records no pull request that has a row of another item. -/
def RecordsOwn (c : Controller) (s : Sys) (a : Action) : Prop :=
  ∀ wid pr, recorded c s a = some (wid, pr) → Unclaimed s.db wid pr.number

theorem exec_exclusive_iff {a : Action} (hex : Exclusive s.db) : Exclusive (exec c s a).db ↔ RecordsOwn c s a := by
  have hstep := exec_ownerStep c s a
  unfold RecordsOwn
  generalize recorded c s a = r at hstep ⊢
  cases hstep with
  | keeps h => exact iff_of_true (h.exclusive hex) nofun
  | @records wid pr _ env t item hitem hbefore hafter =>
    rw [hafter.exclusive_iff, recordPr_exclusive_iff hitem (hbefore.exclusive hex)]
    constructor
    · rintro hfree _ _ ⟨⟩
      exact hbefore.symm.unclaimed hfree
    · exact fun hown => hbefore.unclaimed (hown wid pr rfl)

/-- **Pull requests are exclusively owned in every state of a run exactly when no step of it records one that has a row
of another item.** -/
theorem exclusive_run_iff (c : Controller) (tr : List Action) :
    Machine.AllSteps (exec c) (fun s a => Exclusive (exec c s a).db) .initial tr ↔
      Machine.AllSteps (exec c) (RecordsOwn c) .initial tr := by
  refine Machine.AllSteps.congr_invariant (fun s => Exclusive s.db) (fun _ _ h ha => (exec_exclusive_iff h).mpr ha)
    (fun _ _ h => exec_exclusive_iff h) ?_
  have hnone (wid n : Nat) : Sys.initial.db.tracks wid ≠ some n := by
    rw [Db.tracks, show Sys.initial.db.workItems.get? wid = none from Table.get?_empty wid]
    exact nofun
  exact ⟨fun i _ n h => absurd h (hnone i n), fun i n h => absurd h (hnone i n), fun i n _ _ h => absurd h (hnone i n)⟩

end Runs

/-- The session of the second item ends with a report of the first item's pull request. -/
def secondReport : SessionSnapshot := { sampleReport (samplePull "a").url with sessionId := "s2" }

/-- Two items have sessions; the first opens a pull request, and the second reports the same one. -/
def sharedTrace : List Action :=
  let unfixed := (samplePair "CVE-2" "zlib" "1").map fun v => { v with fixedVersions := [], fixState := "affected" }
  [sampleIngest "1" 10 (samplePair "CVE-1" "openssl" "1" ++ unfixed), .beginTick, .next true none,
    .applyRun 11 linearCompare, .next true none, .group 11, .group 11, .next true none,
    .openIssue 11 (some []) (.ok sampleIssue), .openIssue 11 (some []) (.ok { sampleIssue with number := 8 }),
    .next true none, .next true none, .dispatch 11 [], .adopt 12 (.ok []), .create 12 (.ok sampleSession) (.ok ()),
    .dispatch 12 [], .adopt 12 (.ok []), .create 12 (.ok { sampleSession with sessionId := "s2" }) (.ok ()), .stop] ++
  sampleOpen 13 "a" ++ [.beginTick, .pollSession 14 2 "s2" secondReport { pullRequest := .ok (samplePull "a") }, .stop]

/-- Both items track it. -/
theorem pull_shared :
    let s := sampleState sharedTrace
    Reachable sampleController s ∧ ¬ Exclusive s.db ∧ s.db.tracks 1 = some 1 ∧ s.db.tracks 2 = some 1 := by
  intro s
  have hfirst : s.db.tracks 1 = some 1 := by decide +kernel
  have hsecond : s.db.tracks 2 = some 1 := by decide +kernel
  refine ⟨sampleState_reachable _, fun hex => ?_, hfirst, hsecond⟩
  cases hex.single 1 2 1 hfirst hsecond

end HardeningLoop
