import HardeningLoop.Orchestrator.Reviews
import HardeningLoop.Orchestrator.Triggers
import HardeningLoop.Orchestrator.Merging

/-!
# What a poll fetches of a head

The checks, Devin's review and the approval of a pull request are evidence about its head. `fetched` is what a poll
fetches of it; the state and the level of the item that tracks the pull request follow that evidence.

- `Observes`: a unit of a poll brings the item to `ready_for_human`, or to a level of a head, on the evidence alone;
- `applyPr_polled`: so does a poll, after which the evidence of another head counts no more.
-/

namespace HardeningLoop

open Rows (Table)

/-! ## What is fetched -/

/-- What a poll fetches of a head: that its checks are green, the status of a review of it, and that it is approved. -/
structure Fetched where
  green : Bool
  review : Option ReviewStatus
  approved : Bool
  deriving DecidableEq, Repr

/-- The levels that are reached on the evidence. -/
def Fetched.levels (o : Fetched) : List LifecycleLevel :=
  (if o.green then [.ciGreen] else []) ++ (if o.review = some .completed then [.reviewCompleted] else []) ++
    (if o.approved then [.humanApproved] else [])

/-- The review that a poll ends up with; one that errored is triggered once more, unless it was. -/
def PrAnswers.reviewSeen (answers : PrAnswers) (retriggered : Bool) : Option ReviewSnapshot :=
  match answers.review with
  | .error _ => none
  | .ok none => answers.triggered.toOption
  | .ok (some snap) =>
    match snap.status with
    | .errored => if retriggered then none else answers.triggered.toOption
    | .cancelled => none
    | _ => some snap

/-- The status of a review of the head. -/
def reviewOf (head : String) (seen : Option ReviewSnapshot) : Option ReviewStatus :=
  (seen.filter fun snap => snap.commitSha == head).map ReviewSnapshot.status

/-- The state in which the checks of a head are judged: with a new head they start again. -/
def headState (state : WorkItemState) (newHead : Bool) : WorkItemState :=
  if newHead && state ∈ [WorkItemState.reviewPending, .readyForHuman] then .checksRunning else state

/-- **What a poll fetches**: the checks of an open pull request that no human owns; once they are green, the review
while the item has none, and then the approvals. -/
def fetched (settings : Settings) (state : WorkItemState) (newHead retriggered : Bool) (pr : PullRequestInfo)
    (checks : List CheckRun) (answers : PrAnswers) : Fetched :=
  if pr.merged || pr.state = "closed" || state = .needsHuman || checksVerdict settings checks ≠ .green then
    ⟨false, none, false⟩
  else
    let state := headState state newHead
    let review := if state ∈ [WorkItemState.prOpen, .checksRunning, .reviewPending] then
        reviewOf pr.headSha (answers.reviewSeen retriggered) else none
    let reviewed := review = some .completed || state = .readyForHuman
    ⟨true, review, reviewed && (firstApprover settings.approverLogins pr.headSha answers.reviews).isSome⟩

/-! ## The units of a poll -/

/-- The pull request of a row, and its head. -/
def PullRequest.headKey (row : PullRequest) : String × Nat × String := (row.repo, row.number, row.headSha)

/-- Devin's review of the head of a row is completed. -/
def PullRequest.Reviewed (row : PullRequest) : Prop :=
  row.reviewStatus = some ReviewStatus.completed.value ∧ row.reviewHeadSha = some row.headSha

/-- The rows are known alike. -/
def SameRow (pid : Nat) (db db' : Db) : Prop :=
  (db'.pullRequests.get? pid).map PullRequest.tracked = (db.pullRequests.get? pid).map PullRequest.tracked

/-- Item `wid`, which tracks the pull request of row `pid`, comes to `ready_for_human` or to a level of a head on the
evidence alone, and a review that is on record gives way only to another one of the head. -/
structure Observes (o : Fetched) (wid pid : Nat) (db db' : Db) : Prop where
  others : ∀ k, k ≠ pid → SameRow k db db'
  head : (db'.pullRequests.get? pid).map PullRequest.headKey = (db.pullRequests.get? pid).map PullRequest.headKey
  level : ∀ level ∈ headLevels, db'.level wid = some level → db.level wid = some level ∨ level ∈ o.levels
  ready : db'.itemState wid = some .readyForHuman → db.itemState wid = some .readyForHuman ∧ SameRow pid db db' ∨
    (o.green = true ∧ o.review = some .completed) ∧ ∃ row, db'.pullRequests.get? pid = some row ∧ row.Reviewed
  reviewed : (∀ status ∈ o.review, status = .completed) → ∀ row, db.pullRequests.get? pid = some row → row.Reviewed →
    ∃ row', db'.pullRequests.get? pid = some row' ∧ row'.Reviewed

theorem PullRequest.Reviewed.congr {row row' : PullRequest} (h : row'.tracked = row.tracked) (hr : row.Reviewed) :
    row'.Reviewed := by
  simp only [PullRequest.tracked, Prod.mk.injEq] at h
  unfold PullRequest.Reviewed
  rw [h.2.2.1, h.2.2.2.1, h.2.2.2.2]
  exact hr

namespace SameRow

variable {pid : Nat} {db db' db'' : Db}

theorem refl (pid : Nat) (db : Db) : SameRow pid db db := rfl

theorem trans (h : SameRow pid db db') (h' : SameRow pid db' db'') : SameRow pid db db'' := Eq.trans h' h

theorem of_pulls (h : db'.pullRequests.map PullRequest.tracked = db.pullRequests.map PullRequest.tracked) (pid : Nat) :
    SameRow pid db db' := by
  rw [SameRow, ← Table.get?_map, ← Table.get?_map, h]

theorem headKey (h : SameRow pid db db') :
    (db'.pullRequests.get? pid).map PullRequest.headKey = (db.pullRequests.get? pid).map PullRequest.headKey := by
  have hview (o : Option PullRequest) :
      o.map PullRequest.headKey = (o.map PullRequest.tracked).map fun v => (v.1, v.2.1, v.2.2.1) := by
    rw [Option.map_map]
    rfl
  rw [hview, hview, h]

/-- A row that is known alike. -/
theorem row (h : SameRow pid db db') {row : PullRequest} (hrow : db.pullRequests.get? pid = some row) :
    ∃ row', db'.pullRequests.get? pid = some row' ∧ row'.tracked = row.tracked := by
  rw [SameRow, hrow, Option.map_some] at h
  exact Option.map_eq_some_iff.mp h

theorem reviewed (h : SameRow pid db db') {row : PullRequest} (hrow : db.pullRequests.get? pid = some row)
    (hr : row.Reviewed) : ∃ row', db'.pullRequests.get? pid = some row' ∧ row'.Reviewed := by
  obtain ⟨row', hrow', htracked⟩ := h.row hrow
  exact ⟨row', hrow', hr.congr htracked⟩

end SameRow

namespace Observes

variable {env : Env} {S : Scope} {o : Fetched} {wid pid : Nat} {db db' db'' : Db} {t t' : Tx}

theorem refl (o : Fetched) (wid pid : Nat) (db : Db) : Observes o wid pid db db :=
  ⟨fun k _ => .refl k db, rfl, fun _ _ h => Or.inl h, fun h => Or.inl ⟨h, .refl pid db⟩, fun _ row hrow hr =>
    ⟨row, hrow, hr⟩⟩

theorem trans (h : Observes o wid pid db db') (h' : Observes o wid pid db' db'') : Observes o wid pid db db'' := by
  constructor
  case others => exact fun k hk => (h.others k hk).trans (h'.others k hk)
  case head => exact h'.head.trans h.head
  case level =>
    intro level hl hafter
    rcases h'.level level hl hafter with hbetween | hseen
    · exact h.level level hl hbetween
    · exact Or.inr hseen
  case ready =>
    intro hafter
    rcases h'.ready hafter with ⟨hbetween, hsame⟩ | hseen
    · rcases h.ready hbetween with ⟨hbefore, hsame'⟩ | ⟨hgreen, row, hrow, hr⟩
      · exact Or.inl ⟨hbefore, hsame'.trans hsame⟩
      · exact Or.inr ⟨hgreen, hsame.reviewed hrow hr⟩
    · exact Or.inr hseen
  case reviewed =>
    intro hclean row hrow hr
    obtain ⟨row', hrow', hr'⟩ := h.reviewed hclean row hrow hr
    exact h'.reviewed hclean row' hrow' hr'

/-- What leaves alone what is known of the rows. -/
theorem of_same (hrows : ∀ k, SameRow k db db')
    (hlevel : ∀ level ∈ headLevels, db'.level wid = some level → db.level wid = some level ∨ level ∈ o.levels)
    (hready : db'.itemState wid = some .readyForHuman → db.itemState wid = some .readyForHuman ∨
      (o.green = true ∧ o.review = some .completed) ∧ ∃ row, db.pullRequests.get? pid = some row ∧ row.Reviewed) :
    Observes o wid pid db db' := by
  refine ⟨fun k _ => hrows k, (hrows pid).headKey, hlevel, fun hafter => ?_, fun _ row hrow hr =>
    (hrows pid).reviewed hrow hr⟩
  rcases hready hafter with hbefore | ⟨hgreen, row, hrow, hr⟩
  · exact Or.inl ⟨hbefore, hrows pid⟩
  · exact Or.inr ⟨hgreen, (hrows pid).reviewed hrow hr⟩

/-- A unit that observes no head and completes no review. -/
theorem of_acts (h : Acts env S t t') (hp : ¬ S.pulls) (hr : ¬ S.fires .reviewCompleted) :
    Observes o wid pid t.db t'.db := by
  refine of_same (fun k => .of_pulls (h.pulls hp) k) (fun level hl hafter => ?_) fun hafter => ?_
  · obtain ⟨w', hw', rfl⟩ := Option.map_eq_some_iff.mp hafter
    rcases (h.tracking hp hw').2 with hsame | hno
    · exact Or.inl hsame.symm
    · exact absurd hl hno
  · have hback : ∀ s e s', S.fires e ∨ e = .blocked → nextWorkItemState s e = some s' → s' = .readyForHuman →
        s = .readyForHuman := by
      rintro s e _ he hn rfl
      have hevent := next_eq_readyForHuman hn
      rcases he with he | rfl
      · exact absurd (hevent ▸ he) hr
      · cases hevent
    obtain ⟨s, hs, rfl⟩ := h.state_back (· = .readyForHuman) (fun _ => by decide) hback hafter rfl
    exact Or.inl hs

theorem acts (h : Observes o wid pid db t.db) (ha : Acts env S t t') (hp : ¬ S.pulls)
    (hr : ¬ S.fires .reviewCompleted) :
    Observes o wid pid db t'.db := h.trans (of_acts ha hp hr)

theorem onItem (h : Observes o wid pid db t.db) (ha : OnItem env wid t t') : Observes o wid pid db t'.db :=
  h.acts ha not_false fun hno => hno (by decide)

/-- An event that is not about a review. -/
theorem wi (h : Observes o wid pid db t.db) {e : WorkItemEvent} (he : e ≠ .reviewCompleted) (reason actor : String) :
    Observes o wid pid db (t.wi env wid e reason actor).db := by
  have hone : Acts env ⟨(· = e), False, (· = wid), fun _ => False, False, fun _ => False⟩ t
    (t.wi env wid e reason actor) :=
    Acts.refl.wi rfl rfl reason actor
  exact h.acts hone not_false fun hno => he hno.symm

/-- An edit of the row that leaves what is known of its head. -/
theorem editRow (h : Observes o wid pid db t.db) {f : PullRequest → PullRequest}
    (hf : ∀ row, (f row).tracked = row.tracked) :
    Observes o wid pid db (t.modifyPullRequest pid f).db :=
  h.trans (of_same (fun k => .of_pulls (Table.map_modify_of_eq hf) k) (fun _ _ hl => Or.inl hl) Or.inl)

/-- A level that is reached on the evidence. -/
theorem raiseLevel (h : Observes o wid pid db t.db) {level : LifecycleLevel} (hl : level ∈ o.levels) (why : String) :
    Observes o wid pid db (raiseLevel env t wid pid level why).db := by
  have hitem (t' : Tx) (hi : t'.db.workItems = t.db.workItems) (hp : t'.db.pullRequests = t.db.pullRequests) :
      Observes o wid pid t.db (t'.modifyItem wid fun w => { w with lifecycleLevel := level }).db := by
    refine of_same (fun k => .of_pulls (by rw [← hp]; rfl) k) (fun l _ hafter => ?_) fun hafter => Or.inl ?_
    · simp only [Db.level, Tx.modifyItem, Table.get?_modify_self, Option.map_map] at hafter
      obtain ⟨w, -, rfl⟩ := Option.map_eq_some_iff.mp hafter
      exact Or.inr hl
    · simp only [Db.itemState, Tx.modifyItem, Table.get?_modify_self, Option.map_map, hi] at hafter
      exact hafter
  unfold HardeningLoop.raiseLevel
  dsimp only
  refine editRow ?_ fun row => by split <;> rfl
  split
  · split
    · exact h.trans (hitem _ rfl rfl)
    · exact h
  · exact h

end Observes

section Units

variable {env : Env} {o : Fetched} {wid pid : Nat} {t : Tx} {head : String} {pr : PullRequestInfo}
  {checks : List CheckRun}
  {answers : PrAnswers}

theorem reviewTimeout_observes (why : String) : Observes o wid pid t.db (reviewTimeout env t wid head why).db :=
  (Observes.refl o wid pid t.db).onItem (reviewTimeout_does env t wid head why)

/-- A review of the head is put on record, and a completed one makes the item ready. -/
theorem observeReview_observes {snap : ReviewSnapshot} (hgreen : o.green = true)
    (hs : t.db.itemState wid = some .reviewPending)
    (hrow : ∃ row, t.db.pullRequests.get? pid = some row ∧ row.headSha = head)
    (hseen : snap.commitSha = head → o.review = some snap.status) :
    Observes o wid pid t.db (observeReview env t wid pid head snap).db := by
  unfold observeReview
  split
  · exact reviewTimeout_observes _
  · rename_i hcommit
    rw [not_not] at hcommit
    obtain ⟨row, hrow, hhead⟩ := hrow
    have hreview := hseen hcommit
    dsimp only
    set f : PullRequest → PullRequest := fun row => { row with
      reviewId := some (snap.repoPath ++ "#" ++ toString snap.prNumber ++ "@" ++ snap.commitSha)
      reviewHeadSha := some snap.commitSha, reviewStatus := some snap.status.value } with hf
    have hrow' : (t.modifyPullRequest pid f).db.pullRequests.get? pid = some (f row) := by
      rw [Tx.modifyPullRequest, Table.get?_modify_self, hrow, Option.map_some]
    have hrecorded (hcompleted : snap.status = .completed) : (f row).Reviewed :=
      ⟨congrArg (fun status => some (ReviewStatus.value status)) hcompleted, congrArg some (hcommit.trans hhead.symm)⟩
    have hwritten : Observes o wid pid t.db (t.modifyPullRequest pid f).db := by
      constructor
      case others =>
        intro k hk
        simp only [SameRow, Tx.modifyPullRequest, Table.get?_modify_of_ne _ hk]
      case head =>
        rw [hrow', hrow]
        rfl
      case level => exact fun _ _ hl => Or.inl hl
      case ready =>
        intro hready
        cases hs.symm.trans hready
      case reviewed =>
        intro hclean _ _ _
        exact ⟨f row, hrow', hrecorded (hclean _ hreview)⟩
    split
    · rename_i hcompleted
      have hcompletes : o.review = some .completed := hreview.trans (congrArg some hcompleted)
      have hlevel : LifecycleLevel.reviewCompleted ∈ o.levels := by simp [Fetched.levels, hcompletes]
      refine Observes.raiseLevel ?_ hlevel _
      have hfired (reason : String) :
          Acts env ⟨(· = .reviewCompleted), False, (· = wid), fun _ => False, False, fun _ => False⟩
          (t.modifyPullRequest pid f) ((t.modifyPullRequest pid f).wi env wid .reviewCompleted reason "devin") :=
        Acts.refl.wi rfl rfl reason "devin"
      refine hwritten.trans (.of_same (fun k => .of_pulls ((hfired _).pulls not_false) k) (fun level hl hafter => ?_)
        fun _ => Or.inr ⟨⟨hgreen, hcompletes⟩, f row, hrow', hrecorded hcompleted⟩)
      obtain ⟨w', hw', rfl⟩ := Option.map_eq_some_iff.mp hafter
      rcases ((hfired _).tracking not_false hw').2 with hsame | hno
      · exact Or.inl hsame.symm
      · exact absurd hl hno
    · exact hwritten.trans (reviewTimeout_observes _)

theorem triggerReview_observes {answer : Except String ReviewSnapshot} (reason : String) (hgreen : o.green = true)
    (hs : t.db.itemState wid = some .reviewPending)
    (hrow : ∃ row, t.db.pullRequests.get? pid = some row ∧ row.headSha = pr.headSha)
    (hseen : ∀ snap, answer.toOption = some snap → snap.commitSha = pr.headSha → o.review = some snap.status) :
    Observes o wid pid t.db (triggerReview env t wid pid pr reason answer).db := by
  unfold triggerReview
  split
  · have hattempt : OnItem env wid t (t.attempt [.triggerReview pr.url]) := Acts.refl.attempt _
    exact (Observes.refl o wid pid t.db).onItem (hattempt.trans (reviewTimeout_does env _ wid _ _))
  · rename_i snap
    dsimp only
    generalize hlogged : (t.answered (.triggerReview pr.url)).event env .pullRequest pid (.log "review_triggered") none
      (some snap.commitSha) reason "controller" [] = t'
    have hpulls : t'.db.pullRequests = t.db.pullRequests := by
      rw [← hlogged]
      rfl
    have hitems : t'.db.workItems = t.db.workItems := by
      rw [← hlogged]
      rfl
    refine .trans (.of_same (fun k => .of_pulls (by rw [hpulls]) k) (fun level _ hl => Or.inl ?_)
      fun hready => Or.inl ?_)
      (observeReview_observes (t := t') hgreen ?_ ?_ (hseen snap rfl))
    · rwa [Db.level, hitems] at hl
    · rwa [Db.itemState, hitems] at hready
    · rwa [Db.itemState, hitems]
    · rwa [hpulls]

theorem checkReview_observes (hgreen : o.green = true) (hs : t.db.itemState wid = some .reviewPending)
    (hrow : ∃ row, t.db.pullRequests.get? pid = some row ∧ row.headSha = pr.headSha)
    (hseen : ∀ snap, answers.reviewSeen (reviewRetriggered t.db pid pr.headSha) = some snap →
      snap.commitSha = pr.headSha → o.review = some snap.status) :
    Observes o wid pid t.db (checkReview env t wid pid pr answers).db := by
  unfold PrAnswers.reviewSeen at hseen
  unfold checkReview
  dsimp only
  cases hreview : answers.review with
  | error exc => exact reviewTimeout_observes _
  | ok known =>
    rw [hreview] at hseen
    cases known with
    | none => exact triggerReview_observes _ hgreen hs hrow hseen
    | some snap =>
      dsimp only at hseen ⊢
      cases hstatus : snap.status with
      | errored =>
        rw [hstatus] at hseen
        dsimp only at hseen ⊢
        split
        · exact (Observes.refl o wid pid t.db).wi (by decide) ..
        · rename_i hfresh
          rw [if_neg hfresh] at hseen
          exact triggerReview_observes _ hgreen hs hrow hseen
      | cancelled => exact (Observes.refl o wid pid t.db).wi (by decide) ..
      | _ =>
        rw [hstatus] at hseen
        refine observeReview_observes hgreen hs hrow fun hcommit => ?_
        rw [hstatus]
        exact (hseen snap rfl hcommit).trans (congrArg some hstatus)

/-- What a poll ends up with does not change while the log grows. -/
theorem LogGrows.reviewSeen {db db' : Db} (h : LogGrows db db') {snap : ReviewSnapshot}
    (hseen : answers.reviewSeen (reviewRetriggered db' pid head) = some snap) :
    answers.reviewSeen (reviewRetriggered db pid head) = some snap := by
  unfold PrAnswers.reviewSeen at hseen ⊢
  cases hreview : answers.review with
  | error exc =>
    rw [hreview] at hseen
    exact hseen
  | ok known =>
    rw [hreview] at hseen
    cases known with
    | none => exact hseen
    | some known =>
      dsimp only at hseen ⊢
      cases hstatus : known.status with
      | errored =>
        rw [hstatus] at hseen
        dsimp only at hseen ⊢
        cases hr : reviewRetriggered db pid head with
        | true =>
          rw [h.retriggered hr] at hseen
          exact hseen
        | false =>
          cases hr' : reviewRetriggered db' pid head with
          | true =>
            rw [hr'] at hseen
            cases hseen
          | false =>
            rw [hr'] at hseen
            exact hseen
      | _ =>
        rw [hstatus] at hseen
        exact hseen

theorem checksPassed_observes (hgreen : o.green = true) :
    Observes o wid pid t.db (checksPassed env t wid pid pr).db := by
  have hlevel : LifecycleLevel.ciGreen ∈ o.levels := by simp [Fetched.levels, hgreen]
  have hseen (row : PullRequest) : (firstHeadSeen pr.headSha true row).tracked = row.tracked := by
    unfold firstHeadSeen
    split <;> rfl
  unfold checksPassed
  split
  · exact (((Observes.refl o wid pid t.db).editRow hseen).wi (by decide) ..).raiseLevel hlevel _
  · exact .refl o wid pid t.db

/-- Green checks take an item whose checks run to its review. -/
theorem checksPassed_state {s : WorkItemState} (hs : t.db.itemState wid = some s) :
    (checksPassed env t wid pid pr).db.itemState wid = some (if s = .checksRunning then .reviewPending else s) := by
  unfold checksPassed
  by_cases hrunning : s = .checksRunning
  · subst hrunning
    rw [if_pos hs, if_pos rfl]
    have hn : nextWorkItemState .checksRunning .checksGreen = some .reviewPending := rfl
    have hfired := ((@At.refl env _ _ _ hs).pulls pid (firstHeadSeen pr.headSha true)).fire hn pr.headSha "ci"
    exact (hfired.unfired (raiseLevel_unfired _ wid pid .ciGreen "ci_green")).state
  · rw [if_neg fun h => hrunning (Option.some.inj (hs.symm.trans h)), if_neg hrunning]
    exact hs

/-- The approval of a ready item is a level that is reached on the evidence. -/
theorem checkApproval_observes {reviews : List Review}
    (happroved : (firstApprover env.settings.approverLogins pr.headSha reviews).isSome → o.approved = true) :
    Observes o wid pid t.db (checkApproval env t wid pid pr reviews).db := by
  unfold checkApproval
  split
  · exact .refl o wid pid t.db
  · rename_i r hr
    have hgiven : o.approved = true := by
      refine happroved ?_
      rw [firstApprover, hr]
      rfl
    have hlevel : LifecycleLevel.humanApproved ∈ o.levels := by simp [Fetched.levels, hgiven]
    split
    · refine Observes.raiseLevel ?_ hlevel _
      refine (Observes.refl o wid pid t.db).editRow ?_
      exact fun _ => rfl
    · exact .refl o wid pid t.db

/-- The green checks of an open pull request. -/
theorem applyGreen_observes {s : WorkItemState} (hgreen : o.green = true) (hs : t.db.itemState wid = some s)
    (hrow : ∃ row, t.db.pullRequests.get? pid = some row ∧ row.headSha = pr.headSha)
    (hreview : s ∈ [WorkItemState.checksRunning, .reviewPending] → ∀ snap,
      answers.reviewSeen (reviewRetriggered t.db pid pr.headSha) = some snap → snap.commitSha = pr.headSha →
        o.review = some snap.status)
    (happroved : o.review = some .completed ∨ s = .readyForHuman →
      (firstApprover env.settings.approverLogins pr.headSha answers.reviews).isSome → o.approved = true) :
    Observes o wid pid t.db (applyGreen env t wid pid pr answers).db := by
  have hpassed : Observes o wid pid t.db (checksPassed env t wid pid pr).db := checksPassed_observes hgreen
  have hstate : (checksPassed env t wid pid pr).db.itemState wid = _ := checksPassed_state hs
  have hgrows : LogGrows t.db (checksPassed env t wid pid pr).db := (checksPassed_does env t wid pid pr).logGrows
  have hwaiting : Observes o wid pid (checksPassed env t wid pid pr).db
      (reviewWaiting env (checksPassed env t wid pid pr) wid pid pr answers).db := by
    unfold reviewWaiting
    split
    · rename_i hpending
      refine checkReview_observes hgreen hpending ?_ fun snap hseen => hreview ?_ snap (hgrows.reviewSeen hseen)
      · obtain ⟨row, hrow, hhead⟩ := hrow
        have hkey := hpassed.head
        rw [hrow, Option.map_some] at hkey
        obtain ⟨row', hrow', hkey⟩ := Option.map_eq_some_iff.mp hkey
        simp only [PullRequest.headKey, Prod.mk.injEq] at hkey
        exact ⟨row', hrow', hkey.2.2.trans hhead⟩
      · rw [hstate, Option.some.injEq] at hpending
        revert hpending
        cases s <;> decide
    · exact .refl o wid pid _
  unfold applyGreen
  dsimp only
  split
  · rename_i hready
    refine (hpassed.trans hwaiting).trans (checkApproval_observes (happroved ?_))
    rcases hwaiting.ready hready with ⟨hbefore, -⟩ | ⟨⟨-, hcompleted⟩, -⟩
    · right
      rw [hstate, Option.some.injEq] at hbefore
      revert hbefore
      cases s <;> decide
    · exact Or.inl hcompleted
  · exact hpassed.trans hwaiting

/-- The checks of an open pull request that no human owns. -/
theorem applyChecks_observes {s : WorkItemState} (hs : t.db.itemState wid = some s)
    (hrow : ∃ row, t.db.pullRequests.get? pid = some row ∧ row.headSha = pr.headSha)
    (hgreen : checksVerdict env.settings checks = .green → o.green = true ∧
      (s ∈ [WorkItemState.prOpen, .checksRunning, .reviewPending] → ∀ snap,
        answers.reviewSeen (reviewRetriggered t.db pid pr.headSha) = some snap → snap.commitSha = pr.headSha →
          o.review = some snap.status) ∧
      (o.review = some .completed ∨ s = .readyForHuman →
        (firstApprover env.settings.approverLogins pr.headSha answers.reviews).isSome → o.approved = true)) :
    Observes o wid pid t.db (applyChecks env t wid pid pr checks answers).db := by
  have hedits := recordedChecks_edits env t wid pid pr.headSha checks
  have hseen : Observes o wid pid t.db (checksSeen env t wid pid pr checks).db := by
    have hrecorded := (Observes.refl o wid pid t.db).acts hedits not_false not_false
    unfold checksSeen
    dsimp only
    split
    · exact hrecorded.wi (by decide) ..
    · exact hrecorded
  have hstate := (@checksSeen_at env _ _ _ hs pid pr checks).state
  have hgrows : LogGrows t.db (checksSeen env t wid pid pr checks).db :=
    (checksSeen_does env t wid pid pr checks).logGrows
  unfold applyChecks
  dsimp only
  cases hverdict : checksVerdict env.settings checks with
  | running => exact hseen
  | red =>
    dsimp only
    split
    · exact (hseen.wi (by decide) ..).acts (retryOrFail_does env _ wid pid pr checks) not_false fun hno =>
        hno (by decide)
    · exact hseen
  | green =>
    obtain ⟨hgreen, hreview, happroved⟩ := hgreen hverdict
    refine hseen.trans (applyGreen_observes hgreen hstate ?_ (fun hmem snap h => hreview ?_ snap (hgrows.reviewSeen h))
      fun h => happroved (h.imp_right ?_))
    · obtain ⟨row, hrow, hhead⟩ := hrow
      have hkey := hseen.head
      rw [hrow, Option.map_some] at hkey
      obtain ⟨row', hrow', hkey⟩ := Option.map_eq_some_iff.mp hkey
      simp only [PullRequest.headKey, Prod.mk.injEq] at hkey
      exact ⟨row', hrow', hkey.2.2.trans hhead⟩
    · revert hmem
      cases s <;> decide
    · cases s <;> decide

end Units

/-! ## A poll -/

/-- A poll of row `row` for item `wid`: the row gets the head that is seen, and the item is ready, or at a level of a
head, on evidence that is fetched or that was about the same head. A closed pull request keeps its item's level. -/
structure Polled (o : Fetched) (wid pid : Nat) (row : PullRequest) (pr : PullRequestInfo) (db db' : Db) : Prop where
  others : ∀ k, k ≠ pid → SameRow k db db'
  head : (db'.pullRequests.get? pid).map PullRequest.headKey = some (row.repo, row.number, pr.headSha)
  level : ∀ level ∈ headLevels, db'.level wid = some level → level ∈ o.levels ∨
    db.level wid = some level ∧ (pr.headSha = row.headSha ∨ pr.merged = false ∧ pr.state = "closed")
  ready : db'.itemState wid = some .readyForHuman →
    (db.itemState wid = some .readyForHuman ∧ pr.headSha = row.headSha ∧ SameRow pid db db') ∨
      o.green = true ∧ ∃ row', db'.pullRequests.get? pid = some row' ∧ row'.Reviewed
  reviewed : pr.headSha = row.headSha → (∀ status ∈ o.review, status = .completed) → row.Reviewed →
    ∃ row', db'.pullRequests.get? pid = some row' ∧ row'.Reviewed

section Poll

variable {env : Env} {o : Fetched} {wid pid : Nat} {tx t : Tx} {pr : PullRequestInfo} {checks : List CheckRun}
  {answers : PrAnswers} {row : PullRequest} {db db' : Db} {s : WorkItemState}

/-- A poll that sees the head of the row. -/
theorem Observes.polled (h : Observes o wid pid db db') (hrow : db.pullRequests.get? pid = some row)
    (hsame : pr.headSha = row.headSha) : Polled o wid pid row pr db db' := by
  constructor
  case others => exact h.others
  case head =>
    rw [h.head, hrow, hsame]
    rfl
  case level =>
    intro level hl hafter
    rcases h.level level hl hafter with hbefore | hseen
    · exact Or.inr ⟨hbefore, Or.inl hsame⟩
    · exact Or.inl hseen
  case ready =>
    intro hafter
    rcases h.ready hafter with ⟨hbefore, hrows⟩ | ⟨hgreen, hrecorded⟩
    · exact Or.inl ⟨hbefore, hsame, hrows⟩
    · exact Or.inr ⟨hgreen.1, hrecorded⟩
  case reviewed => exact fun _ hclean hr => h.reviewed hclean row hrow hr

/-- A poll that sees a new head, after which the item is not ready on the old evidence, nor at a level of a head. -/
theorem Observes.renewed (h : Observes o wid pid t.db db') (hothers : ∀ k, k ≠ pid → SameRow k db t.db)
    (hhead : (t.db.pullRequests.get? pid).map PullRequest.headKey = some (row.repo, row.number, pr.headSha))
    (hnew : pr.headSha ≠ row.headSha) (hlevel : ∀ level ∈ headLevels, db'.level wid = some level → level ∈ o.levels ∨
      db.level wid = some level ∧ (pr.headSha = row.headSha ∨ pr.merged = false ∧ pr.state = "closed"))
    (hready : db'.itemState wid = some .readyForHuman → t.db.itemState wid ≠ some .readyForHuman) :
    Polled o wid pid row pr db db' := by
  constructor
  case others => exact fun k hk => (hothers k hk).trans (h.others k hk)
  case head => exact h.head.trans hhead
  case level => exact hlevel
  case ready =>
    intro hafter
    rcases h.ready hafter with ⟨hbefore, -⟩ | ⟨hgreen, hrecorded⟩
    · exact absurd hbefore (hready hafter)
    · exact Or.inr ⟨hgreen.1, hrecorded⟩
  case reviewed => exact fun hsame => absurd hsame hnew

/-- A merged item is at no level of a head. -/
theorem applyMerge_level (hs : t.db.itemState wid = some s) (hmem : s ∈ prStates) (cmp : Compare)
    {level : LifecycleLevel}
    (hl : level ∈ headLevels) : (applyMerge env t wid pid pr cmp).db.level wid ≠ some level := by
  have hfires : ∀ e ∈ [WorkItemEvent.checksGreen, .reviewCompleted], ¬ e ∉ .dispatchStarted :: headEvents := by decide
  have hrecord : (recordMerge env t wid pid pr).db.itemState wid = some s := by
    simpa [recordMerge, Db.itemState, Tx.modifyItem, Tx.modifyPullRequest, Option.map_map, Function.comp_def] using hs
  obtain ⟨s', hs', hstate⟩ := accepted_blockUnverified env hrecord hmem
  have haccepted : mergeAccepted (blockUnverified env (recordMerge env t wid pid pr) wid).db wid = true := by
    rw [mergeAccepted, hstate, Option.any_some, decide_eq_true_eq]
    exact hs'
  obtain ⟨item, hi, -⟩ := Option.map_eq_some_iff.mp hstate
  unfold applyMerge
  dsimp only
  rw [if_pos haccepted]
  unfold completeMerge
  dsimp only
  generalize hraised : raiseLevel env _ wid pid .merged "merged" = t₁
  have hno : t₁.db.level wid ≠ some level := by
    have hi' : ∀ (reason actor : String),
      ((blockUnverified env (recordMerge env t wid pid pr) wid).wi env wid .humanMerged
        reason actor).db.workItems.get? wid = some (Tx.wiRow env .humanMerged reason item) := by
      intro reason actor
      rw [Tx.wi_db, Table.get?_modify_self, hi, Option.map_some]
    rw [← hraised]
    unfold raiseLevel
    rw [hi']
    dsimp only
    split
    · simp only [Db.level, Tx.modifyPullRequest, Tx.modifyItem, Tx.event, Table.get?_modify_self, hi', Option.map_some]
      rintro ⟨⟩
      exact absurd hl (by decide)
    · rename_i hhigh
      simp only [Db.level, Tx.modifyPullRequest, hi', Option.map_some]
      rintro ⟨⟩
      revert hhigh hl
      cases (Tx.wiRow env .humanMerged _ item).lifecycleLevel <;> decide
  have hrest : Acts env (.closing wid fun _ => True) t₁
      (closeFromAppliedRuns env cmp ((t₁.db.members wid).foldl (mergeMember env (pr.mergeCommitSha.getD "")) t₁)
      wid) := by
    refine .trans ?_ (closeFromAppliedRuns_does env cmp _ wid)
    exact .foldl _ .refl fun t fid _ => Acts.refl.finding trivial (Or.inr (by decide)) ..
  exact fun hafter => hno ((hrest.stays not_false hfires).level level hl hafter)

theorem reopenedLevel_not_head (level : LifecycleLevel) : reopenedLevel level ∉ headLevels := by
  cases level <;> decide

/-- After a new head nothing else is known of the rows, and the item's checks start again. -/
theorem reverifyNewHead_rows (headSha : String) (k : Nat) :
    SameRow k t.db (reverifyNewHead env t wid pid headSha).db := by
  have hlow : LifecycleLevel.prOpened ∉ headLevels := by decide
  have hreset (t' : Tx) (why : String) : SameRow k t'.db (resetLevel env t' wid pid .prOpened why).db :=
    .of_pulls ((resetLevel_edits env t' wid pid hlow why).pulls not_false) k
  have hdepth (t' : Tx) : SameRow k t'.db ((t'.modifyPullRequest pid fun row =>
      { row with verificationDepth := none, depthRungs := [] }).modifyItem wid fun w =>
        { w with verificationDepth := none }).db := by
    refine .of_pulls (Table.map_modify_of_eq ?_) k
    exact fun _ => rfl
  unfold reverifyNewHead
  dsimp only
  refine .trans (.trans ?_ (hreset _ _)) (hdepth _)
  split
  · refine .of_pulls ?_ k
    rw [Tx.wi_db]
  · exact .refl k t.db

theorem reverifyNewHead_state (hs : t.db.itemState wid = some s) (headSha : String) :
    (reverifyNewHead env t wid pid headSha).db.itemState wid = some (headState s true) := by
  have hrest (t' : Tx) (s' : WorkItemState) (ht : At env t wid s' t') (why : String) : At env t wid s'
      (((resetLevel env t' wid pid .prOpened why).modifyPullRequest pid fun row =>
        { row with verificationDepth := none, depthRungs := [] }).modifyItem wid fun w =>
          { w with verificationDepth := none }) := by
    have hreset := ht.acts (resetLevel_edits env t' wid pid (show LifecycleLevel.prOpened ∉ headLevels by decide) why)
      fun _ => id
    refine (hreset.pulls pid _).edit wid ?_
    exact fun _ => .stay rfl rfl
  unfold reverifyNewHead headState
  dsimp only
  rw [hs, Option.any_some, Bool.true_and]
  split
  · rename_i hany
    have hn : nextWorkItemState s .newHeadPushed = some .checksRunning := by
      revert hany
      cases s <;> decide
    exact (hrest _ _ ((At.refl hs).fire hn _ _) _).state
  · exact (hrest _ _ (.refl hs) _).state

/-- The row of a poll gets the head that is seen. -/
theorem polledHead_rows (hrow : tx.db.pullRequests.get? pid = some row) :
    let t := applyNewHead env (tx.modifyPullRequest pid fun row => { row with updatedAt := env.now }) wid pid row pr
    (∀ k, k ≠ pid → SameRow k tx.db t.db) ∧
      (t.db.pullRequests.get? pid).map PullRequest.headKey = some (row.repo, row.number, pr.headSha) := by
  intro t
  by_cases hsame : pr.headSha = row.headSha
  · have ht : t = tx.modifyPullRequest pid fun row => { row with updatedAt := env.now } := by
      rw [show t = applyNewHead env _ wid pid row pr from rfl, applyNewHead, if_pos hsame]
    rw [ht]
    refine ⟨fun k hk => ?_, ?_⟩
    · simp only [SameRow, Tx.modifyPullRequest, Table.get?_modify_of_ne _ hk]
    · simp only [Tx.modifyPullRequest, Table.get?_modify_self, hrow, Option.map_some]
      rw [hsame]
      rfl
  · -- the row as a new head leaves it, before the checks start again
    have hseen (t' : Tx) (ht : t'.db.pullRequests = (tx.modifyPullRequest pid fun row =>
        { row with updatedAt := env.now }).db.pullRequests) :
        let t'' := (t'.modifyPullRequest pid fun row =>
          { row with headSha := pr.headSha, reviewStatus := none, approvedBy := none
          }).modifyItem wid fun w => { w with prHeadSha := some pr.headSha }
        (∀ k, k ≠ pid → SameRow k tx.db t''.db) ∧
          (t''.db.pullRequests.get? pid).map PullRequest.headKey = some (row.repo, row.number, pr.headSha) := by
      refine ⟨fun k hk => ?_, ?_⟩
      · simp only [SameRow, Tx.modifyPullRequest, Tx.modifyItem, Table.get?_modify_of_ne _ hk, ht]
      · simp only [Tx.modifyPullRequest, Tx.modifyItem, Table.get?_modify_self, ht, hrow, Option.map_some]
        rfl
    have hlogged :=
      hseen ((tx.modifyPullRequest pid fun row => { row with updatedAt := env.now }).event env .pullRequest pid
      (.log "head_changed") (some row.headSha) (some pr.headSha) "new push" "controller" []) rfl
    rw [show t = applyNewHead env _ wid pid row pr from rfl, applyNewHead, if_neg hsame]
    dsimp only at hlogged ⊢
    split
    · exact ⟨fun k hk => (hlogged.1 k hk).trans (reverifyNewHead_rows pr.headSha k),
        (reverifyNewHead_rows pr.headSha pid).headKey.trans hlogged.2⟩
    · exact hlogged

/-- With a new head the checks of an open pull request start again. -/
theorem polledHead_state (hs : tx.db.itemState wid = some s) (hopen : pr.merged = false ∧ pr.state ≠ "closed") :
    (applyNewHead env (tx.modifyPullRequest pid fun row => { row with updatedAt := env.now })
      wid pid row pr).db.itemState wid = some (headState s (decide (pr.headSha ≠ row.headSha))) := by
  unfold applyNewHead
  by_cases hsame : pr.headSha = row.headSha
  · rw [if_pos hsame, decide_eq_false fun hne => hne hsame]
    exact hs
  · have hgo : (!pr.merged && decide (pr.state ≠ "closed")) = true := by simp [hopen]
    rw [if_neg hsame, decide_eq_true hsame]
    dsimp only
    rw [if_pos hgo]
    refine reverifyNewHead_state ?_ pr.headSha
    simpa [Db.itemState, Tx.modifyItem, Tx.modifyPullRequest, Tx.event, Option.map_map, Function.comp_def] using hs

/-- After its head is seen, a poll comes to what it fetches of it. -/
theorem applyPr_observes (hs : tx.db.itemState wid = some s) (hrow : tx.db.pullRequests.get? pid = some row)
    (ho : o = fetched env.settings s (decide (pr.headSha ≠ row.headSha))
    (reviewRetriggered tx.db pid pr.headSha) pr checks answers) :
    Observes o wid pid
    (applyNewHead env (tx.modifyPullRequest pid fun row => { row with updatedAt := env.now }) wid pid row pr).db
      (applyPr env tx wid pid row pr checks answers).db := by
  have hgrows := (polledHead_does env tx wid pid row pr).logGrows
  have hhead := (@polledHead_rows env wid pid tx pr row hrow).2
  unfold applyPr
  dsimp only
  generalize ht : applyNewHead env (tx.modifyPullRequest pid fun row => { row with updatedAt := env.now })
    wid pid row pr = t at hgrows hhead ⊢
  split
  · exact (Observes.refl o wid pid t.db).acts (applyMerge_does env _ wid pid pr _) not_false fun hno => hno (by decide)
  · rename_i hmerged
    split
    · have hclosed :
          Observes o wid pid t.db (t.modifyPullRequest pid fun row => { row with state := "closed" }).db := by
        refine (Observes.refl o wid pid t.db).editRow ?_
        exact fun _ => rfl
      split
      · exact hclosed
      · exact hclosed.wi (by decide) ..
    · rename_i hclosed
      split
      · exact .refl o wid pid t.db
      · rename_i hhuman
        have hstate := @polledHead_state env wid pid tx pr row s hs ⟨Bool.eq_false_iff.mpr hmerged, hclosed⟩
        rw [ht] at hstate
        have hs' : s ≠ .needsHuman := by
          rintro rfl
          exact hhuman (hstate.trans (congrArg some (by cases decide (pr.headSha ≠ row.headSha) <;> rfl)))
        refine applyChecks_observes hstate ?_ fun hgreen => ?_
        · obtain ⟨row', hrow', hkey⟩ := Option.map_eq_some_iff.mp hhead
          simp only [PullRequest.headKey, Prod.mk.injEq] at hkey
          exact ⟨row', hrow', hkey.2.2⟩
        · have hopen : ¬ (pr.merged || pr.state = "closed" || s = .needsHuman ||
              checksVerdict env.settings checks ≠ .green) = true := by
            simp [hmerged, hclosed, hs', hgreen]
          have hfetched : o = _ := ho.trans (if_neg hopen)
          dsimp only at hfetched
          have hreview (hmem : headState s (decide (pr.headSha ≠ row.headSha)) ∈
              [WorkItemState.prOpen, .checksRunning, .reviewPending]) : o.review = reviewOf pr.headSha
                (answers.reviewSeen (reviewRetriggered tx.db pid pr.headSha)) := by
            rw [hfetched]
            exact if_pos hmem
          refine ⟨by rw [hfetched], fun hmem snap hsnap hcommit => ?_, fun hreviewed happroved => ?_⟩
          · rw [hreview hmem, hgrows.reviewSeen hsnap, reviewOf, Option.filter_some, if_pos (beq_iff_eq.mpr hcommit),
              Option.map_some]
          · rw [hfetched] at hreviewed ⊢
            dsimp only at hreviewed ⊢
            rw [Bool.and_eq_true]
            refine ⟨?_, happroved⟩
            rw [Bool.or_eq_true, decide_eq_true_eq, decide_eq_true_eq]
            exact hreviewed

/-- **A poll** makes the item ready, and brings it to a level of a head, on what it fetches. -/
theorem applyPr_polled (hs : tx.db.itemState wid = some s) (hmem : s ∈ prStates)
    (hrow : tx.db.pullRequests.get? pid = some row)
    (ho : o = fetched env.settings s (decide (pr.headSha ≠ row.headSha))
    (reviewRetriggered tx.db pid pr.headSha) pr checks answers) :
    Polled o wid pid row pr tx.db (applyPr env tx wid pid row pr checks answers).db := by
  have hobserves := @applyPr_observes env o wid pid tx pr checks answers row s hs hrow ho
  by_cases hsame : pr.headSha = row.headSha
  · have hhead :
        applyNewHead env (tx.modifyPullRequest pid fun row => { row with updatedAt := env.now }) wid pid row pr =
          tx.modifyPullRequest pid fun row => { row with updatedAt := env.now } := if_pos hsame
    have hupdated :
        Observes o wid pid tx.db (tx.modifyPullRequest pid fun row => { row with updatedAt := env.now }).db := by
      refine (Observes.refl o wid pid tx.db).editRow ?_
      exact fun _ => rfl
    rw [hhead] at hobserves
    exact (hupdated.trans hobserves).polled hrow hsame
  · obtain ⟨hothers, hhead⟩ := @polledHead_rows env wid pid tx pr row hrow
    have hstays :
        Stays wid tx.db (applyNewHead env (tx.modifyPullRequest pid fun row => { row with updatedAt := env.now }) wid
        pid row pr).db := by
      have hupdated : Stays wid tx.db (tx.modifyPullRequest pid fun row => { row with updatedAt := env.now }).db :=
        .of_items rfl
      exact hupdated.trans (applyNewHead_stays row)
    -- a new head of a pull request that is merged or closed leaves the state alone
    have hstanding (hcase : pr.merged = true ∨ pr.state = "closed") :=
      ((@polledHead_standing env pr hcase tx wid pid row).2 wid).trans hs
    have hopened (hm : ¬ pr.merged = true) (hc : pr.state ≠ "closed") :=
      @polledHead_state env wid pid tx pr row s hs ⟨Bool.eq_false_iff.mpr hm, hc⟩
    refine hobserves.renewed hothers hhead hsame (fun level hl hafter => ?_) fun hready => ?_
    · rcases hobserves.level level hl hafter with hbefore | hseen
      · by_cases hm : pr.merged = true
        · have hmerge : applyPr env tx wid pid row pr checks answers = _ := if_pos hm
          rw [hmerge] at hafter
          exact absurd hafter (applyMerge_level (hstanding (Or.inl hm)) hmem _ hl)
        · by_cases hc : pr.state = "closed"
          · exact Or.inr ⟨hstays.level level hl hbefore, Or.inr ⟨Bool.eq_false_iff.mpr hm, hc⟩⟩
          · obtain ⟨item, hi, -⟩ := Option.map_eq_some_iff.mp hs
            rw [(@applyNewHead_held env tx wid pid pr item row hi hrow ⟨Bool.eq_false_iff.mpr hm, hc⟩).2,
              Option.some.injEq,
              heldLevel, hrow, Option.any_some, if_neg fun h => hsame (beq_iff_eq.mp h).symm] at hbefore
            exact absurd (hbefore ▸ hl) (reopenedLevel_not_head _)
      · exact Or.inl hseen
    · by_cases hm : pr.merged = true
      · have hmerge : applyPr env tx wid pid row pr checks answers = _ := if_pos hm
        rw [hmerge] at hready
        exact absurd hready (applyMerge_not_ready _)
      · by_cases hc : pr.state = "closed"
        · have hclosed : applyPr env tx wid pid row pr checks answers = _ := (if_neg hm).trans (if_pos hc)
          rw [hclosed] at hready
          exact absurd hready (applyClosed_not_ready (hstanding (Or.inr hc)) hmem)
        · rw [hopened hm hc, decide_eq_true hsame]
          cases s <;> decide

end Poll

end HardeningLoop
