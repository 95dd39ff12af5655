import HardeningLoop.Orchestrator.Heads

/-!
# What was seen of the heads

Along a run the polls fetch evidence of the heads that they see. A work item is ready for its human on a green verdict
and a completed review of the head it tracks, and its level is one that was reached on evidence of that head.

- `Watch`: a run, with what its polls saw;
- `exec_quiet`: a step that polls no pull request leaves alone what is known of the heads;
- `ready_seen_run`, `levels_seen_run`: which steps a run must not take for its items to stand on what was seen.
-/

namespace HardeningLoop

open Rows (Table)

/-! ## Steps that poll no pull request -/

section Quiet

variable {env : Env} {tx : Tx} {wid : Nat} {pr : PullRequestInfo} {c : Controller} {s : Sys} {a : Action}

/-- Nothing moves on, and the rows that are there are known as before. -/
structure Unseen (db db' : Db) : Prop where
  items : ∀ wid, Stays wid db db'
  rows : ∀ pid row, db.pullRequests.get? pid = some row → SameRow pid db db'

theorem Unseen.refl (db : Db) : Unseen db db := ⟨fun _ => .of_items rfl, fun pid _ _ => .refl pid db⟩

/-- A report leaves alone what is known of the rows that are there. -/
theorem pollSession_rows (sid : String) (snap : SessionSnapshot) (answers : SessionAnswers) {pid : Nat}
    {row : PullRequest} (hrow : tx.db.pullRequests.get? pid = some row) :
    SameRow pid tx.db (pollSession env wid sid snap answers tx).db := by
  have hraise (t : Tx) (k : Nat) : SameRow pid t.db (raiseLevel env t wid k .prOpened "pr_opened").db :=
    .of_pulls
      ((raiseLevel_levels env t wid k (show LifecycleLevel.prOpened ∉ headLevels by decide) _).pulls not_false) pid
  have hrecord (t : Tx) (ht : t.db.pullRequests = tx.db.pullRequests) (pr : PullRequestInfo) :
      SameRow pid tx.db (recordPr env t wid pr).db := by
    unfold recordPr
    dsimp only
    refine .trans ?_ (hraise _ _)
    split
    · simp only [SameRow, Tx.modifyItem, ht]
    · simp only [SameRow, Tx.modifyItem, Tx.insertPullRequest, ht, hrow, Table.get?_insert_of_some _ hrow]
  have hfired (t : Tx) (ht : SameRow pid tx.db t.db) (e : WorkItemEvent) (reason actor : String) :
      SameRow pid tx.db (t.wi env wid e reason actor).db := by
    refine ht.trans ?_
    rw [SameRow, Tx.wi_db]
  have hdecision (t : Tx) (ht : t.db.pullRequests = tx.db.pullRequests) (k : Nat) (item : WorkItem)
    (facts : SnapshotFacts)
      (result : Assessment) : SameRow pid tx.db (applyDecision env t wid k item snap facts result).db := by
    have hsame (t' : Tx) (ht' : t'.db.pullRequests = t.db.pullRequests) : SameRow pid tx.db t'.db := by
      rw [SameRow, ht', ht]
    unfold applyDecision
    split
    · exact hsame t rfl
    · exact hsame _ rfl
    · exact hsame _ rfl
    · have hblocked (reason : String) : SameRow pid tx.db (t.wi env wid .blocked reason "controller").db :=
        hfired t (hsame t rfl) ..
      dsimp only
      split
      · unfold postDisagreementVerdict
        split
        · exact hblocked _
        · exact hblocked _
      · exact hblocked _
    · split
      · exact hsame t rfl
      · rename_i pr _
        have hopened : SameRow pid tx.db (((recordPr env t wid pr).wi env wid .prOpened pr.url "controller").wi env wid
            .checksStarted pr.headSha "controller").db := hfired _ (hfired _ (hrecord t ht pr) ..) ..
        dsimp only
        split
        · exact hopened
        · exact hopened
  unfold pollSession
  split
  · exact .refl pid tx.db
  · split
    · exact .refl pid tx.db
    · split
      · exact hfired tx (.refl pid tx.db) ..
      · split
        · unfold applySnapshot
          refine hdecision _ ?_ ..
          rfl
        · exact .refl pid tx.db

/-- A unit that observes no pull request. -/
theorem Acts.unseen {S : Scope} {t : Tx} (h : Acts env S tx t) (hp : ¬ S.pulls)
    (hf : ∀ e ∈ [WorkItemEvent.checksGreen, .reviewCompleted], ¬ S.fires e) : Unseen tx.db t.db :=
  ⟨fun _ => h.stays hp hf, fun pid _ _ => .of_pulls (h.pulls hp) pid⟩

/-- **A step that polls no pull request** moves nothing on, and what is known of the rows stays. -/
theorem exec_quiet (ha : ∀ now k number pr checks answers, a ≠ .pollPullRequest now k number pr checks answers) :
    Unseen s.db (exec c s a).db := by
  have hrest (hS : ¬ a.scope.pulls) (hf : ∀ e ∈ [WorkItemEvent.checksGreen, .reviewCompleted], ¬ a.scope.fires e) :
      Unseen s.db (exec c s a).db := by
    have hcommits := exec_commits c s a
    generalize (exec c s a).db = db' at hcommits ⊢
    cases hcommits with
    | units hacts => exact hacts.unseen hS hf
    | evaluation hacts rid =>
      have hunseen := hacts.unseen hS hf
      exact ⟨fun wid => (hunseen.items wid).trans (.of_items rfl), hunseen.rows⟩
    | ingested hrun =>
      have hsame := ingestRun_ingested hrun
      exact ⟨fun _ => .of_items hsame.workItems, fun pid _ _ => .of_pulls (by rw [hsame.pullRequests]) pid⟩
  have hno : ∀ e ∈ [WorkItemEvent.checksGreen, .reviewCompleted], e ∈ headEvents := by decide
  have hno' : ∀ e ∈ [WorkItemEvent.checksGreen, .reviewCompleted], e ∈ .dispatchStarted :: headEvents := by decide
  cases a with
  | pollPullRequest now k number pr checks answers => exact absurd rfl (ha now k number pr checks answers)
  | pollSession now k sid snap answers =>
    have hreport : Unseen s.db (pollSession (c.env now) k sid snap answers { db := s.db }).db :=
      ⟨@pollSession_stays (c.env now) { db := s.db } k sid snap answers,
        fun _ _ hrow => pollSession_rows sid snap answers hrow⟩
    dsimp only [exec, stepFree]
    split
    · exact .refl s.db
    · split
      · exact hreport
      · exact hreport
      · exact .refl s.db
  | dispatch now labels => exact hrest not_false fun e he hfires => hfires (hno e he)
  | launch now k operator answers => exact hrest not_false fun e he hfires => hfires (hno e he)
  | _ => exact hrest not_false fun e he hfires => hfires (hno' e he)

/-- A step gives an item another pull request only by recording it. -/
theorem exec_tracks (k : Nat) : (∃ pr, recorded c s a = some (k, pr) ∧ (exec c s a).db.tracks k = some pr.number) ∨
    (exec c s a).db.tracks k = s.db.tracks k := by
  have hstep := exec_ownerStep c s a
  generalize recorded c s a = r at hstep ⊢
  cases hstep with
  | keeps h => exact Or.inr (h.tracks k)
  | @records wid pr _ env t item hitem hbefore hafter =>
    rw [hafter.tracks, tracks_recordPr hitem]
    by_cases hk : k = wid
    · subst hk
      exact Or.inl ⟨pr, rfl, if_pos rfl⟩
    · exact Or.inr ((if_neg hk).trans (hbefore.tracks k))

/-- A pull request is recorded for an item whose session runs. -/
theorem recorded_active (h : recorded c s a = some (wid, pr)) : s.db.itemState wid = some .sessionActive := by
  cases a with
  | pollSession now k sid snap answers =>
    have hpull (h : (pullOf (c.env now) s.db k sid snap answers).map (k, ·) = some (wid, pr)) :
        s.db.itemState wid = some .sessionActive := by
      obtain ⟨pr', hpr, hpair⟩ := Option.map_eq_some_iff.mp h
      obtain ⟨rfl, rfl⟩ := Prod.mk.inj hpair
      obtain ⟨item, hitem, -⟩ := Option.bind_eq_some_iff.mp hpr
      obtain ⟨hi, hruns⟩ := Option.filter_eq_some_iff.mp hitem
      simp only [WorkItem.runs, Bool.and_eq_true, decide_eq_true_eq] at hruns
      rw [Db.itemState, hi, Option.map_some, hruns.1]
    dsimp only [recorded] at h
    split at h
    · exact hpull h
    · exact hpull h
    · cases h
  | _ => cases h

end Quiet

/-! ## What the polls of a run see -/

/-- A poll that applies: the item it is made for, the row of the pull request that the item tracks, and what is
fetched. -/
structure PullPoll where
  item : Nat
  pid : Nat
  row : PullRequest
  pr : PullRequestInfo
  fetched : Fetched

/-- The poll that a step makes. -/
def pullPoll (c : Controller) (s : Sys) (a : Action) : Option PullPoll :=
  match a with
  | .pollPullRequest _ wid _ pr checks answers =>
    (polledPull c s a).bind fun polled =>
      (s.db.pullRequests.get? polled.1).bind fun row => (s.db.itemState wid).map fun state =>
        ⟨wid, polled.1, row, pr, fetched c.settings state (decide (pr.headSha ≠ row.headSha))
          (reviewRetriggered s.db polled.1 pr.headSha) pr checks answers⟩
  | _ => none

/-- What was fetched of a head. -/
structure Sight where
  number : Nat
  head : String
  fetched : Fetched
  deriving DecidableEq, Repr

def PullPoll.sight (p : PullPoll) : Sight := ⟨p.row.number, p.pr.headSha, p.fetched⟩

/-- A run of the controller, with what its polls saw. -/
structure Watch where
  sys : Sys
  seen : List Sight := []

namespace Watch

def initial : Watch := { sys := .initial }

def exec (c : Controller) (w : Watch) (a : Action) : Watch :=
  ⟨HardeningLoop.exec c w.sys a, w.seen ++ ((pullPoll c w.sys a).map PullPoll.sight).toList⟩

end Watch

/-- The row of the pull request that an item tracks. -/
def Db.TracksRow (db : Db) (wid pid : Nat) (row : PullRequest) : Prop :=
  db.pullRequests.get? pid = some row ∧ db.tracks wid = some row.number

/-- Something was seen of the head of a row. -/
def SeenOf (seen : List Sight) (row : PullRequest) (P : Fetched → Prop) : Prop :=
  ∃ sight ∈ seen, sight.number = row.number ∧ sight.head = row.headSha ∧ P sight.fetched

/-- **Ready means checked and reviewed at this head.** -/
def ReadySeen (w : Watch) : Prop :=
  ∀ wid, w.sys.db.itemState wid = some .readyForHuman → ∃ pid row, w.sys.db.TracksRow wid pid row ∧ row.Reviewed ∧
    SeenOf w.seen row fun o => o.green = true

/-- **A level of a head is about the head that is tracked.** -/
def LevelsSeen (w : Watch) : Prop :=
  ∀ wid, ∀ level ∈ headLevels, w.sys.db.level wid = some level → ∃ pid row, w.sys.db.TracksRow wid pid row ∧
    SeenOf w.seen row fun o => level ∈ o.levels

/-- No poll for one item sees a new head of the pull request with which another item waits for its human, or a review of
it that is not completed. -/
def SparesReady (c : Controller) (w : Watch) (a : Action) : Prop :=
  ∀ p, pullPoll c w.sys a = some p → ∀ wid, wid ≠ p.item → w.sys.db.itemState wid = some .readyForHuman →
    w.sys.db.tracks wid = some p.row.number →
      p.pr.headSha = p.row.headSha ∧ ∀ status ∈ p.fetched.review, status = .completed

/-- While an item is at a level of a head, no other pull request is recorded for it, and a new head of the one it tracks
is seen only by a poll for the item itself that finds it open or merged. -/
def SparesLevels (c : Controller) (w : Watch) (a : Action) : Prop :=
  ∀ wid, ∀ level ∈ headLevels, w.sys.db.level wid = some level →
    (∀ pr, recorded c w.sys a = some (wid, pr) → w.sys.db.tracks wid = some pr.number) ∧
    ∀ p, pullPoll c w.sys a = some p → w.sys.db.tracks wid = some p.row.number →
      p.pr.headSha = p.row.headSha ∨ wid = p.item ∧ ¬ (p.pr.merged = false ∧ p.pr.state = "closed")

section Runs

variable {c : Controller} {s : Sys} {a : Action} {w : Watch}

/-- What a poll is about, and what it does. -/
structure PullPoll.Applies (p : PullPoll) (db db' : Db) : Prop where
  row : db.pullRequests.get? p.pid = some p.row
  tracks : db.tracks p.item = some p.row.number
  polled : Polled p.fetched p.item p.pid p.row p.pr db db'
  others : ∀ wid, wid ≠ p.item → db'.workItems.get? wid = db.workItems.get? wid

theorem pullPoll_applies {p : PullPoll} (h : pullPoll c s a = some p) : p.Applies s.db (exec c s a).db := by
  cases a with
  | pollPullRequest now wid number pr checks answers =>
    obtain ⟨⟨pid, pr'⟩, hpolled, h⟩ := Option.bind_eq_some_iff.mp h
    obtain ⟨row, hrow, h⟩ := Option.bind_eq_some_iff.mp h
    obtain ⟨state, hstate, rfl⟩ := Option.map_eq_some_iff.mp h
    rcases exec_poll c s now wid number pr checks answers with ⟨hnone, -⟩ | ⟨pid', row', hpull, hrow', -, hdb⟩
    · rw [hnone] at hpolled
      cases hpolled
    · obtain ⟨rfl, rfl⟩ : pid' = pid ∧ pr = pr' := by
        rw [hpull, Option.some.injEq, Prod.mk.injEq] at hpolled
        exact hpolled
      cases hrow'.symm.trans hrow
      obtain ⟨hexec, hfirst, item, hi, hmem, hnumber⟩ := polledPull_poll hpull
      obtain rfl : item.state = state := by
        rw [Db.itemState, hi, Option.map_some, Option.some.injEq] at hstate
        exact hstate
      obtain ⟨row', hrow', hfound⟩ := Table.first_eq_some hfirst
      cases hrow'.symm.trans hrow
      simp only [Bool.and_eq_true, beq_iff_eq] at hfound
      constructor
      case row => exact hrow
      case tracks =>
        rw [Db.tracks, hi, Option.bind_some, hnumber, hfound.2]
      case polled =>
        rw [hdb]
        exact @applyPr_polled (c.env now) _ wid pid' { db := s.db } pr checks answers row item.state
          hstate hmem hrow rfl
      case others =>
        intro k hk
        rw [hexec]
        exact (pollPullRequest_does (c.env now) wid number pr checks answers { db := s.db }).item not_false hk
  | _ => cases h

/-- A step that makes no poll. -/
theorem pullPoll_none (h : pullPoll c s a = none) : Unseen s.db (exec c s a).db := by
  cases a with
  | pollPullRequest now wid number pr checks answers =>
    rcases exec_poll c s now wid number pr checks answers with ⟨-, hdb⟩ | ⟨pid, row, hpull, hrow, -⟩
    · rw [hdb]
      exact .refl s.db
    · obtain ⟨-, -, item, hi, -⟩ := polledPull_poll hpull
      dsimp only [pullPoll] at h
      rw [hpull, Option.bind_some, hrow, Option.bind_some, Db.itemState, hi] at h
      cases h
  | _ =>
    refine exec_quiet ?_
    intro now k number pr checks answers heq
    cases heq

/-- A step that makes a poll records no pull request. -/
theorem pullPoll_tracks {p : PullPoll} (h : pullPoll c s a = some p) (wid : Nat) :
    (exec c s a).db.tracks wid = s.db.tracks wid := by
  rcases @exec_tracks c s a wid with ⟨pr, hrecorded, -⟩ | hsame
  · cases a with
    | pollPullRequest now k number pr checks answers => cases hrecorded
    | _ => cases h
  · exact hsame

/-- An item that tracks a row goes on tracking it. -/
theorem Db.TracksRow.same {db db' : Db} {wid pid : Nat} {row : PullRequest} (h : db.TracksRow wid pid row)
    (hrows : SameRow pid db db') (htracks : db'.tracks wid = db.tracks wid) :
    ∃ row', db'.TracksRow wid pid row' ∧ row'.tracked = row.tracked := by
  obtain ⟨row', hrow', htracked⟩ := hrows.row h.1
  refine ⟨row', ⟨hrow', ?_⟩, htracked⟩
  simp only [PullRequest.tracked, Prod.mk.injEq] at htracked
  rw [htracks, h.2, htracked.2.1]

/-- There is one row of the pull request that an item tracks. -/
theorem Db.TracksRow.single {db : Db} (hr : Registered db) {wid pid pid' : Nat} {row row' : PullRequest}
    (h : db.TracksRow wid pid row) (hrow : db.pullRequests.get? pid' = some row')
    (htracks : db.tracks wid = some row'.number) :
    pid = pid' ∧ row = row' := by
  have hnumber : row.number = row'.number := Option.some.inj (h.2.symm.trans htracks)
  obtain rfl := hr.single pid pid' row row' h.1 hrow hnumber
  exact ⟨rfl, Option.some.inj (h.1.symm.trans hrow)⟩

/-- What was seen of a head stays seen. -/
theorem SeenOf.later {seen : List Sight} {row row' : PullRequest} {P : Fetched → Prop} (h : SeenOf seen row P)
    (hn : row'.number = row.number) (hhead : row'.headSha = row.headSha) (l : List Sight) :
    SeenOf (seen ++ l) row' P := by
  obtain ⟨sight, hmem, hnumber, hsha, hP⟩ := h
  exact ⟨sight, List.mem_append_left l hmem, hnumber.trans hn.symm, hsha.trans hhead.symm, hP⟩

/-- The row of a poll afterwards, which is about the head that was seen. -/
theorem PullPoll.Applies.after {p : PullPoll} {db db' : Db} (h : p.Applies db db') :
    ∃ row', db'.pullRequests.get? p.pid = some row' ∧
    row'.number = p.row.number ∧ row'.headSha = p.pr.headSha := by
  obtain ⟨row', hrow', hkey⟩ := Option.map_eq_some_iff.mp h.polled.head
  simp only [PullRequest.headKey, Prod.mk.injEq] at hkey
  exact ⟨row', hrow', hkey.2⟩

/-- **A step** leaves every item that waits for its human with what was seen of its head. -/
theorem ready_step (hr : Registered w.sys.db) (h : ReadySeen w) (hs : SparesReady c w a) : ReadySeen (w.exec c a) := by
  intro wid hafter
  have hkept {pid : Nat} {row : PullRequest} (ht : w.sys.db.TracksRow wid pid row) (hrev : row.Reviewed)
      (hseen : SeenOf w.seen row fun o => o.green = true) (hrows : SameRow pid w.sys.db (w.exec c a).sys.db)
      (htracks : (w.exec c a).sys.db.tracks wid = w.sys.db.tracks wid) :
      ∃ pid row, (w.exec c a).sys.db.TracksRow wid pid row ∧ row.Reviewed ∧
        SeenOf (w.exec c a).seen row fun o => o.green = true := by
    obtain ⟨row', ht', htracked⟩ := ht.same hrows htracks
    have hparts := htracked
    simp only [PullRequest.tracked, Prod.mk.injEq] at hparts
    exact ⟨pid, row', ht', hrev.congr htracked, hseen.later hparts.2.1 hparts.2.2.1 _⟩
  cases hp : pullPoll c w.sys a with
  | none =>
    have hunseen := pullPoll_none hp
    have hbefore := (hunseen.items wid).ready hafter
    obtain ⟨pid, row, ht, hrev, hseen⟩ := h wid hbefore
    refine hkept ht hrev hseen (hunseen.rows pid row ht.1) ?_
    rcases @exec_tracks c w.sys a wid with ⟨pr, hrecorded, -⟩ | hsame
    · cases (recorded_active hrecorded).symm.trans hbefore
    · exact hsame
  | some p =>
    have happlies := pullPoll_applies hp
    have htracks := pullPoll_tracks hp wid
    obtain ⟨row', hrow', hnumber, hhead⟩ := happlies.after
    by_cases hown : wid = p.item
    · subst hown
      rcases happlies.polled.ready hafter with ⟨hbefore, -, hrows⟩ | ⟨hgreen, row₁, hrow₁, hrev⟩
      · obtain ⟨pid, row, ht, hrev, hseen⟩ := h p.item hbefore
        obtain ⟨rfl, rfl⟩ := ht.single hr happlies.row happlies.tracks
        exact hkept ht hrev hseen hrows htracks
      · cases hrow₁.symm.trans hrow'
        refine ⟨p.pid, row', ⟨hrow', ?_⟩, hrev, p.sight, ?_, hnumber.symm, hhead.symm, hgreen⟩
        · exact htracks.trans (happlies.tracks.trans (congrArg some hnumber.symm))
        · rw [Watch.exec, hp]
          exact List.mem_append_right _ List.mem_cons_self
    · have hbefore : w.sys.db.itemState wid = some .readyForHuman := by
        rw [Db.itemState, ← happlies.others wid hown]
        exact hafter
      obtain ⟨pid, row, ht, hrev, hseen⟩ := h wid hbefore
      by_cases hpid : pid = p.pid
      · subst hpid
        obtain rfl : row = p.row := Option.some.inj (ht.1.symm.trans happlies.row)
        obtain ⟨hsame, hclean⟩ := hs p hp wid hown hbefore ht.2
        obtain ⟨row₁, hrow₁, hrev'⟩ := happlies.polled.reviewed hsame hclean hrev
        cases hrow₁.symm.trans hrow'
        refine ⟨p.pid, row', ⟨hrow', ?_⟩, hrev', hseen.later hnumber (hhead.trans hsame) _⟩
        exact htracks.trans (ht.2.trans (congrArg some hnumber.symm))
      · exact hkept ht hrev hseen (happlies.polled.others pid hpid) htracks

/-- **A step** leaves every item that is at a level of a head with what was seen of that head. -/
theorem levels_step (hr : Registered w.sys.db) (h : LevelsSeen w) (hs : SparesLevels c w a) :
    LevelsSeen (w.exec c a) := by
  intro wid level hl hafter
  have hkept {pid : Nat} {row row' : PullRequest} (ht : w.sys.db.TracksRow wid pid row)
      (hseen : SeenOf w.seen row fun o => level ∈ o.levels)
      (hrow' : (w.exec c a).sys.db.pullRequests.get? pid = some row')
      (hnumber : row'.number = row.number) (hhead : row'.headSha = row.headSha)
      (htracks : (w.exec c a).sys.db.tracks wid = w.sys.db.tracks wid) :
      ∃ pid row, (w.exec c a).sys.db.TracksRow wid pid row ∧ SeenOf (w.exec c a).seen row fun o => level ∈ o.levels :=
    ⟨pid, row', ⟨hrow', htracks.trans (ht.2.trans (congrArg some hnumber.symm))⟩, hseen.later hnumber hhead _⟩
  have hsame {pid : Nat} {row : PullRequest} (ht : w.sys.db.TracksRow wid pid row)
      (hseen : SeenOf w.seen row fun o => level ∈ o.levels) (hrows : SameRow pid w.sys.db (w.exec c a).sys.db)
      (htracks : (w.exec c a).sys.db.tracks wid = w.sys.db.tracks wid) :
      ∃ pid row, (w.exec c a).sys.db.TracksRow wid pid row ∧ SeenOf (w.exec c a).seen row fun o =>
        level ∈ o.levels := by
    obtain ⟨row', hrow', htracked⟩ := hrows.row ht.1
    simp only [PullRequest.tracked, Prod.mk.injEq] at htracked
    exact hkept ht hseen hrow' htracked.2.1 htracked.2.2.1 htracks
  cases hp : pullPoll c w.sys a with
  | none =>
    have hunseen := pullPoll_none hp
    have hbefore := (hunseen.items wid).level level hl hafter
    obtain ⟨pid, row, ht, hseen⟩ := h wid level hl hbefore
    refine hsame ht hseen (hunseen.rows pid row ht.1) ?_
    rcases @exec_tracks c w.sys a wid with ⟨pr, hrecorded, htracks⟩ | htracks
    · exact htracks.trans ((hs wid level hl hbefore).1 pr hrecorded).symm
    · exact htracks
  | some p =>
    have happlies := pullPoll_applies hp
    have htracks := pullPoll_tracks hp wid
    obtain ⟨row', hrow', hnumber, hhead⟩ := happlies.after
    by_cases hown : wid = p.item
    · subst hown
      rcases happlies.polled.level level hl hafter with hseen | ⟨hbefore, hcase⟩
      · refine ⟨p.pid, row', ⟨hrow', ?_⟩, p.sight, ?_, hnumber.symm, hhead.symm, hseen⟩
        · exact htracks.trans (happlies.tracks.trans (congrArg some hnumber.symm))
        · rw [Watch.exec, hp]
          exact List.mem_append_right _ List.mem_cons_self
      · obtain ⟨pid, row, ht, hseen⟩ := h p.item level hl hbefore
        obtain ⟨rfl, rfl⟩ := ht.single hr happlies.row happlies.tracks
        have hunchanged : p.pr.headSha = p.row.headSha := by
          rcases (hs p.item level hl hbefore).2 p hp happlies.tracks with hunchanged | ⟨-, hopen⟩
          · exact hunchanged
          · exact hcase.resolve_right hopen
        exact hkept ht hseen hrow' hnumber (hhead.trans hunchanged) htracks
    · have hbefore : w.sys.db.level wid = some level := by
        rw [Db.level, ← happlies.others wid hown]
        exact hafter
      obtain ⟨pid, row, ht, hseen⟩ := h wid level hl hbefore
      by_cases hpid : pid = p.pid
      · subst hpid
        obtain rfl : row = p.row := Option.some.inj (ht.1.symm.trans happlies.row)
        have hunchanged := ((hs wid level hl hbefore).2 p hp ht.2).resolve_right fun h => hown h.1
        exact hkept ht hseen hrow' hnumber (hhead.trans hunchanged) htracks
      · exact hsame ht hseen (happlies.polled.others pid hpid) htracks

/-- An empty database has one row of each number, and no items. -/
theorem Watch.initial_registered : Registered Watch.initial.sys.db := by
  have hinit : Reachable sampleController Sys.initial := .refl Sys.initial
  exact registered_reachable hinit

theorem Watch.initial_item (wid : Nat) : Watch.initial.sys.db.workItems.get? wid = none := Table.get?_empty wid

/-- **Ready means checked and reviewed at this head**, in every run none of whose polls sees, for one item, a new head
of the pull request with which another item waits for its human, or a review of it that is not completed. -/
theorem ready_seen_run (c : Controller) (trace : List Action)
    (h : Machine.AllSteps (Watch.exec c) (SparesReady c) .initial trace) :
    ReadySeen (Machine.run (Watch.exec c) .initial trace) := by
  have hboth : Registered (Machine.run (Watch.exec c) .initial trace).sys.db ∧
      ReadySeen (Machine.run (Watch.exec c) .initial trace) := by
    refine Machine.AllSteps.invariant (fun w : Watch => Registered w.sys.db ∧ ReadySeen w) ?_ ?_ h
    · rintro w a ⟨hr, hready⟩ hs
      exact ⟨exec_registered hr, ready_step hr hready hs⟩
    · refine ⟨Watch.initial_registered, fun wid hready => ?_⟩
      rw [Db.itemState, Watch.initial_item] at hready
      cases hready
  exact hboth.2

/-- **Evidence of a level belongs to the tracked head**, in every run that records no other pull request for an item at
such a level, and none of whose polls sees a new head of its pull request closed, or for another item. -/
theorem levels_seen_run (c : Controller) (trace : List Action)
    (h : Machine.AllSteps (Watch.exec c) (SparesLevels c) .initial trace) :
    LevelsSeen (Machine.run (Watch.exec c) .initial trace) := by
  have hboth : Registered (Machine.run (Watch.exec c) .initial trace).sys.db ∧
      LevelsSeen (Machine.run (Watch.exec c) .initial trace) := by
    refine Machine.AllSteps.invariant (fun w : Watch => Registered w.sys.db ∧ LevelsSeen w) ?_ ?_ h
    · rintro w a ⟨hr, hlevels⟩ hs
      exact ⟨exec_registered hr, levels_step hr hlevels hs⟩
    · refine ⟨Watch.initial_registered, fun wid level _ hl => ?_⟩
      rw [Db.level, Watch.initial_item] at hl
      cases hl
  exact hboth.2

end Runs

/-- The pull request of the sample gets a new head, which is checked and reviewed too. -/
def newHeadTrace : List Action :=
  sampleReady ++ samplePoll 15 (samplePull "b") sampleGreen (sampleReview .completed "b") ++
    samplePoll 16 (samplePull "b") sampleGreen (sampleReview .completed "b")

/-- Where there is one item, no other waits for its human. -/
theorem SparesReady.of_single {c : Controller} {w : Watch} {a : Action} (h : w.sys.db.workItems.size ≤ 1) :
    SparesReady c w a := by
  intro p hp wid hother hready _
  have hlt {i : Nat} {item : WorkItem} (hi : w.sys.db.workItems.get? i = some item) : i = 1 := by
    have := Table.lt_of_get? hi
    omega
  obtain ⟨item, hi, -⟩ := Option.map_eq_some_iff.mp hready
  obtain ⟨item', hi', -⟩ := Option.bind_eq_some_iff.mp (pullPoll_applies hp).tracks
  exact absurd ((hlt hi).trans (hlt hi').symm) hother

/-- Where there is one item, it stands on its evidence unless a step records another pull request or sees the new head
of a closed one. -/
theorem SparesLevels.of_single {c : Controller} {w : Watch} {a : Action} (h : w.sys.db.workItems.size ≤ 1)
    (hrecorded : recorded c w.sys a = none ∨ w.sys.db.level 1 ∉ headLevels.map some)
    (hpolled : (pullPoll c w.sys a).all (fun p => p.pr.state == "open") = true) : SparesLevels c w a := by
  intro wid level hl hlevel
  have hlt {i : Nat} {item : WorkItem} (hi : w.sys.db.workItems.get? i = some item) : i = 1 := by
    have := Table.lt_of_get? hi
    omega
  obtain ⟨item, hi, -⟩ := Option.map_eq_some_iff.mp hlevel
  obtain rfl : wid = 1 := hlt hi
  constructor
  · intro pr hpr
    rcases hrecorded with hnone | hlow
    · cases hnone.symm.trans hpr
    · exact absurd (List.mem_map.mpr ⟨level, hl, hlevel.symm⟩) hlow
  · intro p hp _
    obtain ⟨item', hi', -⟩ := Option.bind_eq_some_iff.mp (pullPoll_applies hp).tracks
    refine .inr ⟨(hlt hi').symm, ?_⟩
    rintro ⟨-, hclosed⟩
    rw [hp, Option.all_some, hclosed] at hpolled
    cases hpolled

/-- The new head is ready for its human, on what was seen of it. -/
theorem ready_seen_newHead : let w := Machine.run (Watch.exec sampleController) .initial newHeadTrace
    w.sys.db.itemState 1 = some .readyForHuman ∧ ReadySeen w := by
  intro w
  refine ⟨by decide +kernel, ready_seen_run sampleController newHeadTrace ?_⟩
  have hone : Machine.AllSteps (Watch.exec sampleController) (fun w _ => w.sys.db.workItems.size ≤ 1) .initial
      newHeadTrace := by decide +kernel
  exact hone.imp_invariant (fun _ => True) (fun _ _ _ _ => trivial) (fun _ _ _ h => .of_single h) trivial

/-- Its level is one that was reached on the new head. -/
theorem levels_seen_newHead : let w := Machine.run (Watch.exec sampleController) .initial newHeadTrace
    w.sys.db.level 1 = some .reviewCompleted ∧ LevelsSeen w := by
  intro w
  refine ⟨by decide +kernel, levels_seen_run sampleController newHeadTrace ?_⟩
  have hsingle : Machine.AllSteps (Watch.exec sampleController) (fun w a => w.sys.db.workItems.size ≤ 1 ∧
      (recorded sampleController w.sys a = none ∨ w.sys.db.level 1 ∉ headLevels.map some) ∧
      (pullPoll sampleController w.sys a).all (fun p => p.pr.state == "open") = true) .initial newHeadTrace := by
    decide +kernel
  exact hsingle.imp_invariant (fun _ => True) (fun _ _ _ _ => trivial) (fun _ _ _ h => .of_single h.1 h.2.1 h.2.2)
    trivial

end HardeningLoop
