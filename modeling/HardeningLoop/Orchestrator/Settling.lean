import HardeningLoop.Orchestrator.Raising

/-!
# Where a verification is recorded

An item may have rows of several pull requests, of earlier sessions, and a verification is recorded on the first.

- `SettleStep`: a step that merges one row at most, and verifies some items with their first rows; evaluations and polls
  of merged pull requests are such steps (`exec_settles`), and other steps settle nothing (`exec_unsettles`);
- `Sealed`: the row of a verification is one of a verified item, for that is never left (`Acts.stays_verified`);
- `recorded_run_iff`: verifications are recorded on the merged pull request through a run exactly when the first row of
  every item that is verified is the merged one it tracks, and no merged pull request is seen closed unmerged.
-/

namespace HardeningLoop

open Rows (Table)

/-! ## What a step settles -/

/-- A row at a level from a merge on is merged. -/
def LevelsMerged (db : Db) : Prop :=
  ∀ pid row, db.pullRequests.get? pid = some row → LifecycleLevel.merged.toNat ≤ row.lifecycleLevel.toNat →
    row.state = "merged"

/-- The row of a verification is one of a verified item. -/
def Sealed (db : Db) : Prop :=
  ∀ pid row, db.pullRequests.get? pid = some row → row.lifecycleLevel = .rescanVerified →
    db.itemState row.workItemId = some .verified

/-- A number that is tracked has a row, and the item of a row tracks one. -/
structure Linked (db : Db) : Prop where
  recorded : ∀ wid n, db.tracks wid = some n → ∃ pid row, db.pullRequests.get? pid = some row ∧ row.number = n
  tracking : ∀ pid row, db.pullRequests.get? pid = some row → ∃ n, db.tracks row.workItemId = some n

/-- Of the rows of an item that is verified, the one of the pull request it tracks is raised, and no other. -/
def VerifiedOn (db db' : Db) (wid : Nat) : Prop :=
  ∀ n, db.tracks wid = some n → ∀ pid row row', db.pullRequests.get? pid = some row →
    db'.pullRequests.get? pid = some row' →
    (row.workItemId = wid ∧ row.lifecycleLevel ≠ .rescanVerified ∧ row'.lifecycleLevel = .rescanVerified ↔
    row.number = n)

/-- A row after a step that may merge it and raise it. -/
structure RowStep (row row' : PullRequest) (merges raises : Prop) : Prop where
  owner : row'.owner = row.owner
  merged : merges → row'.state = "merged"
  state : ¬ merges → row'.state = row.state
  raised : raises → row'.lifecycleLevel = .rescanVerified
  level : ¬ raises → row'.lifecycleLevel = row.lifecycleLevel ∨ merges ∧ row'.lifecycleLevel = .merged

/-- A step that merges one row at most, and verifies some items with their first rows. -/
structure SettleStep (db db' : Db) (merges : Nat → Prop) (verified : Nat → Prop) : Prop where
  fresh : ∀ wid, verified wid → db.itemState wid ≠ some .verified
  there : ∀ pid row, db.pullRequests.get? pid = some row → ∃ row', db'.pullRequests.get? pid = some row'
  rows : ∀ pid row', db'.pullRequests.get? pid = some row' → ∃ row, db.pullRequests.get? pid = some row ∧
    RowStep row row' (merges pid) (∃ wid, verified wid ∧ firstPull db.pullRequests wid = some pid)

section Settle

variable {db db' : Db} {merges verified : Nat → Prop}

/-- The first row of an item that is verified is the merged one of the pull request it tracks. -/
def FirstIsOwn (db : Db) (merges : Nat → Prop) (wid : Nat) : Prop :=
  ∀ n, db.tracks wid = some n → ∃ pid row, firstPull db.pullRequests wid = some pid ∧
    db.pullRequests.get? pid = some row ∧ row.number = n ∧ (row.state = "merged" ∨ merges pid)

/-- The first row of an item that is verified was no row of a verification. -/
theorem Sealed.first (hs : Sealed db) (h : SettleStep db db' merges verified) {wid pid : Nat} (hv : verified wid)
    {row : PullRequest} (hrow : db.pullRequests.get? pid = some row) (howner : row.workItemId = wid) :
    row.lifecycleLevel ≠ .rescanVerified := by
  intro hlevel
  exact h.fresh wid hv (howner ▸ hs pid row hrow hlevel)

/-- **A verification is recorded on the merged pull request exactly when the first row of the item is that one.** -/
theorem SettleStep.recorded_iff (h : SettleStep db db' merges verified) (hr : Registered db) (hl : Linked db)
    (hs : Sealed db) (hm : LevelsMerged db) :
    (LevelsMerged db' ∧ ∀ wid, verified wid → VerifiedOn db db' wid) ↔
      ∀ wid, verified wid → FirstIsOwn db merges wid := by
  constructor
  · rintro ⟨hmerged, hon⟩ wid hv n hn
    cases hfirst : firstPull db.pullRequests wid with
    | none =>
      obtain ⟨pid, row, hrow, hnumber⟩ := hl.recorded wid n hn
      obtain ⟨row', hrow'⟩ := h.there pid row hrow
      have howner := ((hon wid hv n hn pid row row' hrow hrow').mpr hnumber).1
      have hmiss := Table.first_eq_none hfirst hrow
      rw [howner, beq_self_eq_true] at hmiss
      cases hmiss
    | some pid =>
      obtain ⟨row, hrow, howner⟩ := firstPull_owner hfirst
      obtain ⟨row', hrow'⟩ := h.there pid row hrow
      obtain ⟨row₀, hrow₀, hstep⟩ := h.rows pid row' hrow'
      cases hrow.symm.trans hrow₀
      have hraised := hstep.raised ⟨wid, hv, hfirst⟩
      have hnumber := (hon wid hv n hn pid row row' hrow hrow').mp ⟨howner, hs.first h hv hrow howner, hraised⟩
      refine ⟨pid, row, rfl, hrow, hnumber, ?_⟩
      by_cases hmerges : merges pid
      · exact Or.inr hmerges
      · refine Or.inl ((hstep.state hmerges).symm.trans (hmerged pid row' hrow' ?_))
        rw [hraised]
        decide
  · intro hfirst
    refine ⟨fun pid row' hrow' hlevel => ?_, fun wid hv n hn pid row row' hrow hrow' => ?_⟩
    · obtain ⟨row, hrow, hstep⟩ := h.rows pid row' hrow'
      by_cases hmerges : merges pid
      · exact hstep.merged hmerges
      rw [hstep.state hmerges]
      by_cases hraises : ∃ wid, verified wid ∧ firstPull db.pullRequests wid = some pid
      · obtain ⟨wid, hv, hpid⟩ := hraises
        obtain ⟨row₀, hrow₀, howner⟩ := firstPull_owner hpid
        cases hrow.symm.trans hrow₀
        obtain ⟨n, hn⟩ := hl.tracking pid row hrow
        obtain ⟨pid', row₁, hpid', hrow₁, -, hstate⟩ := hfirst wid hv n (howner ▸ hn)
        cases hpid.symm.trans hpid'
        cases hrow.symm.trans hrow₁
        exact hstate.resolve_right hmerges
      · have hsame := (hstep.level hraises).resolve_right fun hno => hmerges hno.1
        exact hm pid row hrow (hsame ▸ hlevel)
    · obtain ⟨row₀, hrow₀, hstep⟩ := h.rows pid row' hrow'
      cases hrow.symm.trans hrow₀
      obtain ⟨pid₁, row₁, hpid₁, hrow₁, hnumber₁, -⟩ := hfirst wid hv n hn
      constructor
      · rintro ⟨howner, hbefore, hafter⟩
        by_cases hraises : ∃ wid, verified wid ∧ firstPull db.pullRequests wid = some pid
        · obtain ⟨wid', -, hpid⟩ := hraises
          obtain ⟨row₂, hrow₂, howner₂⟩ := firstPull_owner hpid
          cases hrow.symm.trans hrow₂
          cases howner.symm.trans howner₂
          cases hpid.symm.trans hpid₁
          cases hrow.symm.trans hrow₁
          exact hnumber₁
        · rcases hstep.level hraises with hsame | ⟨-, hlevel⟩
          · exact absurd (hsame.symm.trans hafter) hbefore
          · rw [hlevel] at hafter
            cases hafter
      · intro hnumber
        cases hr.single pid pid₁ row row₁ hrow hrow₁ (hnumber.trans hnumber₁.symm)
        obtain ⟨row₂, hrow₂, howner⟩ := firstPull_owner hpid₁
        cases hrow.symm.trans hrow₂
        exact ⟨howner, hs.first h hv hrow howner, hstep.raised ⟨wid, hv, hpid₁⟩⟩

/-- A row of a verification afterwards was one, or its item is verified by the step. -/
theorem SettleStep.sealed (h : SettleStep db db' merges verified) (hs : Sealed db)
    (hstays : ∀ wid, db.itemState wid = some .verified → db'.itemState wid = some .verified)
    (hverified : ∀ wid, verified wid → db'.itemState wid = some .verified) : Sealed db' := by
  intro pid row' hrow' hlevel
  obtain ⟨row, hrow, hstep⟩ := h.rows pid row' hrow'
  have howner : row'.workItemId = row.workItemId := congrArg Prod.fst hstep.owner
  rw [howner]
  by_cases hraises : ∃ wid, verified wid ∧ firstPull db.pullRequests wid = some pid
  · obtain ⟨wid, hv, hpid⟩ := hraises
    obtain ⟨row₀, hrow₀, howner₀⟩ := firstPull_owner hpid
    cases hrow.symm.trans hrow₀
    rw [howner₀]
    exact hverified wid hv
  · rcases hstep.level hraises with hsame | ⟨-, hmerged⟩
    · exact hstays _ (hs pid row hrow (hsame ▸ hlevel))
    · rw [hmerged] at hlevel
      cases hlevel

end Settle

/-! ## Evaluations and polls settle -/

/-- The step verifies the item. -/
def Newly (db db' : Db) (wid : Nat) : Prop := db.itemState wid ≠ some .verified ∧ db'.itemState wid = some .verified

theorem SettleStep.idle (db : Db) (merges : Nat → Prop) (hm : ∀ pid, ¬ merges pid) :
    SettleStep db db merges (Newly db db) := by
  refine ⟨fun _ h => h.1, fun pid row hrow => ⟨row, hrow⟩, fun pid row hrow =>
    ⟨row, hrow, rfl, fun h => absurd h (hm pid),
    fun _ => rfl, ?_, fun _ => Or.inl rfl⟩⟩
  rintro ⟨wid, hnew, -⟩
  exact absurd hnew.2 hnew.1

theorem raised_verified (row : PullRequest) : (row.raised .rescanVerified).lifecycleLevel = .rescanVerified := by
  unfold PullRequest.raised
  split
  · rfl
  · rename_i hno
    revert hno
    cases row.lifecycleLevel <;> decide

theorem raised_standing (level : LifecycleLevel) (row : PullRequest) :
    (row.raised level).owner = row.owner ∧ (row.raised level).state = row.state := by
  unfold PullRequest.raised
  split <;> exact ⟨rfl, rfl⟩

section Steps

variable {env : Env} {cmp : Compare} {tx : Tx}

/-- An evaluation merges nothing. -/
theorem applyScanRun_settles (rid : Nat) :
    SettleStep tx.db (applyScanRun env cmp rid tx).db (fun _ => False)
    (Newly tx.db (applyScanRun env cmp rid tx).db) := by
  by_cases howed : ∃ ev, tx.db.evidence rid = some ev ∧ ev.run.closureAppliedAt = none
  · obtain ⟨ev, hev, hnone⟩ := howed
    have hpulls := @applyScanRun_pulls env cmp ev tx rid hev hnone
    have hnewly (wid : Nat) : Newly tx.db (applyScanRun env cmp rid tx).db wid ↔ verifies env cmp tx.db ev wid := by
      constructor
      · exact fun h => (applyScanRun_verified hev hnone h.1).mp h.2
      · intro h
        have hnot : tx.db.itemState wid ≠ some .verified := by
          obtain ⟨item, hi, hst, -⟩ := h
          rw [Db.itemState, hi, Option.map_some]
          intro hv
          rw [Option.some.inj hv] at hst
          exact absurd hst (by decide)
        exact ⟨hnot, (applyScanRun_verified hev hnone hnot).mpr h⟩
    have hrow (pid : Nat) := @closeItems_pull env cmp ev tx pid
    refine ⟨fun _ h => h.1, fun pid row hrow₀ => ?_, fun pid row' hrow' => ?_⟩
    · rw [hpulls]
      by_cases hraises : ∃ wid, firstPull tx.db.pullRequests wid = some pid ∧ verifies env cmp tx.db ev wid
      · obtain ⟨wid, hpid, hv⟩ := hraises
        rw [(hrow pid).1 wid hpid hv, hrow₀]
        exact ⟨_, rfl⟩
      · rw [(hrow pid).2 fun wid hpid hv => hraises ⟨wid, hpid, hv⟩]
        exact ⟨row, hrow₀⟩
    · rw [hpulls] at hrow'
      by_cases hraises : ∃ wid, firstPull tx.db.pullRequests wid = some pid ∧ verifies env cmp tx.db ev wid
      · obtain ⟨wid, hpid, hv⟩ := hraises
        rw [(hrow pid).1 wid hpid hv] at hrow'
        obtain ⟨row, hrow₀, rfl⟩ := Option.map_eq_some_iff.mp hrow'
        refine ⟨row, hrow₀, (raised_standing _ row).1, False.elim, fun _ => (raised_standing _ row).2,
          fun _ => raised_verified row, fun hno => ?_⟩
        exact absurd ⟨wid, (hnewly wid).mpr hv, hpid⟩ hno
      · rw [(hrow pid).2 fun wid hpid hv => hraises ⟨wid, hpid, hv⟩] at hrow'
        refine ⟨row', hrow', rfl, False.elim, fun _ => rfl, ?_, fun _ => Or.inl rfl⟩
        rintro ⟨wid, hnew, hpid⟩
        exact absurd ⟨wid, hpid, (hnewly wid).mp hnew⟩ hraises
  · have hidle : applyScanRun env cmp rid tx = tx := by
      refine applyScanRun_idle fun ev hev => ?_
      rw [Option.isSome_iff_ne_none]
      exact fun hnone => howed ⟨ev, hev, hnone⟩
    rw [hidle]
    exact .idle _ _ fun _ => id

/-- The row that a poll is about: of the number that the item tracks. -/
def polledRow (env : Env) (db : Db) (wid number : Nat) : Option Nat :=
  ((db.workItems.get? wid).filter fun w => w.state ∈ prStates && w.prNumber = some number).bind fun _ =>
    db.pullRequests.first fun row => row.repo == env.settings.repo && row.number == number

/-- A poll of a row, or nothing. -/
theorem pollPullRequest_polled (wid number : Nat) (pr : PullRequestInfo) (checks : List CheckRun) (answers : PrAnswers)
    (tx : Tx) : match polledRow env tx.db wid number with
    | none => pollPullRequest env wid number pr checks answers tx = tx
    | some pid => ∃ row, tx.db.pullRequests.get? pid = some row ∧
        pollPullRequest env wid number pr checks answers tx = applyPr env tx wid pid row pr checks answers := by
  unfold pollPullRequest polledRow
  cases hi : tx.db.workItems.get? wid with
  | none => rfl
  | some item =>
    have hguard : (decide (item.state ∉ prStates) || decide (item.prNumber ≠ some number)) =
        !(decide (item.state ∈ prStates) && decide (item.prNumber = some number)) := by
      simp only [Bool.not_and, ne_eq, decide_not]
    rw [Option.filter_some]
    dsimp only
    rw [hguard]
    cases decide (item.state ∈ prStates) && decide (item.prNumber = some number) with
    | false => rfl
    | true =>
      rw [if_pos rfl, if_neg nofun, Option.bind_some]
      cases hfirst : tx.db.pullRequests.first fun row => row.repo == env.settings.repo && row.number == number with
      | none => rfl
      | some pid =>
        obtain ⟨row, hrow, -⟩ := Table.first_eq_some hfirst
        dsimp only
        rw [hrow]
        exact ⟨row, rfl, rfl⟩

/-- What a row says of whose it is and what became of it. -/
def PullRequest.standing (row : PullRequest) : (Nat × String × Nat) × String × LifecycleLevel :=
  (row.owner, row.outcome)

/-- Without a new head to verify a poll leaves the items and the standing of the rows alone. -/
theorem polledHead_standing {pr : PullRequestInfo} (h : pr.merged = true ∨ pr.state = "closed") (tx : Tx)
    (wid pid : Nat) (row : PullRequest) :
    (applyNewHead env (tx.modifyPullRequest pid fun row => { row with updatedAt := env.now }) wid pid row
        pr).db.pullRequests.map PullRequest.standing = tx.db.pullRequests.map PullRequest.standing ∧
      ∀ w, (applyNewHead env (tx.modifyPullRequest pid fun row => { row with updatedAt := env.now }) wid pid row
        pr).db.itemState w = tx.db.itemState w := by
  have hupdated : (tx.modifyPullRequest pid fun row => { row with updatedAt := env.now }).db.pullRequests.map
      PullRequest.standing = tx.db.pullRequests.map PullRequest.standing := by
    refine Table.map_modify_of_eq ?_
    exact fun _ => rfl
  have hno : (!pr.merged && decide (pr.state ≠ "closed")) = false := by
    rcases h with h | h
    · rw [h]
      rfl
    · rw [h, decide_eq_false (fun hne => hne rfl), Bool.and_false]
  unfold applyNewHead
  split
  · exact ⟨hupdated, fun _ => rfl⟩
  · dsimp only
    rw [hno, if_neg nofun]
    constructor
    · refine (Table.map_modify_of_eq ?_).trans hupdated
      exact fun _ => rfl
    · intro w
      simp only [Db.itemState, Tx.modifyItem, Tx.modifyPullRequest, Tx.event, Table.get?_modify]
      split
      · rw [Option.map_map]
        rfl
      · rfl

theorem firstPull_standing {rows rows' : Table PullRequest}
    (h : rows.map PullRequest.standing = rows'.map PullRequest.standing)
    (wid : Nat) : firstPull rows wid = firstPull rows' wid := by
  have hmap (rows : Table PullRequest) :
      firstPull rows wid = (rows.map PullRequest.standing).first fun standing => standing.1.1 == wid :=
    (Table.first_map rows PullRequest.standing fun standing => standing.1.1 == wid).symm
  rw [hmap, hmap, h]

/-- A row has the same standing in both tables. -/
theorem row_standing {rows rows' : Table PullRequest}
    (h : rows.map PullRequest.standing = rows'.map PullRequest.standing)
    {pid : Nat} {row : PullRequest} (hrow : rows.get? pid = some row) :
    ∃ row', rows'.get? pid = some row' ∧ row.owner = row'.owner ∧ row.state = row'.state ∧
      row.lifecycleLevel = row'.lifecycleLevel := by
  have hmap := congrArg (fun table => table.get? pid) h
  simp only [Table.get?_map, hrow, Option.map_some] at hmap
  obtain ⟨row', hrow', hstanding⟩ := Option.map_eq_some_iff.mp hmap.symm
  simp only [PullRequest.standing, PullRequest.outcome, Prod.mk.injEq] at hstanding
  exact ⟨row', hrow', hstanding.1.symm, hstanding.2.1.symm, hstanding.2.2.symm⟩

/-- A step of one item that merges one row, and verifies the item with its first row or does not. -/
theorem SettleStep.of_merge {db db' : Db} {rows : Table PullRequest} {wid pid : Nat} {g : PullRequest → PullRequest}
    (hstanding : rows.map PullRequest.standing = db.pullRequests.map PullRequest.standing)
    (hg : ∀ row, (g row).owner = row.owner ∧ (g row).state = "merged" ∧
      ((g row).lifecycleLevel = row.lifecycleLevel ∨ (g row).lifecycleLevel = .merged))
    (hnot : db.itemState wid ≠ some .verified) (hothers : ∀ w, w ≠ wid → db'.itemState w = db.itemState w)
    (h : db'.itemState wid ≠ some .verified ∧ db'.pullRequests = rows.modify pid g ∨
      db'.itemState wid = some .verified ∧ db'.pullRequests = verifiedPulls (rows.modify pid g) wid) :
    SettleStep db db' (· = pid) (Newly db db') := by
  have hnewly {w : Nat} (hw : Newly db db' w) : w = wid := by
    by_contra hne
    exact hw.1 ((hothers w hne).symm.trans hw.2)
  have hfirst : firstPull (rows.modify pid g) wid = firstPull db.pullRequests wid := by
    rw [← firstPull_standing hstanding]
    refine Table.first_modify _ fun row => ?_
    rw [show (g row).workItemId = row.workItemId from congrArg Prod.fst (hg row).1]
  -- the rows before the item's first one is raised
  have hmerged {p : Nat} {row' : PullRequest} (hrow' : (rows.modify pid g).get? p = some row') :
      ∃ row, db.pullRequests.get? p = some row ∧ row'.owner = row.owner ∧ (p = pid → row'.state = "merged") ∧
        (p ≠ pid → row'.state = row.state) ∧
        (row'.lifecycleLevel = row.lifecycleLevel ∨ p = pid ∧ row'.lifecycleLevel = .merged) := by
    rw [Table.get?_modify] at hrow'
    split at hrow'
    · rename_i hp
      obtain ⟨row₁, hrow₁, rfl⟩ := Option.map_eq_some_iff.mp hrow'
      obtain ⟨row, hrow, howner, hstate, hlevel⟩ := row_standing hstanding hrow₁
      refine ⟨row, hrow, (hg row₁).1.trans howner, fun _ => (hg row₁).2.1, fun hne => absurd hp hne, ?_⟩
      exact (hg row₁).2.2.imp (·.trans hlevel) fun h => ⟨hp, h⟩
    · rename_i hp
      obtain ⟨row, hrow, howner, hstate, hlevel⟩ := row_standing hstanding hrow'
      exact ⟨row, hrow, howner, fun h => absurd h hp, fun _ => hstate, Or.inl hlevel⟩
  have hthere {p : Nat} {row : PullRequest} (hrow : db.pullRequests.get? p = some row) :
      ∃ row', (rows.modify pid g).get? p = some row' := by
    obtain ⟨row₁, hrow₁, -⟩ := row_standing hstanding.symm hrow
    rw [Table.get?_modify, hrow₁]
    split <;> exact ⟨_, rfl⟩
  rcases h with ⟨hno, hpulls⟩ | ⟨hverified, hpulls⟩
  · refine ⟨fun _ h => h.1, fun p row hrow => hpulls ▸ hthere hrow, fun p row' hrow' => ?_⟩
    obtain ⟨row, hrow, howner, hm, hs, hlevel⟩ := hmerged (hpulls ▸ hrow')
    refine ⟨row, hrow, howner, hm, hs, ?_, fun _ => hlevel⟩
    rintro ⟨w, hw, -⟩
    cases hnewly hw
    exact absurd hw.2 hno
  · refine ⟨fun _ h => h.1, fun p row hrow => ?_, fun p row' hrow' => ?_⟩
    · obtain ⟨row₁, hrow₁⟩ := hthere hrow
      rw [hpulls, get?_verifiedPulls, hrow₁]
      split <;> exact ⟨_, rfl⟩
    · rw [hpulls, get?_verifiedPulls, hfirst] at hrow'
      split at hrow'
      · rename_i hp
        obtain ⟨row₁, hrow₁, rfl⟩ := Option.map_eq_some_iff.mp hrow'
        obtain ⟨row, hrow, howner, hm, hs, -⟩ := hmerged hrow₁
        obtain ⟨hsame, hstate⟩ := raised_standing .rescanVerified row₁
        refine ⟨row, hrow, hsame.trans howner, fun h => hstate.trans (hm h), fun h => hstate.trans (hs h),
          fun _ => raised_verified row₁, fun hno => ?_⟩
        exact absurd ⟨wid, ⟨hnot, hverified⟩, hp⟩ hno
      · rename_i hp
        obtain ⟨row, hrow, howner, hm, hs, hlevel⟩ := hmerged hrow'
        refine ⟨row, hrow, howner, hm, hs, ?_, fun _ => hlevel⟩
        rintro ⟨w, hw, hfirst'⟩
        cases hnewly hw
        exact absurd hfirst' hp

/-- What no unit but a settling one does: raise a row to a level from a merge on, or write the state of such a row. -/
theorem Acts.unsettled {S : Scope} (hs : ¬ S.deeds .settle) {t : Tx} (h : Acts env S tx t) {pid : Nat}
    {row' : PullRequest} (hrow' : t.db.pullRequests.get? pid = some row') :
    row'.lifecycleLevel.toNat < LifecycleLevel.merged.toNat ∨ ∃ row, tx.db.pullRequests.get? pid = some row ∧
      row'.state = row.state ∧ row'.lifecycleLevel.toNat ≤ row.lifecycleLevel.toNat := by
  induction h generalizing row' with
  | refl => exact Or.inr ⟨row', hrow', rfl, Nat.le_refl _⟩
  | quiet _ hq ih =>
    have hmap := congrArg (fun table => table.get? pid) hq.outcomes
    simp only [Table.get?_map, hrow', Option.map_some] at hmap
    obtain ⟨row₁, hrow₁, houtcome⟩ := Option.map_eq_some_iff.mp hmap.symm
    simp only [PullRequest.outcome, Prod.mk.injEq] at houtcome
    rw [← houtcome.1, ← houtcome.2]
    exact ih hrow₁
  | editItem _ _ _ ih => exact ih hrow'
  | @editPull t _ p f _ hedit _ ih =>
    simp only [Tx.modifyPullRequest, Table.get?_modify] at hrow'
    split at hrow'
    · obtain ⟨row₁, hrow₁, rfl⟩ := Option.map_eq_some_iff.mp hrow'
      obtain ⟨hstate, hlevel⟩ := hedit.resolve_left hs row₁
      rcases hlevel with hlevel | hlevel
      · rcases ih hrow₁ with hlow | ⟨row, hrow, hstate₁, hlevel₁⟩
        · exact Or.inl (Nat.lt_of_le_of_lt hlevel hlow)
        · exact Or.inr ⟨row, hrow, hstate.trans hstate₁, Nat.le_trans hlevel hlevel₁⟩
      · exact Or.inl hlevel
    · exact ih hrow'
  | @insertPull t _ _ _ row hnew ih =>
    simp only [Tx.insertPullRequest, Table.get?_insert] at hrow'
    split at hrow'
    · cases hrow'
      rw [hnew.level]
      exact Or.inl (by decide)
    · exact ih hrow'
  | insertItem _ _ _ ih => exact ih hrow'
  | wi _ _ _ reason actor ih =>
    rw [Tx.wi_db] at hrow'
    exact ih hrow'
  | findingFrom _ _ _ _ _ _ _ ih =>
    rw [Tx.findingFrom_db] at hrow'
    exact ih hrow'
  | own _ _ _ ih => exact ih hrow'

/-- How rows follow that no step settles. -/
def Unsettles (db db' : Db) : Prop :=
  ∀ pid row', db'.pullRequests.get? pid = some row' → row'.lifecycleLevel.toNat < LifecycleLevel.merged.toNat ∨
    ∃ row, db.pullRequests.get? pid = some row ∧ row'.state = row.state ∧ row'.workItemId = row.workItemId ∧
      row'.lifecycleLevel.toNat ≤ row.lifecycleLevel.toNat

theorem Unsettles.refl (db : Db) : Unsettles db db := fun _ row' hrow' => Or.inr ⟨row', hrow', rfl, rfl, Nat.le_refl _⟩

theorem Unsettles.levelsMerged {db db' : Db} (h : Unsettles db db') (hm : LevelsMerged db) : LevelsMerged db' := by
  intro pid row' hrow' hlevel
  rcases h pid row' hrow' with hlow | ⟨row, hrow, hstate, -, hle⟩
  · exact absurd hlevel (Nat.not_le_of_lt hlow)
  · rw [hstate]
    exact hm pid row hrow (Nat.le_trans hlevel hle)

theorem eq_rescanVerified {level : LifecycleLevel} (h : LifecycleLevel.rescanVerified.toNat ≤ level.toNat) :
    level = .rescanVerified := by
  revert h
  cases level <;> decide

/-- A row that reaches no new level of a verification. -/
theorem Sealed.keeps {db db' : Db} (hs : Sealed db)
    (hstays : ∀ wid, db.itemState wid = some .verified → db'.itemState wid = some .verified)
    (hrows : ∀ pid row', db'.pullRequests.get? pid = some row' → row'.lifecycleLevel = .rescanVerified →
      ∃ row, db.pullRequests.get? pid = some row ∧ row'.workItemId = row.workItemId ∧
      row.lifecycleLevel = .rescanVerified) :
    Sealed db' := by
  intro pid row' hrow' hlevel
  obtain ⟨row, hrow, howner, hbefore⟩ := hrows pid row' hrow' hlevel
  rw [howner]
  exact hstays _ (hs pid row hrow hbefore)

theorem Unsettles.sealed {db db' : Db} (h : Unsettles db db') (hs : Sealed db)
    (hstays : ∀ wid, db.itemState wid = some .verified → db'.itemState wid = some .verified) : Sealed db' := by
  refine hs.keeps hstays fun pid row' hrow' hlevel => ?_
  rcases h pid row' hrow' with hlow | ⟨row, hrow, -, howner, hle⟩
  · rw [hlevel] at hlow
    exact absurd hlow (by decide)
  · rw [hlevel] at hle
    exact ⟨row, hrow, howner, eq_rescanVerified hle⟩

/-! ## The branches of a poll -/

section Branches

variable {wid pid : Nat} {row : PullRequest} {pr : PullRequestInfo} {checks : List CheckRun} {answers : PrAnswers}

/-- The poll of a pull request that is open. -/
theorem applyPr_unsettles (hm : pr.merged = false) (hc : pr.state ≠ "closed") :
    Unsettles tx.db (applyPr env tx wid pid row pr checks answers).db := by
  have hacts := applyPr_open env hm hc tx wid pid row checks answers
  intro p row' hrow'
  rcases hacts.unsettled (show Deed.settle ≠ .retry by decide) hrow' with hlow | ⟨row₀, hrow₀, hstate, hle⟩
  · exact Or.inl hlow
  · obtain ⟨row₁, hrow₁, howner⟩ := (hacts.sameOwners (show Deed.record ≠ .retry by decide)).row hrow'
    cases hrow₀.symm.trans hrow₁
    exact Or.inr ⟨row₀, hrow₀, hstate, (congrArg Prod.fst howner).symm, hle⟩

/-- The poll of a pull request that is merged. -/
theorem applyPr_settles (hm : pr.merged = true) (hnot : tx.db.itemState wid ≠ some .verified) :
    SettleStep tx.db (applyPr env tx wid pid row pr checks answers).db (· = pid)
      (Newly tx.db (applyPr env tx wid pid row pr checks answers).db) := by
  obtain ⟨hstanding, hitems⟩ := @polledHead_standing env pr (Or.inl hm) tx wid pid row
  have happly : applyPr env tx wid pid row pr checks answers =
      applyMerge env
        (applyNewHead env (tx.modifyPullRequest pid fun row => { row with updatedAt := env.now }) wid pid row pr)
        wid pid pr answers.compare := by
    unfold applyPr
    exact if_pos hm
  rw [happly]
  generalize applyNewHead env (tx.modifyPullRequest pid fun row => { row with updatedAt := env.now })
    wid pid row pr = t at hstanding hitems
  have hothers (w : Nat) (hw : w ≠ wid) :
      (applyMerge env t wid pid pr answers.compare).db.itemState w = tx.db.itemState w := by
    rw [← hitems w, Db.itemState, Db.itemState,
      (applyMerge_does env t wid pid pr answers.compare).item (S := .closing wid fun _ => True) not_false hw]
  have hraised (row : PullRequest) : ((row.mergedAs env pr).raised .merged).owner = row.owner ∧
      ((row.mergedAs env pr).raised .merged).state = "merged" ∧
      (((row.mergedAs env pr).raised .merged).lifecycleLevel = row.lifecycleLevel ∨
        ((row.mergedAs env pr).raised .merged).lifecycleLevel = .merged) := by
    obtain ⟨howner, hstate⟩ := raised_standing .merged (row.mergedAs env pr)
    refine ⟨howner, hstate, ?_⟩
    unfold PullRequest.raised
    split
    · exact Or.inr rfl
    · exact Or.inl rfl
  have hbefore : t.db.itemState wid ≠ some .verified := fun h => hnot ((hitems wid).symm.trans h)
  rcases @applyMerge_pulls env answers.compare t wid pid pr hbefore with ⟨hno, hpulls | hpulls⟩ | ⟨hverified, hpulls⟩
  · have hsame (row : PullRequest) : (row.mergedAs env pr).owner = row.owner ∧ (row.mergedAs env pr).state = "merged" ∧
        ((row.mergedAs env pr).lifecycleLevel = row.lifecycleLevel ∨ (row.mergedAs env pr).lifecycleLevel = .merged) :=
      ⟨rfl, rfl, Or.inl rfl⟩
    exact .of_merge hstanding hsame hnot hothers (Or.inl ⟨hno, hpulls⟩)
  · rw [Table.modify_modify] at hpulls
    exact .of_merge hstanding hraised hnot hothers (Or.inl ⟨hno, hpulls⟩)
  · rw [Table.modify_modify] at hpulls
    exact .of_merge hstanding hraised hnot hothers (Or.inr ⟨hverified, hpulls⟩)

/-- The rows after the poll of a pull request that was closed without a merge. -/
theorem applyPr_closed (hm : pr.merged = false) (hc : pr.state = "closed") : ∃ rows : Table PullRequest,
    rows.map PullRequest.standing = tx.db.pullRequests.map PullRequest.standing ∧
      (applyPr env tx wid pid row pr checks answers).db.pullRequests = rows.modify pid fun row =>
      { row with state := "closed" } := by
  refine ⟨_, (@polledHead_standing env pr (Or.inr hc) tx wid pid row).1, ?_⟩
  unfold applyPr
  dsimp only
  rw [hm, if_neg nofun, if_pos hc]
  split
  · rfl
  · exact pulls_wi ..

theorem applyPr_closed_row (hm : pr.merged = false) (hc : pr.state = "closed") {p : Nat} {row' : PullRequest}
    (hrow' : (applyPr env tx wid pid row pr checks answers).db.pullRequests.get? p = some row') :
    ∃ row₀, tx.db.pullRequests.get? p = some row₀ ∧ row'.workItemId = row₀.workItemId ∧
      row'.lifecycleLevel = row₀.lifecycleLevel ∧ row'.state = if p = pid then "closed" else row₀.state := by
  obtain ⟨rows, hstanding, hrows⟩ := @applyPr_closed env tx wid pid row pr checks answers hm hc
  rw [hrows, Table.get?_modify] at hrow'
  split at hrow'
  · rename_i hp
    obtain ⟨row₁, hrow₁, rfl⟩ := Option.map_eq_some_iff.mp hrow'
    obtain ⟨row₀, hrow₀, howner, -, hlevel⟩ := row_standing hstanding hrow₁
    exact ⟨row₀, hrow₀, congrArg Prod.fst howner, hlevel, (if_pos hp).symm⟩
  · rename_i hp
    obtain ⟨row₀, hrow₀, howner, hstate, hlevel⟩ := row_standing hstanding hrow'
    exact ⟨row₀, hrow₀, congrArg Prod.fst howner, hlevel, hstate.trans (if_neg hp).symm⟩

theorem applyPr_closed_there (hm : pr.merged = false) (hc : pr.state = "closed") {p : Nat} {row₀ : PullRequest}
    (hrow : tx.db.pullRequests.get? p = some row₀) :
    ∃ row', (applyPr env tx wid pid row pr checks answers).db.pullRequests.get? p = some row' := by
  obtain ⟨rows, hstanding, hrows⟩ := @applyPr_closed env tx wid pid row pr checks answers hm hc
  obtain ⟨row₁, hrow₁, -⟩ := row_standing hstanding.symm hrow
  rw [hrows, Table.get?_modify, hrow₁]
  split <;> exact ⟨_, rfl⟩

end Branches

end Steps

/-! ## Runs -/

section Runs

variable {c : Controller} {s : Sys} {a : Action}

/-- The step closes work items. -/
def Action.closes : Action → Bool
  | .applyRun .. => true
  | .pollPullRequest _ _ _ pr _ _ => pr.merged
  | _ => false

/-- The row a step polls, and what it is told of the pull request. -/
def polledPull (c : Controller) (s : Sys) : Action → Option (Nat × PullRequestInfo)
  | .pollPullRequest now wid number pr _ _ =>
    match s.flight, s.phase with
    | none, .polling => (polledRow (c.env now) s.db wid number).map (·, pr)
    | _, _ => none
  | _ => none

/-- The step is told that the pull request of the row is merged. -/
def Merges (c : Controller) (s : Sys) (a : Action) (pid : Nat) : Prop :=
  ∃ pr, polledPull c s a = some (pid, pr) ∧ pr.merged = true

/-- The step closes the item as verified. -/
def Verifies (c : Controller) (s : Sys) (a : Action) (wid : Nat) : Prop :=
  a.closes = true ∧ Newly s.db (exec c s a).db wid

/-- A poll of a row, or nothing. -/
theorem exec_poll (c : Controller) (s : Sys) (now : DateTime) (wid number : Nat) (pr : PullRequestInfo)
    (checks : List CheckRun) (answers : PrAnswers) :
    let a := Action.pollPullRequest now wid number pr checks answers
    (polledPull c s a = none ∧ (exec c s a).db = s.db) ∨ ∃ pid row, polledPull c s a = some (pid, pr) ∧
      s.db.pullRequests.get? pid = some row ∧ s.db.itemState wid ≠ some .verified ∧
      (exec c s a).db = (applyPr (c.env now) { db := s.db } wid pid row pr checks answers).db := by
  dsimp only [exec, stepFree, polledPull]
  cases s.flight with
  | some flight => exact Or.inl ⟨rfl, rfl⟩
  | none =>
    cases s.phase with
    | polling =>
      have hpoll := @pollPullRequest_polled (c.env now) wid number pr checks answers { db := s.db }
      cases hrow : polledRow (c.env now) s.db wid number with
      | none =>
        rw [hrow] at hpoll
        exact Or.inl ⟨rfl, congrArg Tx.db hpoll⟩
      | some pid =>
        rw [hrow] at hpoll
        obtain ⟨row, hget, heq⟩ := hpoll
        refine Or.inr ⟨pid, row, rfl, hget, ?_, congrArg Tx.db heq⟩
        obtain ⟨item, hitem, -⟩ := Option.bind_eq_some_iff.mp hrow
        obtain ⟨hi, hstates⟩ := Option.filter_eq_some_iff.mp hitem
        simp only [Bool.and_eq_true, decide_eq_true_eq] at hstates
        intro hverified
        rw [Db.itemState, hi, Option.map_some, Option.some.injEq] at hverified
        rw [hverified] at hstates
        exact absurd hstates.1 (by decide)
    | _ => exact Or.inl ⟨rfl, rfl⟩

/-- A poll closes work items when it is told of a merge. -/
theorem polledPull_closes {pid : Nat} {pr : PullRequestInfo} (h : polledPull c s a = some (pid, pr)) :
    a.closes = pr.merged := by
  cases a with
  | pollPullRequest now wid number pr' checks answers =>
    rcases exec_poll c s now wid number pr' checks answers with ⟨hnone, -⟩ | ⟨pid', row, hpull, -⟩
    · rw [hnone] at h
      cases h
    · cases hpull.symm.trans h
      rfl
  | _ => cases h

/-- A step that closes work items settles. -/
theorem exec_settles (ha : a.closes = true) :
    SettleStep s.db (exec c s a).db (Merges c s a) (Newly s.db (exec c s a).db) := by
  cases a with
  | applyRun now compare =>
    have hmerges (pid : Nat) : ¬ Merges c s (.applyRun now compare) pid := by
      rintro ⟨pr, hpr, -⟩
      cases hpr
    have hnone : Merges c s (.applyRun now compare) = fun _ => False :=
      funext fun pid => propext ⟨hmerges pid, False.elim⟩
    dsimp only [exec, stepFree]
    split
    · exact .idle _ _ hmerges
    · split
      · rw [hnone]
        exact @applyScanRun_settles (c.env now) compare { db := s.db } _
      · exact .idle _ _ hmerges
  | pollPullRequest now wid number pr checks answers =>
    rcases exec_poll c s now wid number pr checks answers with ⟨hnone, hdb⟩ | ⟨pid, row, hpull, -, hnot, hdb⟩
    · rw [hdb]
      refine .idle _ _ ?_
      rintro pid ⟨pr', hpr', -⟩
      rw [hnone] at hpr'
      cases hpr'
    · have hmerges : Merges c s (.pollPullRequest now wid number pr checks answers) = (· = pid) := by
        refine funext fun p => propext ⟨?_, ?_⟩
        · rintro ⟨pr', hpr', -⟩
          cases hpull.symm.trans hpr'
          rfl
        · rintro rfl
          exact ⟨pr, hpull, ha⟩
      rw [hmerges, hdb]
      exact @applyPr_settles (c.env now) { db := s.db } wid pid row pr checks answers ha hnot
  | _ => cases ha

theorem Commits.unsettles {S : Scope} {db db' : Db} (h : Commits c S db db') (hs : ¬ S.deeds .settle)
    (howners : ∀ pid row', db'.pullRequests.get? pid = some row' → ∀ row, db.pullRequests.get? pid = some row →
      row'.workItemId = row.workItemId) : Unsettles db db' := by
  have hacts {env : Env} {tx : Tx} (h : Acts env S { db := db } tx) (hpulls : tx.db.pullRequests = db'.pullRequests) :
      Unsettles db db' := by
    intro pid row' hrow'
    rcases h.unsettled hs (hpulls ▸ hrow') with hlow | ⟨row, hrow, hstate, hle⟩
    · exact Or.inl hlow
    · exact Or.inr ⟨row, hrow, hstate, howners pid row' hrow' row hrow, hle⟩
  cases h with
  | units h => exact hacts h rfl
  | evaluation h rid => exact hacts h rfl
  | ingested h =>
    intro pid row' hrow'
    rw [(ingestRun_ingested h).pullRequests] at hrow'
    exact Or.inr ⟨row', hrow', rfl, rfl, Nat.le_refl _⟩

/-- A row keeps its item. -/
theorem exec_keeps_owner {pid : Nat} {row row' : PullRequest} (hrow : s.db.pullRequests.get? pid = some row)
    (hrow' : (exec c s a).db.pullRequests.get? pid = some row') : row'.workItemId = row.workItemId := by
  have hstep := exec_ownerStep c s a
  generalize recorded c s a = r at hstep
  have hsame {db db' : Db} (h : SameOwners db db') {row row' : PullRequest} (hrow : db.pullRequests.get? pid = some row)
      (hrow' : db'.pullRequests.get? pid = some row') : row'.workItemId = row.workItemId := by
    obtain ⟨row₀, hrow₀, howner⟩ := h.row hrow'
    cases hrow.symm.trans hrow₀
    exact (congrArg Prod.fst howner).symm
  cases hstep with
  | keeps h => exact hsame h hrow hrow'
  | records _ _ hbefore hafter =>
    obtain ⟨row₁, hrow₁, howner₁⟩ := hbefore.symm.row hrow
    obtain ⟨row₂, hrow₂, howner₂⟩ := recordPr_keeps hrow₁
    rw [hsame hafter hrow₂ hrow']
    exact congrArg Prod.fst (howner₂.trans howner₁)

/-- A step that neither closes work items nor is told that a pull request is closed settles nothing. -/
theorem exec_unsettles (ha : a.closes = false)
    (hopen : ∀ pid pr, polledPull c s a = some (pid, pr) → pr.state ≠ "closed") : Unsettles s.db (exec c s a).db := by
  have hother (hs : ¬ a.licence.deeds .settle) : Unsettles s.db (exec c s a).db :=
    (exec_commits_licensed c s a).unsettles hs fun _ _ hrow' _ hrow => exec_keeps_owner hrow hrow'
  cases a with
  | applyRun now compare => cases ha
  | pollPullRequest now wid number pr checks answers =>
    rcases exec_poll c s now wid number pr checks answers with ⟨-, hdb⟩ | ⟨pid, row, hpull, -, -, hdb⟩
    · rw [hdb]
      exact .refl _
    · rw [hdb]
      exact applyPr_unsettles ha (hopen pid pr hpull)
  | launch now wid operator answers => exact hother (show Deed.settle ∉ [Deed.bind, .retry] by decide)
  | _ => exact hother fun h => by cases h

theorem Commits.stays_verified {S : Scope} {db db' : Db} (h : Commits c S db db') {wid : Nat}
    (hs : db.itemState wid = some .verified) : db'.itemState wid = some .verified := by
  cases h with
  | units h => exact h.stays_verified hs
  | evaluation h rid => exact h.stays_verified hs
  | ingested h => rw [Db.itemState, (ingestRun_ingested h).workItems]; exact hs

/-- The rows of verifications are those of verified items. -/
theorem exec_sealed (hm : Sealed s.db) : Sealed (exec c s a).db := by
  have hstays (wid : Nat) (h : s.db.itemState wid = some .verified) : (exec c s a).db.itemState wid = some .verified :=
    (exec_commits c s a).stays_verified h
  cases hcloses : a.closes with
  | true => exact (exec_settles hcloses).sealed hm hstays fun _ h => h.2
  | false =>
    by_cases hopen : ∀ pid pr, polledPull c s a = some (pid, pr) → pr.state ≠ "closed"
    · exact (exec_unsettles hcloses hopen).sealed hm hstays
    · cases a with
      | pollPullRequest now wid number pr checks answers =>
        rcases exec_poll c s now wid number pr checks answers with ⟨hnone, -⟩ | ⟨pid, row, hpull, -, -, hdb⟩
        · refine absurd (fun pid pr hpull => ?_) hopen
          rw [hnone] at hpull
          cases hpull
        · have hclosed : pr.state = "closed" := by
            by_contra hno
            refine hopen fun pid' pr' hpull' => ?_
            cases hpull.symm.trans hpull'
            exact hno
          refine hm.keeps hstays fun p row' hrow' hlevel => ?_
          rw [hdb] at hrow'
          obtain ⟨row₀, hrow₀, howner, hsame, -⟩ := applyPr_closed_row hcloses hclosed hrow'
          exact ⟨row₀, hrow₀, howner, hsame.symm.trans hlevel⟩
      | _ => exact absurd (fun _ _ h => by cases h) hopen

theorem SameOwners.linked {db db' : Db} (h : SameOwners db db') (hl : Linked db) : Linked db' := by
  constructor
  · intro wid n hn
    rw [h.tracks] at hn
    obtain ⟨pid, row, hrow, hnumber⟩ := hl.recorded wid n hn
    obtain ⟨row', hrow', howner⟩ := h.symm.row hrow
    simp only [PullRequest.owner, Prod.mk.injEq] at howner
    exact ⟨pid, row', hrow', howner.2.2.trans hnumber⟩
  · intro pid row hrow
    obtain ⟨row₀, hrow₀, howner⟩ := h.row hrow
    obtain ⟨n, hn⟩ := hl.tracking pid row₀ hrow₀
    refine ⟨n, ?_⟩
    rw [h.tracks, ← show row₀.workItemId = row.workItemId from congrArg Prod.fst howner]
    exact hn

/-- Recording a pull request links its row and its item. -/
theorem recordPr_linked {env : Env} {tx : Tx} {wid : Nat} {pr : PullRequestInfo} {item : WorkItem}
    (hitem : tx.db.workItems.get? wid = some item) (hl : Linked tx.db) : Linked (recordPr env tx wid pr).db := by
  constructor
  · intro k n hn
    rw [tracks_recordPr hitem] at hn
    split at hn
    · cases hn
      exact recordPr_recorded
    · obtain ⟨pid, row, hrow, hnumber⟩ := hl.recorded k n hn
      obtain ⟨row', hrow', howner⟩ := @recordPr_keeps env tx wid pr pid row hrow
      simp only [PullRequest.owner, Prod.mk.injEq] at howner
      exact ⟨pid, row', hrow', howner.2.2.trans hnumber⟩
  · intro pid row hrow
    rw [tracks_recordPr hitem]
    split
    · exact ⟨_, rfl⟩
    · rename_i hne
      rcases recordPr_row hrow with ⟨row₀, hrow₀, howner⟩ | ⟨-, -, howner⟩
      · rw [← show row₀.workItemId = row.workItemId from congrArg Prod.fst howner]
        exact hl.tracking pid row₀ hrow₀
      · exact absurd (congrArg Prod.fst howner) hne

theorem exec_linked (hl : Linked s.db) : Linked (exec c s a).db := by
  have hstep := exec_ownerStep c s a
  generalize recorded c s a = r at hstep
  cases hstep with
  | keeps h => exact h.linked hl
  | records _ hitem hbefore hafter => exact hafter.linked (recordPr_linked hitem (hbefore.linked hl))

/-- **Where a step records verifications**: levels from a merge on are those of merged pull requests afterwards, and of
the rows of an item that it verifies the step raises the one of the pull request it tracks. -/
def RecordedOnMerge (c : Controller) (s : Sys) (a : Action) : Prop :=
  LevelsMerged (exec c s a).db ∧ ∀ wid, Verifies c s a wid → VerifiedOn s.db (exec c s a).db wid

/-- The first row of an item that is verified is the merged one it tracks, and no pull request that was merged is seen
closed without a merge. -/
def SettlesOwn (c : Controller) (s : Sys) (a : Action) : Prop :=
  (∀ wid, Verifies c s a wid → FirstIsOwn s.db (Merges c s a) wid) ∧
    ∀ pid pr row, polledPull c s a = some (pid, pr) → pr.merged = false → pr.state = "closed" →
      s.db.pullRequests.get? pid = some row → row.lifecycleLevel.toNat < LifecycleLevel.merged.toNat

/-- What holds of the rows in every state of such a run. -/
structure Kept (db : Db) : Prop where
  registered : Registered db
  linked : Linked db
  sealed : Sealed db
  levels : LevelsMerged db

/-- A closed pull request has no level from a merge on. -/
theorem exec_closed_iff {pid : Nat} {pr : PullRequestInfo} (hm : LevelsMerged s.db)
    (hpull : polledPull c s a = some (pid, pr))
    (hno : pr.merged = false) (hc : pr.state = "closed") :
    LevelsMerged (exec c s a).db ↔ ∀ row, s.db.pullRequests.get? pid = some row →
      row.lifecycleLevel.toNat < LifecycleLevel.merged.toNat := by
  cases a with
  | pollPullRequest now wid number pr' checks answers =>
    rcases exec_poll c s now wid number pr' checks answers with ⟨hnone, -⟩ | ⟨pid', row, hpull', hrow, -, hdb⟩
    · rw [hnone] at hpull
      cases hpull
    · cases hpull'.symm.trans hpull
      rw [hdb]
      constructor
      · intro hlevels row₀ hrow₀
        by_contra hge
        obtain ⟨row', hrow'⟩ :=
          @applyPr_closed_there (c.env now) { db := s.db } wid pid row pr checks answers hno hc pid _ hrow₀
        obtain ⟨row₁, hrow₁, -, hsame, hstate⟩ := applyPr_closed_row hno hc hrow'
        cases hrow₀.symm.trans hrow₁
        have hmerged := hlevels pid row' hrow' (hsame ▸ Nat.le_of_not_lt hge)
        rw [hstate, if_pos rfl] at hmerged
        exact absurd hmerged (by decide)
      · intro hlow p row' hrow' hlevel
        obtain ⟨row₁, hrow₁, -, hsame, hstate⟩ := applyPr_closed_row hno hc hrow'
        rw [hsame] at hlevel
        by_cases hp : p = pid
        · exact absurd hlevel (Nat.not_le_of_lt (hlow row₁ (hp ▸ hrow₁)))
        · rw [hstate, if_neg hp]
          exact hm p row₁ hrow₁ hlevel
  | _ => cases hpull

theorem exec_recorded_iff (hk : Kept s.db) : RecordedOnMerge c s a ↔ SettlesOwn c s a := by
  cases hcloses : a.closes with
  | true =>
    have hiff := (@exec_settles c s a hcloses).recorded_iff hk.registered hk.linked hk.sealed hk.levels
    have hverifies (wid : Nat) : Verifies c s a wid ↔ Newly s.db (exec c s a).db wid :=
      ⟨fun h => h.2, fun h => ⟨hcloses, h⟩⟩
    unfold RecordedOnMerge SettlesOwn
    simp only [hverifies]
    rw [hiff]
    refine ⟨fun h => ⟨h, fun pid pr row hpull hno => ?_⟩, fun h => h.1⟩
    rw [← polledPull_closes hpull, hcloses] at hno
    cases hno
  | false =>
    have hverifies (wid : Nat) : ¬ Verifies c s a wid := by
      rintro ⟨h, -⟩
      rw [hcloses] at h
      cases h
    unfold RecordedOnMerge SettlesOwn
    rw [and_iff_left fun wid h => absurd h (hverifies wid), and_iff_right fun wid h => absurd h (hverifies wid)]
    by_cases hclosed : ∃ pid pr, polledPull c s a = some (pid, pr) ∧ pr.state = "closed"
    · obtain ⟨pid, pr, hpull, hstate⟩ := hclosed
      have hno : pr.merged = false := (polledPull_closes hpull).symm.trans hcloses
      rw [exec_closed_iff hk.levels hpull hno hstate]
      constructor
      · intro h pid' pr' row hpull' _ _ hrow
        cases hpull.symm.trans hpull'
        exact h row hrow
      · exact fun h row hrow => h pid pr row hpull hno hstate hrow
    · have hopen (pid : Nat) (pr : PullRequestInfo) (hpull : polledPull c s a = some (pid, pr)) : pr.state ≠ "closed" :=
        fun hstate => hclosed ⟨pid, pr, hpull, hstate⟩
      refine iff_of_true ((exec_unsettles hcloses hopen).levelsMerged hk.levels) fun pid pr row hpull _ hstate => ?_
      exact absurd hstate (hopen pid pr hpull)

/-- **Verifications are recorded on the merged pull request, through a whole run, exactly when of every item that a step
verifies the first row is the merged one it tracks, and no step is told that a merged pull request was closed
instead.** -/
theorem recorded_run_iff (c : Controller) (tr : List Action) :
    Machine.AllSteps (exec c) (RecordedOnMerge c) .initial tr ↔
      Machine.AllSteps (exec c) (SettlesOwn c) .initial tr := by
  refine Machine.AllSteps.congr_invariant (fun s => Kept s.db) (fun s a hk ha => ?_)
    (fun s a hk => exec_recorded_iff hk) ?_
  · have hrecorded := (exec_recorded_iff hk).mpr ha
    exact ⟨exec_registered hk.registered, exec_linked hk.linked, exec_sealed hk.sealed, hrecorded.1⟩
  · have hrow (pid : Nat) (row : PullRequest) : Sys.initial.db.pullRequests.get? pid ≠ some row := by
      rw [show Sys.initial.db.pullRequests.get? pid = none from Table.get?_empty pid]
      intro h
      cases h
    have htracks (wid n : Nat) : Sys.initial.db.tracks wid ≠ some n := by
      rw [Db.tracks, show Sys.initial.db.workItems.get? wid = none from Table.get?_empty wid]
      intro h
      cases h
    exact ⟨⟨fun pid row h => absurd h (hrow pid row), fun i _ row _ h => absurd h (hrow i row)⟩,
      ⟨fun wid n h => absurd h (htracks wid n), fun pid row h => absurd h (hrow pid row)⟩,
      fun pid row h => absurd h (hrow pid row), fun pid row h => absurd h (hrow pid row)⟩

end Runs

/-- The second pull request of the first work item. -/
def secondPull : PullRequestInfo :=
  { samplePull "b" with number := 2, url := "https://github.com/Hunter-1298/superset/pull/2" }

def secondMerged : PullRequestInfo :=
  { secondPull with state := "closed", merged := true, mergeCommitSha := some "m", mergedAt := some 19 }

/-- The first pull request is closed, a human has the item retried, and merges the pull request of the second
session. -/
def relaunchTrace : List Action :=
  sampleReady ++ samplePoll 15 { samplePull "a" with state := "closed" } [] {} ++
  [.beginTick, .pollHumanLabel 16 1 7 "open" [HumanLabel.retry.value], .stop, .beginTick, .next true none,
   .next true none,
    .group 17, .next true none, .next true none, .next true none, .dispatch 17 [], .adopt 17 (.ok []),
    .create 17 (.ok { sampleSession with sessionId := "s2" }) (.ok ()), .stop, .beginTick,
    .pollSession 18 1 "s2" { sampleReport secondPull.url with sessionId := "s2" } { pullRequest := .ok secondPull },
      .stop,
    .beginTick, .pollPullRequest 19 1 2 secondMerged [] {}, .stop,
    sampleIngest "2" 20 [], .beginTick, .next true none, .applyRun 21 linearCompare]

/-- The verification is recorded on the first pull request, which is closed, and not on the merged one. -/
theorem verified_on_closed :
    let s := sampleState relaunchTrace
    Reachable sampleController s ∧ ¬ LevelsMerged s.db ∧ s.db.itemState 1 = some .verified ∧ s.db.tracks 1 = some 2 ∧
      s.db.pullRequests.rows.map (fun row => (row.number, row.state, row.lifecycleLevel)) =
        [(1, "closed", .rescanVerified), (2, "merged", .merged)] := by
  intro s
  have hfirst : (s.db.pullRequests.get? 1).map PullRequest.outcome = some ("closed", .rescanVerified) := by
    decide +kernel
  refine ⟨sampleState_reachable _, fun hlevels => ?_, by decide +kernel, by decide +kernel, by decide +kernel⟩
  obtain ⟨row, hrow, houtcome⟩ := Option.map_eq_some_iff.mp hfirst
  simp only [PullRequest.outcome, Prod.mk.injEq] at houtcome
  have hmerged := hlevels 1 row hrow (by rw [houtcome.2]; decide)
  rw [houtcome.1] at hmerged
  exact absurd hmerged (by decide)

end HardeningLoop
