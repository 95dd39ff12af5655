import HardeningLoop.Orchestrator.Budget
import HardeningLoop.Orchestrator.Capacity

/-!
# A launch is a dispatch

The confirmation page and the launch decide on one preview, and what a launch does after it is the scheduler's own path:
it readies the item (a retry of one that waits for a human, an issue for one that is queued) and reserves it.

- `Readies`: what is done to the item before the reservation takes no slot and no budget;
- `launch_schedules`: when a launch reserves the item, and that the scheduler's dispatch of the item as it was readied
  makes the same checks and the same reservation.
-/

namespace HardeningLoop

open Rows (Table)

/-! ## Readying an item -/

/-- Only the row of an item that takes no slot was written, and it still takes none. -/
structure Readies (wid : Nat) (db db' : Db) : Prop where
  scanRuns : db'.scanRuns = db.scanRuns
  sessions : db'.sessions = db.sessions
  others : ∀ k, k ≠ wid → db'.workItems.get? k = db.workItems.get? k
  before : ¬ db.active wid
  after : ¬ db'.active wid

section Position

variable {wid : Nat} {db db' db'' : Db}

theorem Readies.of_same (h : ¬ db.active wid) (hr : db'.scanRuns = db.scanRuns) (hs : db'.sessions = db.sessions)
    (hw : db'.workItems = db.workItems) : Readies wid db db' :=
  ⟨hr, hs, fun k _ => by rw [hw], h, (active_congr hw).not.mpr h⟩

theorem Readies.trans (h : Readies wid db db') (h' : Readies wid db' db'') : Readies wid db db'' :=
  ⟨h'.scanRuns.trans h.scanRuns, h'.sessions.trans h.sessions, fun k hk => (h'.others k hk).trans (h.others k hk),
    h.before,
    h'.after⟩

theorem Readies.symm (h : Readies wid db db') : Readies wid db' db :=
  ⟨h.scanRuns.symm, h.sessions.symm, fun k hk => (h.others k hk).symm, h.after, h.before⟩

theorem Readies.active (h : Readies wid db db') (k : Nat) : db'.active k ↔ db.active k := by
  by_cases hk : k = wid
  · rw [hk]
    exact iff_of_false h.after h.before
  · rw [Db.active, Db.active, Db.itemState, Db.itemState, h.others k hk]

theorem Readies.activeSessionCount (h : Readies wid db db') : activeSessionCount db' = activeSessionCount db :=
  le_antisymm (activeSessionCount_le fun k => (h.active k).mp) (activeSessionCount_le fun k => (h.active k).mpr)

/-- What reserves for a session does so afterwards. -/
theorem Readies.reserves (h : Readies wid db db') {id : String}
    (hr : db.reservesFor id = true) : db'.reservesFor id = true := by
  simp only [Db.reservesFor, List.any_eq_true, Bool.and_eq_true, decide_eq_true_eq] at hr ⊢
  obtain ⟨item, hmem, hactive, hid⟩ := hr
  obtain ⟨i, hi⟩ := List.mem_iff_getElem?.mp hmem
  have hget : db.workItems.get? (i + 1) = some item := hi
  have hne : i + 1 ≠ wid := by
    rintro rfl
    exact h.before ⟨item.state, by rw [Db.itemState, hget, Option.map_some], hactive⟩
  exact ⟨item, Table.mem_rows ((h.others _ hne).trans hget), hactive, hid⟩

theorem Readies.acuBudgetPosition (h : Readies wid db db') : acuBudgetPosition db' = acuBudgetPosition db := by
  have hreserves (s : Session) :
      (decide (s.devinId ∈ (db'.workItems.rows.filter fun w => w.state ∈ activeWorkItemStates).filterMap
      WorkItem.activeSessionId)) =
        decide (s.devinId ∈ (db.workItems.rows.filter fun w => w.state ∈ activeWorkItemStates).filterMap
          WorkItem.activeSessionId) := by
    rw [decide_eq_decide, mem_reserved, mem_reserved]
    exact ⟨h.symm.reserves, h.reserves⟩
  unfold HardeningLoop.acuBudgetPosition
  simp only [h.sessions, hreserves]

theorem Readies.pendingScanRunCount (h : Readies wid db db') : pendingScanRunCount db' = pendingScanRunCount db := by
  rw [HardeningLoop.pendingScanRunCount, h.scanRuns, HardeningLoop.pendingScanRunCount]

end Position

section Ready

variable (env : Env) {tx : Tx} {wid : Nat} {item : WorkItem}

theorem not_active_of {state : WorkItemState} (hi : tx.db.workItems.get? wid = some item) (hs : item.state = state)
    (hno : state ∉ activeWorkItemStates) : ¬ tx.db.active wid := by
  rintro ⟨s, hs', hactive⟩
  rw [Db.itemState, hi, Option.map_some, Option.some.injEq, hs] at hs'
  exact hno (hs' ▸ hactive)

/-- An item that is opened again or gets its issue. -/
theorem readies_fire (hi : tx.db.workItems.get? wid = some item) (hno : item.state ∉ activeWorkItemStates)
    {f : WorkItem → WorkItem} {event : WorkItemEvent} (hn : nextWorkItemState (f item).state event = some .issueOpen)
    (reason actor : String) :
    Readies wid tx.db ((tx.modifyItem wid f).wi env wid event reason actor).db ∧
      ((tx.modifyItem wid f).wi env wid event reason actor).db.workItems.get? wid =
        some (Tx.moved env event .issueOpen reason (f item)) := by
  have hrow : ((tx.modifyItem wid f).wi env wid event reason actor).db.workItems.get? wid =
      some (Tx.moved env event .issueOpen reason (f item)) := by
    rw [Tx.wi_db]
    show ((tx.db.workItems.modify wid f).modify wid _).get? wid = _
    rw [Table.get?_modify_self, Table.get?_modify_self, hi, Option.map_some, Option.map_some, Tx.wiRow, hn]
  refine ⟨⟨?_, ?_, fun k hk => ?_, not_active_of hi rfl hno, not_active_of hrow rfl ?_⟩, hrow⟩
  · rw [Tx.wi_db]
    rfl
  · rw [Tx.wi_db]
    rfl
  · rw [Tx.wi_db]
    show ((tx.db.workItems.modify wid f).modify wid _).get? k = _
    rw [Table.get?_modify_of_ne _ hk, Table.get?_modify_of_ne _ hk]
  · show WorkItemState.issueOpen ∉ activeWorkItemStates
    decide

/-- The issue a launch opens is bound to the item. -/
theorem readies_openIssue (hi : tx.db.workItems.get? wid = some item) (hs : item.state = .queued)
    {listed : Option (List Issue)}
    {created : Except String Issue} (ho : (openIssue env tx wid none listed created).2 = true) :
    Readies wid tx.db (openIssue env tx wid none listed created).1.db ∧ ∃ item',
      (openIssue env tx wid none listed created).1.db.workItems.get? wid = some item' ∧ item'.state = .issueOpen ∧
      item'.core = item.core ∧ item'.issueNumber.isSome = true := by
  have hno : item.state ∉ activeWorkItemStates := by
    rw [hs]
    decide
  have hbind (t : Tx) (ht : t.db = tx.db) (issue : Issue) (reason : String) :
      Readies wid tx.db (bindIssue env t wid issue reason).db ∧ ∃ item',
        (bindIssue env t wid issue reason).db.workItems.get? wid = some item' ∧ item'.state = .issueOpen ∧
        item'.core = item.core ∧ item'.issueNumber.isSome = true := by
    rw [← ht] at hi ⊢
    have hcreated : nextWorkItemState item.state .issueCreated = some .issueOpen := by
      rw [hs]
      rfl
    obtain ⟨hready, hrow⟩ := readies_fire env hi hno (f := fun w => { w with
      issueNumber := some issue.number, issueUrl := some issue.url, issueOpenedAt := some env.now }) hcreated reason
      "controller"
    exact ⟨hready, _, hrow, rfl, rfl, rfl⟩
  unfold openIssue at ho ⊢
  simp only [hi] at ho ⊢
  split at ho
  · exact hbind tx rfl _ _
  · split at ho
    · cases ho
    · exact hbind (tx.answered _) rfl _ _

/-- An item that waits for a human is open again. -/
theorem readies_relaunch (hi : tx.db.workItems.get? wid = some item)
    (hfor : actionFor item.state = (some .relaunch, none))
    (operator : String) :
    Readies wid tx.db (relaunch env tx wid item operator).db ∧ ∃ item',
      (relaunch env tx wid item operator).db.workItems.get? wid = some item' ∧ item'.state = .issueOpen ∧
      item'.core = item.core ∧ item'.issueNumber = item.issueNumber := by
  have hno := actionFor_inactive hfor
  have hretry : nextWorkItemState item.state .humanRetry = some .issueOpen := by
    revert hfor
    cases item.state <;> decide
  have hfire (t : Tx) (ht : t.db = tx.db) :
      let t' := (t.modifyItem wid fun w =>
      { w with retriesUsed := 0, activeSessionId := none, blockedReason := none }).wi env wid
        .humanRetry ("operator=" ++ operator) "operator"
      Readies wid tx.db t'.db ∧ ∃ item', t'.db.workItems.get? wid = some item' ∧ item'.state = .issueOpen ∧
        item'.core = item.core ∧ item'.issueNumber = item.issueNumber := by
    rw [← ht] at hi ⊢
    obtain ⟨hready, hrow⟩ := readies_fire env hi hno (f := fun w => { w with
      retriesUsed := 0, activeSessionId := none, blockedReason := none }) hretry ("operator=" ++ operator) "operator"
    exact ⟨hready, _, hrow, rfl, rfl, rfl⟩
  unfold relaunch
  dsimp only
  split
  · exact hfire (tx.attempt _) rfl
  · exact hfire tx rfl

end Ready

/-! ## Launching -/

/-- GitHub grants the launch of an item of a severity: approval and comment go through, and the labels read back allow
it. -/
structure LaunchAnswers.Grants (answers : LaunchAnswers) (severity : Severity) : Prop where
  approved : severity ∉ defaultDispatchSeverities → answers.approved = .ok ()
  commented : answers.commented = .ok ()
  labelled : dispatchAllowed severity answers.labels = true

/-- The preview is eligible, the item has its issue or gets it, and GitHub grants the launch. -/
def Launches (env : Env) (tx : Tx) (wid : Nat) (answers : LaunchAnswers) : Prop :=
  ∃ item action, tx.db.workItems.get? wid = some item ∧
    launchPreview env.settings (launchFigures tx.db) item.state item.acuCap = (some action, none) ∧
    (if item.state = .queued then (openIssue env tx wid none answers.listed answers.created).2 = true
      else item.issueNumber.isSome = true) ∧ answers.Grants item.severity

section Launch

variable (env : Env) {tx : Tx} {wid issue : Nat} {item : WorkItem} (operator : String) {answers : LaunchAnswers}

/-- A launch that GitHub grants goes on to the reservation, with an entry in the log. -/
theorem launchReserve_granted (tx : Tx) (wid issue : Nat) (h : answers.Grants item.severity) :
    ∃ (t : Tx) (entries : List Event),
    launchReserve env tx wid issue item operator answers = (reserve env t wid, true) ∧
        t.db = { tx.db with events := entries } := by
  unfold launchReserve
  by_cases happroval : item.severity ∉ defaultDispatchSeverities
  · simp only [happroval, h.approved happroval, h.commented, h.labelled, not_false_eq_true, decide_true, if_true]
    exact ⟨_, _, rfl, rfl⟩
  · simp only [happroval, h.commented, h.labelled, decide_false, if_true, if_false, Bool.false_eq_true]
    exact ⟨_, _, rfl, rfl⟩

theorem grants_of_launchReserve (h : (launchReserve env tx wid issue item operator answers).2 = true) :
    answers.Grants item.severity := by
  unfold launchReserve at h
  dsimp only at h
  split at h
  · cases h
  · rename_i happroved
    split at h
    · cases h
    · rename_i hcommented
      split at h
      · rename_i hlabelled
        refine ⟨fun hno => ?_, hcommented, hlabelled⟩
        rwa [if_pos (decide_eq_true hno)] at happroved
      · cases h

/-- The scheduler's dispatch of an item that is open, has its issue and finds room. -/
theorem dispatchCandidate_reserves {severity : Severity} {labels : List String}
    (hi : tx.db.workItems.get? wid = some item)
    (hs : item.state = .issueOpen) (hissue : item.issueNumber = some issue)
    (hallowed : dispatchAllowed severity labels = true)
    (hfree : activeSessionCount tx.db < env.settings.maxConcurrentSessions)
    (hroom : Binary64.add (acuBudgetPosition tx.db).committed item.acuCap ≤ env.settings.globalAcuBudget) :
    dispatchCandidate env tx wid issue severity labels = (reserve env tx wid, .reserved) := by
  unfold dispatchCandidate
  simp only [hallowed, hi, hs, hissue, not_le.mpr hfree, not_lt.mpr hroom, Bool.not_true, Bool.false_eq_true,
    if_false, ne_eq,
    not_true_eq_false, decide_false, Bool.or_self]

/-- The item as a launch readies it, if it can. -/
def launchReadied (env : Env) (tx : Tx) (wid : Nat) (item : WorkItem) (action : LaunchAction) (operator : String)
    (answers : LaunchAnswers) : Tx × Bool :=
  let tx := if action = .relaunch then relaunch env tx wid item operator else tx
  let state := ((tx.db.workItems.get? wid).map WorkItem.state).getD item.state
  if state = .queued then openIssue env tx wid none answers.listed answers.created else (tx, true)

/-- What a launch does to an eligible item before it asks for its issue. -/
theorem launchReadied_spec (answers : LaunchAnswers) (hi : tx.db.workItems.get? wid = some item) {action : LaunchAction}
    (hfor : actionFor item.state = (some action, none)) :
    ((launchReadied env tx wid item action operator answers).2 = true ↔
      (item.state = .queued → (openIssue env tx wid none answers.listed answers.created).2 = true)) ∧
    ((launchReadied env tx wid item action operator answers).2 = true →
      Readies wid tx.db (launchReadied env tx wid item action operator answers).1.db ∧ ∃ item',
        (launchReadied env tx wid item action operator answers).1.db.workItems.get? wid = some item' ∧
        item'.state = .issueOpen ∧ item'.core = item.core ∧
        (item'.issueNumber.isSome = true ↔ item.state = .queued ∨ item.issueNumber.isSome = true)) := by
  have hstate : ((tx.db.workItems.get? wid).map WorkItem.state).getD item.state = item.state := by rw [hi]; rfl
  cases action with
  | relaunch =>
    obtain ⟨hready, item', hi', hs', hcore, hissue⟩ := readies_relaunch env hi hfor operator
    have hne : item.state ≠ .queued := by
      intro hq
      rw [hq] at hfor
      cases hfor
    have hopen : ((((relaunch env tx wid item operator).db.workItems.get? wid).map WorkItem.state).getD item.state) =
      .issueOpen := by
      rw [hi', Option.map_some, Option.getD_some, hs']
    have heq :
        launchReadied env tx wid item .relaunch operator answers = (relaunch env tx wid item operator, true) := by
      unfold launchReadied
      dsimp only
      rw [if_pos rfl, hopen, if_neg (by decide)]
    rw [heq]
    refine ⟨iff_of_true rfl fun hq => absurd hq hne, fun _ => ⟨hready, item', hi', hs', hcore, ?_⟩⟩
    rw [hissue, or_iff_right hne]
  | launch =>
    have heq : launchReadied env tx wid item .launch operator answers =
        if item.state = .queued then openIssue env tx wid none answers.listed answers.created else (tx, true) := by
      unfold launchReadied
      dsimp only
      rw [if_neg (show LaunchAction.launch ≠ .relaunch by decide), hstate]
    rw [heq]
    by_cases hq : item.state = .queued
    · rw [if_pos hq]
      refine ⟨⟨fun h _ => h, fun h => h hq⟩, fun ho => ?_⟩
      obtain ⟨hready, item', hi', hs', hcore, hissue⟩ := readies_openIssue env hi hq ho
      exact ⟨hready, item', hi', hs', hcore, iff_of_true hissue (.inl hq)⟩
    · have hopen : item.state = .issueOpen := by
        revert hfor hq
        cases item.state <;> decide
      rw [if_neg hq]
      exact ⟨iff_of_true rfl fun h => absurd h hq,
        fun _ => ⟨.of_same (not_active_of hi hopen (by decide)) rfl rfl rfl, item,
        hi, hopen, rfl, (or_iff_right hq).symm⟩⟩

/-- An item that could not be readied is not launched. -/
theorem launch_unready (hi : tx.db.workItems.get? wid = some item) {action : LaunchAction}
    (hp : launchPreview env.settings (launchFigures tx.db) item.state item.acuCap = (some action, none))
    (ho : (launchReadied env tx wid item action operator answers).2 = false) :
    (launch env tx wid operator answers).2 = false := by
  unfold launch
  simp only [hi, hp]
  unfold launchReadied at ho
  dsimp only at ho
  rw [ho]
  rfl

/-- One that was readied is launched if it has an issue. -/
theorem launch_ready (hi : tx.db.workItems.get? wid = some item) {action : LaunchAction}
    (hp : launchPreview env.settings (launchFigures tx.db) item.state item.acuCap = (some action, none)) {t : Tx}
    (ho : launchReadied env tx wid item action operator answers = (t, true)) {item' : WorkItem}
    (hi' : t.db.workItems.get? wid = some item') (hs : item'.state = .issueOpen) :
    launch env tx wid operator answers =
      item'.issueNumber.elim (t, false) fun issue => launchReserve env t wid issue item' operator answers := by
  unfold launchReadied at ho
  dsimp only at ho
  unfold launch
  simp only [hi, hp, ho, hi', hs, Bool.not_true, Bool.false_eq_true, if_false]
  cases item'.issueNumber <;> rfl

/-- Only an item with an eligible preview is launched. -/
theorem eligible_of_launch (h : (launch env tx wid operator answers).2 = true) : ∃ item action,
    tx.db.workItems.get? wid = some item ∧
    launchPreview env.settings (launchFigures tx.db) item.state item.acuCap = (some action, none) := by
  unfold launch at h
  split at h
  · cases h
  · rename_i item hi
    split at h
    · exact ⟨item, _, hi, ‹_›⟩
    · cases h

/-- A granted launch of a readied item: the scheduler would reserve it too. -/
theorem launch_granted {action : LaunchAction}
    (hp : launchPreview env.settings (launchFigures tx.db) item.state item.acuCap = (some action, none)) {t : Tx}
    (hready : Readies wid tx.db t.db) {item' : WorkItem} (hi' : t.db.workItems.get? wid = some item')
    (hs : item'.state = .issueOpen) (hcore : item'.core = item.core) (hissue : item'.issueNumber = some issue)
    (hg : answers.Grants item'.severity) : ∃ t' : Tx, Readies wid tx.db t'.db ∧
      launchReserve env t wid issue item' operator answers = (reserve env t' wid, true) ∧
      pendingScanRunCount t'.db = 0 ∧
      dispatchCandidate env t' wid issue item'.severity answers.labels = (reserve env t' wid, .reserved) := by
  obtain ⟨-, hpending, hfree, hroom⟩ := launchPreview_eq_some hp
  obtain ⟨t', entries, hreserve, hdb⟩ := launchReserve_granted env operator t wid issue hg
  have hready' : Readies wid tx.db t'.db := by
    refine hready.trans (.of_same hready.after ?_ ?_ ?_) <;> rw [hdb]
  have hcap : item'.acuCap = item.acuCap := by
    simp only [WorkItem.core, Prod.mk.injEq] at hcore
    exact hcore.2.2.2.2.2.2.1
  refine ⟨t', hready', hreserve, hready'.pendingScanRunCount.trans hpending, ?_⟩
  refine dispatchCandidate_reserves env (by rw [hdb]; exact hi') hs hissue hg.labelled ?_ ?_
  · rw [hready'.activeSessionCount]
    exact hfree
  · rw [hready'.acuBudgetPosition, hcap]
    exact hroom

/-- **A launch is a dispatch.** A launch reserves its item exactly when its preview is eligible, the item has its issue
or gets one, and GitHub grants it; and then the scheduler's dispatch of the item as the launch readied it, in which no
other item and no session has changed, passes every check that `dispatch` makes and makes that same reservation. -/
theorem launch_schedules (env : Env) (tx : Tx) (wid : Nat) (operator : String) (answers : LaunchAnswers) :
    ((launch env tx wid operator answers).2 = true ↔ Launches env tx wid answers) ∧
    ((launch env tx wid operator answers).2 = true → ∃ (t : Tx) (issue : Nat) (severity : Severity),
    Readies wid tx.db t.db ∧
      pendingScanRunCount t.db = 0 ∧
      dispatchCandidate env t wid issue severity answers.labels = ((launch env tx wid operator answers).1,
      .reserved)) := by
  have hspec {item : WorkItem} {action : LaunchAction} (hi : tx.db.workItems.get? wid = some item)
      (hp : launchPreview env.settings (launchFigures tx.db) item.state item.acuCap = (some action, none)) :
      ((launch env tx wid operator answers).2 = true ↔
        (if item.state = .queued then (openIssue env tx wid none answers.listed answers.created).2 = true
          else item.issueNumber.isSome = true) ∧ answers.Grants item.severity) ∧
      ((launch env tx wid operator answers).2 = true → ∃ (t : Tx) (issue : Nat) (severity : Severity),
        Readies wid tx.db t.db ∧ pendingScanRunCount t.db = 0 ∧
        dispatchCandidate env t wid issue severity answers.labels = ((launch env tx wid operator answers).1,
          .reserved)) := by
    obtain ⟨hopened, hready⟩ := launchReadied_spec env operator answers hi (launchPreview_eq_some hp).1
    cases ho : (launchReadied env tx wid item action operator answers).2 with
    | false =>
      rw [launch_unready env operator hi hp ho]
      refine ⟨iff_of_false Bool.false_ne_true ?_, fun h => by cases h⟩
      rintro ⟨hissue, -⟩
      -- the issue of a queued item could not be opened
      rw [ho] at hopened
      refine Bool.false_ne_true (hopened.mpr fun hq => ?_)
      rwa [if_pos hq] at hissue
    | true =>
      obtain ⟨hready, item', hi', hs', hcore, hnumber⟩ := hready ho
      have hopens := hopened.mp ho
      have hsome : (if item.state = .queued then (openIssue env tx wid none answers.listed answers.created).2 = true
          else item.issueNumber.isSome = true) ↔ item'.issueNumber.isSome = true := by
        rw [hnumber]
        split
        · rename_i hq
          exact iff_of_true (hopens hq) (.inl hq)
        · rename_i hq
          exact (or_iff_right hq).symm
      have hseverity : item'.severity = item.severity := by
        simp only [WorkItem.core, Prod.mk.injEq] at hcore
        exact hcore.2.2.2.2.1
      rw [hsome, ← hseverity, launch_ready env operator hi hp (Prod.ext rfl ho) hi' hs']
      cases hissue : item'.issueNumber with
      | none => exact ⟨iff_of_false Bool.false_ne_true fun h => Bool.false_ne_true h.1, fun h => by cases h⟩
      | some issue =>
        rw [Option.elim_some]
        refine ⟨⟨fun h => ⟨rfl, grants_of_launchReserve env operator h⟩, fun h => ?_⟩, fun h => ?_⟩
        · obtain ⟨t', -, hreserve, -⟩ := launch_granted env operator hp hready hi' hs' hcore hissue h.2
          rw [hreserve]
        · obtain ⟨t', hready', hreserve, hpending, hdispatch⟩ := launch_granted env operator hp hready hi' hs'
            hcore hissue (grants_of_launchReserve env operator h)
          exact ⟨t', issue, item'.severity, hready', hpending, by rw [hreserve, hdispatch]⟩
  constructor
  · constructor
    · intro h
      obtain ⟨item, action, hi, hp⟩ := eligible_of_launch env operator h
      exact ⟨item, action, hi, hp, (hspec hi hp).1.mp h⟩
    · rintro ⟨item, action, hi, hp, hrest⟩
      exact (hspec hi hp).1.mpr hrest
  · intro h
    obtain ⟨item, action, hi, hp⟩ := eligible_of_launch env operator h
    exact (hspec hi hp).2 h

end Launch

end HardeningLoop
