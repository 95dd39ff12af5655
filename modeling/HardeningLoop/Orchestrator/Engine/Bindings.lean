import HardeningLoop.Orchestrator.Engine.Steps
import HardeningLoop.Orchestrator.Engine.Sessions

/-!
# The session an item is bound to

An item is bound to a session when a dispatch creates or adopts one, and released when a human has it retried. Every
other unit of the engine leaves the bindings alone, the sessions that rows record, and the starts of sessions on the
log.

- `Db.bindings`: all three; the lemmas `bindings_…` say of each operation and each unit that it leaves them alone;
- `Acts.attended_of_starts`: without a start on the log no item comes under the care of a session.
-/

namespace HardeningLoop

open Rows (Table)

/-- The session an item is bound to. -/
def Db.bound (db : Db) (wid : Nat) : Option String := (db.workItems.get? wid).bind WorkItem.activeSessionId

/-- A dispatch has a session. -/
def WorkItemEvent.starts (event : WorkItemEvent) : Bool := event == .sessionCreated || event == .sessionAdopted

@[simp] theorem starts_eq_false {event : WorkItemEvent} :
    event.starts = false ↔ event ≠ .sessionCreated ∧ event ≠ .sessionAdopted := by
  simp [WorkItemEvent.starts]

def EventName.starts : EventName → Bool
  | .workItem event => event.starts
  | _ => false

@[simp] theorem starts_log (name : String) : (EventName.log name).starts = false := by simp only [EventName.starts]

/-- The starts of sessions on the log. -/
def Db.starts (db : Db) : List Event := db.events.filter fun e => e.event.starts

/-- The sessions the items are bound to, the sessions on record, and the starts on the log. -/
def Db.bindings (db : Db) : (Nat → Option String) × List String × List Event :=
  (db.bound, db.sessions.rows.map Session.devinId, db.starts)

/-! ## Operations -/

section Operations

variable {env : Env} {t : Tx}

theorem bound_modifyItem {f : WorkItem → WorkItem} (hf : ∀ w, (f w).activeSessionId = w.activeSessionId) (k : Nat) :
    (t.modifyItem k f).db.bound = t.db.bound := by
  funext wid
  simp only [Db.bound, Tx.modifyItem, Table.get?_modify]
  split
  · cases t.db.workItems.get? wid with
    | none => rfl
    | some item => exact hf item
  · rfl

@[simp] theorem bindings_modifyItem {f : WorkItem → WorkItem} (hf : ∀ w, (f w).activeSessionId = w.activeSessionId)
    (k : Nat) :
    (t.modifyItem k f).db.bindings = t.db.bindings := Prod.ext (bound_modifyItem hf k) rfl

@[simp] theorem bindings_must (call : Call) : (t.must call).db.bindings = t.db.bindings := rfl

@[simp] theorem bindings_attempt (calls : List Call) : (t.attempt calls).db.bindings = t.db.bindings := rfl

@[simp] theorem bindings_answered (call : Call) : (t.answered call).db.bindings = t.db.bindings := rfl

@[simp] theorem bindings_tally (key : String) : (t.tally key).db.bindings = t.db.bindings := rfl

/-- Entries of the log that start no session. -/
theorem bindings_append {db' : Db} {l : List Event} (hbound : db'.bound = t.db.bound)
    (hrows : db'.sessions = t.db.sessions)
    (hlog : db'.events = t.db.events ++ l) (hl : ∀ e ∈ l, e.event.starts = false) : db'.bindings = t.db.bindings := by
  have hnone : l.filter (fun e => e.event.starts) = [] := List.filter_eq_nil_iff.mpr fun e he => by simp [hl e he]
  simp only [Db.bindings, Db.starts, hbound, hrows, hlog, List.filter_append, hnone, List.append_nil]

@[simp] theorem bindings_event {name : EventName} (h : name.starts = false) (type : EntityType) (id : Nat)
    (fromState toState : Option String) (reason actor : String) (ids : List Nat) :
    (t.event env type id name fromState toState reason actor ids).db.bindings = t.db.bindings :=
  bindings_append rfl rfl rfl fun e he => by rw [List.mem_singleton.mp he]; exact h

@[simp] theorem bindings_log (wid : Nat) (name : String) (state : WorkItemState) (reason actor : String) :
    (t.log env wid name state reason actor).db.bindings = t.db.bindings := bindings_event rfl ..

@[simp] theorem bindings_modifyFinding (fid : Nat) (f : Finding → Finding) :
    (t.modifyFinding fid f).db.bindings = t.db.bindings := rfl

@[simp] theorem bindings_modifyPullRequest (pid : Nat) (f : PullRequest → PullRequest) :
    (t.modifyPullRequest pid f).db.bindings = t.db.bindings := rfl

@[simp] theorem bindings_insertPullRequest (row : PullRequest) :
    (t.insertPullRequest row).db.bindings = t.db.bindings := rfl

@[simp] theorem bindings_insertPoll (row : SessionPoll) : (t.insertPoll row).db.bindings = t.db.bindings := rfl

@[simp] theorem bindings_modifySession {f : Session → Session} (hf : ∀ s, (f s).devinId = s.devinId) (row : Nat) :
    (t.modifySession row f).db.bindings = t.db.bindings := by
  have hmap : (t.db.sessions.modify row f).map Session.devinId = t.db.sessions.map Session.devinId :=
    Table.map_modify_of_eq hf
  exact Prod.ext rfl (Prod.ext (congrArg Table.rows hmap) rfl)

@[simp] theorem bindings_insertItem {item : WorkItem} (h : item.activeSessionId = none) :
    (t.insertItem item).db.bindings = t.db.bindings := by
  refine Prod.ext (funext fun wid => ?_) rfl
  simp only [Db.bindings, Db.bound, Tx.insertItem, Table.get?_insert]
  split
  · rename_i hid
    rw [hid, Table.get?_nextId]
    exact h
  · rfl

theorem wiRow_bound (event : WorkItemEvent) (reason : String) (item : WorkItem) :
    (Tx.wiRow env event reason item).activeSessionId = item.activeSessionId := by
  unfold Tx.wiRow
  split
  · rfl
  · split
    · split <;> rfl
    · rfl

@[simp] theorem bindings_wi {event : WorkItemEvent} (h : event.starts = false) (wid : Nat) (reason actor : String) :
    (t.wi env wid event reason actor).db.bindings = t.db.bindings := by
  rw [Tx.wi_db]
  refine bindings_append (bound_modifyItem (wiRow_bound event reason) wid) rfl rfl fun e he => ?_
  cases hi : t.db.workItems.get? wid with
  | none =>
    rw [hi] at he
    cases he
  | some item =>
    rw [hi] at he
    cases hname : e.event with
    | workItem event' =>
      rcases (Tx.wiLog_entry he hname).2.2 with rfl | rfl
      · exact h
      · rfl
    | _ => rfl

@[simp] theorem bindings_findingFrom (fid : Nat) (before : FindingState) (event : FindingEvent) (reason actor : String)
    (runId : Option Nat) : (t.findingFrom env fid before event reason actor runId).1.db.bindings = t.db.bindings := by
  rw [Tx.findingFrom_db]
  refine bindings_append rfl rfl rfl fun e he => ?_
  rw [List.mem_singleton.mp he]
  unfold Tx.findingLog
  split <;> rfl

@[simp] theorem bindings_finding (fid : Nat) (event : FindingEvent) (reason actor : String) (runId : Option Nat) :
    (t.finding env fid event reason actor runId).1.db.bindings = t.db.bindings := by
  unfold Tx.finding
  split
  · rfl
  · exact bindings_findingFrom ..

theorem bindings_foldl {α : Type*} {f : Tx → α → Tx} (hf : ∀ t a, (f t a).db.bindings = t.db.bindings)
    (l : List α) (t : Tx) :
    (l.foldl f t).db.bindings = t.db.bindings := by
  induction l generalizing t with
  | nil => rfl
  | cons a l ih => exact (ih (f t a)).trans (hf t a)

end Operations

/-! ## Units -/

section Units

variable {env : Env} {t : Tx} {wid pid : Nat} {pr : PullRequestInfo} {checks : List CheckRun} {cmp : Compare}
  {ev : Evidence}

@[simp] theorem bindings_raiseLevel (level : LifecycleLevel) (why : String) :
    (raiseLevel env t wid pid level why).db.bindings = t.db.bindings := by
  unfold raiseLevel
  dsimp only
  split
  · split <;> simp
  · simp

@[simp] theorem bindings_resetLevel (level : LifecycleLevel) (why : String) :
    (resetLevel env t wid pid level why).db.bindings = t.db.bindings := by
  unfold resetLevel
  dsimp only
  split
  · split <;> simp
  · simp

@[simp] theorem bindings_applyNewHead (row : PullRequest) :
    (applyNewHead env t wid pid row pr).db.bindings = t.db.bindings := by
  unfold applyNewHead reverifyNewHead
  dsimp only
  split
  · rfl
  · split
    · split <;> simp
    · simp

@[simp] theorem bindings_recordDepth (headSha : String) :
    (recordDepth env t wid pid headSha checks).db.bindings = t.db.bindings := by
  unfold recordDepth
  split
  · dsimp only
    have hloop (records : List CheckRecord) :
        (records.foldl (recordComponent env pid headSha) t).db.bindings = t.db.bindings :=
      bindings_foldl (f := recordComponent env pid headSha) (fun _ _ => rfl) records t
    split <;> simp [hloop, -List.foldl_append]
  · rfl

@[simp] theorem bindings_checksSeen : (checksSeen env t wid pid pr checks).db.bindings = t.db.bindings := by
  unfold checksSeen
  dsimp only
  have hloop : (checks.foldl (recordCheck env pid pr.headSha) t).db.bindings = t.db.bindings :=
    bindings_foldl (f := recordCheck env pid pr.headSha) (fun _ _ => rfl) checks t
  split <;> simp [hloop]

@[simp] theorem bindings_retryOrFail : (retryOrFail env t wid pid pr checks).db.bindings = t.db.bindings := by
  unfold retryOrFail
  dsimp only
  split
  · simp
  · split
    · split
      · simp
      · split <;> split <;> simp
    · simp

@[simp] theorem bindings_reviewTimeout (head why : String) :
    (reviewTimeout env t wid head why).db.bindings = t.db.bindings := by
  unfold reviewTimeout
  dsimp only
  split
  · split <;> simp
  · rfl

@[simp] theorem bindings_observeReview (head : String) (snap : ReviewSnapshot) :
    (observeReview env t wid pid head snap).db.bindings = t.db.bindings := by
  unfold observeReview
  dsimp only
  split
  · simp
  · split <;> simp

@[simp] theorem bindings_triggerReview (reason : String) (answer : Except String ReviewSnapshot) :
    (triggerReview env t wid pid pr reason answer).db.bindings = t.db.bindings := by
  unfold triggerReview
  split <;> simp

@[simp] theorem bindings_checkReview (answers : PrAnswers) :
    (checkReview env t wid pid pr answers).db.bindings = t.db.bindings := by
  unfold checkReview
  dsimp only
  split
  · simp
  · simp
  · split
    · split <;> simp
    · simp
    · simp

@[simp] theorem bindings_checkApproval (reviews : List Review) :
    (checkApproval env t wid pid pr reviews).db.bindings = t.db.bindings := by
  unfold checkApproval
  split
  · rfl
  · split <;> simp

@[simp] theorem bindings_applyGreen (answers : PrAnswers) :
    (applyGreen env t wid pid pr answers).db.bindings = t.db.bindings := by
  unfold applyGreen reviewWaiting checksPassed
  dsimp only
  repeat' split
  all_goals simp

@[simp] theorem bindings_applyChecks (answers : PrAnswers) :
    (applyChecks env t wid pid pr checks answers).db.bindings = t.db.bindings := by
  unfold applyChecks
  dsimp only
  split
  · split <;> simp
  · simp
  · simp

/-! ## Closing units -/

@[simp] theorem bindings_closeMember (item : WorkItem) (acc : Judged) (fid : Nat) :
    (closeMember env cmp ev item acc fid).1.db.bindings = acc.1.db.bindings := by
  unfold closeMember
  split
  · rfl
  · dsimp only
    split <;> simp

theorem bindings_judgeMembers (item : WorkItem) :
    (judgeMembers env cmp ev t wid item).1.db.bindings = t.db.bindings := by
  unfold judgeMembers
  generalize hacc : ((t, []) : Judged) = acc
  rw [show t = acc.1 by rw [← hacc]]
  clear hacc
  induction (acc.1.db.members wid) generalizing acc with
  | nil => rfl
  | cons fid l ih => exact (ih _).trans (bindings_closeMember item acc fid)

@[simp] theorem bindings_settleItem (outcomes : List (Nat × ClosingOutcome × List String)) :
    (settleItem env t wid ev outcomes).db.bindings = t.db.bindings := by
  have hlevel (t : Tx) : (raiseVerified env t wid ev.run).db.bindings = t.db.bindings := by
    unfold raiseVerified
    split
    · simp
    · refine bindings_modifyItem (fun w => ?_) wid
      split <;> rfl
  have hbegin : (beginRescan env t wid ev.run).db.bindings = t.db.bindings := by
    unfold beginRescan
    split <;> simp
  have hblock (still : List Nat) (t : Tx) : (still.foldl (blockMember env ev.run) t).db.bindings = t.db.bindings :=
    bindings_foldl (fun _ _ => by simp [blockMember]) still t
  unfold settleItem invalidRun verifyItem stillPresent
  dsimp only
  repeat' split
  all_goals simp [hlevel, hbegin, hblock]

@[simp] theorem bindings_closeWorkItem : (closeWorkItem env cmp ev t wid).db.bindings = t.db.bindings := by
  unfold closeWorkItem
  split
  · rfl
  · exact (bindings_settleItem _).trans (bindings_judgeMembers _)

@[simp] theorem bindings_closeFromAppliedRuns : (closeFromAppliedRuns env cmp t wid).db.bindings = t.db.bindings := by
  unfold closeFromAppliedRuns
  split
  · rfl
  · refine bindings_foldl (fun t rid => ?_) _ t
    unfold replayRun
    split
    · split <;> simp
    · rfl

@[simp] theorem bindings_applyMerge : (applyMerge env t wid pid pr cmp).db.bindings = t.db.bindings := by
  have hloop (sha : String) (fids : List Nat) (t : Tx) :
      (fids.foldl (mergeMember env sha) t).db.bindings = t.db.bindings :=
    bindings_foldl (fun _ _ => by simp [mergeMember]) fids t
  have hrecorded : (blockUnverified env (recordMerge env t wid pid pr) wid).db.bindings = t.db.bindings := by
    unfold blockUnverified recordMerge
    dsimp only
    split <;> simp
  unfold applyMerge completeMerge
  dsimp only
  split <;> simp [hloop, hrecorded]

theorem bindings_pollPullRequest (number : Nat) (answers : PrAnswers) :
    (pollPullRequest env wid number pr checks answers t).db.bindings = t.db.bindings := by
  unfold pollPullRequest
  split
  · rfl
  · split
    · rfl
    · split
      · rfl
      · split
        · unfold applyPr
          dsimp only
          repeat' split
          all_goals simp
        · rfl

end Units

/-! ## The other units -/

section Units

variable {env : Env} {t : Tx} {wid pid : Nat} {cmp : Compare} {ev : Evidence}

theorem bindings_reopenFinding (fid : Nat) (f : Finding) :
    (reopenFinding env ev t fid f).db.bindings = t.db.bindings := by
  unfold reopenFinding
  dsimp only
  repeat' split
  all_goals simp

theorem bindings_driftFinding (present : List (String × String × Option String × String))
    (acc : Tx × List Nat) (fid : Nat) :
    (driftFinding env ev present acc fid).1.db.bindings = acc.1.db.bindings := by
  unfold driftFinding
  split
  · rfl
  · rename_i f _
    split
    · rfl
    · split
      · rfl
      · dsimp only
        split
        · rfl
        · have hfired := @bindings_finding env acc.1 fid .closingAbsent
            ("absent in run " ++ ev.run.externalRunId ++ " (no remediation)") "scanner" (some ev.rid)
          revert hfired
          generalize acc.1.finding env fid .closingAbsent _ _ _ = p
          intro hfired
          dsimp only
          split <;> simp [hfired]

theorem bindings_regressions : (regressions env cmp ev t).db.bindings = t.db.bindings := by
  unfold regressions
  dsimp only
  split
  · rfl
  · refine bindings_foldl (fun t fid => ?_) _ t
    unfold regressFinding
    repeat' split
    all_goals simp [bindings_reopenFinding]

theorem bindings_drift : (drift env ev t).db.bindings = t.db.bindings := by
  have hloop (present : List (String × String × Option String × String)) (fids : List Nat) (acc : Tx × List Nat) :
      (fids.foldl (driftFinding env ev present) acc).1.db.bindings = acc.1.db.bindings := by
    induction fids generalizing acc with
    | nil => rfl
    | cons fid fids ih => exact (ih _).trans (bindings_driftFinding present acc fid)
  have hsupersede (t : Tx) (wid : Nat) : (supersedeItem env ev t wid).db.bindings = t.db.bindings := by
    unfold supersedeItem
    dsimp only
    repeat' split
    all_goals simp
  exact (bindings_foldl hsupersede _ _).trans (hloop ..)

theorem bindings_applyScanRun (rid : Nat) : (applyScanRun env cmp rid t).db.bindings = t.db.bindings := by
  unfold applyScanRun
  split
  · split
    · rfl
    · exact (bindings_drift.trans bindings_regressions).trans (bindings_foldl (fun _ _ => bindings_closeWorkItem) _ t)
  · rfl

theorem bindings_groupFindings (rid : Nat) (kind : Kind) (key : String) (ids : List Nat) :
    (groupFindings env rid kind key ids t).db.bindings = t.db.bindings := by
  have hcreate (key : String) (members : List Finding) (regressionOf : Option Nat) :
      (createItem env t kind key members regressionOf).1.db.bindings = t.db.bindings := by
    have hfresh : (newWorkItem env kind key members regressionOf).activeSessionId = none := rfl
    simp [createItem, hfresh]
  have hgroup (members : List Finding) : (workItemForGroup env t kind key members).1.db.bindings = t.db.bindings := by
    unfold workItemForGroup
    dsimp only
    split
    · exact hcreate ..
    · split
      · exact hcreate ..
      · rfl
  have hjoined (wid : Nat) (joining : List Finding) (t : Tx) :
      (membersJoined env t wid joining).db.bindings = t.db.bindings := by
    unfold membersJoined
    dsimp only
    repeat' split
    all_goals simp
  have hjoin (wid : Nat) (groupKey : String) (fids : List Nat) (t : Tx) :
      (fids.foldl (joinItem env wid groupKey) t).db.bindings = t.db.bindings :=
    bindings_foldl (fun _ _ => by simp [joinItem]) fids t
  unfold groupFindings
  dsimp only
  split
  · rfl
  · rw [hjoin]
    split
    · rw [hjoined, hgroup]
    · rw [hgroup]

theorem bindings_openIssue (existing : Option (List (String × Issue))) (relisted : Option (List Issue))
    (created : Except String Issue) :
    (openIssue env t wid existing relisted created).1.db.bindings = t.db.bindings := by
  unfold openIssue bindIssue
  dsimp only
  repeat' split
  all_goals simp

theorem bindings_dispatchCandidate (issue : Nat) (severity : Severity) (labels : List String) :
    (dispatchCandidate env t wid issue severity labels).1.db.bindings = t.db.bindings := by
  unfold dispatchCandidate reserve
  dsimp only
  repeat' split
  all_goals simp

theorem bindings_dispatchFailed (reason : String) : (dispatchFailed env t wid reason).db.bindings = t.db.bindings := by
  unfold dispatchFailed
  dsimp only
  split <;> simp

theorem bindings_launchReserve (issue : Nat) (item : WorkItem) (operator : String) (answers : LaunchAnswers) :
    (launchReserve env t wid issue item operator answers).1.db.bindings = t.db.bindings := by
  unfold launchReserve launchFailed reserve
  dsimp only
  repeat' split
  all_goals simp

theorem bindings_cancelRequest (operator : String) :
    (cancelRequest env t wid operator).1.db.bindings = t.db.bindings := by
  unfold cancelRequest
  dsimp only
  repeat' split
  all_goals simp

theorem bindings_cancelAnswer (row : Nat) (operator : String) (answer : Except String SessionSnapshot) :
    (cancelAnswer env t wid row operator answer).db.bindings = t.db.bindings := by
  unfold cancelAnswer snapshotRow
  dsimp only
  repeat' split
  all_goals simp

theorem bindings_pollSession (sid : String) (snap : SessionSnapshot) (answers : SessionAnswers) :
    (pollSession env wid sid snap answers t).db.bindings = t.db.bindings := by
  have hrecord (t : Tx) (pr : PullRequestInfo) : (recordPr env t wid pr).db.bindings = t.db.bindings := by
    unfold recordPr
    dsimp only
    split <;> simp
  have hsend (t : Tx) (row : Nat) (session message : String) :
      (sendMessage t row session message).db.bindings = t.db.bindings := by
    simp [sendMessage]
  have hpost (t : Tx) (item : WorkItem) : (postDisagreementVerdict t item snap).db.bindings = t.db.bindings := by
    unfold postDisagreementVerdict
    dsimp only
    split <;> rfl
  have hdecide (t : Tx) (row : Nat) (item : WorkItem) (facts : SnapshotFacts) (result : Assessment) :
      (applyDecision env t wid row item snap facts result).db.bindings = t.db.bindings := by
    unfold applyDecision
    dsimp only
    repeat' split
    all_goals simp [hrecord, hsend, hpost]
  unfold pollSession
  split
  · rfl
  · split
    · rfl
    · split
      · simp
      · split
        · unfold applySnapshot snapshotRow
          dsimp only
          simp [hdecide]
        · rfl

end Units

/-! ## Items under the care of a session -/

/-- The states from the start of a session to the merge of its pull request. -/
def attendedStates : List WorkItemState :=
  [.sessionActive, .prOpen, .checksRunning, .checksFailed, .reviewPending, .readyForHuman]

def Db.attended (db : Db) (wid : Nat) : Prop := ∃ s, db.itemState wid = some s ∧ s ∈ attendedStates

/-- Only the start of a session brings an item under its care. -/
theorem next_attended {s s' : WorkItemState} {e : WorkItemEvent} (h : nextWorkItemState s e = some s')
    (hs' : s' ∈ attendedStates) : s ∈ attendedStates ∨ e.starts = true := by
  have hall : ∀ row ∈ workItemTransitions, row.2 ∈ attendedStates → row.1.1 ∈ attendedStates ∨
    row.1.2.starts = true := by
    decide
  exact hall _ (mem_of_lookup h) hs'

section Care

variable {env : Env} {S : Scope} {tx t : Tx} {wid : Nat}

/-- The log of starts grows, and an item that came under the care of a session was there before or is on it. -/
theorem Acts.attended_back (h : Acts env S tx t) : ∃ l, t.db.starts = tx.db.starts ++ l ∧
    (l = [] → t.db.attended wid → tx.db.attended wid) := by
  have hkeep {t t' : Tx} {logs : List Event} (hlog : t'.db.events = t.db.events ++ logs)
      (hs : logs.filter (fun e => e.event.starts) = [] → t'.db.attended wid → t.db.attended wid)
      (ih : ∃ l, t.db.starts = tx.db.starts ++ l ∧ (l = [] → t.db.attended wid → tx.db.attended wid)) :
      ∃ l, t'.db.starts = tx.db.starts ++ l ∧ (l = [] → t'.db.attended wid → tx.db.attended wid) := by
    obtain ⟨l, hl, hback⟩ := ih
    refine ⟨l ++ logs.filter fun e => e.event.starts, ?_, fun hnone ha => ?_⟩
    · rw [Db.starts, hlog, List.filter_append, ← List.append_assoc, ← hl]
      rfl
    · obtain ⟨hnone, hlogs⟩ := List.append_eq_nil_iff.mp hnone
      exact hback hnone (hs hlogs ha)
  have hone {t t' : Tx} (ha : Acts env .unfired t t') (h' : t'.db.attended wid) : t.db.attended wid := by
    obtain ⟨s', hs', hmem⟩ := h'
    refine ha.state_back (· ∈ attendedStates) (fun _ => by decide) (fun s e s' he hn hs' => ?_) hs' hmem
    rcases he with he | rfl
    · exact he.elim
    · exact (next_attended hn hs').resolve_right (by decide)
  have hsilent {t t' : Tx} (ha : Acts env .unfired t t') (hlog : t'.db.events = t.db.events) :=
    @hkeep t t' [] (by rw [hlog, List.append_nil]) fun _ => hone ha
  induction h with
  | refl => exact ⟨[], (List.append_nil _).symm, fun _ => id⟩
  | quiet _ hq ih =>
    obtain ⟨logs, hlogs, -⟩ := hq.events
    exact hkeep hlogs (fun _ => hone (Acts.refl.quiet hq)) ih
  | editItem _ _ hf ih => exact hsilent (Acts.refl.editItem trivial fun w => .stay (hf w).core (hf w).state) rfl ih
  | editPull _ pid _ _ _ ih =>
    exact hsilent (Acts.refl.editPull pid (Or.inl trivial) (Or.inl trivial) (Or.inl trivial)) rfl ih
  | insertPull _ _ _ hrow ih => exact hsilent (Acts.refl.insertPull trivial trivial hrow) rfl ih
  | insertItem _ _ hi ih => exact hsilent (Acts.refl.insertItem trivial hi) rfl ih
  | own _ _ _ ih => exact hsilent (Acts.refl.own trivial (Or.inl trivial)) rfl ih
  | @findingFrom t _ fid _ before _ e _ reason actor runId ih =>
    refine hkeep (by rw [Tx.findingFrom_db]) (fun _ => hone ?_) ih
    exact Acts.refl.findingFrom trivial (Or.inl trivial) (Or.inl trivial) ..
  | @wi t _ w _ e _ reason actor ih =>
    refine hkeep (by rw [Tx.wi_db]) (fun hnone ha => ?_) ih
    obtain ⟨s', hs', hmem⟩ := ha
    simp only [Db.itemState, Tx.wi_db, Table.get?_modify] at hs'
    split at hs'
    · rename_i hw
      subst hw
      obtain ⟨row, hrow, rfl⟩ := Option.map_eq_some_iff.mp hs'
      obtain ⟨item, hi, rfl⟩ := Option.map_eq_some_iff.mp hrow
      refine ⟨item.state, by rw [Db.itemState, hi, Option.map_some], ?_⟩
      rcases Tx.wiRow_state env e reason item with hs | hs | hs
      · refine (next_attended hs.symm hmem).resolve_right fun hstarts => ?_
        rw [hi, Option.elim, Tx.wiLog, ← hs] at hnone
        simp [EventName.starts, hstarts] at hnone
      · exact (next_attended hs.symm hmem).resolve_right (by decide)
      · exact hs ▸ hmem
    · exact ⟨s', hs', hmem⟩

/-- Without a start on the log no item comes under the care of a session. -/
theorem Acts.attended_of_starts (h : Acts env S tx t) (hs : t.db.starts = tx.db.starts) (ha : t.db.attended wid) :
    tx.db.attended wid := by
  obtain ⟨l, hl, hback⟩ := @Acts.attended_back env S tx t wid h
  exact hback (List.append_right_eq_self.mp (hl.symm.trans hs)) ha

end Care

/-! ## What binds an item -/

/-- An item is bound to a session, which is on record. -/
structure BindsSession (db db' : Db) (wid : Nat) (sid : String) : Prop where
  bound : db'.bound = Function.update db.bound wid (some sid)
  recorded : sid ∈ db'.bindings.2.1
  keeps : db.bindings.2.1 ⊆ db'.bindings.2.1

section Binding

variable {env : Env} {tx t : Tx} {wid : Nat} {sid : String} {item : WorkItem} {snap : SessionSnapshot}

theorem BindsSession.bindings {db db' db'' : Db} (h : BindsSession db db' wid sid) (he : db''.bindings = db'.bindings) :
    BindsSession db db'' wid sid :=
  ⟨(congrArg Prod.fst he).trans h.bound, congrArg (fun b => b.2.1) he ▸ h.recorded,
    congrArg (fun b => b.2.1) he ▸ h.keeps⟩

theorem BindsSession.wi {db : Db} (h : BindsSession db t.db wid sid) (k : Nat) (event : WorkItemEvent)
    (reason actor : String) :
    BindsSession db (t.wi env k event reason actor).db wid sid := by
  rw [Tx.wi_db]
  exact ⟨(bound_modifyItem (wiRow_bound event reason) k).trans h.bound, h.recorded, h.keeps⟩

/-- An edit of the item's session. -/
theorem bound_rebind (hi : t.db.workItems.get? wid = some item) {f : WorkItem → WorkItem} {session : Option String}
    (hf : ∀ w, (f w).activeSessionId = session) :
    (t.modifyItem wid f).db.bound = Function.update t.db.bound wid session := by
  funext k
  simp only [Db.bound, Tx.modifyItem, Table.get?_modify, Function.update_apply]
  split
  · rename_i hk
    rw [hk, hi]
    exact hf item
  · rfl

theorem recordSession_binds (hi : tx.db.workItems.get? wid = some item) (adopted : Bool) :
    BindsSession tx.db (recordSession env tx wid snap adopted).db wid snap.sessionId := by
  unfold recordSession
  rw [hi]
  dsimp only
  have hedit (t : Tx) (hitems : t.db.workItems = tx.db.workItems) : (t.modifyItem wid fun w =>
      { w with activeSessionId := some snap.sessionId, budgetWarningSent := false }).db.bound =
        Function.update tx.db.bound wid (some snap.sessionId) := by
    have hsame : t.db.bound = tx.db.bound := by
      unfold Db.bound
      rw [hitems]
    rw [← hsame]
    exact bound_rebind (hitems ▸ hi) fun _ => rfl
  cases hfirst : tx.db.sessions.first fun s => s.devinId == snap.sessionId with
  | some row =>
    obtain ⟨session, hrow, hid⟩ := Table.first_eq_some hfirst
    refine ⟨hedit tx rfl, ?_, fun _ h => h⟩
    exact List.mem_map.mpr ⟨session, Table.mem_rows hrow, eq_of_beq hid⟩
  | none =>
    refine ⟨hedit _ rfl, ?_, fun x hx => ?_⟩
    · exact List.mem_map.mpr ⟨_, List.mem_append_right _ List.mem_cons_self, rfl⟩
    · obtain ⟨session, hs, rfl⟩ := List.mem_map.mp hx
      exact List.mem_map.mpr ⟨session, List.mem_append_left _ hs, rfl⟩

theorem createSession_binds (hi : tx.db.workItems.get? wid = some item) (members : List (Nat × Finding))
    (commented : Except String Unit) :
    BindsSession tx.db (createSession env tx wid members (.ok snap) commented).db wid snap.sessionId := by
  unfold createSession
  dsimp only
  set t := members.foldl _ _ with ht
  have h : BindsSession tx.db t.db wid snap.sessionId := by
    have hstart (t : Tx) : (members.foldl (startRemediation env snap.sessionId) t).db.bindings = t.db.bindings :=
      bindings_foldl (fun t m => bindings_findingFrom ..) members t
    have hcalled (call : Call) :
        BindsSession tx.db (recordSession env (tx.answered call) wid snap false).db wid snap.sessionId :=
      @recordSession_binds _ (tx.answered call) _ _ _ hi false
    exact ((hcalled _).wi ..).bindings (hstart _)
  split
  · exact h
  · split
    · exact h.bindings rfl
    · exact h.bindings (bindings_log ..)
    · exact h

end Binding

end HardeningLoop
