import HardeningLoop.Domain.Enums

/-!
# The lifecycle tables of work items and findings

`workItemTransitions` and `findingTransitions` are the two dictionaries of the source, entry by entry; a pair that is
not in its table has no next state. The lemmas are what the engine's proofs read off the tables: every non-closing
finding has an edge to `fixed` (`next_closingAbsent`), which states have the edges of the other two closing outcomes,
and that a closing state is left only by `reappeared` (from `fixed`) and `human_reopened`.
-/

namespace HardeningLoop

inductive WorkItemEvent where
  | dispatchApproved | issueCreated | dispatchStarted | sessionCreated | sessionAdopted | dispatchFailed | prOpened
  | checksStarted | checksGreen | checksRed | retrySent | retriesExhausted | newHeadPushed | reviewCompleted
  | reviewNotObserved | humanMerged | prClosedUnmerged | rescanStarted | rescanVerified | rescanShowsPresent | blocked
  | humanRetry | operatorCancelled | humanAbandoned | humanResolved | superseded
  deriving DecidableEq, Repr

def WorkItemEvent.value : WorkItemEvent → String
  | .dispatchApproved => "dispatch_approved"
  | .issueCreated => "issue_created"
  | .dispatchStarted => "dispatch_started"
  | .sessionCreated => "session_created"
  | .sessionAdopted => "session_adopted"
  | .dispatchFailed => "dispatch_failed"
  | .prOpened => "pr_opened"
  | .checksStarted => "checks_started"
  | .checksGreen => "checks_green"
  | .checksRed => "checks_red"
  | .retrySent => "retry_sent"
  | .retriesExhausted => "retries_exhausted"
  | .newHeadPushed => "new_head_pushed"
  | .reviewCompleted => "review_completed"
  | .reviewNotObserved => "review_not_observed"
  | .humanMerged => "human_merged"
  | .prClosedUnmerged => "pr_closed_unmerged"
  | .rescanStarted => "rescan_started"
  | .rescanVerified => "rescan_verified"
  | .rescanShowsPresent => "rescan_shows_present"
  | .blocked => "blocked"
  | .humanRetry => "human_retry"
  | .operatorCancelled => "operator_cancelled"
  | .humanAbandoned => "human_abandoned"
  | .humanResolved => "human_resolved"
  | .superseded => "superseded"

/-- `WORK_ITEM_TRANSITIONS`. -/
def workItemTransitions : List ((WorkItemState × WorkItemEvent) × WorkItemState) := [
  ((.queued, .dispatchApproved), .queued),
  ((.queued, .issueCreated), .issueOpen),
  ((.queued, .humanAbandoned), .abandoned),
  ((.queued, .superseded), .abandoned),
  ((.issueOpen, .superseded), .abandoned),
  ((.issueOpen, .dispatchStarted), .dispatching),
  ((.issueOpen, .humanAbandoned), .abandoned),
  ((.issueOpen, .blocked), .needsHuman),
  ((.dispatching, .sessionCreated), .sessionActive),
  ((.dispatching, .sessionAdopted), .sessionActive),
  ((.dispatching, .dispatchFailed), .issueOpen),
  ((.dispatching, .blocked), .needsHuman),
  ((.sessionActive, .prOpened), .prOpen),
  ((.sessionActive, .blocked), .needsHuman),
  ((.sessionActive, .operatorCancelled), .needsHuman),
  ((.sessionActive, .retriesExhausted), .failed),
  ((.prOpen, .checksStarted), .checksRunning),
  ((.prOpen, .blocked), .needsHuman),
  ((.prOpen, .prClosedUnmerged), .needsHuman),
  ((.checksRunning, .checksGreen), .reviewPending),
  ((.checksRunning, .checksRed), .checksFailed),
  ((.checksRunning, .blocked), .needsHuman),
  ((.checksRunning, .prClosedUnmerged), .needsHuman),
  ((.checksFailed, .retrySent), .sessionActive),
  ((.checksFailed, .retriesExhausted), .failed),
  ((.checksFailed, .blocked), .needsHuman),
  ((.reviewPending, .reviewCompleted), .readyForHuman),
  ((.reviewPending, .reviewNotObserved), .needsHuman),
  ((.reviewPending, .checksRed), .checksFailed),
  ((.reviewPending, .blocked), .needsHuman),
  ((.reviewPending, .prClosedUnmerged), .needsHuman),
  ((.reviewPending, .newHeadPushed), .checksRunning),
  ((.readyForHuman, .humanMerged), .merged),
  ((.readyForHuman, .checksRed), .checksFailed),
  ((.readyForHuman, .prClosedUnmerged), .needsHuman),
  ((.readyForHuman, .humanAbandoned), .abandoned),
  ((.readyForHuman, .blocked), .needsHuman),
  ((.readyForHuman, .newHeadPushed), .checksRunning),
  ((.merged, .rescanStarted), .awaitingRescan),
  ((.awaitingRescan, .rescanVerified), .verified),
  ((.awaitingRescan, .rescanShowsPresent), .needsHuman),
  ((.awaitingRescan, .rescanStarted), .awaitingRescan),
  ((.needsHuman, .humanRetry), .issueOpen),
  ((.needsHuman, .humanAbandoned), .abandoned),
  ((.needsHuman, .humanResolved), .awaitingRescan),
  ((.needsHuman, .humanMerged), .merged),
  ((.failed, .humanRetry), .issueOpen),
  ((.failed, .humanAbandoned), .abandoned)]

/-- `next_work_item_state`; `none` is `InvalidTransitionError`. -/
def nextWorkItemState (s : WorkItemState) (e : WorkItemEvent) : Option WorkItemState :=
  workItemTransitions.lookup (s, e)

/-- `HUMAN_ATTENTION_STATES`: the states that carry the `needs-human` label. -/
def humanAttentionStates : List WorkItemState := [.needsHuman, .failed]

inductive FindingEvent where
  | classified | unclassifiable | grouped | remediationStarted | prMerged | closingAbsent | closingVex
  | disagreementResolved | reappeared | humanBlocked | humanReopened | reclassified
  deriving DecidableEq, Repr

def FindingEvent.value : FindingEvent → String
  | .classified => "classified"
  | .unclassifiable => "unclassifiable"
  | .grouped => "grouped"
  | .remediationStarted => "remediation_started"
  | .prMerged => "pr_merged"
  | .closingAbsent => "closing_absent"
  | .closingVex => "closing_vex"
  | .disagreementResolved => "disagreement_resolved"
  | .reappeared => "reappeared"
  | .humanBlocked => "human_blocked"
  | .humanReopened => "human_reopened"
  | .reclassified => "reclassified"

/-- `FINDING_TRANSITIONS`. -/
def findingTransitions : List ((FindingState × FindingEvent) × FindingState) := [
  ((.«open», .classified), .«open»),
  ((.«open», .unclassifiable), .unclassified),
  ((.«open», .grouped), .grouped),
  ((.«open», .closingAbsent), .fixed),
  ((.unclassified, .reclassified), .«open»),
  ((.unclassified, .closingAbsent), .fixed),
  ((.grouped, .remediationStarted), .inRemediation),
  ((.grouped, .humanBlocked), .humanBlocked),
  ((.grouped, .closingAbsent), .fixed),
  ((.inRemediation, .prMerged), .awaitingRescan),
  ((.inRemediation, .humanBlocked), .humanBlocked),
  ((.inRemediation, .disagreementResolved), .scannerDisagreementResolved),
  ((.inRemediation, .closingVex), .approvedDisposition),
  ((.inRemediation, .closingAbsent), .fixed),
  ((.awaitingRescan, .closingAbsent), .fixed),
  ((.awaitingRescan, .closingVex), .approvedDisposition),
  ((.awaitingRescan, .humanBlocked), .humanBlocked),
  ((.fixed, .reappeared), .regression),
  ((.approvedDisposition, .humanReopened), .«open»),
  ((.scannerDisagreementResolved, .humanReopened), .«open»),
  ((.regression, .grouped), .grouped),
  ((.regression, .closingAbsent), .fixed),
  ((.humanBlocked, .humanReopened), .«open»),
  ((.humanBlocked, .closingAbsent), .fixed),
  ((.humanBlocked, .closingVex), .approvedDisposition),
  ((.humanBlocked, .disagreementResolved), .scannerDisagreementResolved)]

/-- `next_finding_state`; `none` is `InvalidTransitionError`. -/
def nextFindingState (s : FindingState) (e : FindingEvent) : Option FindingState :=
  findingTransitions.lookup (s, e)

/-! ## What the tables say -/

theorem mem_of_lookup {κ α : Type*} [BEq κ] [LawfulBEq κ] {table : List (κ × α)} {k : κ} {a : α}
    (h : table.lookup k = some a) : (k, a) ∈ table := by
  induction table with
  | nil => cases h
  | cons row table ih =>
    obtain ⟨k', a'⟩ := row
    rw [List.lookup_cons] at h
    cases hk : k == k' with
    | true =>
      simp only [hk, Option.some.injEq] at h
      exact eq_of_beq hk ▸ h ▸ List.mem_cons_self
    | false =>
      simp only [hk] at h
      exact List.mem_cons_of_mem _ (ih h)

/-- Every finding that is not closed has an edge to `fixed`, and a closed one has none. -/
theorem next_closingAbsent (s : FindingState) :
    nextFindingState s .closingAbsent = if s.isClosing then none else some .fixed := by
  cases s <;> rfl

/-- Only a `fixed` finding can reappear. -/
theorem next_reappeared (s : FindingState) :
    nextFindingState s .reappeared = if s = .fixed then some .regression else none := by
  cases s <;> rfl

/-- A closing state is left only when the finding reappears or a human reopens it. -/
theorem next_of_closing {s : FindingState} {e : FindingEvent} (hs : s.isClosing = true) (hr : e ≠ .reappeared)
    (ho : e ≠ .humanReopened) : nextFindingState s e = none := by
  revert hs hr ho
  cases s <;> cases e <;> decide

/-- Only `closing_absent` leads to `fixed`. -/
theorem next_eq_fixed {s : FindingState} {e : FindingEvent} (h : nextFindingState s e = some .fixed) :
    e = .closingAbsent := by
  have hall : ∀ row ∈ findingTransitions, row.2 = FindingState.fixed → row.1.2 = .closingAbsent := by decide
  exact hall _ (mem_of_lookup h) rfl

/-- Only `dispatch_started` leads to `dispatching`. -/
theorem next_eq_dispatching {s : WorkItemState} {e : WorkItemEvent} (h : nextWorkItemState s e = some .dispatching) :
    e = .dispatchStarted := by
  have hall : ∀ row ∈ workItemTransitions, row.2 = WorkItemState.dispatching → row.1.2 = .dispatchStarted := by decide
  exact hall _ (mem_of_lookup h) rfl

/-- Only `rescan_verified` leads to `verified`. -/
theorem next_eq_verified {s : WorkItemState} {e : WorkItemEvent} (h : nextWorkItemState s e = some .verified) :
    e = .rescanVerified := by
  have hall : ∀ row ∈ workItemTransitions, row.2 = WorkItemState.verified → row.1.2 = .rescanVerified := by decide
  exact hall _ (mem_of_lookup h) rfl

/-- The edges into the active states: from one of them, by a reservation, or from `ready_for_human`. -/
theorem next_active {s s' : WorkItemState} {e : WorkItemEvent} (h : nextWorkItemState s e = some s')
    (hs' : s' ∈ activeWorkItemStates) :
    s ∈ activeWorkItemStates ∨ e = .dispatchStarted ∨ s = .readyForHuman ∧
    e ∈ [WorkItemEvent.checksRed, .newHeadPushed] := by
  have hall : ∀ row ∈ workItemTransitions, row.2 ∈ activeWorkItemStates → row.1.1 ∈ activeWorkItemStates ∨
      row.1.2 = .dispatchStarted ∨ row.1.1 = .readyForHuman ∧ row.1.2 ∈ [WorkItemEvent.checksRed, .newHeadPushed] := by
    decide
  exact hall _ (mem_of_lookup h) hs'

/-- Only `review_completed` leads to `ready_for_human`. -/
theorem next_eq_readyForHuman {s : WorkItemState} {e : WorkItemEvent}
    (h : nextWorkItemState s e = some .readyForHuman) :
    e = .reviewCompleted := by
  have hall : ∀ row ∈ workItemTransitions, row.2 = WorkItemState.readyForHuman → row.1.2 = .reviewCompleted := by decide
  exact hall _ (mem_of_lookup h) rfl

/-- Only a review that is pending leads to `ready_for_human`. -/
theorem next_readyForHuman {s : WorkItemState} {e : WorkItemEvent} (h : nextWorkItemState s e = some .readyForHuman) :
    s = .reviewPending := by
  have hall : ∀ row ∈ workItemTransitions, row.2 = WorkItemState.readyForHuman → row.1.1 = .reviewPending := by decide
  exact hall _ (mem_of_lookup h) rfl

end HardeningLoop
