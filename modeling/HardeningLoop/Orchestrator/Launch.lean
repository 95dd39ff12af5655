import HardeningLoop.Orchestrator.Policy

/-!
# Operator launch and cancel

Whether an operator may launch or cancel a work item: pure functions of the item and the shared figures.
-/

namespace HardeningLoop

inductive LaunchAction where
  | launch | relaunch
  deriving DecidableEq, Repr

inductive LaunchBlock where
  | dispatchInProgress | sessionInFlight | awaitingHumanMerge | awaitingRescan | closed | atCapacity | overBudget
  | scanPending
  deriving DecidableEq, Repr

def LaunchBlock.value : LaunchBlock → String
  | .dispatchInProgress => "dispatch_in_progress"
  | .sessionInFlight => "session_in_flight"
  | .awaitingHumanMerge => "awaiting_human_merge"
  | .awaitingRescan => "awaiting_rescan"
  | .closed => "closed"
  | .atCapacity => "at_capacity"
  | .overBudget => "over_budget"
  | .scanPending => "scan_pending"

/-- `action_for`. -/
def actionFor : WorkItemState → Option LaunchAction × Option LaunchBlock
  | .queued | .issueOpen => (some .launch, none)
  | .needsHuman | .failed => (some .relaunch, none)
  | .dispatching => (none, some .dispatchInProgress)
  | .sessionActive | .prOpen | .checksRunning | .checksFailed | .reviewPending => (none, some .sessionInFlight)
  | .readyForHuman => (none, some .awaitingHumanMerge)
  | .merged | .awaitingRescan => (none, some .awaitingRescan)
  | .verified | .abandoned => (none, some .closed)

/-- The figures a launch is checked against. -/
structure LaunchFigures where
  pendingScans : Nat
  activeSessions : Nat
  acuConsumed : Acu
  acuOutstanding : Acu
  deriving DecidableEq, Repr

/-- `acu_consumed + acu_outstanding + acu_cap`. -/
def LaunchFigures.committedAfter (figures : LaunchFigures) (acuCap : Acu) : Acu :=
  Binary64.add (Binary64.add figures.acuConsumed figures.acuOutstanding) acuCap

/-- `preview`: the action and what blocks it. -/
def launchPreview (settings : Settings) (figures : LaunchFigures) (state : WorkItemState) (acuCap : Acu) :
    Option LaunchAction × Option LaunchBlock :=
  match actionFor state with
  | (some action, none) =>
    (some action,
      if figures.pendingScans ≠ 0 then some .scanPending
      else if figures.activeSessions ≥ settings.maxConcurrentSessions then some .atCapacity
      else if figures.committedAfter acuCap > settings.globalAcuBudget then some .overBudget
      else none)
  | p => p

/-- A preview that nothing blocks: the state has the action, and the figures leave room for the item. -/
theorem launchPreview_eq_some {settings : Settings} {figures : LaunchFigures} {state : WorkItemState} {acuCap : Acu}
    {action : LaunchAction} (h : launchPreview settings figures state acuCap = (some action, none)) :
    actionFor state = (some action, none) ∧ figures.pendingScans = 0 ∧
      figures.activeSessions < settings.maxConcurrentSessions ∧
        figures.committedAfter acuCap ≤ settings.globalAcuBudget := by
  unfold launchPreview at h
  split at h
  · rename_i a ha
    obtain ⟨haction, hblock⟩ := Prod.mk.inj h
    rw [ha, haction]
    split at hblock
    · cases hblock
    · rename_i hpending
      split at hblock
      · cases hblock
      · rename_i hactive
        split at hblock
        · cases hblock
        · rename_i hbudget
          exact ⟨rfl, not_not.mp hpending, not_le.mp hactive, not_lt.mp hbudget⟩
  · rename_i hno
    exact absurd h (hno action)

/-- Nothing is launched in the states of a session under way. -/
theorem actionFor_inactive {state : WorkItemState} {action : LaunchAction} (h : actionFor state = (some action, none)) :
    state ∉ activeWorkItemStates := by
  cases state <;> first | decide | cases h

inductive CancelBlock where
  | noSession | prRecorded | notActive
  deriving DecidableEq, Repr

def CancelBlock.value : CancelBlock → String
  | .noSession => "no_session"
  | .prRecorded => "pr_recorded"
  | .notActive => "not_active"

/-- `cancel_block_for`. -/
def cancelBlockFor (state : WorkItemState) (hasSession hasPr : Bool) : Option CancelBlock :=
  if state ≠ .sessionActive then some .notActive
  else if !hasSession then some .noSession
  else if hasPr then some .prRecorded
  else none

end HardeningLoop
