import HardeningLoop.Orchestrator.Engine.Events

/-!
# Human labels

`pollHumanLabel` reads what a human did on an item's issue: closed it, or set a label.
-/

namespace HardeningLoop

/-- `_HUMAN_LABEL_STATES`. -/
def humanLabelStates : List WorkItemState := [.needsHuman, .failed, .issueOpen, .readyForHuman]

/-- A member of an abandoned item. -/
def abandonMember (env : Env) (tx : Tx) (fid : Nat) : Tx :=
  (tx.finding env fid .humanBlocked "issue closed" "human" none).1

/-- A human accepts a resolution by its label. -/
def resolve (env : Env) (tx : Tx) (wid : Nat) (label : HumanLabel) : Tx :=
  (tx.modifyItem wid fun w => { w with humanResolution := some label.value }).wi env wid .humanResolved
    label.value "human"

/-- The labels of an item that waits for a human. -/
def applyLabels (env : Env) (tx : Tx) (wid : Nat) (item : WorkItem) (issue : Nat) (labels : List String) : Tx :=
  if HumanLabel.retry.value ∈ labels then
    ((tx.must (.removeLabel issue HumanLabel.retry.value)).modifyItem wid fun w =>
      { w with retriesUsed := 0, activeSessionId := none, blockedReason := none }).wi env wid .humanRetry "retry label"
        "human"
  else if HumanLabel.dispositionApproved.value ∈ labels && item.kind = .noFixReachability &&
      item.humanResolution.isNone then
    resolve env tx wid .dispositionApproved
  else if HumanLabel.disagreementResolved.value ∈ labels && item.kind = .scannerDisagreement &&
      item.humanResolution.isNone then
    resolve env tx wid .disagreementResolved
  else tx

/-- One item of `poll_human_labels`, with the issue as GitHub describes it. -/
def pollHumanLabel (env : Env) (wid number : Nat) (issueState : String) (labels : List String) (tx : Tx) : Tx :=
  match tx.db.workItems.get? wid with
  | none => tx
  | some item =>
    if item.state ∉ humanLabelStates || item.issueNumber ≠ some number then tx
    else if issueState = "closed" then
      let tx := tx.wi env wid .humanAbandoned "issue closed by human" "human"
      (tx.db.members wid).foldl (abandonMember env) tx
    else if item.state ∈ humanAttentionStates then applyLabels env tx wid item number labels
    else tx

end HardeningLoop
