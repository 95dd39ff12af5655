import HardeningLoop.Models.Tables

/-!
# Transactions, events and transitions

A unit of the engine is a function on a transaction `Tx`: the database as the unit sees it and the remote calls it has
made. A call made with `must` fails the unit when it raises, and the database is rolled back; the calls of an `attempt`
are caught, the first that raises ends the group. An `answered` call is one whose answer the unit was given as an
argument.

- `Tx.wi` and `Tx.finding` fire an event of a work item or a finding: the state, the event row and, for a work item, the
  `needs-human` label;
- `Tx.wi_db`, `Tx.findingFrom_db`: firing an event writes one row and the log, and nothing else.
-/

namespace HardeningLoop

open Rows (Table)

/-- What a unit of the engine is given besides the database. -/
structure Env where
  settings : Settings
  ext : External
  now : DateTime
  playbookIds : Kind → Option String := fun _ => none

/-- The remote calls that change something. -/
inductive Call where
  | addLabels (issue : Nat) (labels : List String)
  | removeLabel (issue : Nat) (label : String)
  | commentIssue (issue : Nat) (body : String)
  | closeIssue (issue : Nat)
  | reopenIssue (issue : Nat)
  | createIssue (title body : String) (labels : List String)
  | sendMessage (session message : String)
  | createSession (workItem : Nat) (maxAcuLimit : Acu)
  | terminateSession (session : String)
  | triggerReview (prUrl : String)
  deriving DecidableEq, Repr

inductive Effect where
  | must (call : Call)
  | attempt (calls : List Call)
  | answered (call : Call)
  deriving DecidableEq, Repr

/-- The calls of an effect. -/
def Effect.calls : Effect → List Call
  | .must call => [call]
  | .attempt calls => calls
  | .answered call => [call]

structure Tx where
  db : Db
  effects : List Effect := []
  counts : List (String × Nat) := []

namespace Tx

variable (env : Env) (tx : Tx)

/-- A call that fails the unit when it raises. -/
def must (call : Call) : Tx := { tx with effects := tx.effects ++ [.must call] }

/-- Calls whose exceptions are caught. -/
def attempt (calls : List Call) : Tx := { tx with effects := tx.effects ++ [.attempt calls] }

/-- A call whose answer the unit was given. -/
def answered (call : Call) : Tx := { tx with effects := tx.effects ++ [.answered call] }

/-- `counts[key] += 1`. -/
def tally (key : String) : Tx := { tx with counts := Dict.set tx.counts key ((Dict.get? tx.counts key).getD 0 + 1) }

def modifyItem (wid : Nat) (f : WorkItem → WorkItem) : Tx :=
  { tx with db := { tx.db with workItems := tx.db.workItems.modify wid f } }

def modifyFinding (fid : Nat) (f : Finding → Finding) : Tx :=
  { tx with db := { tx.db with findings := tx.db.findings.modify fid f } }

def modifySession (sid : Nat) (f : Session → Session) : Tx :=
  { tx with db := { tx.db with sessions := tx.db.sessions.modify sid f } }

def modifyPullRequest (pid : Nat) (f : PullRequest → PullRequest) : Tx :=
  { tx with db := { tx.db with pullRequests := tx.db.pullRequests.modify pid f } }

def insertItem (item : WorkItem) : Tx :=
  { tx with db := { tx.db with workItems := tx.db.workItems.insert item } }

def insertSession (session : Session) : Tx :=
  { tx with db := { tx.db with sessions := tx.db.sessions.insert session } }

def insertPoll (poll : SessionPoll) : Tx :=
  { tx with db := { tx.db with sessionPolls := tx.db.sessionPolls.insert poll } }

def insertPullRequest (row : PullRequest) : Tx :=
  { tx with db := { tx.db with pullRequests := tx.db.pullRequests.insert row } }

/-- `_event`. -/
def event (type : EntityType) (id : Nat) (name : EventName) (fromState toState : Option String) (reason : String)
    (actor : String) (evidenceIds : List Nat) : Tx :=
  { tx with db
      := { tx.db with events := tx.db.events ++ [⟨env.now, actor, type, id, name, fromState, toState, some reason,
      evidenceIds⟩] } }

/-- An event of a work item that changes no state. -/
def log (wid : Nat) (name : String) (state : WorkItemState) (reason actor : String) : Tx :=
  tx.event env .workItem wid (.log name) (some state.value) (some state.value) reason actor []

/-- `_sync_human_label`: the `needs-human` label follows the states that wait for a human. -/
def syncHumanLabel (issue : Option Nat) (blockedReason : Option String) (before after : WorkItemState) : Tx :=
  match issue with
  | none => tx
  | some n =>
    if after ∈ humanAttentionStates && before ∉ humanAttentionStates then
      tx.attempt [.addLabels n [HumanLabel.needsHuman.value], .commentIssue n
        ("**needs-human** (" ++ after.value ++ "): `" ++ (blockedReason.filter (· ≠ "")).getD "see events" ++ "`")]
    else if before ∈ humanAttentionStates && after ∉ humanAttentionStates then
      tx.attempt [.removeLabel n HumanLabel.needsHuman.value]
    else tx

/-- The row of a work item after a transition. -/
def moved (event : WorkItemEvent) (after : WorkItemState) (reason : String) (wi : WorkItem) : WorkItem :=
  { wi with
    state := after
    updatedAt := env.now
    blockedReason := if event = .blocked || after = .needsHuman then some reason else wi.blockedReason }

/-- The transition of a work item that its table has. -/
def wiFire (wid : Nat) (wi : WorkItem) (event : WorkItemEvent) (after : WorkItemState) (reason actor : String) : Tx :=
  ((tx.modifyItem wid (moved env event after reason)).event env .workItem wid (.workItem event) (some wi.state.value)
    (some after.value) reason actor []).syncHumanLabel wi.issueNumber (moved env event after reason wi).blockedReason
      wi.state after

/-- The text an invalid transition is recorded with. -/
def invalidText (state event reason : String) : String :=
  "invalid transition: " ++ state ++ " --" ++ event ++ "--> ?; reason=" ++ reason

/-- The reason an item is handed to a human for an event its table does not have. -/
def blockedText (state event : String) : String := "invalid_transition:" ++ state ++ ":" ++ event

/-- `_wi`: an event the table does not have is recorded, and the item is handed to a human if it can be. -/
def wi (wid : Nat) (event : WorkItemEvent) (reason actor : String) : Tx :=
  match tx.db.workItems.get? wid with
  | none => tx
  | some item =>
    match nextWorkItemState item.state event with
    | some after => tx.wiFire env wid item event after reason actor
    | none =>
      let tx := tx.log env wid "invalid_transition" item.state
        (invalidText item.state.value event.value reason) "controller"
      match nextWorkItemState item.state .blocked with
      | some after =>
        if item.state = .needsHuman then tx
        else tx.wiFire env wid item .blocked after
          (blockedText item.state.value event.value) "controller"
      | none => tx

/-- The row of a finding after a transition. -/
def settled (after : FindingState) (runId : Option Nat) (f : Finding) : Finding :=
  { f with
    state := after
    updatedAt := env.now
    closedByRunId := if after.isClosing && runId.isSome then runId else f.closedByRunId }

/-- `_finding`, for a row whose loaded state is `before`; whether the event is in the table. -/
def findingFrom (fid : Nat) (before : FindingState) (event : FindingEvent) (reason actor : String)
    (runId : Option Nat) : Tx × Bool :=
  match nextFindingState before event with
  | none =>
    (tx.event env .finding fid (.log "invalid_transition") (some before.value) (some before.value)
      (invalidText before.value event.value reason) "controller" [],
      false)
  | some after =>
    ((tx.modifyFinding fid (settled env after runId)).event env .finding fid (.finding event) (some before.value)
      (some after.value) reason actor runId.toList, true)

/-- `_finding`. -/
def finding (fid : Nat) (event : FindingEvent) (reason actor : String) (runId : Option Nat) : Tx × Bool :=
  match tx.db.findings.get? fid with
  | none => (tx, false)
  | some f => tx.findingFrom env fid f.state event reason actor runId

/-! ## What firing an event does -/

/-- The row of a work item after an event: what the table says, or the hand-over to a human. -/
def wiRow (event : WorkItemEvent) (reason : String) (item : WorkItem) : WorkItem :=
  match nextWorkItemState item.state event with
  | some after => moved env event after reason item
  | none =>
    match nextWorkItemState item.state .blocked with
    | some after =>
      if item.state = .needsHuman then item
      else moved env .blocked after (blockedText item.state.value event.value) item
    | none => item

theorem syncHumanLabel_db (issue : Option Nat) (blockedReason : Option String) (before after : WorkItemState) :
    (tx.syncHumanLabel issue blockedReason before after).db = tx.db := by
  unfold syncHumanLabel
  split
  · rfl
  · split
    · rfl
    · split <;> rfl

theorem wiFire_db (wid : Nat) (item : WorkItem) (event : WorkItemEvent) (after : WorkItemState)
    (reason actor : String) :
    (tx.wiFire env wid item event after reason actor).db =
      ((tx.modifyItem wid (moved env event after reason)).event env .workItem wid (.workItem event)
        (some item.state.value) (some after.value) reason actor []).db :=
  syncHumanLabel_db ..

/-- What an event of a work item records. -/
def wiLog (wid : Nat) (event : WorkItemEvent) (reason actor : String) (item : WorkItem) : List Event :=
  let entry (name : EventName) (after : WorkItemState) (reason actor : String) : Event :=
    ⟨env.now, actor, .workItem, wid, name, some item.state.value, some after.value, some reason, []⟩
  match nextWorkItemState item.state event with
  | some after => [entry (.workItem event) after reason actor]
  | none =>
    entry (.log "invalid_transition") item.state (invalidText item.state.value event.value reason) "controller" ::
    match nextWorkItemState item.state .blocked with
    | some after =>
      if item.state = .needsHuman then []
      else [entry (.workItem .blocked) after (blockedText item.state.value event.value) "controller"]
    | none => []

/-- The entries are of the item, and name the event or the hand-over to a human. -/
theorem wiLog_entry {env : Env} {wid : Nat} {event : WorkItemEvent} {reason actor : String}
    {item : WorkItem} {e : Event}
    (he : e ∈ wiLog env wid event reason actor item) {ev : WorkItemEvent} (hev : e.event = .workItem ev) :
    e.entityType = .workItem ∧ e.entityId = wid ∧ (ev = event ∨ ev = .blocked) := by
  unfold wiLog at he
  dsimp only at he
  split at he
  · obtain rfl := List.mem_singleton.mp he
    cases hev
    exact ⟨rfl, rfl, Or.inl rfl⟩
  · rcases List.mem_cons.mp he with rfl | he
    · cases hev
    · split at he
      · split at he
        · cases he
        · obtain rfl := List.mem_singleton.mp he
          cases hev
          exact ⟨rfl, rfl, Or.inr rfl⟩
      · cases he

/-- A firing writes nothing but the item's row and the log. -/
theorem wi_db (wid : Nat) (event : WorkItemEvent) (reason actor : String) :
    (tx.wi env wid event reason actor).db =
      { tx.db with
        workItems := tx.db.workItems.modify wid (wiRow env event reason)
        events := tx.db.events ++ (tx.db.workItems.get? wid).elim [] (wiLog env wid event reason actor) } := by
  unfold wi
  cases hi : tx.db.workItems.get? wid with
  | none => simp [Table.modify_of_none _ hi]
  | some item =>
    have hrow (g : WorkItem → WorkItem) (hg : wiRow env event reason item = g item) :
        tx.db.workItems.modify wid (wiRow env event reason) = tx.db.workItems.modify wid g :=
      Table.modify_congr fun w hw => by cases hi.symm.trans hw; exact hg
    have hsame (hg : wiRow env event reason item = item) :
        tx.db.workItems.modify wid (wiRow env event reason) = tx.db.workItems :=
      Table.modify_eq_self fun w hw => by cases hi.symm.trans hw; exact hg
    cases hn : nextWorkItemState item.state event with
    | some after =>
      have hr : wiRow env event reason item = moved env event after reason item := by simp only [wiRow, hn]
      simp only [hn, wiFire_db, hrow _ hr, Option.elim, wiLog]
      rfl
    | none =>
      cases hb : nextWorkItemState item.state .blocked with
      | none =>
        have hr : wiRow env event reason item = item := by simp only [wiRow, hn, hb]
        simp only [hn, hb, hsame hr, Option.elim, wiLog]
        rfl
      | some after =>
        by_cases hs : item.state = .needsHuman
        · rw [hs] at hb; cases hb
        · have hr : wiRow env event reason item =
              moved env .blocked after (blockedText item.state.value event.value) item := by
            simp only [wiRow, hn, hb, hs, if_false]
          simp only [hn, hb, hs, if_false, wiFire_db, hrow _ hr, Option.elim, wiLog, log, Tx.event, modifyItem,
            List.append_assoc, List.cons_append, List.nil_append]

/-- An event that the table has. -/
theorem wi_itemState {wid : Nat} {s after : WorkItemState} {event : WorkItemEvent} (hs : tx.db.itemState wid = some s)
    (hn : nextWorkItemState s event = some after) (reason actor : String) :
    (tx.wi env wid event reason actor).db.itemState wid = some after := by
  obtain ⟨item, hi, rfl⟩ := Option.map_eq_some_iff.mp hs
  simp only [Db.itemState, wi_db, Table.get?_modify_self, hi, Option.map_some, wiRow, hn]
  rfl

/-- The state after an event: what the table says for it, or for the hand-over, or the state before. -/
theorem wiRow_state (event : WorkItemEvent) (reason : String) (item : WorkItem) :
    some (wiRow env event reason item).state = nextWorkItemState item.state event ∨
      some (wiRow env event reason item).state = nextWorkItemState item.state .blocked ∨
        (wiRow env event reason item).state = item.state := by
  unfold wiRow
  cases hn : nextWorkItemState item.state event with
  | some after => exact Or.inl rfl
  | none =>
    cases hb : nextWorkItemState item.state .blocked with
    | none => exact Or.inr (Or.inr rfl)
    | some after =>
      by_cases hs : item.state = .needsHuman
      · exact Or.inr (Or.inr (by simp only [hs, if_true]))
      · exact Or.inr (Or.inl (by simp only [hs, if_false]; rfl))

/-- An event leaves alone which pull request an item tracks, and its level. -/
theorem wiRow_tracking (event : WorkItemEvent) (reason : String) (item : WorkItem) :
    (wiRow env event reason item).prNumber = item.prNumber ∧
      (wiRow env event reason item).lifecycleLevel = item.lifecycleLevel := by
  unfold wiRow
  split
  · exact ⟨rfl, rfl⟩
  · split
    · split <;> exact ⟨rfl, rfl⟩
    · exact ⟨rfl, rfl⟩

theorem wiRow_core (event : WorkItemEvent) (reason : String) (item : WorkItem) :
    (wiRow env event reason item).core = item.core := by
  unfold wiRow
  split
  · rfl
  · split
    · split <;> rfl
    · rfl

/-- What an event of a finding records. -/
def findingLog (fid : Nat) (before : FindingState) (event : FindingEvent) (reason actor : String) (runId : Option Nat) :
    Event :=
  match nextFindingState before event with
  | none => ⟨env.now, "controller", .finding, fid, .log "invalid_transition", some before.value, some before.value,
      some (invalidText before.value event.value reason), []⟩
  | some after => ⟨env.now, actor, .finding, fid, .finding event, some before.value, some after.value, some reason,
      runId.toList⟩

/-- The row of a finding after an event. -/
def findingRow (before : FindingState) (event : FindingEvent) (runId : Option Nat) (f : Finding) : Finding :=
  match nextFindingState before event with
  | none => f
  | some after => settled env after runId f

/-- An event of a finding writes nothing but its row and the log. -/
theorem findingFrom_db (fid : Nat) (before : FindingState) (event : FindingEvent) (reason actor : String)
    (runId : Option Nat) :
    (tx.findingFrom env fid before event reason actor runId).1.db =
      { tx.db with
        findings := tx.db.findings.modify fid (findingRow env before event runId)
        events := tx.db.events ++ [findingLog env fid before event reason actor runId] } := by
  unfold findingFrom findingLog
  cases hn : nextFindingState before event with
  | none =>
    have hsame : tx.db.findings.modify fid (findingRow env before event runId) = tx.db.findings :=
      Table.modify_eq_self fun f _ => by simp only [findingRow, hn]
    simp only [hsame]
    rfl
  | some after =>
    have hrow : tx.db.findings.modify fid (findingRow env before event runId) =
        tx.db.findings.modify fid (settled env after runId) :=
      Table.modify_congr fun f _ => by simp only [findingRow, hn]
    simp only [hrow]
    rfl

/-- An event changes nothing of what a finding is. -/
theorem core_findingRow (before : FindingState) (event : FindingEvent) (runId : Option Nat) (f : Finding) :
    (findingRow env before event runId f).core = f.core := by
  unfold findingRow
  split <;> rfl

/-- The event is in the table exactly when the row is rewritten. -/
theorem findingFrom_fired (fid : Nat) (before : FindingState) (event : FindingEvent) (reason actor : String)
    (runId : Option Nat) :
    (tx.findingFrom env fid before event reason actor runId).2 = (nextFindingState before event).isSome := by
  unfold findingFrom
  cases nextFindingState before event <;> rfl

end Tx

end HardeningLoop
