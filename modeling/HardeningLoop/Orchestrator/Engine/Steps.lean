import HardeningLoop.Orchestrator.Engine.Labels
import HardeningLoop.Orchestrator.Engine.PullRequests

/-!
# What a unit of the engine may do

Every unit is built from a few operations: it fires events of work items and findings, edits rows without touching their
states, inserts queued items and logs. `Acts env S tx tx'` says that `tx'` follows from `tx` by such operations within
the scope `S`: the work item events it may fire, the work items and findings it may write, and whether it observes pull
requests. What holds of all units is proved once, by induction on `Acts`:

- `Acts.scanRuns`, `Acts.scanJobs`, `Acts.sightings`, `Acts.findings_core`: the evidence is left alone;
- `Acts.itemCore`: what a work item is never changes;
- `Acts.item`: a work item outside the scope keeps its row; `Acts.unmoved`: without an event it keeps its state;
- `Acts.events`: the log grows, by the events the scope allows;
- `Acts.state_back`: a set of states that no edge of the scope enters is not entered; `Acts.reserved`: only
  `dispatch_started` puts an item into `dispatching`;
- `Acts.pulls`, `Acts.tracking`: a unit that observes no pull request leaves alone what is known of them.
-/

namespace HardeningLoop

open Rows (Table)

/-- What is known of the head of a pull request, and of the review of it. -/
def PullRequest.tracked (row : PullRequest) : String × Nat × String × Option String × Option String :=
  (row.repo, row.number, row.headSha, row.reviewStatus, row.reviewHeadSha)

/-- What a pull request is: the item it was opened for, and its number. -/
def PullRequest.owner (row : PullRequest) : Nat × String × Nat := (row.workItemId, row.repo, row.number)

/-- What became of a pull request, and how far it came. -/
def PullRequest.outcome (row : PullRequest) : String × LifecycleLevel := (row.state, row.lifecycleLevel)

/-- The state of a pull request is the same, and its level is only lowered or stays below a merge. -/
def PullRequest.Unsettled (row row' : PullRequest) : Prop :=
  row'.state = row.state ∧ (row'.lifecycleLevel.toNat ≤ row.lifecycleLevel.toNat ∨
    row'.lifecycleLevel.toNat < LifecycleLevel.merged.toNat)

/-- The levels that are evidence about one head. -/
def headLevels : List LifecycleLevel := [.ciGreen, .reviewCompleted, .humanApproved]

/-- The finding events that lead out of the closed states. -/
def reopeningEvents : List FindingEvent := [.reappeared, .humanReopened]

/-- The work item events caused by what is seen of a head. -/
def headEvents : List WorkItemEvent := [.checksGreen, .checksRed, .newHeadPushed, .reviewCompleted]

/-- The log says that the table of the work items did not have an event. -/
def Event.refuses (e : Event) : Bool := e.entityType == .workItem && e.event == .log "invalid_transition"

/-- The tables the lifecycle is about are untouched, and only log entries are added. -/
structure Quiet (t t' : Tx) : Prop where
  scanRuns : t'.db.scanRuns = t.db.scanRuns
  scanJobs : t'.db.scanJobs = t.db.scanJobs
  findings : t'.db.findings = t.db.findings
  sightings : t'.db.sightings = t.db.sightings
  workItems : t'.db.workItems = t.db.workItems
  pulls : t'.db.pullRequests.map PullRequest.tracked = t.db.pullRequests.map PullRequest.tracked
  owners : t'.db.pullRequests.map PullRequest.owner = t.db.pullRequests.map PullRequest.owner
  outcomes : t'.db.pullRequests.map PullRequest.outcome = t.db.pullRequests.map PullRequest.outcome
  events : ∃ logs, t'.db.events = t.db.events ++ logs ∧
    ∀ e ∈ logs, (∃ name, e.event = .log name) ∧ e.refuses = false ∧ e.entityType ≠ .finding

/-- A change of tables that no event is about. -/
theorem Quiet.of_events {t t' : Tx} (h₁ : t'.db.scanRuns = t.db.scanRuns) (h₂ : t'.db.scanJobs = t.db.scanJobs)
    (h₃ : t'.db.findings = t.db.findings) (h₄ : t'.db.sightings = t.db.sightings)
    (h₅ : t'.db.workItems = t.db.workItems) (h₆ : t'.db.pullRequests = t.db.pullRequests)
    (h₇ : t'.db.events = t.db.events) : Quiet t t' :=
  ⟨h₁, h₂, h₃, h₄, h₅, by rw [h₆], by rw [h₆], by rw [h₆], [], by simp [h₇], by simp⟩

section Operations

variable (t : Tx) (env : Env)

theorem quiet_tx : Quiet t t := .of_events rfl rfl rfl rfl rfl rfl rfl

theorem quiet_must (call : Call) : Quiet t (t.must call) := .of_events rfl rfl rfl rfl rfl rfl rfl

theorem quiet_attempt (calls : List Call) : Quiet t (t.attempt calls) := .of_events rfl rfl rfl rfl rfl rfl rfl

theorem quiet_answered (call : Call) : Quiet t (t.answered call) := .of_events rfl rfl rfl rfl rfl rfl rfl

theorem quiet_tally (key : String) : Quiet t (t.tally key) := .of_events rfl rfl rfl rfl rfl rfl rfl

theorem quiet_modifySession (sid : Nat) (f : Session → Session) : Quiet t (t.modifySession sid f) :=
  .of_events rfl rfl rfl rfl rfl rfl rfl

/-- An edit of a pull request that keeps what it is, what is known of its head and what became of it. -/
theorem quiet_modifyPullRequest (pid : Nat) {f : PullRequest → PullRequest} (hf : ∀ row, (f row).tracked = row.tracked)
    (ho : ∀ row, (f row).owner = row.owner) (hs : ∀ row, (f row).outcome = row.outcome) :
    Quiet t (t.modifyPullRequest pid f) :=
  ⟨rfl, rfl, rfl, rfl, rfl, Table.map_modify_of_eq hf, Table.map_modify_of_eq ho, Table.map_modify_of_eq hs, [],
    (List.append_nil _).symm, fun _ h => absurd h List.not_mem_nil⟩

theorem quiet_insertSession (row : Session) : Quiet t (t.insertSession row) := .of_events rfl rfl rfl rfl rfl rfl rfl

theorem quiet_insertPoll (row : SessionPoll) : Quiet t (t.insertPoll row) := .of_events rfl rfl rfl rfl rfl rfl rfl

theorem quiet_log (type : EntityType) (id : Nat) {name : String} (fromState toState : Option String)
    (reason actor : String) (ids : List Nat) (ht : type ≠ .finding)
    (hn : type ≠ .workItem ∨ name ≠ "invalid_transition") :
    Quiet t (t.event env type id (.log name) fromState toState reason actor ids) := by
  refine ⟨rfl, rfl, rfl, rfl, rfl, rfl, rfl, rfl, _, rfl, fun e he => ?_⟩
  obtain rfl := List.mem_singleton.mp he
  refine ⟨⟨name, rfl⟩, ?_, ht⟩
  rcases hn with hn | hn
  · simp [Event.refuses, hn]
  · simp [Event.refuses, hn]

theorem quiet_recordCheck (pid : Nat) (headSha : String) (c : CheckRun) : Quiet t (recordCheck env pid headSha t c) :=
  .of_events rfl rfl rfl rfl rfl rfl rfl

theorem quiet_recordComponent (pid : Nat) (headSha : String) (rec : CheckRecord) :
    Quiet t (recordComponent env pid headSha t rec) := .of_events rfl rfl rfl rfl rfl rfl rfl

end Operations

/-- What only a few units do. -/
inductive Deed where
  /-- Fire an event of a finding from a state that was loaded before. -/
  | recall
  /-- Reopen a closed finding. -/
  | reopen
  /-- Bind an item to an issue. -/
  | bind
  /-- Record a pull request for an item. -/
  | record
  /-- Settle a pull request: its state, and the levels from a merge on. -/
  | settle
  /-- Count or reset the retries of an item. -/
  | retry
  deriving DecidableEq, Repr

/-- What a unit may do: the work item events it may fire, whether it inserts work items, the work items and findings it
may write, whether it observes pull requests, and what else it does. -/
structure Scope where
  fires : WorkItemEvent → Prop
  inserts : Prop
  items : Nat → Prop
  findings : Nat → Prop
  pulls : Prop
  deeds : Deed → Prop

namespace Scope

/-- Anything but the observation of a pull request. -/
def reserving : Scope := ⟨(· ∉ headEvents), True, fun _ => True, fun _ => True, False, fun _ => True⟩

/-- Anything but the reservation of an item. -/
def unreserving : Scope := ⟨(· ≠ .dispatchStarted), True, fun _ => True, fun _ => True, True, fun _ => True⟩

/-- Neither the reservation of an item nor the observation of a pull request. -/
def unobserving : Scope :=
  ⟨(· ∉ .dispatchStarted :: headEvents), True, fun _ => True, fun _ => True, False, fun _ => True⟩

/-- The reservation of a work item. -/
def reservation (wid : Nat) : Scope := ⟨(· ∉ headEvents), False, (· = wid), fun _ => False, False, fun _ => False⟩

/-- The reservation of a work item whose issue may be opened first, and whose retries may be reset. -/
def launching (wid : Nat) : Scope :=
  ⟨(· ∉ headEvents), False, (· = wid), fun _ => False, False, (· ∈ [Deed.bind, .retry])⟩

/-- A work item and its pull request, and some findings; no reservation. -/
def pull (wid : Nat) (findings : Nat → Prop) : Scope :=
  ⟨(· ≠ .dispatchStarted), False, (· = wid), findings, True, (· ∈ [Deed.settle, .retry])⟩

/-- A work item and the head of its pull request; no reservation. -/
def head (wid : Nat) : Scope :=
  ⟨(· ≠ .dispatchStarted), False, (· = wid), fun _ => False, True, fun _ => False⟩

/-- A work item and the head of its pull request, whose failed checks may be retried. -/
def checking (wid : Nat) : Scope :=
  ⟨(· ≠ .dispatchStarted), False, (· = wid), fun _ => False, True, (· = .retry)⟩

/-- A work item that may get a pull request. -/
def report (wid : Nat) : Scope := ⟨(· ≠ .dispatchStarted), False, (· = wid), fun _ => False, True, (· = .record)⟩

/-- A work item and some findings; no reservation and no observation of a pull request. -/
def item (wid : Nat) (findings : Nat → Prop) : Scope :=
  ⟨(· ∉ .dispatchStarted :: headEvents), False, (· = wid), findings, False, fun _ => False⟩

/-- A work item whose retries may be counted or reset, and some findings. -/
def retrying (wid : Nat) (findings : Nat → Prop) : Scope :=
  ⟨(· ∉ .dispatchStarted :: headEvents), False, (· = wid), findings, False, (· = .retry)⟩

/-- A work item that may be bound to an issue. -/
def binding (wid : Nat) : Scope :=
  ⟨(· ∉ .dispatchStarted :: headEvents), False, (· = wid), fun _ => False, False, (· = .bind)⟩

/-- A work item that closes or merges, and some findings. -/
def closing (wid : Nat) (findings : Nat → Prop) : Scope :=
  ⟨(· ∉ .dispatchStarted :: headEvents), False, (· = wid), findings, False, (· = .settle)⟩

/-- Edits of a work item that leave its state alone. -/
def edits (wid : Nat) : Scope := ⟨fun _ => False, False, (· = wid), fun _ => False, False, fun _ => False⟩

/-- Edits of a work item and of what became of its pull request. -/
def levels (wid : Nat) : Scope := ⟨fun _ => False, False, (· = wid), fun _ => False, False, (· = .settle)⟩

/-- Findings alone. -/
def findingsOnly (findings : Nat → Prop) : Scope :=
  ⟨fun _ => False, False, fun _ => False, findings, False, fun _ => False⟩

/-- Findings that may come back. -/
def reopening (findings : Nat → Prop) : Scope :=
  ⟨fun _ => False, False, fun _ => False, findings, False, (· = .reopen)⟩

/-- Any work items and findings but new ones, and some deeds; no reservation and no observation of a pull request. -/
def sweeping (deeds : Deed → Prop) : Scope :=
  ⟨(· ∉ .dispatchStarted :: headEvents), False, fun _ => True, fun _ => True, False, deeds⟩

/-- New work items, and edits of items and findings. -/
def grouping : Scope := ⟨fun _ => False, True, fun _ => True, fun _ => True, False, fun _ => False⟩

/-- Anything but an event of a work item. -/
def unfired : Scope := ⟨fun _ => False, True, fun _ => True, fun _ => True, True, fun _ => True⟩

/-- Everything the first scope allows, the second does. -/
structure Within (S S' : Scope) : Prop where
  fires : ∀ e, S.fires e → S'.fires e
  inserts : S.inserts → S'.inserts
  items : ∀ wid, S.items wid → S'.items wid
  findings : ∀ fid, S.findings fid → S'.findings fid
  pulls : S.pulls → S'.pulls
  deeds : ∀ d, S.deeds d → S'.deeds d

theorem Within.trans {S S' S'' : Scope} (h : S.Within S') (h' : S'.Within S'') : S.Within S'' :=
  ⟨fun e he => h'.fires e (h.fires e he), fun hi => h'.inserts (h.inserts hi), fun w hw => h'.items w (h.items w hw),
    fun f hf => h'.findings f (h.findings f hf), fun hp => h'.pulls (h.pulls hp), fun d hd => h'.deeds d (h.deeds d hd)⟩

theorem sweeping_within_sweeping {D D' : Deed → Prop} (h : ∀ d, D d → D' d) : (sweeping D).Within (sweeping D') :=
  ⟨fun _ h => h, id, fun _ h => h, fun _ h => h, id, h⟩

theorem closing_within_sweeping (wid : Nat) (findings : Nat → Prop) :
    (closing wid findings).Within (sweeping (· = .settle)) :=
  ⟨fun _ h => h, id, fun _ _ => trivial, fun _ _ => trivial, id, fun _ h => h⟩

theorem item_within_sweeping (wid : Nat) (findings : Nat → Prop) (D : Deed → Prop) :
    (item wid findings).Within (sweeping D) :=
  ⟨fun _ h => h, id, fun _ _ => trivial, fun _ _ => trivial, id, fun _ h => h.elim⟩

theorem binding_within_sweeping (wid : Nat) : (binding wid).Within (sweeping (· = .bind)) :=
  ⟨fun _ h => h, id, fun _ _ => trivial, fun _ h => h.elim, id, fun _ h => h⟩

theorem reopening_within_sweeping (findings : Nat → Prop) : (reopening findings).Within (sweeping (· = .reopen)) :=
  ⟨fun _ h => h.elim, id, fun _ h => h.elim, fun _ _ => trivial, id, fun _ h => h⟩

theorem binding_within_launching (wid : Nat) : (binding wid).Within (launching wid) :=
  ⟨fun _ h he => h (List.mem_cons_of_mem _ he), id, fun _ h => h, fun _ h => h, id, fun _ h => h ▸ List.mem_cons_self⟩

theorem retrying_within_launching (wid : Nat) : (retrying wid fun _ => False).Within (launching wid) :=
  ⟨fun _ h he => h (List.mem_cons_of_mem _ he), id, fun _ h => h, fun _ h => h, id,
    fun _ h => List.mem_cons_of_mem _ (List.mem_singleton.mpr h)⟩

theorem retrying_within_sweeping (wid : Nat) (findings : Nat → Prop) :
    (retrying wid findings).Within (sweeping (· = .retry)) :=
  ⟨fun _ h => h, id, fun _ _ => trivial, fun _ _ => trivial, id, fun _ h => h⟩

theorem retrying_within_checking (wid : Nat) : (retrying wid fun _ => False).Within (checking wid) :=
  ⟨fun _ h he => h (he ▸ List.mem_cons_self), id, fun _ h => h, fun _ h => h, fun h => h.elim, fun _ h => h⟩

theorem reservation_within_launching (wid : Nat) : (reservation wid).Within (launching wid) :=
  ⟨fun _ h => h, id, fun _ h => h, fun _ h => h, id, fun _ h => h.elim⟩

theorem item_within_reservation (wid : Nat) : (item wid fun _ => False).Within (reservation wid) :=
  ⟨fun _ h he => h (List.mem_cons_of_mem _ he), id, fun _ h => h, fun _ h => h, id, fun _ h => h⟩

theorem item_within_head (wid : Nat) : (item wid fun _ => False).Within (head wid) :=
  ⟨fun _ h he => h (he ▸ List.mem_cons_self), id, fun _ h => h, fun _ h => h, fun h => h.elim, fun _ h => h⟩

theorem head_within_checking (wid : Nat) : (head wid).Within (checking wid) :=
  ⟨fun _ h => h, id, fun _ h => h, fun _ h => h, id, fun _ h => h.elim⟩

theorem checking_within_pull (wid : Nat) (F : Nat → Prop) : (checking wid).Within (pull wid F) :=
  ⟨fun _ h => h, id, fun _ h => h, fun _ h => h.elim, id, fun _ h => List.mem_cons_of_mem _ (List.mem_singleton.mpr h)⟩

theorem closing_within_pull {wid : Nat} {F F' : Nat → Prop} (h : ∀ fid, F fid → F' fid) :
    (closing wid F).Within (pull wid F') :=
  ⟨fun _ h he => h (he ▸ List.mem_cons_self), id, fun _ h => h, h, fun h => h.elim, fun _ h => h ▸ List.mem_cons_self⟩

theorem item_within_report (wid : Nat) : (item wid fun _ => False).Within (report wid) :=
  ⟨fun _ h he => h (he ▸ List.mem_cons_self), id, fun _ h => h, fun _ h => h, fun h => h.elim, fun _ h => h.elim⟩

theorem pull_within_pull {wid : Nat} {F F' : Nat → Prop} (h : ∀ fid, F fid → F' fid) :
    (pull wid F).Within (pull wid F') :=
  ⟨fun _ h => h, id, fun _ h => h, h, id, fun _ h => h⟩

theorem item_within_retrying {wid : Nat} {F F' : Nat → Prop} (h : ∀ fid, F fid → F' fid) :
    (item wid F).Within (retrying wid F') :=
  ⟨fun _ h => h, id, fun _ h => h, h, id, fun _ h => h.elim⟩

theorem retrying_within_retrying {wid : Nat} {F F' : Nat → Prop} (h : ∀ fid, F fid → F' fid) :
    (retrying wid F).Within (retrying wid F') :=
  ⟨fun _ h => h, id, fun _ h => h, h, id, fun _ h => h⟩

theorem item_within_item {wid : Nat} {F F' : Nat → Prop} (h : ∀ fid, F fid → F' fid) :
    (item wid F).Within (item wid F') :=
  ⟨fun _ h => h, id, fun _ h => h, h, id, fun _ h => h⟩

theorem item_within_closing {wid : Nat} {F F' : Nat → Prop} (h : ∀ fid, F fid → F' fid) :
    (item wid F).Within (closing wid F') :=
  ⟨fun _ h => h, id, fun _ h => h, h, id, fun _ h => h.elim⟩

theorem closing_within_closing {wid : Nat} {F F' : Nat → Prop} (h : ∀ fid, F fid → F' fid) :
    (closing wid F).Within (closing wid F') :=
  ⟨fun _ h => h, id, fun _ h => h, h, id, fun _ h => h⟩

theorem edits_within_item (wid : Nat) (F : Nat → Prop) : (edits wid).Within (item wid F) :=
  ⟨fun _ h => h.elim, id, fun _ h => h, fun _ h => h.elim, id, fun _ h => h⟩

theorem levels_within_closing (wid : Nat) (F : Nat → Prop) : (levels wid).Within (closing wid F) :=
  ⟨fun _ h => h.elim, id, fun _ h => h, fun _ h => h.elim, id, fun _ h => h⟩

theorem findingsOnly_within {S : Scope} {F : Nat → Prop} (h : ∀ fid, F fid → S.findings fid) :
    (findingsOnly F).Within S :=
  ⟨fun _ h => h.elim, fun h => h.elim, fun _ h => h.elim, h, fun h => h.elim, fun _ h => h.elim⟩

theorem reopening_within_reopening {F F' : Nat → Prop} (h : ∀ fid, F fid → F' fid) :
    (reopening F).Within (reopening F') :=
  ⟨fun _ h => h, id, fun _ h => h, h, id, fun _ h => h⟩

end Scope

/-- An edit of a work item that keeps what it is, its state and, unless a pull request is observed, its pull request and
its level or a level that is no evidence about a head. Only some units give it another issue or pull request. -/
structure WorkItem.Edits (pulls : Prop) (deeds : Deed → Prop) (w w' : WorkItem) : Prop where
  core : w'.core = w.core
  state : w'.state = w.state
  tracking : pulls ∨ w'.prNumber = w.prNumber ∧ (w'.lifecycleLevel = w.lifecycleLevel ∨ w'.lifecycleLevel ∉ headLevels)
  number : deeds .record ∨ w'.prNumber = w.prNumber
  issue : deeds .bind ∨ w'.issueNumber = w.issueNumber
  retries : deeds .retry ∨ w'.retriesUsed = w.retriesUsed

theorem WorkItem.Edits.plain {pulls : Prop} {deeds : Deed → Prop} {w w' : WorkItem} (hc : w'.core = w.core)
    (hs : w'.state = w.state) (hn : w'.prNumber = w.prNumber) (hi : w'.issueNumber = w.issueNumber)
    (hl : w'.lifecycleLevel = w.lifecycleLevel) (hr : w'.retriesUsed = w.retriesUsed) : w.Edits pulls deeds w' :=
  ⟨hc, hs, Or.inr ⟨hn, Or.inl hl⟩, Or.inr hn, Or.inr hi, Or.inr hr⟩

/-- An edit that may count or reset the retries. -/
theorem WorkItem.Edits.retried {pulls : Prop} {w w' : WorkItem} (hc : w'.core = w.core) (hs : w'.state = w.state)
    (hn : w'.prNumber = w.prNumber) (hi : w'.issueNumber = w.issueNumber) (hl : w'.lifecycleLevel = w.lifecycleLevel) :
    w.Edits pulls (· = .retry) w' :=
  ⟨hc, hs, Or.inr ⟨hn, Or.inl hl⟩, Or.inr hn, Or.inr hi, Or.inl rfl⟩

/-- An edit that keeps what the item is and its state. -/
theorem WorkItem.Edits.stay {w w' : WorkItem} (hc : w'.core = w.core) (hs : w'.state = w.state) :
    w.Edits True (fun _ => True) w' :=
  ⟨hc, hs, Or.inl trivial, Or.inl trivial, Or.inl trivial, Or.inl trivial⟩

/-- A new work item. -/
structure WorkItem.Fresh (w : WorkItem) : Prop where
  state : w.state = .queued
  retriesUsed : w.retriesUsed = 0
  prNumber : w.prNumber = none
  issueNumber : w.issueNumber = none
  level : w.lifecycleLevel = .none
  cap : w.acuCap = w.kind.acuCap

/-- A new pull request. -/
structure PullRequest.Opened (row : PullRequest) : Prop where
  level : row.lifecycleLevel = .prOpened

/-- `tx'` follows from `tx` by the operations of a unit of scope `S`. -/
inductive Acts (env : Env) (S : Scope) (tx : Tx) : Tx → Prop
  | refl : Acts env S tx tx
  | quiet {t t' : Tx} (h : Acts env S tx t) (hq : Quiet t t') : Acts env S tx t'
  | editItem {t : Tx} (h : Acts env S tx t) {wid : Nat} (hw : S.items wid) {f : WorkItem → WorkItem}
      (hf : ∀ w : WorkItem, w.Edits S.pulls S.deeds (f w)) : Acts env S tx (t.modifyItem wid f)
  | editPull {t : Tx} (h : Acts env S tx t) (pid : Nat) {f : PullRequest → PullRequest}
      (hp : S.pulls ∨ ∀ row, (f row).tracked = row.tracked)
      (hs : S.deeds .settle ∨ ∀ row : PullRequest, row.Unsettled (f row))
      (ho : S.deeds .record ∨ ∀ row, (f row).owner = row.owner) : Acts env S tx (t.modifyPullRequest pid f)
  | insertPull {t : Tx} (h : Acts env S tx t) (hp : S.pulls) (hr : S.deeds .record) {row : PullRequest}
    (hrow : row.Opened) :
      Acts env S tx (t.insertPullRequest row)
  | insertItem {t : Tx} (h : Acts env S tx t) (hins : S.inserts) {item : WorkItem} (hi : item.Fresh) :
      Acts env S tx (t.insertItem item)
  | wi {t : Tx} (h : Acts env S tx t) {wid : Nat} (hw : S.items wid) {e : WorkItemEvent} (he : S.fires e)
      (reason actor : String) : Acts env S tx (t.wi env wid e reason actor)
  | findingFrom {t : Tx} (h : Acts env S tx t) {fid : Nat} (hf : S.findings fid) {before : FindingState}
      (hb : S.deeds .recall ∨ t.db.findingState fid = some before) {e : FindingEvent}
      (he : S.deeds .reopen ∨ e ∉ reopeningEvents) (reason actor : String) (runId : Option Nat) :
      Acts env S tx (t.findingFrom env fid before e reason actor runId).1
  | own {t : Tx} (h : Acts env S tx t) {fid : Nat} (hf : S.findings fid) {owner : Option Nat}
      (ho : S.inserts ∨ owner = none) : Acts env S tx (t.modifyFinding fid (Finding.giveTo owner))

namespace Acts

variable {env : Env} {S : Scope} {tx t t' : Tx}

theorem trans (h : Acts env S tx t) (h' : Acts env S t t') : Acts env S tx t' := by
  induction h' with
  | refl => exact h
  | quiet _ hq ih => exact ih.quiet hq
  | editItem _ hw hf ih => exact ih.editItem hw hf
  | editPull _ pid hp hs ho ih => exact ih.editPull pid hp hs ho
  | insertPull _ hp hr hrow ih => exact ih.insertPull hp hr hrow
  | insertItem _ hins hi ih => exact ih.insertItem hins hi
  | wi _ hw he reason actor ih => exact ih.wi hw he reason actor
  | findingFrom _ hf hb he reason actor runId ih => exact ih.findingFrom hf hb he reason actor runId
  | own _ hf ho ih => exact ih.own hf ho

theorem widen {S' : Scope} (hS : S.Within S') (h : Acts env S tx t) : Acts env S' tx t := by
  induction h with
  | refl => exact .refl
  | quiet _ hq ih => exact ih.quiet hq
  | editItem _ hw hf ih =>
    exact ih.editItem (hS.items _ hw) fun w => ⟨(hf w).core, (hf w).state, (hf w).tracking.imp_left hS.pulls,
      (hf w).number.imp_left (hS.deeds _), (hf w).issue.imp_left (hS.deeds _), (hf w).retries.imp_left (hS.deeds _)⟩
  | editPull _ pid hp hs ho ih =>
    exact ih.editPull pid (hp.imp_left hS.pulls) (hs.imp_left (hS.deeds _)) (ho.imp_left (hS.deeds _))
  | insertPull _ hp hr hrow ih => exact ih.insertPull (hS.pulls hp) (hS.deeds _ hr) hrow
  | insertItem _ hins hi ih => exact ih.insertItem (hS.inserts hins) hi
  | wi _ hw he reason actor ih => exact ih.wi (hS.items _ hw) (hS.fires _ he) reason actor
  | findingFrom _ hf hb he reason actor runId ih =>
    exact ih.findingFrom (hS.findings _ hf) (hb.imp_left (hS.deeds _)) (he.imp_left (hS.deeds _)) reason actor runId
  | own _ hf ho ih => exact ih.own (hS.findings _ hf) (ho.imp_left hS.inserts)

theorem finding (h : Acts env S tx t) {fid : Nat} (hf : S.findings fid) {e : FindingEvent}
    (he : S.deeds .reopen ∨ e ∉ reopeningEvents) (reason actor : String) (runId : Option Nat) :
    Acts env S tx (t.finding env fid e reason actor runId).1 := by
  unfold Tx.finding
  split
  · exact h
  · rename_i f hfound
    exact h.findingFrom hf (Or.inr (by rw [Db.findingState, hfound, Option.map_some])) he reason actor runId

/-- A loop of units is a unit. -/
theorem foldl {α : Type*} {f : Tx → α → Tx} (l : List α) (h : Acts env S tx t)
    (hf : ∀ t, ∀ a ∈ l, Acts env S t (f t a)) : Acts env S tx (l.foldl f t) :=
  Rows.foldl_invariant (Acts env S tx) (fun t a ha ht => ht.trans (hf t a ha)) h

theorem must (h : Acts env S tx t) (call : Call) : Acts env S tx (t.must call) := h.quiet (quiet_must t call)

theorem attempt (h : Acts env S tx t) (calls : List Call) : Acts env S tx (t.attempt calls) :=
  h.quiet (quiet_attempt t calls)

theorem answered (h : Acts env S tx t) (call : Call) : Acts env S tx (t.answered call) :=
  h.quiet (quiet_answered t call)

theorem tally (h : Acts env S tx t) (key : String) : Acts env S tx (t.tally key) := h.quiet (quiet_tally t key)

theorem log (h : Acts env S tx t) (wid : Nat) {name : String} (state : WorkItemState) (reason actor : String)
    (hn : name ≠ "invalid_transition") : Acts env S tx (t.log env wid name state reason actor) :=
  h.quiet (quiet_log t env _ _ _ _ _ _ _ nofun (Or.inr hn))

/-! ## What every unit keeps -/

theorem scanRuns (h : Acts env S tx t) : t.db.scanRuns = tx.db.scanRuns := by
  induction h with
  | refl => rfl
  | quiet _ hq ih => exact hq.scanRuns.trans ih
  | editItem _ _ _ ih => exact ih
  | editPull _ _ _ _ _ ih => exact ih
  | insertPull _ _ _ _ ih => exact ih
  | insertItem _ _ _ ih => exact ih
  | wi _ _ _ reason actor ih => rw [Tx.wi_db]; exact ih
  | findingFrom _ _ _ _ _ _ _ ih => rw [Tx.findingFrom_db]; exact ih
  | own _ _ _ ih => exact ih

theorem scanJobs (h : Acts env S tx t) : t.db.scanJobs = tx.db.scanJobs := by
  induction h with
  | refl => rfl
  | quiet _ hq ih => exact hq.scanJobs.trans ih
  | editItem _ _ _ ih => exact ih
  | editPull _ _ _ _ _ ih => exact ih
  | insertPull _ _ _ _ ih => exact ih
  | insertItem _ _ _ ih => exact ih
  | wi _ _ _ reason actor ih => rw [Tx.wi_db]; exact ih
  | findingFrom _ _ _ _ _ _ _ ih => rw [Tx.findingFrom_db]; exact ih
  | own _ _ _ ih => exact ih

theorem sightings (h : Acts env S tx t) : t.db.sightings = tx.db.sightings := by
  induction h with
  | refl => rfl
  | quiet _ hq ih => exact hq.sightings.trans ih
  | editItem _ _ _ ih => exact ih
  | editPull _ _ _ _ _ ih => exact ih
  | insertPull _ _ _ _ ih => exact ih
  | insertItem _ _ _ ih => exact ih
  | wi _ _ _ reason actor ih => rw [Tx.wi_db]; exact ih
  | findingFrom _ _ _ _ _ _ _ ih => rw [Tx.findingFrom_db]; exact ih
  | own _ _ _ ih => exact ih

theorem findings_core (h : Acts env S tx t) : t.db.findings.map Finding.core = tx.db.findings.map Finding.core := by
  induction h with
  | refl => rfl
  | quiet _ hq ih => rw [hq.findings]; exact ih
  | editItem _ _ _ ih => exact ih
  | editPull _ _ _ _ _ ih => exact ih
  | insertPull _ _ _ _ ih => exact ih
  | insertItem _ _ _ ih => exact ih
  | wi _ _ _ reason actor ih => rw [Tx.wi_db]; exact ih
  | findingFrom _ _ _ _ _ _ _ ih =>
    rw [Tx.findingFrom_db]
    exact (Table.map_modify_of_eq fun f => Tx.core_findingRow _ _ _ _ f).trans ih
  | @own _ _ _ _ owner _ ih => exact (Table.map_modify_of_eq (f := Finding.giveTo owner) fun _ => rfl).trans ih

/-- A work item outside the scope keeps its row. -/
theorem item (h : Acts env S tx t) (hins : ¬ S.inserts) {wid : Nat} (hw : ¬ S.items wid) :
    t.db.workItems.get? wid = tx.db.workItems.get? wid := by
  induction h with
  | refl => rfl
  | quiet _ hq ih => rw [hq.workItems]; exact ih
  | @editItem t _ w hw' f hf ih =>
    have hne : wid ≠ w := fun h => hw (h ▸ hw')
    exact (Table.get?_modify_of_ne f hne).trans ih
  | editPull _ _ _ _ _ ih => exact ih
  | insertPull _ _ _ _ ih => exact ih
  | insertItem _ hins' _ _ => exact absurd hins' hins
  | @wi t _ w hw' e he reason actor ih =>
    have hne : wid ≠ w := fun h => hw (h ▸ hw')
    rw [Tx.wi_db]
    exact (Table.get?_modify_of_ne _ hne).trans ih
  | findingFrom _ _ _ _ _ _ _ ih => rw [Tx.findingFrom_db]; exact ih
  | own _ _ _ ih => exact ih

/-- A unit that writes and inserts no work item. -/
theorem workItems (h : Acts env S tx t) (hins : ¬ S.inserts) (hw : ∀ wid, ¬ S.items wid) :
    t.db.workItems = tx.db.workItems := Table.ext_get? fun wid => h.item hins (hw wid)

/-- Without an event an item that is there keeps its state. -/
theorem unmoved (h : Acts env S tx t) (hfires : ∀ e, ¬ S.fires e) {wid : Nat} {s : WorkItemState}
    (hs : tx.db.itemState wid = some s) : t.db.itemState wid = some s := by
  induction h with
  | refl => exact hs
  | quiet _ hq ih => simpa only [Db.itemState, hq.workItems] using ih
  | @editItem t _ w _ f hf ih =>
    simp only [Db.itemState, Tx.modifyItem, Table.get?_modify] at ih ⊢
    split
    · simpa [Option.map_map, Function.comp_def, fun w => (hf w).state] using ih
    · exact ih
  | editPull _ _ _ _ _ ih => exact ih
  | insertPull _ _ _ _ ih => exact ih
  | insertItem _ _ _ ih =>
    obtain ⟨item, hi, rfl⟩ := Option.map_eq_some_iff.mp ih
    exact Option.map_eq_some_iff.mpr ⟨item, Table.get?_insert_of_some _ hi, rfl⟩
  | wi _ _ he _ _ _ => exact absurd he (hfires _)
  | findingFrom _ _ _ _ _ _ _ ih => rw [Tx.findingFrom_db]; exact ih
  | own _ _ _ ih => exact ih

/-- **What no edge enters.** A set of states that no edge of the scope, and no hand-over to a human, leads into from
outside is not entered; where items are inserted it must not have `queued`. -/
theorem state_back (P : WorkItemState → Prop) (hq : S.inserts → ¬ P .queued)
    (hP : ∀ s e s', S.fires e ∨ e = .blocked → nextWorkItemState s e = some s' → P s' → P s) (h : Acts env S tx t)
    {wid : Nat} {s' : WorkItemState} (hs' : t.db.itemState wid = some s') (hp : P s') :
    ∃ s, tx.db.itemState wid = some s ∧ P s := by
  induction h generalizing s' with
  | refl => exact ⟨s', hs', hp⟩
  | quiet _ hq ih => exact ih (by simpa only [Db.itemState, hq.workItems] using hs') hp
  | @editItem t _ w _ f hf ih =>
    refine ih ?_ hp
    simp only [Db.itemState, Tx.modifyItem, Table.get?_modify] at hs' ⊢
    split at hs'
    · simpa [Option.map_map, Function.comp_def, fun w => (hf w).state] using hs'
    · exact hs'
  | editPull _ _ _ _ _ ih => exact ih hs' hp
  | insertPull _ _ _ _ ih => exact ih hs' hp
  | @insertItem t _ hins item hi ih =>
    simp only [Db.itemState, Tx.insertItem, Table.get?_insert] at hs'
    split at hs'
    · rw [Option.map_some, hi.state, Option.some.injEq] at hs'
      exact absurd (hs' ▸ hp) (hq hins)
    · exact ih hs' hp
  | @wi t _ w _ e he reason actor ih =>
    simp only [Db.itemState, Tx.wi_db, Table.get?_modify] at hs'
    split at hs'
    · cases hi : t.db.workItems.get? wid with
      | none => rw [hi] at hs'; cases hs'
      | some item =>
        rw [hi, Option.map_some, Option.map_some, Option.some.injEq] at hs'
        subst hs'
        have hbefore : t.db.itemState wid = some item.state := by rw [Db.itemState, hi, Option.map_some]
        rcases Tx.wiRow_state env e reason item with hs | hs | hs
        · exact ih hbefore (hP _ _ _ (Or.inl he) hs.symm hp)
        · exact ih hbefore (hP _ _ _ (Or.inr rfl) hs.symm hp)
        · exact ih hbefore (hs ▸ hp)
    · exact ih hs' hp
  | findingFrom _ _ _ _ _ _ _ ih => rw [Tx.findingFrom_db] at hs'; exact ih hs' hp
  | own _ _ _ ih => exact ih hs' hp

/-- Only `dispatch_started` puts an item into `dispatching`. -/
theorem reserved (hI : ¬ S.fires .dispatchStarted) (h : Acts env S tx t) {wid : Nat}
    (hd : t.db.itemState wid = some .dispatching) : tx.db.itemState wid = some .dispatching := by
  have hback : ∀ s e s', S.fires e ∨ e = .blocked → nextWorkItemState s e = some s' → s' = .dispatching →
      s = .dispatching := by
    rintro s e _ he hn rfl
    have hstarted := next_eq_dispatching hn
    rcases he with he | he
    · exact absurd (hstarted ▸ he) hI
    · rw [hstarted] at he
      cases he
  obtain ⟨s, hs, rfl⟩ := state_back (· = .dispatching) (fun _ => by decide) hback h hd rfl
  exact hs

/-- **The log grows**, by the events of work items in the scope and the hand-overs to a human. -/
theorem events (h : Acts env S tx t) : ∃ l, t.db.events = tx.db.events ++ l ∧
    ∀ e ∈ l, ∀ event, e.event = .workItem event → e.entityType = .workItem ∧ S.items e.entityId ∧
      (S.fires event ∨ event = .blocked) := by
  induction h with
  | refl => exact ⟨[], by simp, by simp⟩
  | quiet _ hq ih =>
    obtain ⟨l, hl, hall⟩ := ih
    obtain ⟨logs, hlogs, hlog⟩ := hq.events
    refine ⟨l ++ logs, by rw [hlogs, hl, List.append_assoc], fun e he event hev => ?_⟩
    rcases List.mem_append.mp he with he | he
    · exact hall e he event hev
    · obtain ⟨⟨name, hname⟩, -⟩ := hlog e he
      rw [hname] at hev
      cases hev
  | editItem _ _ _ ih => exact ih
  | editPull _ _ _ _ _ ih => exact ih
  | insertPull _ _ _ _ ih => exact ih
  | insertItem _ _ _ ih => exact ih
  | @wi t _ w hw e he reason actor ih =>
    obtain ⟨l, hl, hall⟩ := ih
    refine ⟨l ++ (t.db.workItems.get? w).elim [] (Tx.wiLog env w e reason actor), by
      rw [Tx.wi_db, hl, List.append_assoc], fun entry hentry event hev => ?_⟩
    rcases List.mem_append.mp hentry with hentry | hentry
    · exact hall entry hentry event hev
    · cases hi : t.db.workItems.get? w with
      | none => rw [hi] at hentry; cases hentry
      | some item =>
        rw [hi] at hentry
        obtain ⟨htype, hid, hevent⟩ := Tx.wiLog_entry hentry hev
        refine ⟨htype, hid ▸ hw, ?_⟩
        rcases hevent with rfl | rfl
        · exact Or.inl he
        · exact Or.inr rfl
  | @findingFrom t _ fid _ before _ e _ reason actor runId ih =>
    obtain ⟨l, hl, hall⟩ := ih
    refine ⟨l ++ [Tx.findingLog env fid before e reason actor runId], by
      rw [Tx.findingFrom_db, hl, List.append_assoc], fun entry hentry event hev => ?_⟩
    rcases List.mem_append.mp hentry with hentry | hentry
    · exact hall entry hentry event hev
    · obtain rfl := List.mem_singleton.mp hentry
      unfold Tx.findingLog at hev
      split at hev <;> cases hev
  | own _ _ _ ih => exact ih

/-- A unit that observes no pull request leaves alone what is known of them. -/
theorem pulls (hS : ¬ S.pulls) (h : Acts env S tx t) :
    t.db.pullRequests.map PullRequest.tracked = tx.db.pullRequests.map PullRequest.tracked := by
  induction h with
  | refl => rfl
  | quiet _ hq ih => exact hq.pulls.trans ih
  | editItem _ _ _ ih => exact ih
  | editPull _ pid hp _ _ ih => exact (Table.map_modify_of_eq (hp.resolve_left hS)).trans ih
  | insertPull _ hp _ _ _ => exact absurd hp hS
  | insertItem _ _ _ ih => exact ih
  | wi _ _ _ reason actor ih => rw [Tx.wi_db]; exact ih
  | findingFrom _ _ _ _ _ _ _ ih => rw [Tx.findingFrom_db]; exact ih
  | own _ _ _ ih => exact ih

/-- What a work item is never changes. -/
theorem itemCore (h : Acts env S tx t) {wid : Nat} {w : WorkItem} (hw : tx.db.workItems.get? wid = some w) :
    ∃ w', t.db.workItems.get? wid = some w' ∧ w'.core = w.core := by
  induction h with
  | refl => exact ⟨w, hw, rfl⟩
  | quiet _ hq ih => rw [hq.workItems]; exact ih
  | @editItem t _ k _ f hf ih =>
    obtain ⟨w', hw', hcore⟩ := ih
    simp only [Tx.modifyItem, Table.get?_modify]
    split
    · exact ⟨f w', by rw [hw', Option.map_some], (hf w').core.trans hcore⟩
    · exact ⟨w', hw', hcore⟩
  | editPull _ _ _ _ _ ih => exact ih
  | insertPull _ _ _ _ ih => exact ih
  | insertItem _ _ _ ih =>
    obtain ⟨w', hw', hcore⟩ := ih
    exact ⟨w', Table.get?_insert_of_some _ hw', hcore⟩
  | @wi t _ k _ e _ reason actor ih =>
    obtain ⟨w', hw', hcore⟩ := ih
    simp only [Tx.wi_db, Table.get?_modify]
    split
    · exact ⟨Tx.wiRow env e reason w', by rw [hw', Option.map_some], (Tx.wiRow_core env e reason w').trans hcore⟩
    · exact ⟨w', hw', hcore⟩
  | findingFrom _ _ _ _ _ _ _ ih => rw [Tx.findingFrom_db]; exact ih
  | own _ _ _ ih => exact ih

/-- An item that is there afterwards was there before, or is new. -/
theorem item_origin (h : Acts env S tx t) {wid : Nat} {w' : WorkItem} (hw : t.db.workItems.get? wid = some w') :
    (∃ w, tx.db.workItems.get? wid = some w ∧ w'.core = w.core) ∨ w'.acuCap = w'.kind.acuCap := by
  have hcore {w w' : WorkItem} (hc : w'.core = w.core) (h : w.acuCap = w.kind.acuCap) : w'.acuCap = w'.kind.acuCap := by
    simp only [WorkItem.core, Prod.mk.injEq] at hc
    rw [hc.1, hc.2.2.2.2.2.2.1, h]
  have hedit {w w' : WorkItem} (hc : w'.core = w.core)
    (ih : (∃ w₀, tx.db.workItems.get? wid = some w₀ ∧ w.core = w₀.core) ∨
      w.acuCap = w.kind.acuCap) :
      (∃ w₀, tx.db.workItems.get? wid = some w₀ ∧ w'.core = w₀.core) ∨ w'.acuCap = w'.kind.acuCap :=
    ih.imp (fun ⟨w₀, hw₀, h⟩ => ⟨w₀, hw₀, hc.trans h⟩) (hcore hc)
  induction h generalizing w' with
  | refl => exact Or.inl ⟨w', hw, rfl⟩
  | quiet _ hq ih => exact ih (hq.workItems ▸ hw)
  | @editItem t _ k _ f hf ih =>
    simp only [Tx.modifyItem, Table.get?_modify] at hw
    split at hw
    · obtain ⟨w, hw₀, rfl⟩ := Option.map_eq_some_iff.mp hw
      exact hedit (hf w).core (ih hw₀)
    · exact ih hw
  | editPull _ _ _ _ _ ih => exact ih hw
  | insertPull _ _ _ _ ih => exact ih hw
  | @insertItem t _ _ item hi ih =>
    simp only [Tx.insertItem, Table.get?_insert] at hw
    split at hw
    · cases hw
      exact Or.inr hi.cap
    · exact ih hw
  | @wi t _ k _ e _ reason actor ih =>
    simp only [Tx.wi_db, Table.get?_modify] at hw
    split at hw
    · obtain ⟨w, hw₀, rfl⟩ := Option.map_eq_some_iff.mp hw
      exact hedit (Tx.wiRow_core env e reason w) (ih hw₀)
    · exact ih hw
  | findingFrom _ _ _ _ _ _ _ ih => rw [Tx.findingFrom_db] at hw; exact ih hw
  | own _ _ _ ih => exact ih hw

/-- Work items are never deleted. -/
theorem item_isSome (h : Acts env S tx t) {wid : Nat} (hw : (tx.db.workItems.get? wid).isSome) :
    (t.db.workItems.get? wid).isSome := by
  induction h with
  | refl => exact hw
  | quiet _ hq ih => rw [hq.workItems]; exact ih
  | @editItem t _ w _ f hf ih =>
    simp only [Tx.modifyItem, Table.get?_modify]
    split
    · rw [Option.isSome_map]; exact ih
    · exact ih
  | editPull _ _ _ _ _ ih => exact ih
  | insertPull _ _ _ _ ih => exact ih
  | insertItem _ _ _ ih =>
    obtain ⟨item, hi⟩ := Option.isSome_iff_exists.mp ih
    exact Option.isSome_iff_exists.mpr ⟨item, Table.get?_insert_of_some _ hi⟩
  | wi _ _ _ reason actor ih =>
    simp only [Tx.wi_db, Table.get?_modify]
    split
    · rw [Option.isSome_map]; exact ih
    · exact ih
  | findingFrom _ _ _ _ _ _ _ ih => rw [Tx.findingFrom_db]; exact ih
  | own _ _ _ ih => exact ih

/-- Without insertions an item was there before. -/
theorem item_back (hins : ¬ S.inserts) (h : Acts env S tx t) {wid : Nat} {w' : WorkItem}
    (hw : t.db.workItems.get? wid = some w') : ∃ w, tx.db.workItems.get? wid = some w := by
  induction h generalizing w' with
  | refl => exact ⟨w', hw⟩
  | quiet _ hq ih => exact ih (hq.workItems ▸ hw)
  | editItem _ _ _ ih =>
    simp only [Tx.modifyItem, Table.get?_modify] at hw
    split at hw
    · obtain ⟨w, hw, -⟩ := Option.map_eq_some_iff.mp hw
      exact ih hw
    · exact ih hw
  | editPull _ _ _ _ _ ih => exact ih hw
  | insertPull _ _ _ _ ih => exact ih hw
  | insertItem _ hins' _ _ => exact absurd hins' hins
  | wi _ _ _ _ _ ih =>
    simp only [Tx.wi_db, Table.get?_modify] at hw
    split at hw
    · obtain ⟨w, hw, -⟩ := Option.map_eq_some_iff.mp hw
      exact ih hw
    · exact ih hw
  | findingFrom _ _ _ _ _ _ _ ih => rw [Tx.findingFrom_db] at hw; exact ih hw
  | own _ _ _ ih => exact ih hw

/-- A unit that observes no pull request leaves alone which one an item tracks, and what is known of its head. -/
theorem tracking (hS : ¬ S.pulls) (h : Acts env S tx t) {wid : Nat} {w' : WorkItem}
    (hw : t.db.workItems.get? wid = some w') : w'.prNumber = (tx.db.workItems.get? wid).bind WorkItem.prNumber ∧
      (some w'.lifecycleLevel = (tx.db.workItems.get? wid).map WorkItem.lifecycleLevel ∨
      w'.lifecycleLevel ∉ headLevels) := by
  induction h generalizing w' with
  | refl =>
    rw [hw]
    exact ⟨rfl, Or.inl rfl⟩
  | quiet _ hq ih => exact ih (hq.workItems ▸ hw)
  | @editItem t _ w _ f hf ih =>
    simp only [Tx.modifyItem, Table.get?_modify] at hw
    split at hw
    · obtain ⟨w₀, hw₀, rfl⟩ := Option.map_eq_some_iff.mp hw
      obtain ⟨hnumber, hlevel⟩ := ih hw₀
      obtain ⟨hn, hl⟩ := (hf w₀).tracking.resolve_left hS
      refine ⟨hn.trans hnumber, ?_⟩
      rcases hl with hl | hl
      · rw [hl]
        exact hlevel
      · exact Or.inr hl
    · exact ih hw
  | editPull _ _ _ _ _ ih => exact ih hw
  | insertPull _ _ _ _ ih => exact ih hw
  | @insertItem t h _ item hi ih =>
    simp only [Tx.insertItem, Table.get?_insert] at hw
    split at hw
    · rename_i hid
      cases hw
      have hnone : tx.db.workItems.get? wid = none := by
        by_contra hsome
        have hthere := h.item_isSome (Option.isSome_iff_ne_none.mpr hsome)
        rw [hid, Table.get?_nextId] at hthere
        cases hthere
      rw [hnone, hi.prNumber, hi.level]
      exact ⟨rfl, Or.inr (by decide)⟩
    · exact ih hw
  | @wi t _ w _ e _ reason actor ih =>
    simp only [Tx.wi_db, Table.get?_modify] at hw
    split at hw
    · obtain ⟨w₀, hw₀, rfl⟩ := Option.map_eq_some_iff.mp hw
      obtain ⟨hn, hl⟩ := Tx.wiRow_tracking env e reason w₀
      rw [hn, hl]
      exact ih hw₀
    · exact ih hw
  | findingFrom _ _ _ _ _ _ _ ih => rw [Tx.findingFrom_db] at hw; exact ih hw
  | own _ _ _ ih => exact ih hw

end Acts

end HardeningLoop
