import HardeningLoop.Devin.Rest
import HardeningLoop.Orchestrator.Engine.Walks
import HardeningLoop.Orchestrator.Intake

/-!
# The controller and the sessions at Devin

The database is one side of a dispatch, the sessions that exist at Devin are the other. A world has both; its steps are
those of the controller, the creation of a session through the HTTP client, whose attempts may take effect whatever they
are answered, and the work of the sessions themselves.

- `Db.reservations`: how often an item was reserved, by the log (`Acts.reservations_lt`);
- `exec_flight`: what a step of the controller does to what it has in hand;
- `World.exec`: one step of the world.
-/

namespace HardeningLoop

open Rows (Table)

/-! ## Reservations -/

/-- The entry records a reservation of the item. -/
def Event.reserves (wid : Nat) (e : Event) : Bool :=
  e.entityType == .workItem && e.entityId == wid && e.event == .workItem .dispatchStarted

/-- How often the item was reserved. -/
def Db.reservations (db : Db) (wid : Nat) : Nat := db.events.countP (Event.reserves wid)

section Reservations

variable {env : Env} {S : Scope} {tx t : Tx} {wid : Nat}

theorem reservations_append {db db' : Db} {l : List Event} (h : db'.events = db.events ++ l) :
    db'.reservations wid = db.reservations wid + l.countP (Event.reserves wid) := by
  rw [Db.reservations, h, List.countP_append]
  rfl

/-- An item comes into `dispatching` by a reservation on the log. -/
theorem Acts.reservations_lt (h : Acts env S tx t) : tx.db.reservations wid ≤ t.db.reservations wid ∧
    (t.db.itemState wid = some .dispatching → tx.db.itemState wid = some .dispatching ∨
      tx.db.reservations wid < t.db.reservations wid) := by
  have hkeep {t t' : Tx} {l : List Event} (hl : t'.db.events = t.db.events ++ l)
      (hs : t'.db.itemState wid = some .dispatching → t.db.itemState wid = some .dispatching)
      (ih : tx.db.reservations wid ≤ t.db.reservations wid ∧ (t.db.itemState wid = some .dispatching →
        tx.db.itemState wid = some .dispatching ∨ tx.db.reservations wid < t.db.reservations wid)) :
      tx.db.reservations wid ≤ t'.db.reservations wid ∧ (t'.db.itemState wid = some .dispatching →
        tx.db.itemState wid = some .dispatching ∨ tx.db.reservations wid < t'.db.reservations wid) := by
    have hle : t.db.reservations wid ≤ t'.db.reservations wid := by
      rw [reservations_append hl]
      exact Nat.le_add_right _ _
    exact ⟨ih.1.trans hle, fun hd => (ih.2 (hs hd)).imp_right fun hlt => hlt.trans_le hle⟩
  induction h with
  | refl => exact ⟨le_rfl, Or.inl⟩
  | quiet _ hq ih =>
    obtain ⟨logs, hlogs, -⟩ := hq.events
    exact hkeep hlogs (fun hd => by rwa [Db.itemState, hq.workItems] at hd) ih
  | @editItem t h w hw f hf ih =>
    have hlog : (t.modifyItem w f).db.events = t.db.events ++ [] := (List.append_nil _).symm
    refine hkeep hlog (fun hd => ?_) ih
    have hone : Acts env ⟨fun _ => False, False, (· = w), fun _ => False, S.pulls, S.deeds⟩ t (t.modifyItem w f) :=
      .editItem .refl rfl hf
    exact hone.reserved (fun hno => hno) hd
  | editPull _ _ _ _ _ ih => exact ih
  | insertPull _ _ _ _ ih => exact ih
  | @insertItem t h hins item hi ih =>
    have hlog : (t.insertItem item).db.events = t.db.events ++ [] := (List.append_nil _).symm
    refine hkeep hlog (fun hd => ?_) ih
    have hone : Acts env .grouping t (t.insertItem item) := .insertItem .refl trivial hi
    exact hone.reserved (fun hno => hno) hd
  | @wi t h w hw e he reason actor ih =>
    have hlog : (t.wi env w e reason actor).db.events =
        t.db.events ++ (t.db.workItems.get? w).elim [] (Tx.wiLog env w e reason actor) := by rw [Tx.wi_db]
    by_cases hstarts : e = .dispatchStarted ∧ w = wid ∧ (t.wi env w e reason actor).db.itemState wid = some .dispatching
    · obtain ⟨rfl, rfl, hd⟩ := hstarts
      by_cases hbefore : t.db.itemState w = some .dispatching
      · exact hkeep hlog (fun _ => hbefore) ih
      · obtain ⟨item', hi', hs'⟩ := Option.map_eq_some_iff.mp hd
        obtain ⟨item, hi, rfl⟩ : ∃ item, t.db.workItems.get? w = some item ∧
            Tx.wiRow env .dispatchStarted reason item = item' := by
          rw [Tx.wi_db, Table.get?_modify_self] at hi'
          exact Option.map_eq_some_iff.mp hi'
        have hn : nextWorkItemState item.state .dispatchStarted = some .dispatching := by
          rcases Tx.wiRow_state env .dispatchStarted reason item with h | h | h
          · rw [← h, hs']
          · rw [hs'] at h
            cases next_eq_dispatching h.symm
          · rw [Db.itemState, hi, Option.map_some, ← h, hs'] at hbefore
            exact absurd rfl hbefore
        have hcount : (t.wi env w .dispatchStarted reason actor).db.reservations w = t.db.reservations w + 1 := by
          rw [reservations_append hlog, hi, Option.elim]
          simp [Tx.wiLog, hn, Event.reserves]
        rw [hcount]
        exact ⟨ih.1.trans (Nat.le_succ _), fun _ => Or.inr (Nat.lt_succ_of_le ih.1)⟩
    · refine hkeep hlog (fun hd => ?_) ih
      by_cases hw' : w = wid
      · have hone : Acts env ⟨(· = e), False, (· = w), fun _ => False, False, fun _ => False⟩ t
          (t.wi env w e reason actor) :=
          .wi .refl rfl rfl reason actor
        refine Acts.reserved ?_ hone hd
        exact fun hno => hstarts ⟨hno.symm, hw', hd⟩
      · rw [Db.itemState, Tx.wi_db, Table.get?_modify_of_ne _ (Ne.symm hw')] at hd
        exact hd
  | @findingFrom t h fid hf before _ e _ reason actor runId ih =>
    refine hkeep (by rw [Tx.findingFrom_db]) (fun hd => ?_) ih
    rwa [Db.itemState, Tx.findingFrom_db] at hd
  | own _ _ _ ih => exact ih

theorem Commits.reservations_le {c : Controller} {db db' : Db} (h : Commits c S db db') :
    db.reservations wid ≤ db'.reservations wid := by
  cases h with
  | units h => exact h.reservations_lt.1
  | evaluation h rid => exact h.reservations_lt.1
  | ingested h =>
    obtain ⟨l, hl, -⟩ := (ingestRun_ingested h).events
    rw [reservations_append hl]
    exact Nat.le_add_right _ _

end Reservations

/-! ## What the controller has in hand -/

/-- The item a flight may create a session for. -/
def Flight.dispatches : Flight → Option Nat
  | .adopting wid false => some wid
  | .creating wid _ => some wid
  | _ => none

/-- The sessions on record for an item. -/
def Db.knownSessions (db : Db) (wid : Nat) : List String :=
  (db.sessions.rows.filter fun s => s.workItemId == wid).map Session.devinId

/-- The budget has room for the cap of the item. -/
def Db.affords (db : Db) (settings : Settings) (wid : Nat) : Prop :=
  ∃ item, db.workItems.get? wid = some item ∧
    Binary64.add (acuBudgetPosition db).committed item.acuCap ≤ settings.globalAcuBudget

/-- What a step does to what the controller has in hand. -/
inductive FlightStep (c : Controller) (s : Sys) (a : Action) (s' : Sys) : Prop
  /-- Nothing that leads to a session. -/
  | idle (h : s'.flight.bind Flight.dispatches = none)
  | keeps (h : s'.flight = s.flight) (hs : s'.db.sessions = s.db.sessions) (hw : s'.db.workItems = s.db.workItems)
  | reserves {wid : Nat} (hfree : s.flight = none) (h : s'.flight = some (.adopting wid false))
      (hlog : s.db.reservations wid < s'.db.reservations wid) (hbudget : s.db.affords c.settings wid)
      (hs : s'.db.sessions = s.db.sessions)
  | searches {wid : Nat} {members : List (Nat × Finding)} {now : DateTime} {sessions : List SessionSnapshot}
      (ha : a = .adopt now (.ok sessions)) (hs : s.flight = some (.adopting wid false))
      (h : s'.flight = some (.creating wid members)) (hdb : s'.db = s.db)
      (hfound : ∀ r ∈ sessions, r.sessionId ∈ s.db.knownSessions wid)

section Flights

variable {env : Env} {tx : Tx} {wid : Nat}

theorem dispatchCandidate_reserved {issue : Nat} {severity : Severity} {labels : List String}
    (h : (dispatchCandidate env tx wid issue severity labels).2 = .reserved) :
    tx.db.itemState wid = some .issueOpen ∧ tx.db.affords env.settings wid := by
  unfold dispatchCandidate at h
  split at h
  · cases h
  · split at h
    · cases h
    · split at h
      · cases h
      · rename_i item hi
        split at h
        · cases h
        · rename_i hopen
          dsimp only at h
          split at h
          · cases h
          · rename_i hbudget
            simp only [Bool.or_eq_true, decide_eq_true_eq, not_or, not_not] at hopen
            exact ⟨by rw [Db.itemState, hi, Option.map_some, hopen.1], item, hi, not_lt.mp hbudget⟩

theorem launch_reserved {operator : String} {answers : LaunchAnswers}
    (h : (launch env tx wid operator answers).2 = true) :
    tx.db.itemState wid ≠ some .dispatching ∧ tx.db.affords env.settings wid := by
  unfold launch at h
  split at h
  · cases h
  · rename_i item hi
    split at h
    · rename_i action haction
      obtain ⟨hfor, -, -, hbudget⟩ := launchPreview_eq_some haction
      refine ⟨fun hd => ?_, item, hi, hbudget⟩
      rw [Db.itemState, hi, Option.map_some, Option.some.injEq] at hd
      exact actionFor_inactive hfor (by rw [hd]; decide)
    · cases h

/-- A reservation records no session. -/
theorem dispatchCandidate_sessions (issue : Nat) (severity : Severity) (labels : List String) :
    (dispatchCandidate env tx wid issue severity labels).1.db.sessions = tx.db.sessions := by
  unfold dispatchCandidate
  split
  · rfl
  · split
    · rfl
    · split
      · rfl
      · split
        · rfl
        · dsimp only
          split
          · rfl
          · rw [reserve, Tx.wi_db]

theorem openIssue_sessions (existing : Option (List (String × Issue))) (relisted : Option (List Issue))
    (created : Except String Issue) :
    (openIssue env tx wid existing relisted created).1.db.sessions = tx.db.sessions := by
  unfold openIssue
  split
  · rfl
  · dsimp only
    split
    · rw [bindIssue, Tx.wi_db]
      rfl
    · split
      · rfl
      · rw [bindIssue, Tx.wi_db]
        rfl

theorem launchReserve_sessions (issue : Nat) (item : WorkItem) (operator : String) (answers : LaunchAnswers) :
    (launchReserve env tx wid issue item operator answers).1.db.sessions = tx.db.sessions := by
  unfold launchReserve
  dsimp only
  split
  · rfl
  · set t := if (item.severity ∉ defaultDispatchSeverities : Bool) then _ else tx with ht
    have h : t.db.sessions = tx.db.sessions := by
      rw [ht]
      split <;> rfl
    split
    · split <;> exact h
    · split
      · rw [reserve, Tx.wi_db]
        exact h
      · exact h

theorem launch_sessions (operator : String) (answers : LaunchAnswers) :
    (launch env tx wid operator answers).1.db.sessions = tx.db.sessions := by
  unfold launch
  split
  · rfl
  · rename_i item _
    split
    · rename_i action _
      dsimp only
      set t := if action = .relaunch then _ else tx with ht
      have h : t.db.sessions = tx.db.sessions := by
        rw [ht]
        split
        · rw [relaunch, Tx.wi_db]
          dsimp only
          split <;> rfl
        · rfl
      set o := if _ = WorkItemState.queued then _ else (t, true) with ho
      have h' : o.1.db.sessions = tx.db.sessions := by
        rw [ho]
        split
        · exact (openIssue_sessions none _ _).trans h
        · exact h
      split
      · exact h'
      · split
        · exact h'
        · split
          · exact (launchReserve_sessions _ _ operator answers).trans h'
          · exact h'
    · rfl

theorem adoptTagged_found {sessions : List SessionSnapshot} {flight : Flight}
    (h : (adoptTagged env tx wid false (.ok sessions)).2 = some flight) :
    ∀ r ∈ sessions, r.sessionId ∈ tx.db.knownSessions wid := by
  unfold adoptTagged at h
  dsimp only at h
  split at h
  · cases h
  · rename_i hnone
    intro r hr
    by_contra hnew
    have hmem : r ∈ sessions.filter fun s => s.isActive ||
        s.sessionId ∉ (tx.db.sessions.rows.filter fun s => s.workItemId == wid).map Session.devinId :=
      List.mem_filter.mpr ⟨hr, by rw [Bool.or_eq_true]; exact Or.inr (decide_eq_true hnew)⟩
    unfold newestSession at hnone
    split at hnone
    · rename_i hempty
      rw [hempty] at hmem
      cases hmem
    · cases hnone

theorem stepFree_flight (c : Controller) (s : Sys) (a : Action) (hfree : s.flight = none) :
    FlightStep c s a (stepFree c s a) := by
  have hnone : s.flight.bind Flight.dispatches = none := by rw [hfree]; rfl
  cases a with
  | beginTick => dsimp only [stepFree]; split <;> exact .idle hnone
  | pollSession now wid sid snap answers => dsimp only [stepFree]; split <;> exact .idle hnone
  | pollPullRequest now wid number pr checks answers => dsimp only [stepFree]; split <;> exact .idle hnone
  | pollHumanLabel now wid number state labels => dsimp only [stepFree]; split <;> exact .idle hnone
  | applyRun now compare => dsimp only [stepFree]; split <;> exact .idle hnone
  | applyFailed => dsimp only [stepFree]; split <;> exact .idle hnone
  | group now => dsimp only [stepFree]; unfold stepGroup; split <;> exact .idle hnone
  | openIssue now relisted created =>
    dsimp only [stepFree]
    unfold stepOpen
    split
    · dsimp only
      split <;> exact .idle hnone
    · exact .idle hnone
  | recover now =>
    dsimp only [stepFree]
    unfold stepRecover
    split
    · dsimp only
      split
      · exact .idle rfl
      · exact .idle hnone
    · exact .idle hnone
  | dispatch now labels =>
    dsimp only [stepFree]
    unfold stepDispatch
    split
    · rename_i wid issue severity targets _
      dsimp only
      by_cases hreserved : (dispatchCandidate (c.env now) { db := s.db } wid issue severity labels).2 = .reserved
      · obtain ⟨hopen, hbudget⟩ := dispatchCandidate_reserved hreserved
        have hdispatching := (dispatchCandidate_walk (c.env now) { db := s.db } wid issue severity labels).2 hreserved
        refine .reserves hfree (by simp only [hreserved, if_true]) ?_ hbudget
          (dispatchCandidate_sessions issue severity labels)
        refine ((dispatchCandidate_acts (c.env now) { db := s.db } wid issue severity labels).reservations_lt.2
          hdispatching).resolve_left fun hno => ?_
        rw [hopen] at hno
        cases hno
      · exact .idle (by simp only [hreserved, if_false]; rfl)
    · exact .idle hnone
  | launch now wid operator answers =>
    dsimp only [stepFree]
    split
    · by_cases hreserved : (launch (c.env now) { db := s.db } wid operator answers).2 = true
      · obtain ⟨hopen, hbudget⟩ := launch_reserved hreserved
        have hdispatching := (launch_walk (c.env now) { db := s.db } wid operator answers).2 hreserved
        refine .reserves hfree (by simp only [hreserved, if_true]) ?_ hbudget (launch_sessions operator answers)
        exact ((launch_acts (c.env now) { db := s.db } wid operator answers).reservations_lt.2
          hdispatching).resolve_left hopen
      · exact .idle (by simp only [hreserved]; rfl)
    · exact .idle hnone
  | cancelRequest now wid operator =>
    dsimp only [stepFree]
    split
    · refine .idle ?_
      show Option.bind (cancelRequest (c.env now) { db := s.db } wid operator).2 Flight.dispatches = none
      cases hflight : (cancelRequest (c.env now) { db := s.db } wid operator).2 with
      | none => rfl
      | some flight =>
        obtain ⟨⟨row, rfl⟩, -⟩ := (cancelRequest_walk (c.env now) { db := s.db } wid operator).2 flight hflight
        rfl
    · exact .idle hnone
  | next autoDispatch listed => exact .idle hnone
  | ingest _ _ _ _ => exact .idle hnone
  | adopt _ _ => exact .idle hnone
  | create _ _ _ => exact .idle hnone
  | cancelAnswer _ _ => exact .idle hnone
  | stop => exact .idle hnone

/-- **What a step does to what the controller has in hand.** A session is created only after a reservation and a search
that found none. -/
theorem exec_flight (c : Controller) (s : Sys) (a : Action) : FlightStep c s a (exec c s a) := by
  cases a with
  | ingest run jobs upperBounds now =>
    dsimp only [exec]
    split
    · rename_i h
      exact .keeps rfl (ingestRun_ingested h).sessions (ingestRun_ingested h).workItems
    · exact .keeps rfl rfl rfl
  | stop => exact .idle rfl
  | adopt now remote =>
    dsimp only [exec]
    unfold stepAdopt
    split
    · rename_i wid recovering hflight
      cases hnext : (adoptTagged (c.env now) { db := s.db } wid recovering remote).2 with
      | none => exact .idle (by dsimp only; rw [hnext]; rfl)
      | some flight =>
        obtain ⟨hsame, rfl, members, rfl⟩ := adoptTagged_creating hnext
        cases remote with
        | error exc => cases hnext
        | ok sessions =>
          exact .searches rfl hflight hnext (by dsimp only; rw [hsame]) (adoptTagged_found hnext)
    · exact .keeps rfl rfl rfl
  | create now answer commented =>
    dsimp only [exec]
    unfold stepCreate
    split
    · exact .idle rfl
    · exact .keeps rfl rfl rfl
  | cancelAnswer now answer =>
    dsimp only [exec]
    unfold stepCancel
    split
    · exact .idle rfl
    · exact .keeps rfl rfl rfl
  | _ =>
    dsimp only [exec]
    split
    · exact .keeps rfl rfl rfl
    · exact stepFree_flight c s _ (Option.not_isSome_iff_eq_none.mp ‹_›)

end Flights

/-! ## The world -/

/-- A session at Devin: its tag, its limit, what it consumed and whether Devin regards it as able to work. The
reservation it was created under, and whether a later reservation counted it at its consumption only, are history. -/
structure RemoteSession where
  sessionId : String
  workItem : Nat
  reservation : Nat
  limit : Acu
  consumed : Acu := 0
  able : Bool := true
  released : Bool := false
  deriving DecidableEq, Repr

structure World where
  sys : Sys
  remote : List RemoteSession := []

inductive WorldAction where
  /-- A step of the controller other than the creation of a session. -/
  | act (a : Action)
  /-- The controller uploads its attachment and creates a session; without an upload the process died there, and it may
  die before it records what it was answered. -/
  | create (now : DateTime) (upload : Option (Except String Unit))
      (attempts : List (Attempt String (Except String SessionSnapshot))) (dies : Bool) (commented : Except String Unit)
  /-- A session at Devin works, stops or resumes. -/
  | work (i : Nat) (consumed : Acu) (able : Bool)

/-- A session as it is created: tagged with the item, limited to its cap. -/
def newSession (db : Db) (wid : Nat) (id : String) : RemoteSession :=
  { sessionId := id, workItem := wid, reservation := db.reservations wid
    limit := ((db.workItems.get? wid).map WorkItem.acuCap).getD 0 }

/-- The session is on record. -/
def Db.records (db : Db) (id : String) : Bool := db.sessions.rows.any fun s => s.devinId == id

/-- The session is that of an item in an active state. -/
def Db.reservesFor (db : Db) (id : String) : Bool :=
  db.workItems.rows.any fun w => w.state ∈ activeWorkItemStates && w.activeSessionId == some id

/-- How a reservation counts a session: at its consumption, when it is on record and of no active item. -/
def RemoteSession.counted (db : Db) (r : RemoteSession) : RemoteSession :=
  { r with released := db.records r.sessionId && !db.reservesFor r.sessionId }

/-- The item a step reserves. -/
def reservedItem (s s' : Sys) : Option Nat := if s.flight.isNone then s'.flight.bind Flight.dispatches else none

/-- What the creation of a session is asked with. -/
def createWhat (org : String) : String := "POST /organizations/" ++ org ++ "/sessions"

/-- What `create_session` returns for the result of its request. -/
def created (result : Except String (Except String SessionSnapshot)) : Except String SessionSnapshot :=
  match result with
  | .ok answer => answer
  | .error exc => .error exc

/-- One step of the world. -/
def World.exec (org : String) (c : Controller) (w : World) : WorldAction → World
  | .act (.create _ _ _) => w
  | .act a =>
    let sys := HardeningLoop.exec c w.sys a
    { sys := sys
      remote := if (reservedItem w.sys sys).isSome then w.remote.map (RemoteSession.counted w.sys.db) else w.remote }
  | .create now upload attempts dies commented =>
    match w.sys.flight, upload with
    | some (.creating wid _), some (.ok ()) =>
      let (ids, result) := request (createWhat org) false attempts
      let remote := w.remote ++ ids.map (newSession w.sys.db wid)
      match result, dies with
      | some result, false =>
        { sys := HardeningLoop.exec c w.sys (.create now (created result) commented), remote := remote }
      | _, _ => { sys := HardeningLoop.exec c w.sys .stop, remote := remote }
    | some (.creating _ _), some (.error exc) =>
      { w with sys := HardeningLoop.exec c w.sys (.create now (.error exc) commented) }
    | some (.creating _ _), none => { w with sys := HardeningLoop.exec c w.sys .stop }
    | _, _ => w
  | .work i consumed able =>
    { w with remote := w.remote.modify i fun r => { r with consumed := consumed, able := able } }

/-- No session exists before the controller's first run. -/
def World.initial : World := { sys := .initial }

/-- The sessions that a step creates, for a controller that waits for one. -/
def WorldAction.sessions (org : String) : WorldAction → List String
  | .create _ (some (.ok ())) attempts _ _ => (request (createWhat org) false attempts).1
  | _ => []

/-- What a step of the world is made of. -/
inductive WorldStep (org : String) (c : Controller) (w : World) (a : WorldAction) (w' : World) : Prop
  | acts {b : Action} (ha : a = .act b) (hsys : w'.sys = HardeningLoop.exec c w.sys b)
      (hremote : w'.remote = if (reservedItem w.sys w'.sys).isSome then w.remote.map (RemoteSession.counted w.sys.db)
        else w.remote)
  | creates {wid : Nat} {members : List (Nat × Finding)} {b : Action}
      (hflight : w.sys.flight = some (.creating wid members)) (hsys : w'.sys = HardeningLoop.exec c w.sys b)
      (hlands : w'.sys.flight = none) (hremote : w'.remote = w.remote ++ (a.sessions org).map (newSession w.sys.db wid))
  | works {i : Nat} {consumed : Acu} {able : Bool} (ha : a = .work i consumed able) (hsys : w'.sys = w.sys)
      (hremote : w'.remote = w.remote.modify i fun r => { r with consumed := consumed, able := able })
  | idle (h : w' = w) (hnone : (∃ wid members, w.sys.flight = some (.creating wid members)) → a.sessions org = [])

section Worlds

variable {org : String} {c : Controller} {w : World}

theorem exec_create_lands {s : Sys} {wid : Nat} {members : List (Nat × Finding)}
    (hflight : s.flight = some (.creating wid members)) (now : DateTime) (answer : Except String SessionSnapshot)
    (commented : Except String Unit) : (exec c s (.create now answer commented)).flight = none := by
  simp only [exec, stepCreate, hflight]

theorem exec_act_step (b : Action) : WorldStep org c w (.act b) (w.exec org c (.act b)) := by
  cases b with
  | create _ _ _ => exact .idle rfl fun _ => rfl
  | _ => exact .acts rfl rfl rfl

theorem exec_create_step (now : DateTime) (upload : Option (Except String Unit))
    (attempts : List (Attempt String (Except String SessionSnapshot))) (dies : Bool) (commented : Except String Unit) :
    WorldStep org c w (.create now upload attempts dies commented)
      (w.exec org c (.create now upload attempts dies commented)) := by
  by_cases hcreating : ∃ wid members, w.sys.flight = some (.creating wid members)
  · obtain ⟨wid, members, hflight⟩ := hcreating
    dsimp only [World.exec]
    rw [hflight]
    match upload with
    | none => exact .creates (b := .stop) hflight rfl rfl (List.append_nil _).symm
    | some (.error exc) =>
      exact .creates (b := .create now (.error exc) commented) hflight rfl (exec_create_lands hflight _ _ _)
        (List.append_nil _).symm
    | some (.ok ()) =>
      dsimp only
      split
      · exact .creates (b := .create now (created _) commented) hflight rfl (exec_create_lands hflight _ _ _) rfl
      · exact .creates (b := .stop) hflight rfl rfl rfl
  · refine .idle ?_ fun h => absurd h hcreating
    dsimp only [World.exec]
    split
    · exact absurd ⟨_, _, ‹_›⟩ hcreating
    · exact absurd ⟨_, _, ‹_›⟩ hcreating
    · exact absurd ⟨_, _, ‹_›⟩ hcreating
    · rfl

/-- **What a step of the world is made of.** -/
theorem World.exec_step (a : WorldAction) : WorldStep org c w a (w.exec org c a) := by
  cases a with
  | act b => exact exec_act_step b
  | create now upload attempts dies commented => exact exec_create_step now upload attempts dies commented
  | work i consumed able => exact .works rfl rfl rfl

/-- The controller makes a step of its own, or waits. -/
theorem World.exec_sys (a : WorldAction) :
    (w.exec org c a).sys = w.sys ∨ ∃ b, (w.exec org c a).sys = HardeningLoop.exec c w.sys b := by
  have hstep := @World.exec_step org c w a
  generalize w.exec org c a = w' at hstep
  cases hstep with
  | acts ha hsys hremote => exact Or.inr ⟨_, hsys⟩
  | creates hflight hsys hlands hremote => exact Or.inr ⟨_, hsys⟩
  | works ha hsys hremote => exact Or.inl hsys
  | idle h hnone => exact Or.inl (by rw [h])

end Worlds

end HardeningLoop
