import HardeningLoop.Orchestrator.Accepting
import HardeningLoop.Orchestrator.Adoption
import HardeningLoop.Orchestrator.Engine.Bindings
import HardeningLoop.Orchestrator.Ownership

/-!
# Cancelling a session

An operator may stop the session an item is bound to, unless the item has a pull request. The number of a pull request
stays with the item when a human has it retried, also when another session is started for it.

- `exec_rebinds`: what a step does to the binding of an item;
- `Deliveries`: the controller, with the sessions that have delivered a pull request;
- `cancel_reaches_iff`: every session that has delivered none can be cancelled exactly when no session is started for an
  item that still has the number of an earlier one.
-/

namespace HardeningLoop

open Rows (Table)

/-! ## What a step does to the bindings -/

section Steps

variable {c : Controller} {s : Sys}

/-- The session that a step starts or adopts, and the item it is for. -/
def sessionBound (s : Sys) : Action → Option (Nat × String)
  | .adopt _ (.ok sessions) =>
    match s.flight with
    | some (.adopting wid _) => (adoptedSession s.db wid sessions).map fun snap => (wid, snap.sessionId)
    | _ => none
  | .create _ (.ok snap) _ =>
    match s.flight with
    | some (.creating wid _) => some (wid, snap.sessionId)
    | _ => none
  | _ => none

/-- A human retry releases an item: no session is bound to it, and it was under the care of none. -/
structure Releases (db db' : Db) (wid : Nat) : Prop where
  bound : db'.bound = Function.update db.bound wid none
  bindings : db'.bindings.2 = db.bindings.2
  idle : ¬ db.attended wid

/-- What a step does to the bindings: nothing, or it releases an item, or it starts a session. -/
inductive Rebinds (db db' : Db) : Option (Nat × String) → Prop
  | keeps (h : db'.bindings = db.bindings) : Rebinds db db' none
  | releases {wid : Nat} (h : Releases db db' wid) : Rebinds db db' none
  | binds {wid : Nat} {sid : String} (h : BindsSession db db' wid sid)
    (hactive : db'.itemState wid = some .sessionActive)
      (hothers : ∀ k, k ≠ wid → db'.itemState k = db.itemState k) : Rebinds db db' (some (wid, sid))

section Units

variable {env : Env} {tx t : Tx} {wid : Nat} {item : WorkItem}

theorem not_attended (hi : tx.db.workItems.get? wid = some item) (hs : item.state ∉ attendedStates) :
    ¬ tx.db.attended wid := by
  rintro ⟨s, hstate, hmem⟩
  rw [Db.itemState, hi, Option.map_some, Option.some.injEq] at hstate
  exact hs (hstate ▸ hmem)

/-- A human retry. -/
theorem releases_retry {db : Db} (ht : t.db.bindings = db.bindings) (hi : t.db.workItems.get? wid = some item)
    (hidle : ¬ db.attended wid) (reason actor : String) :
    Releases db ((t.modifyItem wid fun w =>
      { w with retriesUsed := 0, activeSessionId := none, blockedReason := none }).wi
        env wid .humanRetry reason actor).db wid := by
  have hwi := @bindings_wi env (t.modifyItem wid fun w =>
    { w with retriesUsed := 0, activeSessionId := none, blockedReason := none }) .humanRetry rfl wid reason actor
  have hrows : (t.modifyItem wid fun w =>
    { w with retriesUsed := 0, activeSessionId := none, blockedReason := none }).db.bindings.2 = t.db.bindings.2 := rfl
  refine ⟨?_, ((congrArg Prod.snd hwi).trans hrows).trans (congrArg Prod.snd ht), hidle⟩
  have hbound : t.db.bound = db.bound := congrArg Prod.fst ht
  exact (congrArg Prod.fst hwi).trans (hbound ▸ bound_rebind hi fun _ => rfl)

theorem Releases.bindings_eq {db db' db'' : Db} (h : Releases db db' wid) (he : db''.bindings = db'.bindings) :
    Releases db db'' wid :=
  ⟨(congrArg Prod.fst he).trans h.bound, (congrArg Prod.snd he).trans h.bindings, h.idle⟩

/-- A unit that releases an item or leaves the bindings alone. -/
theorem pollHumanLabel_rebinds (number : Nat) (issueState : String) (labels : List String) :
    Rebinds tx.db (pollHumanLabel env wid number issueState labels tx).db none := by
  unfold pollHumanLabel
  split
  · exact .keeps rfl
  · rename_i item hi
    split
    · exact .keeps rfl
    · split
      · refine .keeps ((bindings_foldl (fun t fid => ?_) _ _).trans (bindings_wi rfl ..))
        simp [abandonMember]
      · split
        · rename_i hattention
          have hidle : ¬ tx.db.attended wid := by
            refine not_attended hi ?_
            revert hattention
            cases item.state <;> decide
          unfold applyLabels
          split
          · exact .releases (releases_retry (t := tx.must _) rfl hi hidle _ _)
          · refine .keeps ?_
            unfold resolve
            repeat' split
            all_goals simp
        · exact .keeps rfl

theorem launch_rebinds (operator : String) (answers : LaunchAnswers) :
    Rebinds tx.db (launch env tx wid operator answers).1.db none := by
  unfold launch
  split
  · exact .keeps rfl
  · rename_i item hi
    split
    · rename_i action haction
      have hfor : actionFor item.state = (some action, none) := (launchPreview_eq_some haction).1
      have hrelaunch (h : action = .relaunch) : Releases tx.db (relaunch env tx wid item operator).db wid := by
        have hidle : ¬ tx.db.attended wid := by
          refine not_attended hi ?_
          rw [h] at hfor
          revert hfor
          cases item.state <;> decide
        unfold relaunch
        dsimp only
        split
        · exact releases_retry (t := tx.attempt _) rfl hi hidle _ _
        · exact releases_retry rfl hi hidle _ _
      have hrest {t : Tx}
        (he : t.db.bindings = (if action = .relaunch then relaunch env tx wid item operator else tx).db.bindings) :
          Rebinds tx.db t.db none := by
        split at he
        · exact .releases ((hrelaunch ‹_›).bindings_eq he)
        · exact .keeps he
      dsimp only
      generalize (if action = .relaunch then relaunch env tx wid item operator else tx) = t at hrest
      have hopened : (if ((t.db.workItems.get? wid).map WorkItem.state).getD item.state = .queued then
          openIssue env t wid none answers.listed answers.created else (t, true)).1.db.bindings = t.db.bindings := by
        split
        · exact bindings_openIssue ..
        · rfl
      revert hopened
      generalize (if ((t.db.workItems.get? wid).map WorkItem.state).getD item.state = .queued then
          openIssue env t wid none answers.listed answers.created else (t, true)) = o
      intro hopened
      split
      · exact hrest hopened
      · split
        · exact hrest hopened
        · split
          · exact hrest ((bindings_launchReserve ..).trans hopened)
          · exact hrest hopened
    · exact .keeps (bindings_log ..)

/-- The start of a session leaves the other items as they are. -/
theorem itemState_started {snap : SessionSnapshot} {adopted : Bool} (event : WorkItemEvent)
    (he : event ∉ .dispatchStarted :: headEvents) (reason actor : String) {k : Nat} (hk : k ≠ wid) :
    ((recordSession env tx wid snap adopted).wi env wid event reason actor).db.itemState k = tx.db.itemState k := by
  have hacts : OnItem env wid tx ((recordSession env tx wid snap adopted).wi env wid event reason actor) :=
    (recordSession_does env tx wid snap adopted).fire event reason actor he
  rw [Db.itemState, hacts.item not_false hk]
  rfl

theorem createSession_others {snap : SessionSnapshot} (members : List (Nat × Finding)) (commented : Except String Unit)
    {k : Nat} (hk : k ≠ wid) :
    (createSession env tx wid members (.ok snap) commented).db.itemState k = tx.db.itemState k := by
  have hstart (t : Tx) : (members.foldl (startRemediation env snap.sessionId) t).db.workItems = t.db.workItems := by
    induction members generalizing t with
    | nil => rfl
    | cons m members ih => exact (ih _).trans (by rw [startRemediation, Tx.findingFrom_db])
  have hstarted (call : Call) := @itemState_started env (tx.answered call) wid snap false .sessionCreated (by decide)
    snap.sessionId "controller" k hk
  unfold createSession
  dsimp only
  set t := members.foldl _ _ with ht
  have h : t.db.itemState k = tx.db.itemState k := by
    rw [ht, Db.itemState, hstart]
    exact hstarted _
  split
  · exact h
  · split <;> exact h

end Units

theorem ingestRun_bindings {ext : External} {db db' : Db} {run : RunMeta} {jobs : List ScanJobEvidence}
    {upperBounds : List (String × String)} {ts : DateTime} {result : IngestResult}
    (h : ingestRun ext db run jobs upperBounds ts = .ok (db', result)) : db'.bindings = db.bindings := by
  have hsame := ingestRun_ingested h
  obtain ⟨l, hl, hall⟩ := hsame.events
  have hbound : db'.bound = db.bound := by
    unfold Db.bound
    rw [hsame.workItems]
  refine bindings_append (t := { db := db }) hbound hsame.sessions hl fun e he => ?_
  obtain ⟨name, hname, -⟩ := hall e he
  rw [hname, starts_log]

/-- A step of a controller that waits for no answer. -/
theorem stepFree_rebinds (a : Action) : Rebinds s.db (stepFree c s a).db none := by
  cases a with
  | pollSession now wid sid snap answers =>
    dsimp only [stepFree]
    split
    · exact .keeps (bindings_pollSession ..)
    · exact .keeps (bindings_pollSession ..)
    · exact .keeps rfl
  | pollPullRequest now wid number pr checks answers =>
    dsimp only [stepFree]
    split
    · exact .keeps (bindings_pollPullRequest ..)
    · exact .keeps rfl
  | pollHumanLabel now wid number state labels =>
    dsimp only [stepFree]
    split
    · exact @pollHumanLabel_rebinds _ { db := s.db } ..
    · exact .keeps rfl
  | applyRun now compare =>
    dsimp only [stepFree]
    split
    · exact .keeps (bindings_applyScanRun _)
    · exact .keeps rfl
  | group now =>
    dsimp only [stepFree]
    unfold stepGroup
    split
    · exact .keeps (bindings_groupFindings ..)
    · exact .keeps rfl
  | openIssue now relisted created =>
    dsimp only [stepFree]
    unfold stepOpen
    split
    · dsimp only
      split
      · exact .keeps (bindings_openIssue ..)
      · exact .keeps rfl
    · exact .keeps rfl
  | recover now =>
    dsimp only [stepFree]
    unfold stepRecover
    split
    · dsimp only
      split
      · exact .keeps (bindings_log ..)
      · exact .keeps rfl
    · exact .keeps rfl
  | dispatch now labels =>
    dsimp only [stepFree]
    unfold stepDispatch
    split
    · exact .keeps (bindings_dispatchCandidate ..)
    · exact .keeps rfl
  | launch now wid operator answers =>
    dsimp only [stepFree]
    split
    · exact @launch_rebinds _ { db := s.db } ..
    · exact .keeps rfl
  | cancelRequest now wid operator =>
    dsimp only [stepFree]
    split
    · exact .keeps (bindings_cancelRequest ..)
    · exact .keeps rfl
  | beginTick => dsimp only [stepFree]; split <;> exact .keeps rfl
  | applyFailed => dsimp only [stepFree]; split <;> exact .keeps rfl
  | _ => exact .keeps rfl

/-- **What a step does to the bindings.** -/
theorem exec_rebinds (hI : InFlight s) (a : Action) : Rebinds s.db (exec c s a).db (sessionBound s a) := by
  have hdispatching {wid : Nat} (hs : s.db.itemState wid = some .dispatching) :
      ∃ item, s.db.workItems.get? wid = some item := by
    obtain ⟨item, hi, -⟩ := Option.map_eq_some_iff.mp hs
    exact ⟨item, hi⟩
  cases a with
  | ingest run jobs upperBounds now =>
    dsimp only [exec, sessionBound]
    split
    · exact .keeps (ingestRun_bindings ‹_›)
    · exact .keeps rfl
  | stop => exact .keeps rfl
  | adopt now remote =>
    dsimp only [exec, stepAdopt]
    cases remote with
    | error exc =>
      dsimp only [sessionBound]
      split
      · exact .keeps (bindings_dispatchFailed _)
      · exact .keeps rfl
    | ok sessions =>
      dsimp only [sessionBound]
      cases hflight : s.flight with
      | none => exact .keeps rfl
      | some flight =>
        cases flight with
        | creating wid members => exact .keeps rfl
        | cancelling wid row operator => exact .keeps rfl
        | adopting wid recovering =>
          have hs : s.db.itemState wid = some .dispatching := by
            rw [InFlight, hflight] at hI
            exact hI
          dsimp only
          rw [adoptTagged_eq]
          cases hadopted : adoptedSession s.db wid sessions with
          | none =>
            dsimp only [Option.map_none]
            split
            · exact .keeps (bindings_dispatchFailed _)
            · exact .keeps rfl
          | some snap =>
            obtain ⟨item, hi⟩ := hdispatching hs
            have hadopts : nextWorkItemState .dispatching .sessionAdopted = some .sessionActive := rfl
            exact .binds ((@recordSession_binds _ { db := s.db } _ _ _ hi true).wi ..)
              ((@recordSession_at _ { db := s.db } _ hs snap true).fire hadopts _ _).state fun k hk =>
                @itemState_started _ { db := s.db } _ _ _ .sessionAdopted (by decide) _ _ _ hk
  | create now answer commented =>
    dsimp only [exec, stepCreate]
    cases answer with
    | error exc =>
      dsimp only [sessionBound]
      split
      · exact .keeps (bindings_dispatchFailed _)
      · exact .keeps rfl
    | ok snap =>
      dsimp only [sessionBound]
      cases hflight : s.flight with
      | none => exact .keeps rfl
      | some flight =>
        cases flight with
        | adopting wid recovering => exact .keeps rfl
        | cancelling wid row operator => exact .keeps rfl
        | creating wid members =>
          have hs : s.db.itemState wid = some .dispatching := by
            rw [InFlight, hflight] at hI
            exact hI
          obtain ⟨item, hi⟩ := hdispatching hs
          exact .binds (@createSession_binds _ { db := s.db } _ _ _ hi members commented)
            (@createSession_at _ { db := s.db } _ hs members snap commented).state fun k hk =>
              @createSession_others _ { db := s.db } _ _ members commented _ hk
  | cancelAnswer now answer =>
    dsimp only [exec, stepCancel, sessionBound]
    split
    · exact .keeps (bindings_cancelAnswer ..)
    · exact .keeps rfl
  | _ =>
    dsimp only [exec, sessionBound]
    split
    · exact .keeps rfl
    · exact stepFree_rebinds _

/-- What the controller keeps in hand agrees with the item after every step. -/
theorem exec_inFlight (hI : InFlight s) (a : Action) : InFlight (exec c s a) := by
  by_cases ha : Overlooks s a
  · cases a with
    | pollHumanLabel now wid number state labels =>
      have hfree : s.flight = none := Option.isNone_iff_eq_none.mp ha.1
      refine .landed ?_
      dsimp only [exec, stepFree]
      rw [hfree, if_neg nofun]
      split <;> exact hfree
    | _ => exact ha.elim
  · exact (exec_accepts hI ha).2

/-- Without a start on the log no step brings an item under the care of a session. -/
theorem exec_attended (a : Action) (h : (exec c s a).db.starts = s.db.starts) {wid : Nat}
    (ha : (exec c s a).db.attended wid) :
    s.db.attended wid := by
  have hcommits := exec_commits c s a
  revert h ha
  generalize (exec c s a).db = db' at hcommits
  intro h ha
  cases hcommits with
  | units hacts => exact hacts.attended_of_starts h ha
  | evaluation hacts rid => exact hacts.attended_of_starts h ha
  | ingested hrun =>
    unfold Db.attended at ha ⊢
    simp only [Db.itemState, (ingestRun_ingested hrun).workItems] at ha ⊢
    exact ha

end Steps

/-! ## The sessions that have delivered -/

/-- The controller, with the sessions that have delivered a pull request. -/
structure Deliveries where
  sys : Sys
  delivered : List String := []

namespace Deliveries

def initial : Deliveries := { sys := .initial }

/-- The session that the step records a pull request of. -/
def delivers (c : Controller) (s : Sys) (a : Action) : Option String := (recorded c s a).bind fun r => s.db.bound r.1

def exec (c : Controller) (h : Deliveries) (a : Action) : Deliveries :=
  { sys := HardeningLoop.exec c h.sys a, delivered := h.delivered ++ (delivers c h.sys a).toList }

theorem run_sys (c : Controller) (h : Deliveries) (trace : List Action) :
    (Machine.run (exec c) h trace).sys = Machine.run (HardeningLoop.exec c) h.sys trace := by
  induction trace generalizing h with
  | nil => rfl
  | cons a trace ih => exact ih (h.exec c a)

end Deliveries

/-- `_cancel_preview`: what blocks the cancel that the item is shown with. -/
def cancelPreview (db : Db) (item : WorkItem) : Option CancelBlock :=
  cancelBlockFor item.state (db.activeSession item).isSome item.prNumber.isSome

/-- **The operator can cancel every session that has delivered no pull request**: an item that is active with it is
shown without a block, and a request to cancel it is accepted. -/
def CancelReaches (c : Controller) (h : Deliveries) : Prop :=
  ∀ wid item, h.sys.db.workItems.get? wid = some item → item.state = .sessionActive →
    (∀ sid, item.activeSessionId = some sid → sid ∉ h.delivered) →
    cancelPreview h.sys.db item = none ∧ ∀ now operator, ∃ row,
      (cancelRequest (c.env now) { db := h.sys.db } wid operator).2 = some (.cancelling wid row operator)

/-- The step starts or adopts no session that has delivered nothing for an item that has the number of a pull request;
nor one with an empty id. -/
def BindsFresh (h : Deliveries) (a : Action) : Prop :=
  ∀ wid sid, sessionBound h.sys a = some (wid, sid) → sid ∉ h.delivered → sid ≠ "" ∧ h.sys.db.tracks wid = none

/-- Items under the care of a session are bound to one that is on record, and that has delivered if the item has a pull
request. -/
structure Attached (h : Deliveries) : Prop where
  inFlight : InFlight h.sys
  bound : ∀ wid, h.sys.db.attended wid → (h.sys.db.bound wid).isSome
  fresh : ∀ wid sid, h.sys.db.bound wid = some sid → sid ∉ h.delivered →
    sid ≠ "" ∧ sid ∈ h.sys.db.bindings.2.1 ∧ h.sys.db.tracks wid = none

section Delivered

variable {c : Controller} {h : Deliveries} {a : Action}

/-- A session whose row is on record is found by its id. -/
theorem activeSession_isSome {db : Db} {item : WorkItem} {sid : String} (hid : item.activeSessionId = some sid) :
    (db.activeSession item).isSome ↔ sid ≠ "" ∧ sid ∈ db.bindings.2.1 := by
  unfold Db.activeSession
  rw [hid, Option.bind_some]
  split
  · rename_i hempty
    simp [hempty]
  · rename_i hsome
    have hmem : sid ∈ db.bindings.2.1 ↔ (db.sessions.first fun s => s.devinId == sid).isSome := by
      constructor
      · intro hin
        obtain ⟨session, hrow, hid⟩ := List.mem_map.mp hin
        obtain ⟨n, hn⟩ := List.mem_iff_getElem?.mp hrow
        have hget : db.sessions.get? (n + 1) = some session := hn
        rw [← Option.ne_none_iff_isSome]
        intro hnone
        have hmiss := Table.first_eq_none hnone hget
        simp [hid] at hmiss
      · intro hfirst
        obtain ⟨row, hrow⟩ := Option.isSome_iff_exists.mp hfirst
        obtain ⟨session, hget, hid⟩ := Table.first_eq_some hrow
        exact List.mem_map.mpr ⟨session, Table.mem_rows hget, eq_of_beq hid⟩
    rw [hmem]
    simp [hsome]

theorem Attached.reaches (hatt : Attached h) : CancelReaches c h := by
  intro wid item hi hs hnone
  have hattended : h.sys.db.attended wid := ⟨.sessionActive, by rw [Db.itemState, hi, Option.map_some, hs], by decide⟩
  obtain ⟨sid, hbound⟩ := Option.isSome_iff_exists.mp (hatt.bound wid hattended)
  have hid : item.activeSessionId = some sid := by
    rw [Db.bound, hi] at hbound
    exact hbound
  obtain ⟨hempty, hrecorded, htracks⟩ := hatt.fresh wid sid hbound (hnone sid hid)
  have hrow : (h.sys.db.activeSession item).isSome := (activeSession_isSome hid).mpr ⟨hempty, hrecorded⟩
  have hnumber : item.prNumber = none := by
    rw [Db.tracks, hi] at htracks
    exact htracks
  have hpreview : cancelPreview h.sys.db item = none := by
    unfold cancelPreview cancelBlockFor
    simp [hs, hrow, hnumber]
  refine ⟨hpreview, fun now operator => ?_⟩
  obtain ⟨row, hfound⟩ := Option.isSome_iff_exists.mp hrow
  obtain ⟨session, hsession⟩ : ∃ session, h.sys.db.sessions.get? row = some session := by
    rw [Db.activeSession, hid, Option.bind_some, if_neg hempty] at hfound
    obtain ⟨session, hget, -⟩ := Table.first_eq_some hfound
    exact ⟨session, hget⟩
  refine ⟨row, ?_⟩
  unfold cancelPreview at hpreview
  unfold cancelRequest
  simp only [hi]
  rw [hpreview, hfound]
  simp only [Option.bind_some, hsession]

/-- A step that starts a session records no pull request. -/
theorem tracks_of_bound {s : Sys} {r : Nat × String} (hr : sessionBound s a = some r) (wid : Nat) :
    (exec c s a).db.tracks wid = s.db.tracks wid ∧ Deliveries.delivers c s a = none := by
  have hnone : recorded c s a = none := by
    cases a with
    | pollSession now wid sid snap answers => cases hr
    | _ => rfl
  have howners := exec_ownerStep c s a
  rw [hnone] at howners
  cases howners with
  | keeps hsame => exact ⟨hsame.tracks wid, by rw [Deliveries.delivers, hnone]; rfl⟩

/-- A step of a conditioned run leaves the items attached. -/
theorem attached_step (hatt : Attached h) (ha : BindsFresh h a) : Attached (h.exec c a) := by
  have hsys : (h.exec c a).sys = exec c h.sys a := rfl
  have hdelivered {sid : String} (hno : sid ∉ (h.exec c a).delivered) :
      sid ∉ h.delivered ∧ Deliveries.delivers c h.sys a ≠ some sid := by
    simp only [Deliveries.exec, List.mem_append, Option.mem_toList, not_or] at hno
    exact ⟨hno.1, hno.2⟩
  have htracks {wid : Nat} {sid : String} (hbound : h.sys.db.bound wid = some sid)
    (hno : sid ∉ (h.exec c a).delivered) :
      (h.exec c a).sys.db.tracks wid = h.sys.db.tracks wid := by
    have howners := exec_ownerStep c h.sys a
    cases hrecorded : recorded c h.sys a with
    | none =>
      rw [hrecorded] at howners
      cases howners with
      | keeps hsame => exact hsame.tracks wid
    | some r =>
      rw [hrecorded] at howners
      cases howners with
      | @records k pr _ env t item hitem hbefore hafter =>
        have hne : wid ≠ k := by
          rintro rfl
          refine (hdelivered hno).2 ?_
          rw [Deliveries.delivers, hrecorded]
          exact hbound
        rw [hsys, hafter.tracks, tracks_recordPr hitem, if_neg hne, hbefore.tracks]
  have hrebinds := @exec_rebinds c h.sys hatt.inFlight a
  refine ⟨exec_inFlight hatt.inFlight a, ?_, ?_⟩
  · intro wid hattended
    generalize hr : sessionBound h.sys a = r at hrebinds
    cases hrebinds with
    | keeps hsame =>
      have hbefore := exec_attended a (congrArg (fun b => b.2.2) hsame) hattended
      rw [hsys, show (exec c h.sys a).db.bound = h.sys.db.bound from congrArg Prod.fst hsame]
      exact hatt.bound wid hbefore
    | @releases k hrel =>
      have hbefore := exec_attended a (congrArg Prod.snd hrel.bindings) hattended
      have hne : wid ≠ k := fun hk => hrel.idle (hk ▸ hbefore)
      rw [hsys, hrel.bound, Function.update_of_ne hne]
      exact hatt.bound wid hbefore
    | @binds k sid hb hactive hothers =>
      rw [hsys, hb.bound]
      by_cases hk : wid = k
      · rw [hk, Function.update_self]
        rfl
      · rw [Function.update_of_ne hk]
        refine hatt.bound wid ?_
        obtain ⟨state, hs, hmem⟩ := hattended
        exact ⟨state, (hothers wid hk).symm.trans hs, hmem⟩
  · intro wid sid hbound hno
    have hold (hb : h.sys.db.bound wid = some sid) (hkeeps : h.sys.db.bindings.2.1 ⊆ (exec c h.sys a).db.bindings.2.1) :
        sid ≠ "" ∧ sid ∈ (h.exec c a).sys.db.bindings.2.1 ∧ (h.exec c a).sys.db.tracks wid = none := by
      obtain ⟨hempty, hrecorded, hnumber⟩ := hatt.fresh wid sid hb (hdelivered hno).1
      exact ⟨hempty, hkeeps hrecorded, (htracks hb hno).trans hnumber⟩
    generalize hr : sessionBound h.sys a = r at hrebinds
    cases hrebinds with
    | keeps hsame =>
      refine hold ?_ fun x hx => ?_
      · rwa [hsys, show (exec c h.sys a).db.bound = h.sys.db.bound from congrArg Prod.fst hsame] at hbound
      · rwa [hsame]
    | @releases k hrel =>
      rw [hsys, hrel.bound, Function.update_apply] at hbound
      split at hbound
      · cases hbound
      · exact hold hbound fun x hx => by rwa [hrel.bindings]
    | @binds k sid' hb hactive hothers =>
      rw [hsys, hb.bound, Function.update_apply] at hbound
      split at hbound
      · rename_i hk
        subst hk
        cases hbound
        obtain ⟨hempty, hnumber⟩ := ha wid sid hr (hdelivered hno).1
        exact ⟨hempty, hb.recorded, (tracks_of_bound (c := c) hr wid).1.trans hnumber⟩
      · exact hold hbound hb.keeps

/-- **A step leaves every session that has delivered nothing cancellable exactly when it starts none for an item that
has the number of a pull request.** -/
theorem exec_reaches_iff (hatt : Attached h) : CancelReaches c (h.exec c a) ↔ BindsFresh h a := by
  constructor
  · intro hreaches wid sid hbound hno
    have hrebinds := @exec_rebinds c h.sys hatt.inFlight a
    rw [hbound] at hrebinds
    obtain ⟨htracks, hnone⟩ := tracks_of_bound (c := c) hbound wid
    cases hrebinds with
    | binds hb hactive hothers =>
      obtain ⟨item, hi, hs⟩ := Option.map_eq_some_iff.mp hactive
      have hid : item.activeSessionId = some sid := by
        have hself := congrFun hb.bound wid
        rw [Function.update_self, Db.bound, hi] at hself
        exact hself
      have hundelivered : ∀ sid', item.activeSessionId = some sid' → sid' ∉ (h.exec c a).delivered := by
        intro sid' hid'
        rw [hid, Option.some.injEq] at hid'
        rw [← hid', Deliveries.exec, hnone]
        simpa using hno
      obtain ⟨hpreview, -⟩ := hreaches wid item hi hs hundelivered
      unfold cancelPreview cancelBlockFor at hpreview
      rw [if_neg (not_not.mpr hs)] at hpreview
      split_ifs at hpreview with hrow hnumber
      have hsession : (h.exec c a).sys.db.activeSession item ≠ none := by simpa using hrow
      have hfresh := (activeSession_isSome hid).mp (Option.isSome_iff_ne_none.mpr hsession)
      refine ⟨hfresh.1, ?_⟩
      rw [← htracks, Db.tracks, hi]
      simpa using hnumber
  · exact fun ha => (attached_step hatt ha).reaches

/-- **Every session without a pull request can be cancelled in every state of a run exactly when no step of it starts or
adopts one, that has not delivered itself, for an item that still has the number of a pull request** (or one with an
empty id). -/
theorem cancel_reaches_iff (c : Controller) (trace : List Action) :
    Machine.AllSteps (Deliveries.exec c) (fun h a => CancelReaches c (h.exec c a)) .initial trace ↔
      Machine.AllSteps (Deliveries.exec c) BindsFresh .initial trace := by
  refine Machine.AllSteps.congr_invariant Attached (fun _ _ h ha => attached_step h ha)
    (fun _ _ h => exec_reaches_iff h) ?_
  have hitem (wid : Nat) : Sys.initial.db.workItems.get? wid = none := Table.get?_empty wid
  refine ⟨.landed rfl, fun wid hattended => ?_, fun wid sid hbound => ?_⟩
  · obtain ⟨s, hs, -⟩ := hattended
    rw [show Deliveries.initial.sys = Sys.initial from rfl, Db.itemState, hitem] at hs
    cases hs
  · rw [show Deliveries.initial.sys = Sys.initial from rfl, Db.bound, hitem] at hbound
    cases hbound

end Delivered

/-- The pull request of the first item is closed unmerged; a human has the item retried, and a second session is created
for it. -/
def redispatchedTrace : List Action :=
  [sampleIngest "1" 10 (samplePair "CVE-1" "openssl" "1")] ++ sampleReserve 11 ++ sampleCreate
    12 ++ sampleOpen 13 "a" ++
    samplePoll 14 { samplePull "a" with state := "closed" } [] {} ++
  [.beginTick, .pollHumanLabel 15 1 7 "open" [HumanLabel.retry.value], .stop, .beginTick, .next true none,
   .next true none,
    .group 16, .next true none, .next true none, .next true none, .dispatch 16 [], .adopt 16 (.ok []),
    .create 17 (.ok { sampleSession with sessionId := "s2" }) (.ok ()), .stop]

/-- The second session has delivered nothing, and its cancel is blocked by the pull request of the first. -/
theorem cancel_blocked :
    let h := Machine.run (Deliveries.exec sampleController) .initial redispatchedTrace
    Reachable sampleController h.sys ∧ h.delivered = ["s1"] ∧ ¬ CancelReaches sampleController h ∧
      ∃ item, h.sys.db.workItems.get? 1 = some item ∧ item.state = .sessionActive ∧ item.activeSessionId = some "s2" ∧
        cancelPreview h.sys.db item = some .prRecorded := by
  intro h
  have hdelivered : h.delivered = ["s1"] := by decide +kernel
  have hitem : (h.sys.db.workItems.get? 1).any (fun item => item.state == .sessionActive &&
      item.activeSessionId == some "s2" && cancelPreview h.sys.db item == some .prRecorded) = true := by decide +kernel
  obtain ⟨item, hi, hall⟩ := (Option.any_eq_true ..).mp hitem
  simp only [Bool.and_eq_true, beq_iff_eq] at hall
  obtain ⟨⟨hactive, hsession⟩, hpreview⟩ := hall
  refine ⟨?_, hdelivered, fun hreaches => ?_, item, hi, hactive, hsession, hpreview⟩
  · rw [show h.sys = _ from Deliveries.run_sys ..]
    exact Machine.Reachable.of_run _ _
  · have hnone : ∀ sid, item.activeSessionId = some sid → sid ∉ h.delivered := by
      intro sid hid
      rw [hsession, Option.some.injEq] at hid
      rw [hdelivered, ← hid]
      decide
    rw [(hreaches 1 item hi hactive hnone).1] at hpreview
    cases hpreview

end HardeningLoop
