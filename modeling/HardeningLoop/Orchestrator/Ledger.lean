import HardeningLoop.Orchestrator.Recovering

/-!
# What is on record of an item

The log of the work items is all that is left of what the controller did to them, and a session is paid for by the row
that records it.

- `replayItem`: reads a log as the history of an item, strictly: a transition that does not start in the state the ones
  before it lead to leaves no state;
- `item_log_complete`: so read, the log gives the state of every item in every state the controller can be in;
- `session_recorded`: an item under the care of a session is bound to one that is on record, once.
-/

namespace HardeningLoop

open Rows (Table)

/-! ## Replay -/

/-- What an entry says of the state of a work item. -/
def Event.replayItem (wid : Nat) (s : Option WorkItemState) (e : Event) : Option WorkItemState :=
  match e.event with
  | .workItem event =>
    if e.entityType = .workItem ∧ e.entityId = wid then
      s.bind fun s =>
        if e.fromState = some s.value then (nextWorkItemState s event).filter fun s' => e.toState == some s'.value
        else none
    else s
  | _ => s

/-- What a log says of the state of an item that was in `s` before it. -/
def replayItem (wid : Nat) (s : Option WorkItemState) (l : List Event) : Option WorkItemState :=
  l.foldl (Event.replayItem wid) s

/-- The state of an item; one that is still to come will be queued. -/
def Db.standing (db : Db) (wid : Nat) : WorkItemState := (db.itemState wid).getD .queued

/-- The entries that were added tell what became of the states of the items. -/
def Told (db db' : Db) : Prop :=
  ∃ l, db'.events = db.events ++ l ∧ ∀ wid, replayItem wid (some (db.standing wid)) l = some (db'.standing wid)

section Replay

variable {wid : Nat} {s : Option WorkItemState} {l l' : List Event} {db db' db'' : Db}

theorem replayItem_append : replayItem wid s (l ++ l') = replayItem wid (replayItem wid s l) l' := List.foldl_append

/-- Entries that are no transitions of the item. -/
theorem replayItem_others
    (h : ∀ e ∈ l, ∀ event, e.event = .workItem event → ¬ (e.entityType = .workItem ∧ e.entityId = wid)) :
    replayItem wid s l = s := by
  induction l generalizing s with
  | nil => rfl
  | cons e l ih =>
    have he : e.replayItem wid s = s := by
      unfold Event.replayItem
      split
      · exact if_neg (h e List.mem_cons_self _ ‹_›)
      · rfl
    rw [replayItem, List.foldl_cons, he]
    exact ih fun e' he' => h e' (List.mem_cons_of_mem _ he')

theorem Told.of_same (he : db'.events = db.events) (hs : db'.workItems = db.workItems) : Told db db' :=
  ⟨[], by rw [he, List.append_nil], fun wid => by rw [Db.standing, Db.standing, Db.itemState, Db.itemState, hs]; rfl⟩

theorem Told.refl (db : Db) : Told db db := .of_same rfl rfl

theorem Told.trans (h : Told db db') (h' : Told db' db'') : Told db db'' := by
  obtain ⟨l, hl, htold⟩ := h
  obtain ⟨l', hl', htold'⟩ := h'
  refine ⟨l ++ l', by rw [hl', hl, List.append_assoc], fun wid => ?_⟩
  rw [replayItem_append, htold, htold']

/-- Entries that are no transitions, while no item moves. -/
theorem Told.log (he : db'.events = db.events ++ l) (hl : ∀ e ∈ l, ∀ event, e.event = .workItem event →
    e.entityType ≠ .workItem)
    (hs : ∀ wid, db'.standing wid = db.standing wid) : Told db db' := by
  refine ⟨l, he, fun wid => ?_⟩
  rw [replayItem_others fun e hm event hev hmine => hl e hm event hev hmine.1, hs]

end Replay

/-! ## The units of the engine -/

section Units

variable {env : Env} {S : Scope} {tx t : Tx}

/-- What is logged of an event is what becomes of the row. -/
theorem replayItem_wiLog (wid : Nat) (event : WorkItemEvent) (reason actor : String) (item : WorkItem) :
    replayItem wid (some item.state) (Tx.wiLog env wid event reason actor item) =
      some (Tx.wiRow env event reason item).state := by
  unfold Tx.wiLog Tx.wiRow
  dsimp only
  cases hn : nextWorkItemState item.state event with
  | some after => simp [replayItem, Event.replayItem, hn, Option.filter, Tx.moved]
  | none =>
    cases hb : nextWorkItemState item.state .blocked with
    | none => rfl
    | some after =>
      dsimp only
      split
      · rfl
      · simp [replayItem, Event.replayItem, hb, Option.filter, Tx.moved]

theorem standing_modifyItem {w : Nat} {f : WorkItem → WorkItem} (hf : ∀ item, (f item).state = item.state) (wid : Nat) :
    (t.modifyItem w f).db.standing wid = t.db.standing wid := by
  simp only [Db.standing, Db.itemState, Tx.modifyItem, Table.get?_modify]
  split
  · simp [Option.map_map, Function.comp_def, hf]
  · rfl

theorem told_wi (t : Tx) (w : Nat) (event : WorkItemEvent) (reason actor : String) :
    Told t.db (t.wi env w event reason actor).db := by
  refine ⟨_, by rw [Tx.wi_db], fun wid => ?_⟩
  simp only [Db.standing, Db.itemState, Tx.wi_db, Table.get?_modify]
  cases hi : t.db.workItems.get? w with
  | none =>
    split
    · rename_i hw
      rw [hw, hi]
      rfl
    · rfl
  | some item =>
    dsimp only [Option.elim]
    split
    · rename_i hw
      rw [hw, hi]
      exact replayItem_wiLog w event reason actor item
    · rename_i hw
      refine replayItem_others fun e he event' hev hmine => hw ?_
      exact hmine.2.symm.trans (Tx.wiLog_entry he hev).2.1

/-- **What a unit does to the states of items is on the log.** -/
theorem Acts.told (h : Acts env S tx t) : Told tx.db t.db := by
  induction h with
  | refl => exact .refl _
  | quiet _ hq ih =>
    obtain ⟨logs, hlogs, hall⟩ := hq.events
    refine ih.trans (.log hlogs (fun e he event hev => ?_)
      fun wid => by rw [Db.standing, Db.itemState, hq.workItems]; rfl)
    obtain ⟨⟨name, hname⟩, -⟩ := hall e he
    cases hname.symm.trans hev
  | @editItem t _ w _ f hf ih =>
    exact ih.trans (.log (l := []) (List.append_nil _).symm (fun e he => by cases he)
      (standing_modifyItem fun w => (hf w).state))
  | editPull _ _ _ _ _ ih => exact ih.trans (.of_same rfl rfl)
  | insertPull _ _ _ _ ih => exact ih.trans (.of_same rfl rfl)
  | @insertItem t _ _ item hi ih =>
    refine ih.trans (.log (l := []) (List.append_nil _).symm (fun e he => by cases he) fun wid => ?_)
    simp only [Db.standing, Db.itemState, Tx.insertItem, Table.get?_insert]
    split
    · rename_i hid
      rw [hid, Table.get?_nextId, Option.map_some, hi.state]
      rfl
    · rfl
  | wi _ _ _ reason actor ih => exact ih.trans (told_wi _ _ _ reason actor)
  | @findingFrom t _ fid _ before _ e _ reason actor runId ih =>
    refine ih.trans (.log (by rw [Tx.findingFrom_db]) (fun entry hentry event hev => ?_)
      fun wid => by rw [Tx.findingFrom_db]; rfl)
    obtain rfl := List.mem_singleton.mp hentry
    unfold Tx.findingLog at hev
    split at hev <;> cases hev
  | own _ _ _ ih => exact ih.trans (.of_same rfl rfl)

end Units

section Runs

variable {c : Controller} {s : Sys}

/-- **A step** logs what it does to the states of items. -/
theorem exec_told (c : Controller) (s : Sys) (a : Action) : Told s.db (exec c s a).db := by
  have hcommits := exec_commits c s a
  generalize (exec c s a).db = db' at hcommits
  cases hcommits with
  | units h => exact h.told
  | evaluation h rid => exact h.told.trans (.of_same rfl rfl)
  | ingested h =>
    have hsame := ingestRun_ingested h
    obtain ⟨l, hl, hall⟩ := hsame.events
    refine .log hl (fun e he event hev => ?_) fun wid => by rw [Db.standing, Db.itemState, hsame.workItems]; rfl
    obtain ⟨name, hname, -⟩ := hall e he
    cases hname.symm.trans hev

/-- **The log of the work items is complete.** In every state the controller can be in, the transitions that are logged
for an item lead from `queued` to its state, each an edge of the table from the state before it. -/
theorem item_log_complete (h : Reachable c s) (wid : Nat) :
    replayItem wid (some .queued) s.db.events = some (s.db.standing wid) := by
  refine Machine.Reachable.invariant (fun s : Sys => replayItem wid (some .queued) s.db.events = some
    (s.db.standing wid)) ?_ (fun s a hs => ?_) h
  · rw [Db.standing, Db.itemState, show Sys.initial.db.workItems.get? wid = none from Table.get?_empty wid]
    rfl
  · obtain ⟨l, hl, htold⟩ := exec_told c s a
    rw [hl, replayItem_append, hs, htold]

end Runs

/-- The item of the sample, to the state in which it waits for its human. -/
theorem item_log_ready : let s := sampleState sampleReady
    s.db.itemState 1 = some .readyForHuman ∧ replayItem 1 (some .queued) s.db.events = some .readyForHuman := by
  intro s
  have hready : s.db.itemState 1 = some .readyForHuman := by decide +kernel
  refine ⟨hready, ?_⟩
  rw [item_log_complete (sampleState_reachable sampleReady) 1, Db.standing, hready, Option.getD_some]

/-! ## Sessions -/

/-- The sessions on record. -/
def Db.recordedSessions (db : Db) : List String := db.sessions.rows.map Session.devinId

/-- An item under the care of a session is bound to one that is on record, and no session is on record twice. -/
structure Housed (db : Db) : Prop where
  bound : ∀ wid, db.attended wid → ∃ sid ∈ db.recordedSessions, db.bound wid = some sid
  once : db.recordedSessions.Nodup

section Sessions

variable {env : Env} {tx t : Tx} {wid : Nat} {snap : SessionSnapshot} {c : Controller} {s : Sys}

/-- A session is put on record unless it is. -/
theorem recordSession_recorded (adopted : Bool) :
    (recordSession env tx wid snap adopted).db.recordedSessions = tx.db.recordedSessions ∨
    snap.sessionId ∉ tx.db.recordedSessions ∧
      (recordSession env tx wid snap adopted).db.recordedSessions = tx.db.recordedSessions ++ [snap.sessionId] := by
  unfold recordSession
  split
  · exact .inl rfl
  · cases hfirst : tx.db.sessions.first fun s => s.devinId == snap.sessionId with
    | some row => exact .inl rfl
    | none =>
      refine .inr ⟨fun hmem => ?_, List.map_append⟩
      obtain ⟨session, hs, hid⟩ := List.mem_map.mp hmem
      obtain ⟨i, hi⟩ := List.mem_iff_getElem?.mp hs
      have hno := Table.first_eq_none hfirst (show tx.db.sessions.get? (i + 1) = some session from hi)
      rw [hid, beq_self_eq_true] at hno
      cases hno

theorem nodup_recordSession {adopted : Bool} (h : tx.db.recordedSessions.Nodup) :
    (recordSession env tx wid snap adopted).db.recordedSessions.Nodup := by
  rcases @recordSession_recorded env tx wid snap adopted with hsame | ⟨hnew, hadded⟩
  · rwa [hsame]
  · rw [hadded]
    exact List.Nodup.append h (List.nodup_singleton _) (List.disjoint_singleton.mpr hnew)

theorem wi_recorded (t : Tx) (k : Nat) (event : WorkItemEvent) (reason actor : String) :
    (t.wi env k event reason actor).db.recordedSessions = t.db.recordedSessions := by
  rw [Db.recordedSessions, Tx.wi_db]
  rfl

theorem recorded_of_bindings {db db' : Db} (h : db'.bindings = db.bindings) :
    db'.recordedSessions = db.recordedSessions :=
  congrArg (fun b => b.2.1) h

/-- The creation of a session puts it on record and no other. -/
theorem createSession_recorded (members : List (Nat × Finding)) (answer : Except String SessionSnapshot)
    (commented : Except String Unit) (h : tx.db.recordedSessions.Nodup) :
    (createSession env tx wid members answer commented).db.recordedSessions.Nodup := by
  cases answer with
  | error exc => rwa [createSession, recorded_of_bindings (bindings_dispatchFailed _)]
  | ok snap =>
    unfold createSession
    dsimp only
    set t := members.foldl _ _ with ht
    have hnodup : t.db.recordedSessions.Nodup := by
      have hstart (t : Tx) : (members.foldl (startRemediation env snap.sessionId) t).db.bindings = t.db.bindings :=
        bindings_foldl (fun t m => bindings_findingFrom ..) members t
      rw [ht, recorded_of_bindings (hstart _), wi_recorded]
      exact nodup_recordSession h
    split
    · exact hnodup
    · split
      · exact hnodup
      · rwa [recorded_of_bindings (bindings_log ..)]
      · exact hnodup

theorem adoptTagged_recorded (recovering : Bool) (remote : Except String (List SessionSnapshot))
    (h : tx.db.recordedSessions.Nodup) : (adoptTagged env tx wid recovering remote).1.db.recordedSessions.Nodup := by
  cases remote with
  | error exc => rwa [adoptTagged, recorded_of_bindings (bindings_dispatchFailed _)]
  | ok sessions =>
    rw [adoptTagged_eq]
    cases adoptedSession tx.db wid sessions with
    | some snap =>
      dsimp only
      rw [wi_recorded]
      exact nodup_recordSession h
    | none =>
      dsimp only
      split
      · rwa [recorded_of_bindings (bindings_dispatchFailed _)]
      · exact h

/-- No step puts a session on record twice. -/
theorem exec_once (hI : InFlight s) (a : Action) (h : s.db.recordedSessions.Nodup) :
    (exec c s a).db.recordedSessions.Nodup := by
  have hrebinds := @exec_rebinds c s hI a
  cases hbound : sessionBound s a with
  | none =>
    rw [hbound] at hrebinds
    cases hrebinds with
    | keeps hsame => rwa [recorded_of_bindings hsame]
    | releases hreleases =>
      rwa [Db.recordedSessions, show (exec c s a).db.sessions.rows.map Session.devinId = s.db.recordedSessions
        from congrArg Prod.fst hreleases.bindings]
  | some r =>
    cases a with
    | adopt now remote =>
      dsimp only [exec]
      unfold stepAdopt
      split
      · exact adoptTagged_recorded _ remote h
      · exact h
    | create now answer commented =>
      dsimp only [exec]
      unfold stepCreate
      split
      · exact createSession_recorded _ answer commented h
      · exact h
    | _ => cases hbound

/-- **A step** leaves every item that is under the care of a session with one that is on record. -/
theorem exec_housed (hI : InFlight s) (h : Housed s.db) (a : Action) : Housed (exec c s a).db := by
  refine ⟨fun wid ha => ?_, exec_once hI a h.once⟩
  have hrebinds := @exec_rebinds c s hI a
  generalize sessionBound s a = r at hrebinds
  cases hrebinds with
  | keeps hsame =>
    have hbefore := exec_attended a (congrArg (fun b => b.2.2) hsame) ha
    rw [recorded_of_bindings hsame, show (exec c s a).db.bound = s.db.bound from congrArg Prod.fst hsame]
    exact h.bound wid hbefore
  | @releases k hreleases =>
    have hbefore := exec_attended a (congrArg Prod.snd hreleases.bindings) ha
    obtain ⟨sid, hmem, hsid⟩ := h.bound wid hbefore
    have hne : wid ≠ k := fun hk => hreleases.idle (hk ▸ hbefore)
    refine ⟨sid, ?_, ?_⟩
    · rwa [Db.recordedSessions, show (exec c s a).db.sessions.rows.map Session.devinId = s.db.recordedSessions
        from congrArg Prod.fst hreleases.bindings]
    · rw [hreleases.bound, Function.update_of_ne hne]
      exact hsid
  | @binds k sid hbinds _ hothers =>
    by_cases hk : wid = k
    · exact ⟨sid, hbinds.recorded, by rw [hbinds.bound, hk, Function.update_self]⟩
    · have hbefore : s.db.attended wid := by
        obtain ⟨state, hstate, hmem⟩ := ha
        exact ⟨state, (hothers wid hk).symm.trans hstate, hmem⟩
      obtain ⟨sid', hmem, hsid⟩ := h.bound wid hbefore
      refine ⟨sid', hbinds.keeps hmem, ?_⟩
      rw [hbinds.bound, Function.update_of_ne hk]
      exact hsid

/-- **Every session that is at work is on record, once.** In every state the controller can be in, an item from the
start of a session to the merge of its pull request is bound to a session of which there is exactly one row. -/
theorem session_recorded (h : Reachable c s) (wid : Nat) (ha : s.db.attended wid) :
    ∃ sid, s.db.bound wid = some sid ∧ ∃! row, ∃ session, s.db.sessions.get? row = some session ∧
    session.devinId = sid := by
  have hboth : InFlight s ∧ Housed s.db := by
    refine Machine.Reachable.invariant (fun s : Sys => InFlight s ∧ Housed s.db) ?_ ?_ h
    · refine ⟨.landed rfl, fun wid ha => ?_, List.nodup_nil⟩
      obtain ⟨state, hstate, -⟩ := ha
      rw [Db.itemState, show Sys.initial.db.workItems.get? wid = none from Table.get?_empty wid] at hstate
      cases hstate
    · rintro s a ⟨hI, hhoused⟩
      exact ⟨exec_inFlight hI a, exec_housed hI hhoused a⟩
  obtain ⟨sid, hmem, hsid⟩ := hboth.2.bound wid ha
  obtain ⟨row, hrow⟩ := List.mem_iff_getElem?.mp hmem
  have hget (i : Nat) : s.db.recordedSessions[i]? = (s.db.sessions.get? (i + 1)).map Session.devinId :=
    List.getElem?_map
  rw [hget, Option.map_eq_some_iff] at hrow
  refine ⟨sid, hsid, row + 1, hrow, ?_⟩
  rintro row' ⟨session, hsession, hid⟩
  cases row' with
  | zero => cases hsession
  | succ row' =>
    have hone : s.db.recordedSessions[row']? = s.db.recordedSessions[row]? := by
      obtain ⟨session', hsession', hid'⟩ := hrow
      rw [hget, hget, hsession, hsession', Option.map_some, Option.map_some, hid, hid']
    have hlt : row' < s.db.recordedSessions.length := by
      rw [Db.recordedSessions, List.length_map]
      exact (Table.lt_of_get? hsession).2
    rw [(List.getElem?_inj hlt hboth.2.once).mp hone]

end Sessions

/-- The session of the sample is on record. -/
theorem session_recorded_ready : let s := sampleState sampleReady
    ∃ sid, s.db.bound 1 = some sid ∧ ∃! row, ∃ session, s.db.sessions.get? row = some session ∧ session.devinId = sid :=
  session_recorded (sampleState_reachable sampleReady) 1 ⟨.readyForHuman, by decide +kernel, by decide⟩

end HardeningLoop
