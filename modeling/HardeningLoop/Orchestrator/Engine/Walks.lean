import HardeningLoop.Orchestrator.Engine.Units

/-!
# Units along the table of the work items

A unit that fires an event looks at the state of the item first, or is called in a state it relies on.

- `Walk`: a unit all of whose events the table has; it records no refusal (`Walk.accepted`);
- `At env tx wid s t`: the walk from `tx` to `t` leaves the item in state `s`;
- one lemma for each unit that fires events, from the states it is called in.
-/

namespace HardeningLoop

open Rows (Table)

/-- No event of a work item was refused. -/
def Accepts (db db' : Db) : Prop := ∃ l, db'.events = db.events ++ l ∧ ∀ e ∈ l, e.refuses = false

theorem Accepts.refl (db : Db) : Accepts db db := ⟨[], by simp, by simp⟩

theorem Accepts.trans {db db' db'' : Db} (h : Accepts db db') (h' : Accepts db' db'') : Accepts db db'' := by
  obtain ⟨l, hl, hall⟩ := h
  obtain ⟨l', hl', hall'⟩ := h'
  refine ⟨l ++ l', by rw [hl', hl, List.append_assoc], fun e he => ?_⟩
  rcases List.mem_append.mp he with he | he
  · exact hall e he
  · exact hall' e he

/-- Items walk along their table: the table has every event that is fired. -/
inductive Walk (env : Env) (tx : Tx) : Tx → Prop
  | refl : Walk env tx tx
  | unfired {t t' : Tx} (h : Walk env tx t) (ha : Acts env .unfired t t') : Walk env tx t'
  | fire {t : Tx} (h : Walk env tx t) {wid : Nat} {s s' : WorkItemState} {e : WorkItemEvent}
      (hs : t.db.itemState wid = some s) (hn : nextWorkItemState s e = some s') (reason actor : String) :
      Walk env tx (t.wi env wid e reason actor)

/-- The walk leaves the item in state `s`. -/
structure At (env : Env) (tx : Tx) (wid : Nat) (s : WorkItemState) (t : Tx) : Prop where
  walk : Walk env tx t
  state : t.db.itemState wid = some s

section Walks

variable {env : Env} {S : Scope} {tx t t' : Tx} {wid : Nat} {s s' : WorkItemState}

/-- Units that fire nothing. -/
theorem Acts.silently (h : Acts env S tx t) (hS : ∀ e, ¬ S.fires e) : Acts env .unfired tx t :=
  h.widen ⟨fun e he => hS e he, fun _ => trivial, fun _ _ => trivial, fun _ _ => trivial, fun _ => trivial,
    fun _ _ => trivial⟩

theorem Acts.accepted (h : Acts env S tx t) (hS : ∀ e, ¬ S.fires e) : Accepts tx.db t.db := by
  induction h with
  | refl => exact .refl _
  | @quiet t _ _ hq ih =>
    obtain ⟨logs, hlogs, hlog⟩ := hq.events
    exact ih.trans ⟨logs, hlogs, fun e he => (hlog e he).2.1⟩
  | editItem _ _ _ ih => exact ih
  | editPull _ _ _ _ _ ih => exact ih
  | insertPull _ _ _ _ ih => exact ih
  | insertItem _ _ _ ih => exact ih
  | wi _ _ he _ _ _ => exact absurd he (hS _)
  | @findingFrom t _ fid _ before _ e _ reason actor runId ih =>
    refine ih.trans ⟨[Tx.findingLog env fid before e reason actor runId], by rw [Tx.findingFrom_db], fun e he => ?_⟩
    rw [List.mem_singleton.mp he]
    unfold Tx.findingLog
    split <;> rfl
  | own _ _ _ ih => exact ih

/-- **A walk records no refusal.** -/
theorem Walk.accepted (h : Walk env tx t) : Accepts tx.db t.db := by
  induction h with
  | refl => exact .refl _
  | unfired _ ha ih => exact ih.trans (ha.accepted fun _ => id)
  | @fire t _ wid s s' e hs hn reason actor ih =>
    obtain ⟨item, hi, rfl⟩ := Option.map_eq_some_iff.mp hs
    refine ih.trans ⟨Tx.wiLog env wid e reason actor item, by rw [Tx.wi_db, hi, Option.elim], fun entry hentry => ?_⟩
    simp only [Tx.wiLog, hn, List.mem_singleton] at hentry
    rw [hentry]
    rfl

theorem Walk.trans (h : Walk env tx t) (h' : Walk env t t') : Walk env tx t' := by
  induction h' with
  | refl => exact h
  | unfired _ ha ih => exact ih.unfired ha
  | fire _ hs hn reason actor ih => exact ih.fire hs hn reason actor

theorem Walk.of_acts (h : Acts env S tx t) (hS : ∀ e, ¬ S.fires e) : Walk env tx t := Walk.refl.unfired (h.silently hS)

/-- A loop whose body is a walk is a walk. -/
theorem Walk.foldl {α : Type*} {f : Tx → α → Tx} (l : List α) (h : Walk env tx t)
    (hf : ∀ t, Walk env tx t → ∀ a ∈ l, Walk env t (f t a)) : Walk env tx (l.foldl f t) :=
  Rows.foldl_invariant (fun t => Walk env tx t) (fun t a ha ht => ht.trans (hf t ht a ha)) h

namespace At

theorem refl (hs : tx.db.itemState wid = some s) : At env tx wid s tx := ⟨.refl, hs⟩

theorem trans (h : At env tx wid s t) (h' : At env t wid s' t') : At env tx wid s' t' :=
  ⟨h.walk.trans h'.walk, h'.state⟩

theorem fire (h : At env tx wid s t) {e : WorkItemEvent} (hn : nextWorkItemState s e = some s')
    (reason actor : String) :
    At env tx wid s' (t.wi env wid e reason actor) :=
  ⟨h.walk.fire h.state hn reason actor, Tx.wi_itemState env t h.state hn _ _⟩

theorem unfired (h : At env tx wid s t) (ha : Acts env .unfired t t') : At env tx wid s t' :=
  ⟨h.walk.unfired ha, ha.unmoved (fun _ => id) h.state⟩

theorem acts (h : At env tx wid s t) (ha : Acts env S t t') (hS : ∀ e, ¬ S.fires e) : At env tx wid s t' :=
  h.unfired (ha.silently hS)

theorem quiet (h : At env tx wid s t) (hq : Quiet t t') : At env tx wid s t' := h.unfired (Acts.refl.quiet hq)

theorem must (h : At env tx wid s t) (call : Call) : At env tx wid s (t.must call) := h.quiet (quiet_must t call)

theorem attempt (h : At env tx wid s t) (calls : List Call) : At env tx wid s (t.attempt calls) :=
  h.quiet (quiet_attempt t calls)

theorem answered (h : At env tx wid s t) (call : Call) : At env tx wid s (t.answered call) :=
  h.quiet (quiet_answered t call)

theorem log (h : At env tx wid s t) (w : Nat) {name : String} (state : WorkItemState) (reason actor : String)
    (hname : name ≠ "invalid_transition") : At env tx wid s (t.log env w name state reason actor) :=
  h.quiet (quiet_log _ _ _ _ _ _ _ _ _ (by decide) (Or.inr hname))

theorem edit (h : At env tx wid s t) (w : Nat) {f : WorkItem → WorkItem}
    (hf : ∀ w : WorkItem, w.Edits True (fun _ => True) (f w)) :
    At env tx wid s (t.modifyItem w f) := h.unfired (Acts.refl.editItem trivial hf)

theorem pulls (h : At env tx wid s t) (pid : Nat) (f : PullRequest → PullRequest) :
    At env tx wid s (t.modifyPullRequest pid f) :=
  h.unfired (Acts.refl.editPull pid (Or.inl trivial) (Or.inl trivial) (Or.inl trivial))

end At

end Walks

section Units

variable {env : Env} {tx : Tx} {wid : Nat}

/-! ### Issues and dispatch -/

theorem bindIssue_at (hs : tx.db.itemState wid = some .queued) (issue : Issue) (reason : String) :
    At env tx wid .issueOpen (bindIssue env tx wid issue reason) := by
  refine At.fire (.edit (.refl hs) wid ?_) rfl _ _
  exact fun _ => .stay rfl rfl

theorem openIssue_walk (hs : tx.db.itemState wid = some .queued) (existing : Option (List (String × Issue)))
    (relisted : Option (List Issue)) (created : Except String Issue) :
    Walk env tx (openIssue env tx wid existing relisted created).1 := by
  unfold openIssue
  split
  · exact .refl
  · dsimp only
    split
    · exact (bindIssue_at hs _ _).walk
    · split
      · exact ((At.refl hs).log _ _ _ _ (by decide)).walk
      · have h (call : Call) : At env tx wid .queued (tx.answered call) := (At.refl hs).answered call
        exact ((h _).trans (bindIssue_at (h _).state _ _)).walk

theorem dispatchFailed_walk (hs : tx.db.itemState wid = some .dispatching) (reason : String) :
    Walk env tx (dispatchFailed env tx wid reason) := by
  have h : At env tx wid .dispatching
    (tx.modifyItem wid fun w => { w with dispatchFailures := w.dispatchFailures + 1 }) :=
    (At.refl hs).edit wid fun _ => .stay rfl rfl
  unfold dispatchFailed
  dsimp only
  split
  · exact (h.fire rfl _ _).walk
  · exact (h.fire rfl _ _).walk

theorem recordSession_at (hs : tx.db.itemState wid = some .dispatching) (snap : SessionSnapshot) (adopted : Bool) :
    At env tx wid .dispatching (recordSession env tx wid snap adopted) :=
  (At.refl hs).acts (recordSession_edits env tx wid snap adopted) fun _ => id

theorem adoptTagged_walk (hs : tx.db.itemState wid = some .dispatching) (recovering : Bool)
    (remote : Except String (List SessionSnapshot)) : Walk env tx (adoptTagged env tx wid recovering remote).1 := by
  unfold adoptTagged
  dsimp only
  split
  · exact dispatchFailed_walk hs _
  · split
    · exact ((recordSession_at hs _ true).fire rfl _ _).walk
    · split
      · exact dispatchFailed_walk hs _
      · exact .refl

/-- A dispatch that goes on to create a session has written nothing. -/
theorem adoptTagged_creating {recovering : Bool} {remote : Except String (List SessionSnapshot)} {flight : Flight}
    (h : (adoptTagged env tx wid recovering remote).2 = some flight) :
    (adoptTagged env tx wid recovering remote).1 = tx ∧ recovering = false ∧ ∃ members,
    flight = .creating wid members := by
  unfold adoptTagged at h ⊢
  dsimp only at h ⊢
  split at h
  · cases h
  · split at h
    · cases h
    · split at h
      · cases h
      · rename_i hfresh
        rw [if_neg hfresh]
        exact ⟨rfl, by simpa using hfresh, _, (Option.some.inj h).symm⟩

/-- A session that Devin created makes the item active. -/
theorem createSession_at (hs : tx.db.itemState wid = some .dispatching) (members : List (Nat × Finding))
    (snap : SessionSnapshot) (commented : Except String Unit) :
    At env tx wid .sessionActive (createSession env tx wid members (.ok snap) commented) := by
  unfold createSession
  dsimp only
  set t := members.foldl _ _ with ht
  have h : At env tx wid .sessionActive t := by
    have hcalled (call : Call) : At env tx wid .dispatching (tx.answered call) := (At.refl hs).answered call
    have h₀ (call : Call) : At env tx wid .dispatching (recordSession env (tx.answered call) wid snap false) :=
      (hcalled call).trans (recordSession_at (hcalled call).state snap false)
    have hcreated : nextWorkItemState .dispatching .sessionCreated = some .sessionActive := rfl
    have hstart (t : Tx) : Acts env .unfired t (members.foldl (startRemediation env snap.sessionId) t) :=
      .foldl members .refl fun t m _ => Acts.refl.findingFrom trivial (Or.inl trivial) (Or.inl trivial) ..
    exact ((h₀ _).fire hcreated _ _).unfired (hstart _)
  split
  · exact h
  · split
    · exact h.answered _
    · exact h.log _ _ _ _ (by decide)
    · exact h

theorem createSession_walk (hs : tx.db.itemState wid = some .dispatching) (members : List (Nat × Finding))
    (answer : Except String SessionSnapshot) (commented : Except String Unit) :
    Walk env tx (createSession env tx wid members answer commented) := by
  cases answer with
  | error exc => exact dispatchFailed_walk hs _
  | ok snap => exact (createSession_at hs members snap commented).walk

theorem reserve_at (hs : tx.db.itemState wid = some .issueOpen) : At env tx wid .dispatching (reserve env tx wid) :=
  (At.refl hs).fire rfl _ _

theorem dispatchCandidate_walk (env : Env) (tx : Tx) (wid issue : Nat) (severity : Severity) (labels : List String) :
    Walk env tx (dispatchCandidate env tx wid issue severity labels).1 ∧
      ((dispatchCandidate env tx wid issue severity labels).2 = .reserved →
        (dispatchCandidate env tx wid issue severity labels).1.db.itemState wid = some .dispatching) := by
  unfold dispatchCandidate
  split
  · exact ⟨.refl, fun h => by cases h⟩
  · split
    · exact ⟨.refl, fun h => by cases h⟩
    · split
      · exact ⟨.refl, fun h => by cases h⟩
      · rename_i item hi
        split
        · exact ⟨.refl, fun h => by cases h⟩
        · rename_i hopen
          have hs : tx.db.itemState wid = some .issueOpen := by
            simp only [Bool.or_eq_true, decide_eq_true_eq, not_or, not_not] at hopen
            rw [Db.itemState, hi, Option.map_some, hopen.1]
          dsimp only
          split
          · exact ⟨((At.refl hs).log _ _ _ _ (by decide)).walk, fun h => by cases h⟩
          · exact ⟨(reserve_at hs).walk, fun _ => (reserve_at hs).state⟩

theorem relaunch_at {item : WorkItem} (hi : tx.db.workItems.get? wid = some item)
    (ha : actionFor item.state = (some .relaunch, none)) (operator : String) :
    At env tx wid .issueOpen (relaunch env tx wid item operator) := by
  have hs : tx.db.itemState wid = some item.state := by rw [Db.itemState, hi, Option.map_some]
  have hn : nextWorkItemState item.state .humanRetry = some .issueOpen := by
    revert ha
    cases item.state <;> decide
  unfold relaunch
  dsimp only
  refine At.fire (.edit ?_ wid ?_) hn _ _
  · split
    · exact (At.refl hs).attempt _
    · exact .refl hs
  · exact fun _ => .stay rfl rfl

theorem launchReserve_walk {item : WorkItem} (hs : tx.db.itemState wid = some .issueOpen) (issue : Nat)
    (operator : String)
    (answers : LaunchAnswers) : Walk env tx (launchReserve env tx wid issue item operator answers).1 ∧
      ((launchReserve env tx wid issue item operator answers).2 = true →
        (launchReserve env tx wid issue item operator answers).1.db.itemState wid = some .dispatching) := by
  have hfailed {t : Tx} (h : At env tx wid .issueOpen t) (reason : String) :
      At env tx wid .issueOpen (launchFailed env t wid item reason) := h.log _ _ _ _ (by decide)
  unfold launchReserve
  dsimp only
  split
  · exact ⟨(hfailed (.refl hs) _).walk, nofun⟩
  · set t := if (item.severity ∉ defaultDispatchSeverities : Bool) then _ else tx with ht
    have h : At env tx wid .issueOpen t := by
      rw [ht]
      split
      · exact ((At.refl hs).answered _).attempt _
      · exact .refl hs
    split
    · refine ⟨(hfailed ?_ _).walk, nofun⟩
      split
      · exact h.attempt _
      · exact h
    · split
      · have hlog (call : Call) (reason : String) : At env tx wid .issueOpen
            ((t.answered call).log env wid "operator_launch" item.state reason "operator") :=
          (h.answered call).log _ _ _ _ (by decide)
        exact ⟨((hlog _ _).trans (reserve_at (hlog _ _).state)).walk, fun _ => (reserve_at (hlog _ _).state).state⟩
      · exact ⟨(hfailed ((h.answered _).log _ _ _ _ (by decide)) _).walk, nofun⟩

theorem launch_walk (env : Env) (tx : Tx) (wid : Nat) (operator : String) (answers : LaunchAnswers) :
    Walk env tx (launch env tx wid operator answers).1 ∧ ((launch env tx wid operator answers).2 = true →
      (launch env tx wid operator answers).1.db.itemState wid = some .dispatching) := by
  unfold launch
  split
  · exact ⟨.refl, fun h => by cases h⟩
  · rename_i item hi
    split
    · rename_i action haction
      have hfor : actionFor item.state = (some action, none) := (launchPreview_eq_some haction).1
      dsimp only
      set t := if action = .relaunch then _ else tx with ht
      have h : Walk env tx t := by
        rw [ht]
        split
        · rename_i hre
          exact (relaunch_at hi (hre ▸ hfor) operator).walk
        · exact .refl
      set o := if _ = WorkItemState.queued then _ else (t, true) with ho
      have h' : Walk env tx o.1 := by
        rw [ho]
        split
        · rename_i hqueued
          refine h.trans (openIssue_walk ?_ _ _ _)
          cases hrow : t.db.workItems.get? wid with
          | none =>
            exfalso
            have hthere : (t.db.workItems.get? wid).isSome := by
              rw [ht]
              split
              · exact (relaunch_does env tx wid item operator).item_isSome (by rw [hi]; rfl)
              · rw [hi]; rfl
            rw [hrow] at hthere
            cases hthere
          | some row =>
            rw [hrow, Option.map_some, Option.getD_some] at hqueued
            rw [Db.itemState, hrow, Option.map_some, hqueued]
        · exact h
      split
      · exact ⟨h', fun h => by cases h⟩
      · split
        · exact ⟨h', fun h => by cases h⟩
        · rename_i item' hi'
          split
          · rename_i issue hopen _
            have hs : o.1.db.itemState wid = some .issueOpen := by rw [Db.itemState, hi', Option.map_some, hopen]
            exact ⟨h'.trans (launchReserve_walk hs issue operator answers).1,
              (launchReserve_walk hs issue operator answers).2⟩
          · exact ⟨h', fun h => by cases h⟩
    · refine ⟨Walk.refl.unfired (Acts.refl.log _ _ _ _ (by decide)), fun h => by cases h⟩

theorem cancelRequest_walk (env : Env) (tx : Tx) (wid : Nat) (operator : String) :
    Walk env tx (cancelRequest env tx wid operator).1 ∧ ∀ flight, (cancelRequest env tx wid operator).2 = some flight →
      (∃ row, flight = .cancelling wid row operator) ∧
        (cancelRequest env tx wid operator).1.db.itemState wid = some .sessionActive := by
  unfold cancelRequest
  split
  · exact ⟨.refl, fun _ h => by cases h⟩
  · rename_i item hi
    dsimp only
    split
    · rename_i sid session hblock _ _
      refine ⟨Walk.refl.unfired (Acts.refl.log _ _ _ _ (by decide)), fun flight hflight => ?_⟩
      refine ⟨⟨sid, (Option.some.inj hflight).symm⟩, ?_⟩
      have hs : item.state = .sessionActive := by
        by_contra hno
        unfold cancelBlockFor at hblock
        rw [if_pos hno] at hblock
        cases hblock
      show tx.db.itemState wid = some .sessionActive
      rw [Db.itemState, hi, Option.map_some, hs]
    · exact ⟨Walk.refl.unfired (Acts.refl.log _ _ _ _ (by decide)), fun _ h => by cases h⟩

theorem cancelAnswer_walk (hs : tx.db.itemState wid = some .sessionActive) (row : Nat) (operator : String)
    (answer : Except String SessionSnapshot) : Walk env tx (cancelAnswer env tx wid row operator answer) := by
  unfold cancelAnswer
  split
  · exact .refl
  · split
    · exact ((At.refl hs).log _ _ _ _ (by decide)).walk
    · dsimp only
      have h (poll : SessionPoll) (f : Session → Session) :
          At env tx wid .sessionActive ((tx.modifySession row f).insertPoll poll) :=
        ((At.refl hs).quiet (quiet_modifySession ..)).quiet (quiet_insertPoll ..)
      split
      · exact ((((h _ _).quiet (quiet_log _ _ _ _ _ _ _ _ _ (by decide) (Or.inl (by decide)))).fire rfl _ _).attempt
          _).walk
      · exact (((h _ _).quiet (quiet_log _ _ _ _ _ _ _ _ _ (by decide) (Or.inl (by decide)))).fire rfl _ _).walk

/-! ### Polls of sessions and labels -/

theorem applyDecision_walk (hs : tx.db.itemState wid = some .sessionActive) (row : Nat) (item : WorkItem)
    (snap : SessionSnapshot) (facts : SnapshotFacts) (result : Assessment) :
    Walk env tx (applyDecision env tx wid row item snap facts result) := by
  have hsend (message : String) : At env tx wid .sessionActive (sendMessage tx row snap.sessionId message) :=
    (At.refl hs).unfired (sendMessage_acts env tx row _ _)
  unfold applyDecision
  split
  · exact .refl
  · exact (hsend _).walk
  · refine ((hsend _).edit wid ?_).walk
    exact fun _ => .stay rfl rfl
  · have h : At env tx wid .needsHuman
      (tx.wi env wid .blocked (takeText 500 (assessmentDetail facts result)) "controller") :=
      (At.refl hs).fire rfl _ _
    dsimp only
    split
    · unfold postDisagreementVerdict
      split
      · exact (h.must _).walk
      · exact h.walk
    · exact h.walk
  · split
    · exact .refl
    · rename_i pr _
      have h : At env tx wid .checksRunning
        (((recordPr env tx wid pr).wi env wid .prOpened pr.url "controller").wi env wid
          .checksStarted pr.headSha "controller") := by
        have hopened : nextWorkItemState .sessionActive .prOpened = some .prOpen := rfl
        exact (((At.refl hs).unfired (recordPr_acts env tx trivial trivial trivial pr)).fire hopened _ _).fire rfl _ _
      dsimp only
      split
      · exact (h.must _).walk
      · exact h.walk

theorem pollSession_walk (sid : String) (snap : SessionSnapshot) (answers : SessionAnswers) :
    Walk env tx (pollSession env wid sid snap answers tx) := by
  unfold pollSession
  split
  · exact .refl
  · rename_i item hi
    split
    · exact .refl
    · rename_i hactive
      have hs : tx.db.itemState wid = some .sessionActive := by
        simp only [Bool.or_eq_true, decide_eq_true_eq, not_or, not_not] at hactive
        rw [Db.itemState, hi, Option.map_some, hactive.1]
      split
      · exact ((At.refl hs).fire rfl _ _).walk
      · split
        · have h (row : Nat) (f : Session → Session) (poll : SessionPoll) :
              At env tx wid .sessionActive ((tx.modifySession row f).insertPoll poll) :=
            ((At.refl hs).quiet (quiet_modifySession ..)).quiet (quiet_insertPoll ..)
          exact (h _ _ _).walk.trans (applyDecision_walk (h _ _ _).state ..)
        · exact .refl

/-- A label that accepts a resolution of the item. -/
def accepting (item : WorkItem) (labels : List String) : Bool :=
  (HumanLabel.dispositionApproved.value ∈ labels && item.kind = .noFixReachability ||
    HumanLabel.disagreementResolved.value ∈ labels && item.kind = .scannerDisagreement) && item.humanResolution.isNone

/-- What a human does on an issue. -/
def humanLabelEvents : List WorkItemEvent := [.humanAbandoned, .humanRetry, .humanResolved]

/-- A poll of labels that leaves everything alone, or takes the item along an edge of one of these events. -/
def Heeds (env : Env) (wid : Nat) (tx t : Tx) : Prop :=
  t = tx ∨ ∃ e ∈ humanLabelEvents, ∃ s s', tx.db.itemState wid = some s ∧ nextWorkItemState s e = some s' ∧
    At env tx wid s' t

theorem Heeds.walk {t : Tx} (h : Heeds env wid tx t) : Walk env tx t := by
  obtain rfl | ⟨_, -, _, _, -, -, h⟩ := h
  · exact .refl
  · exact h.walk

theorem applyLabels_heeds {item : WorkItem} (hs : tx.db.itemState wid = some item.state)
    (hattention : item.state ∈ humanAttentionStates) (issue : Nat) {labels : List String}
    (hok : HumanLabel.retry.value ∈ labels ∨ item.state = .needsHuman ∨ accepting item labels = false) :
    Heeds env wid tx (applyLabels env tx wid item issue labels) := by
  have hresolve (label : HumanLabel) (hneeds : item.state = .needsHuman) :
      Heeds env wid tx (resolve env tx wid label) := by
    have hs := hs.trans (congrArg some hneeds)
    refine Or.inr ⟨.humanResolved, by
      decide, .needsHuman, .awaitingRescan, hs, rfl, At.fire (.edit (.refl hs) wid ?_) rfl _ _⟩
    exact fun _ => .stay rfl rfl
  have hretry : nextWorkItemState item.state .humanRetry = some .issueOpen := by
    revert hattention
    cases item.state <;> decide
  unfold applyLabels
  split
  · refine Or.inr ⟨.humanRetry, by decide, _, _, hs, hretry, At.fire (.edit ((At.refl hs).must _) wid ?_) hretry _ _⟩
    exact fun _ => .stay rfl rfl
  · rename_i hno
    replace hok := hok.resolve_left hno
    unfold accepting at hok
    split
    · rename_i haccept
      refine hresolve _ (hok.resolve_right ?_)
      simp_all
    · split
      · rename_i haccept
        refine hresolve _ (hok.resolve_right ?_)
        simp_all
      · exact Or.inl rfl

/-- A poll of labels, unless a resolution is accepted for an item that failed. -/
theorem pollHumanLabel_heeds {number : Nat} {issueState : String} {labels : List String}
    (hok : ∀ item, tx.db.workItems.get? wid = some item → item.state = .failed → item.issueNumber = some number →
      issueState ≠ "closed" → HumanLabel.retry.value ∉ labels → accepting item labels = false) :
    Heeds env wid tx (pollHumanLabel env wid number issueState labels tx) := by
  unfold pollHumanLabel
  split
  · exact Or.inl rfl
  · rename_i item hi
    have hs : tx.db.itemState wid = some item.state := by rw [Db.itemState, hi, Option.map_some]
    split
    · exact Or.inl rfl
    · rename_i hgo
      simp only [Bool.or_eq_true, decide_eq_true_eq, not_or, not_not] at hgo
      split
      · have habandon : nextWorkItemState item.state .humanAbandoned = some .abandoned := by
          have hmem := hgo.1
          revert hmem
          cases item.state <;> decide
        refine Or.inr ⟨.humanAbandoned, by decide, _, _, hs, habandon, ?_⟩
        have hmembers (l : List Nat) (t : Tx) :
            Acts env (.findingsOnly fun _ => True) t (l.foldl (abandonMember env) t) :=
          .foldl _ .refl fun t fid _ => Acts.refl.finding trivial (Or.inr (by decide)) ..
        exact ((At.refl hs).fire habandon _ _).acts (hmembers _ _) fun _ => id
      · rename_i hopen
        split
        · rename_i hattention
          refine applyLabels_heeds hs hattention number ?_
          by_cases hretry : HumanLabel.retry.value ∈ labels
          · exact Or.inl hretry
          · refine Or.inr ?_
            by_cases hfailed : item.state = .failed
            · exact Or.inr (hok item hi hfailed hgo.2 hopen hretry)
            · left
              revert hattention hfailed
              cases item.state <;> decide
        · exact Or.inl rfl

/-! ### Closing -/

theorem judgeMembers_at {s : WorkItemState} (hs : tx.db.itemState wid = some s) (cmp : Compare) (ev : Evidence)
    (item : WorkItem) : At env tx wid s (judgeMembers env cmp ev tx wid item).1 :=
  (At.refl hs).acts (judgeMembers_does env cmp ev tx wid item) fun _ => id

theorem beginRescan_at {s : WorkItemState} (hs : tx.db.itemState wid = some s)
    (hmem : s ∈ [WorkItemState.merged, .awaitingRescan])
    (run : ScanRun) : At env tx wid .awaitingRescan (beginRescan env tx wid run) := by
  unfold beginRescan
  split
  · rename_i hmerged
    exact (At.refl hmerged).fire rfl _ _
  · rename_i hno
    refine .refl (hs.trans (congrArg some ?_))
    rw [hs, Option.some.injEq] at hno
    revert hmem hno
    cases s <;> decide

theorem settleItem_walk {s : WorkItemState} (hs : tx.db.itemState wid = some s)
    (hmem : s ∈ [WorkItemState.merged, .awaitingRescan]) (ev : Evidence)
    (outcomes : List (Nat × ClosingOutcome × List String)) : Walk env tx (settleItem env tx wid ev outcomes) := by
  have hstarted : nextWorkItemState s .rescanStarted = some .awaitingRescan := by
    revert hmem
    cases s <;> decide
  unfold settleItem
  dsimp only
  split
  · exact ((At.refl hs).fire hstarted _ _).walk
  · have h : At env tx wid .awaitingRescan (beginRescan env tx wid ev.run) := beginRescan_at hs hmem ev.run
    split
    · unfold verifyItem
      dsimp only
      have hverified (t : Tx) (ht : t.db.itemState wid = some .awaitingRescan) :
          At env t wid .verified
          ((t.modifyItem wid fun w => { w with verifiedAt := some env.now }).wi env wid .rescanVerified
            ("run " ++ ev.run.externalRunId) "scanner") := by
        refine At.fire (.edit (.refl ht) wid ?_) rfl _ _
        exact fun _ => .stay rfl rfl
      have h' := (h.trans (hverified _ h.state)).acts (raiseVerified_levels env _ wid ev.run) fun _ => id
      split
      · exact h'.walk
      · exact ((h'.must _).must _).walk
    · unfold stillPresent
      split
      · exact h.walk
      · have hpresent : nextWorkItemState .awaitingRescan .rescanShowsPresent = some .needsHuman := rfl
        refine .foldl _ (h.fire hpresent _ _).walk fun t _ fid _ => ?_
        exact .of_acts (S := .findingsOnly fun _ => True) (Acts.refl.finding trivial (Or.inr (by decide)) ..)
          fun _ => id

theorem closeWorkItem_walk {s : WorkItemState} (hs : tx.db.itemState wid = some s)
    (hmem : s ∈ [WorkItemState.merged, .awaitingRescan]) (cmp : Compare) (ev : Evidence) :
    Walk env tx (closeWorkItem env cmp ev tx wid) := by
  unfold closeWorkItem
  split
  · exact .refl
  · rename_i item _
    have h : At env tx wid s (judgeMembers env cmp ev tx wid item).1 := judgeMembers_at hs cmp ev item
    exact h.walk.trans (settleItem_walk h.state hmem ev _)

theorem closeItems_walk (cmp : Compare) (ev : Evidence) : Walk env tx (closeItems env cmp ev tx) := by
  -- the items of the list wait for a run until it is their turn
  have hloop (l : List Nat) (hnd : l.Nodup) (t : Tx) (hall : ∀ wid ∈ l, ∃ s, t.db.itemState wid = some s ∧
      s ∈ [WorkItemState.merged, .awaitingRescan]) : Walk env t (l.foldl (closeWorkItem env cmp ev) t) := by
    induction l generalizing t with
    | nil => exact .refl
    | cons wid l ih =>
      obtain ⟨s, hs, hmem⟩ := hall wid List.mem_cons_self
      refine (closeWorkItem_walk hs hmem cmp ev).trans (ih (List.nodup_cons.mp hnd).2 _ fun w hw => ?_)
      obtain ⟨s', hs', hmem'⟩ := hall w (List.mem_cons_of_mem _ hw)
      refine ⟨s', ?_, hmem'⟩
      have hne : ¬ (w = wid) := fun h => (List.nodup_cons.mp hnd).1 (h ▸ hw)
      rw [Db.itemState, (closeWorkItem_does env cmp ev t wid).item not_false hne]
      exact hs'
  refine hloop _ (Table.nodup_select _ _) tx fun wid hw => ?_
  obtain ⟨item, hi, hmem⟩ := Table.mem_select.mp hw
  exact ⟨item.state, by rw [Db.itemState, hi, Option.map_some], by simpa using hmem⟩

/-- The work items that drift touches have no session yet. -/
theorem driftOwner_state {db : Db} {f : Finding} {wid : Nat} (h : driftOwner db f = some (some wid)) :
    ∃ s, db.itemState wid = some s ∧ s ∈ [WorkItemState.queued, .issueOpen] := by
  unfold driftOwner at h
  split at h
  · split at h
    · rename_i hany
      obtain rfl := Option.some.inj (Option.some.inj h)
      obtain ⟨item, hi, hs⟩ := (Option.any_eq_true ..).mp hany
      exact ⟨item.state, by rw [Db.itemState, hi, Option.map_some], by simpa using hs⟩
    · cases h
  · cases h

theorem supersedeItem_walk {s : WorkItemState} (hs : tx.db.itemState wid = some s)
    (hmem : s ∈ [WorkItemState.queued, .issueOpen]) (ev : Evidence) : Walk env tx (supersedeItem env ev tx wid) := by
  have hn : nextWorkItemState s .superseded = some .abandoned := by
    revert hmem
    cases s <;> decide
  unfold supersedeItem
  split
  · dsimp only
    split
    · exact ((((At.refl hs).fire hn _ _).must _).must _).walk
    · exact ((At.refl hs).fire hn _ _).walk
  · exact .refl

theorem drift_walk (ev : Evidence) : Walk env tx (drift env ev tx) := by
  have hsupersede (l : List Nat) (hnd : l.Nodup) (t : Tx) (hall : ∀ wid ∈ l, ∃ s, t.db.itemState wid = some s ∧
      s ∈ [WorkItemState.queued, .issueOpen]) : Walk env t (l.foldl (supersedeItem env ev) t) := by
    induction l generalizing t with
    | nil => exact .refl
    | cons wid l ih =>
      obtain ⟨s, hs, hmem⟩ := hall wid List.mem_cons_self
      refine (supersedeItem_walk hs hmem ev).trans (ih (List.nodup_cons.mp hnd).2 _ fun w hw => ?_)
      obtain ⟨s', hs', hmem'⟩ := hall w (List.mem_cons_of_mem _ hw)
      refine ⟨s', ?_, hmem'⟩
      have hne : ¬ (w = wid) := fun h => (List.nodup_cons.mp hnd).1 (h ▸ hw)
      rw [Db.itemState, (supersedeItem_does env ev t wid).item not_false hne]
      exact hs'
  unfold drift
  dsimp only
  generalize hacc : List.foldl (driftFinding env ev (presentFamilies tx.db ev.sightings)) (tx, []) _ = acc
  -- the loop over the findings writes no work item, and touches only items without a session
  have hloop : Acts env (.findingsOnly fun _ => True) tx acc.1 ∧ ∀ wid ∈ acc.2, ∃ s, tx.db.itemState wid = some s ∧
      s ∈ [WorkItemState.queued, .issueOpen] := by
    rw [← hacc]
    refine Rows.foldl_invariant (fun acc : Tx × List Nat => Acts env (.findingsOnly fun _ => True) tx acc.1 ∧
      ∀ wid ∈ acc.2, ∃ s, tx.db.itemState wid = some s ∧ s ∈ [WorkItemState.queued, .issueOpen])
      (fun acc fid _ h => ⟨?_, fun wid hwid => ?_⟩) ⟨.refl, fun _ h => by cases h⟩
    · exact h.1.trans ((driftFinding_does env ev _ acc fid).widen (Scope.findingsOnly_within fun _ _ => trivial))
    · unfold driftFinding at hwid
      split at hwid
      · exact h.2 wid hwid
      · split at hwid
        · exact h.2 wid hwid
        · split at hwid
          · exact h.2 wid hwid
          · rename_i owner howner
            have hmem : wid ∈ acc.2 ++ owner.toList := by
              dsimp only at hwid
              split at hwid <;> exact hwid
            rcases List.mem_append.mp hmem with hmem | hmem
            · exact h.2 wid hmem
            · obtain ⟨s, hs, hstate⟩ := driftOwner_state (Option.mem_toList.mp hmem ▸ howner)
              have hsame := h.1.workItems not_false fun _ => not_false
              exact ⟨s, by rw [← hs, Db.itemState, Db.itemState, hsame], hstate⟩
  refine .trans (.of_acts hloop.1 fun _ => id) (hsupersede _ ?_ _ fun wid hwid => ?_)
  · exact (List.perm_insertionSort _ _).nodup_iff.mpr (Rows.nodup_eraseDups _)
  · rw [(List.perm_insertionSort _ _).mem_iff, List.mem_eraseDups] at hwid
    obtain ⟨s, hs, hmem⟩ := hloop.2 wid hwid
    rw [Db.itemState, hloop.1.workItems not_false fun _ => not_false]
    exact ⟨s, hs, hmem⟩

theorem replayRun_walk (cmp : Compare) (rid : Nat) : Walk env tx (replayRun env cmp wid tx rid) := by
  unfold replayRun
  split
  · rename_i hany
    obtain ⟨item, hi, hs⟩ := (Option.any_eq_true ..).mp hany
    split
    · exact closeWorkItem_walk (by rw [Db.itemState, hi, Option.map_some]) (by simpa using hs) cmp _
    · exact .refl
  · exact .refl

theorem closeFromAppliedRuns_walk (cmp : Compare) : Walk env tx (closeFromAppliedRuns env cmp tx wid) := by
  unfold closeFromAppliedRuns
  split
  · exact .refl
  · exact .foldl _ .refl fun t _ rid _ => replayRun_walk cmp rid

/-! ### Polls of pull requests -/

theorem completeMerge_walk {s : WorkItemState} (hs : tx.db.itemState wid = some s)
    (hmem : s ∈ [WorkItemState.readyForHuman, .needsHuman]) (pid : Nat) (sha : String) (cmp : Compare) :
    Walk env tx (completeMerge env tx wid pid sha cmp) := by
  have hn : nextWorkItemState s .humanMerged = some .merged := by
    revert hmem
    cases s <;> decide
  refine .trans ?_ (closeFromAppliedRuns_walk cmp)
  refine .foldl _ ?_ fun t _ fid _ => .of_acts (S := .findingsOnly fun _ => True)
    (Acts.refl.finding trivial (Or.inr (by decide)) ..) fun _ => id
  exact (((At.refl hs).fire hn _ _).acts (raiseLevel_levels env _ wid pid (by decide) _) fun _ => id).walk

theorem blockUnverified_at {s : WorkItemState} (hs : tx.db.itemState wid = some s) (hmem : s ∈ prStates) :
    ∃ s', At env tx wid s' (blockUnverified env tx wid) ∧ s' ∈ [WorkItemState.readyForHuman, .needsHuman] := by
  unfold blockUnverified
  split
  · rename_i haccepted
    rw [mergeAccepted, hs, Option.any_some, decide_eq_true_eq] at haccepted
    exact ⟨s, .refl hs, haccepted⟩
  · rename_i hno
    rw [mergeAccepted, hs, Option.any_some, decide_eq_true_eq] at hno
    have hblock : nextWorkItemState s .blocked = some .needsHuman := by
      revert hmem hno
      cases s <;> decide
    exact ⟨.needsHuman, (At.refl hs).fire hblock _ _, by decide⟩

theorem applyMerge_walk {s : WorkItemState} (hs : tx.db.itemState wid = some s) (hmem : s ∈ prStates) (pid : Nat)
    (pr : PullRequestInfo) (cmp : Compare) : Walk env tx (applyMerge env tx wid pid pr cmp) := by
  have hrecord : At env tx wid s (recordMerge env tx wid pid pr) := by
    refine .edit ((At.refl hs).pulls pid _) wid ?_
    exact fun _ => .stay rfl rfl
  obtain ⟨s', h, hmem'⟩ : ∃ s', At env (recordMerge env tx wid pid pr) wid s' (blockUnverified env _ wid) ∧
      s' ∈ [WorkItemState.readyForHuman, .needsHuman] := blockUnverified_at hrecord.state hmem
  unfold applyMerge
  dsimp only
  split
  · exact (hrecord.trans h).walk.trans (completeMerge_walk h.state hmem' pid _ cmp)
  · exact (hrecord.trans h).walk

/-- After a new head the item is polled on, and is not where only the old head could bring it. -/
theorem applyNewHead_at {s : WorkItemState} (hs : tx.db.itemState wid = some s) (hmem : s ∈ prStates) (pid : Nat)
    (row : PullRequest) (pr : PullRequestInfo) :
    ∃ s', At env tx wid s' (applyNewHead env tx wid pid row pr) ∧ s' ∈ prStates ∧
    (s' = .needsHuman ↔ s = .needsHuman) := by
  unfold applyNewHead
  split
  · exact ⟨s, .refl hs, hmem, Iff.rfl⟩
  · have h (t : Tx) (ht : At env tx wid s t) (f : PullRequest → PullRequest) :
        At env tx wid s
        ((t.modifyPullRequest pid f).modifyItem wid fun w => { w with prHeadSha := some pr.headSha }) := by
      refine (ht.pulls pid f).edit wid ?_
      exact fun _ => .stay rfl rfl
    have hlog :
        At env tx wid s (tx.event env .pullRequest pid (.log "head_changed") (some row.headSha) (some pr.headSha)
        "new push" "controller" []) := (At.refl hs).quiet (quiet_log _ _ _ _ _ _ _ _ _ (by decide) (Or.inl (by decide)))
    dsimp only
    split
    · have hafter := h _ hlog fun row => { row with headSha := pr.headSha, reviewStatus := none, approvedBy := none }
      -- the rest of the re-verification fires nothing
      have hrest (t : Tx) (s' : WorkItemState) (ht : At env tx wid s' t) (why : String) :
          At env tx wid s' (((resetLevel env t wid pid .prOpened why).modifyPullRequest pid fun row =>
            { row with verificationDepth := none, depthRungs := [] }).modifyItem wid
              fun w => { w with verificationDepth := none }) := by
        have hreset :=
          ht.acts (resetLevel_edits env t wid pid (show LifecycleLevel.prOpened ∉ headLevels by decide) why)
          fun _ => id
        refine (hreset.pulls pid _).edit wid ?_
        exact fun _ => .stay rfl rfl
      unfold reverifyNewHead
      dsimp only
      split
      · rename_i hany
        rw [hafter.state, Option.any_some, decide_eq_true_eq] at hany
        have hn : nextWorkItemState s .newHeadPushed = some .checksRunning ∧ s ≠ .needsHuman := by
          revert hany
          cases s <;> decide
        exact ⟨.checksRunning, hrest _ _ (hafter.fire hn.1 _ _) _, by decide, iff_of_false (by decide) hn.2⟩
      · exact ⟨s, hrest _ _ hafter _, hmem, Iff.rfl⟩
    · exact ⟨s, h _ hlog _, hmem, Iff.rfl⟩

theorem retryOrFail_walk (hs : tx.db.itemState wid = some .checksFailed) (pid : Nat) (pr : PullRequestInfo)
    (checks : List CheckRun) : Walk env tx (retryOrFail env tx wid pid pr checks) := by
  have h₀ : At env tx wid .checksFailed (tx.modifyPullRequest pid (firstHeadSeen pr.headSha false)) :=
    (At.refl hs).pulls pid _
  have hasked (retries : Nat) (call : Call) : At env tx wid .checksFailed
      (((tx.modifyPullRequest pid (firstHeadSeen pr.headSha false)).modifyItem wid fun w =>
        { w with retriesUsed := retries }).must call) := by
    refine .must (h₀.edit wid ?_) call
    exact fun _ => .stay rfl rfl
  have hsent (t : Tx) (ht : At env tx wid .checksFailed t) (reason : String) :
      At env tx wid .sessionActive (t.wi env wid .retrySent reason "controller") := ht.fire rfl _ _
  unfold retryOrFail
  dsimp only
  split
  · exact h₀.walk
  · split
    · split
      · exact (h₀.fire rfl _ _).walk
      · split
        · refine (At.must (hsent _ ?_ _) _).walk
          split
          · exact (hasked _ _).quiet (quiet_modifySession ..)
          · exact hasked _ _
        · refine (hsent _ ?_ _).walk
          split
          · exact (hasked _ _).quiet (quiet_modifySession ..)
          · exact hasked _ _
    · exact (h₀.fire rfl _ _).walk

theorem reviewTimeout_walk (hs : tx.db.itemState wid = some .reviewPending) (head why : String) :
    Walk env tx (reviewTimeout env tx wid head why) := by
  unfold reviewTimeout
  dsimp only
  split
  · split
    · exact ((At.refl hs).fire rfl _ _).walk
    · exact .refl
  · exact .refl

theorem raiseLevel_unfired (tx : Tx) (wid pid : Nat) (level : LifecycleLevel) (why : String) :
    Acts env .unfired tx (raiseLevel env tx wid pid level why) :=
  raiseLevel_acts env tx trivial pid (Or.inl trivial) (Or.inl trivial) why

theorem observeReview_walk (hs : tx.db.itemState wid = some .reviewPending) (pid : Nat) (head : String)
    (snap : ReviewSnapshot) : Walk env tx (observeReview env tx wid pid head snap) := by
  unfold observeReview
  split
  · exact reviewTimeout_walk hs _ _
  · dsimp only
    have h (f : PullRequest → PullRequest) : At env tx wid .reviewPending (tx.modifyPullRequest pid f) :=
      (At.refl hs).pulls pid f
    split
    · have hcompleted : nextWorkItemState .reviewPending .reviewCompleted = some .readyForHuman := rfl
      exact (((h _).fire hcompleted _ _).unfired (raiseLevel_unfired _ wid pid _ _)).walk
    · exact (h _).walk.trans (reviewTimeout_walk (h _).state _ _)

theorem triggerReview_walk (hs : tx.db.itemState wid = some .reviewPending) (pid : Nat) (pr : PullRequestInfo)
    (reason : String) (answer : Except String ReviewSnapshot) :
    Walk env tx (triggerReview env tx wid pid pr reason answer) := by
  unfold triggerReview
  split
  · have h : At env tx wid .reviewPending (tx.attempt [.triggerReview pr.url]) := (At.refl hs).attempt _
    exact h.walk.trans (reviewTimeout_walk h.state _ _)
  · rename_i snap
    have h : At env tx wid .reviewPending ((tx.answered (.triggerReview pr.url)).event env .pullRequest pid
        (.log "review_triggered") none (some snap.commitSha) reason "controller" []) :=
      ((At.refl hs).answered _).quiet (quiet_log _ _ _ _ _ _ _ _ _ (by decide) (Or.inl (by decide)))
    exact h.walk.trans (observeReview_walk h.state pid _ _)

theorem checkReview_walk (hs : tx.db.itemState wid = some .reviewPending) (pid : Nat) (pr : PullRequestInfo)
    (answers : PrAnswers) : Walk env tx (checkReview env tx wid pid pr answers) := by
  unfold checkReview
  dsimp only
  split
  · exact reviewTimeout_walk hs _ _
  · exact triggerReview_walk hs pid pr _ _
  · split
    · split
      · exact ((At.refl hs).fire rfl _ _).walk
      · exact triggerReview_walk hs pid pr _ _
    · exact ((At.refl hs).fire rfl _ _).walk
    · exact observeReview_walk hs pid _ _

theorem applyGreen_walk (pid : Nat) (pr : PullRequestInfo) (answers : PrAnswers) :
    Walk env tx (applyGreen env tx wid pid pr answers) := by
  have hpassed : Walk env tx (checksPassed env tx wid pid pr) := by
    unfold checksPassed
    split
    · rename_i hrunning
      have hgreen : nextWorkItemState .checksRunning .checksGreen = some .reviewPending := rfl
      exact ((((At.refl hrunning).pulls pid _).fire hgreen _ _).unfired (raiseLevel_unfired _ wid pid _ _)).walk
    · exact .refl
  have hreviewed : Walk env tx (reviewWaiting env (checksPassed env tx wid pid pr) wid pid pr answers) := by
    unfold reviewWaiting
    split
    · exact hpassed.trans (checkReview_walk ‹_› pid pr answers)
    · exact hpassed
  unfold applyGreen
  dsimp only
  split
  · unfold checkApproval
    split
    · exact hreviewed
    · split
      · exact (hreviewed.unfired (Acts.refl.editPull pid (Or.inl trivial) (Or.inl trivial) (Or.inl trivial))).unfired
          (raiseLevel_unfired _ wid pid _ _)
      · exact hreviewed
  · exact hreviewed

/-- The first checks of a pull request start them. -/
def checksStarted : WorkItemState → WorkItemState
  | .prOpen => .checksRunning
  | s => s

theorem recordedChecks_edits (env : Env) (tx : Tx) (wid pid : Nat) (headSha : String) (checks : List CheckRun) :
    Acts env (.edits wid) tx (recordDepth env (checks.foldl (recordCheck env pid headSha) tx) wid pid headSha checks) :=
  (Acts.foldl checks .refl fun t c _ => Acts.refl.quiet (quiet_recordCheck t env pid headSha c)).trans
    (recordDepth_edits env _ wid pid _ _)

theorem checksSeen_walk (pid : Nat) (pr : PullRequestInfo) (checks : List CheckRun) :
    Walk env tx (checksSeen env tx wid pid pr checks) := by
  have h : Walk env tx (recordDepth env (checks.foldl (recordCheck env pid pr.headSha) tx) wid pid pr.headSha checks) :=
    .of_acts (recordedChecks_edits env tx wid pid pr.headSha checks) fun _ => id
  unfold checksSeen
  dsimp only
  split
  · rename_i hopened
    exact h.trans ((At.refl hopened).fire rfl _ _).walk
  · exact h

theorem checksSeen_at {s : WorkItemState} (hs : tx.db.itemState wid = some s) (pid : Nat) (pr : PullRequestInfo)
    (checks : List CheckRun) : At env tx wid (checksStarted s) (checksSeen env tx wid pid pr checks) := by
  have h := (@At.refl env tx wid s hs).acts (recordedChecks_edits env tx wid pid pr.headSha checks) fun _ => id
  unfold checksSeen
  dsimp only
  split
  · rename_i hopened
    cases (Option.some.inj (h.state.symm.trans hopened) : s = .prOpen)
    exact h.fire rfl _ _
  · rename_i hother
    rw [h.state, Option.some.injEq] at hother
    have hstay : checksStarted s = s := by
      revert hother
      cases s <;> decide
    rw [hstay]
    exact h

theorem applyChecks_walk (pid : Nat) (pr : PullRequestInfo) (checks : List CheckRun) (answers : PrAnswers) :
    Walk env tx (applyChecks env tx wid pid pr checks answers) := by
  have h₀ : Walk env tx (checksSeen env tx wid pid pr checks) := checksSeen_walk pid pr checks
  unfold applyChecks
  dsimp only
  split
  · split
    · rename_i hany
      obtain ⟨s, hs, hmem⟩ := (Option.any_eq_true ..).mp hany
      have hn : nextWorkItemState s .checksRed = some .checksFailed := by
        revert hmem
        cases s <;> decide
      have h (t : Tx) (hs : t.db.itemState wid = some s) (reason : String) :
          At env t wid .checksFailed (t.wi env wid .checksRed reason "ci") := (At.refl hs).fire hn reason "ci"
      exact h₀.trans ((h _ hs _).walk.trans (retryOrFail_walk (h _ hs _).state pid pr checks))
    · exact h₀
  · exact h₀.trans (applyGreen_walk pid pr answers)
  · exact h₀

theorem pollPullRequest_walk (number : Nat) (pr : PullRequestInfo) (checks : List CheckRun) (answers : PrAnswers) :
    Walk env tx (pollPullRequest env wid number pr checks answers tx) := by
  unfold pollPullRequest
  split
  · exact .refl
  · rename_i item hi
    split
    · exact .refl
    · rename_i hgo
      simp only [Bool.or_eq_true, decide_eq_true_eq, not_or, not_not] at hgo
      split
      · exact .refl
      · rename_i pid _
        split
        · rename_i row _
          have hs : tx.db.itemState wid = some item.state := by rw [Db.itemState, hi, Option.map_some]
          have h₀ : At env tx wid item.state (tx.modifyPullRequest pid fun row => { row with updatedAt := env.now }) :=
            (At.refl hs).pulls pid _
          obtain ⟨s, h, hmem, -⟩ := applyNewHead_at h₀.state hgo.1 pid row pr
          unfold applyPr
          dsimp only
          split
          · exact (h₀.trans h).walk.trans (applyMerge_walk h.state hmem pid pr _)
          · split
            · split
              · exact ((h₀.trans h).pulls pid _).walk
              · rename_i hneeds
                have hclosed := (h₀.trans h).pulls pid fun row => { row with state := "closed" }
                rw [hclosed.state, Option.some.injEq] at hneeds
                have hn : nextWorkItemState s .prClosedUnmerged = some .needsHuman := by
                  revert hmem hneeds
                  cases s <;> decide
                exact (hclosed.fire hn _ _).walk
            · split
              · exact (h₀.trans h).walk
              · exact (h₀.trans h).walk.trans (applyChecks_walk pid pr checks answers)
        · exact .refl

end Units

end HardeningLoop
