import HardeningLoop.Orchestrator.Engine.Steps

/-!
# The units, by what they may do

One lemma for each unit of the engine: it is made of the operations of `Acts`. Only the reservation of an item fires
`dispatch_started`, and only the polls of sessions and pull requests observe a pull request.
-/

namespace HardeningLoop

section Scopes

variable {env : Env} {t tx : Tx} {wid : Nat} {F : Nat → Prop}

/-- A unit of one work item that writes no finding, reserves nothing and observes no pull request. -/
abbrev OnItem (env : Env) (wid : Nat) (tx tx' : Tx) : Prop := Acts env (.item wid fun _ => False) tx tx'

/-- A unit of one work item and its pull request that writes no finding. -/
abbrev OnPull (env : Env) (wid : Nat) (tx tx' : Tx) : Prop := Acts env (.pull wid fun _ => False) tx tx'

/-- A unit of one work item and the head of its pull request that settles neither. -/
abbrev OnHead (env : Env) (wid : Nat) (tx tx' : Tx) : Prop := Acts env (.head wid) tx tx'

/-- A unit of one work item that may count or reset its retries. -/
abbrev OnRetries (env : Env) (wid : Nat) (tx tx' : Tx) : Prop := Acts env (.retrying wid fun _ => False) tx tx'

/-- A unit of one work item and the head of its pull request that may retry failed checks. -/
abbrev OnChecks (env : Env) (wid : Nat) (tx tx' : Tx) : Prop := Acts env (.checking wid) tx tx'

namespace Acts

theorem fire (h : Acts env (.item wid F) tx t) (e : WorkItemEvent) (reason actor : String)
    (he : e ∉ .dispatchStarted :: headEvents) : Acts env (.item wid F) tx (t.wi env wid e reason actor) :=
  h.wi rfl he reason actor

theorem edit (h : Acts env (.item wid F) tx t) {f : WorkItem → WorkItem}
    (hf : ∀ w : WorkItem, w.Edits False (fun _ => False) (f w)) :
    Acts env (.item wid F) tx (t.modifyItem wid f) := h.editItem rfl hf

/-- A unit of an item that writes no finding is one that may write some. -/
theorem writing (h : OnItem env wid tx t) : Acts env (.item wid F) tx t :=
  h.widen (Scope.item_within_item fun _ h => h.elim)

/-- A unit of an item is one that may observe a head. -/
theorem onHead (h : OnItem env wid tx t) : OnHead env wid tx t := h.widen (Scope.item_within_head wid)

/-- A unit of an item is one that may retry. -/
theorem onRetries (h : OnItem env wid tx t) : OnRetries env wid tx t :=
  h.widen (Scope.item_within_retrying fun _ h => h)

/-- A unit that observes a head is one that may retry its checks. -/
theorem onChecks (h : OnHead env wid tx t) : OnChecks env wid tx t := h.widen (Scope.head_within_checking wid)

/-- A unit that observes a head is one that may observe a pull request. -/
theorem onPull (h : OnChecks env wid tx t) : OnPull env wid tx t := h.widen (Scope.checking_within_pull wid _)

/-- An edit by a unit that may retry. -/
theorem count (h : OnRetries env wid tx t) {f : WorkItem → WorkItem}
    (hf : ∀ w : WorkItem, w.Edits False (· = .retry) (f w)) : OnRetries env wid tx (t.modifyItem wid f) :=
  h.editItem rfl hf

theorem fireRetries (h : OnRetries env wid tx t) (e : WorkItemEvent) (reason actor : String)
    (he : e ∉ .dispatchStarted :: headEvents) : OnRetries env wid tx (t.wi env wid e reason actor) :=
  h.wi rfl he reason actor

/-- A unit of an item is one that may get a pull request. -/
theorem report (h : OnItem env wid tx t) : Acts env (.report wid) tx t := h.widen (Scope.item_within_report wid)

theorem reserving (h : OnItem env wid tx t) : Acts env (.reservation wid) tx t :=
  h.widen (Scope.item_within_reservation wid)

theorem launching (h : Acts env (.binding wid) tx t) : Acts env (.launching wid) tx t :=
  h.widen (Scope.binding_within_launching wid)

/-- A unit that settles a pull request is one that may observe it. -/
theorem closing_onPull (h : Acts env (.closing wid fun _ => False) tx t) : OnPull env wid tx t :=
  h.widen (Scope.closing_within_pull fun _ h => h)

/-- A unit of an item is one that may settle its pull request. -/
theorem closing (h : Acts env (.item wid F) tx t) : Acts env (.closing wid F) tx t :=
  h.widen (Scope.item_within_closing fun _ h => h)

theorem observe (h : OnHead env wid tx t) (pid : Nat) {f : PullRequest → PullRequest}
    (hf : ∀ row, (f row).owner = row.owner) (hs : ∀ row, (f row).outcome = row.outcome) :
    OnHead env wid tx (t.modifyPullRequest pid f) := by
  refine h.editPull pid (Or.inl trivial) (Or.inr fun row => ?_) (Or.inr hf)
  have hsame := hs row
  simp only [PullRequest.outcome, Prod.mk.injEq] at hsame
  exact ⟨hsame.1, Or.inl (hsame.2 ▸ Nat.le_refl _)⟩

end Acts

end Scopes

section Units

variable (env : Env)

/-- A level is raised by units that observe pull requests, or it is no evidence about a head; from a merge on, it is
raised by units that settle pull requests. -/
theorem raiseLevel_acts {S : Scope} (tx : Tx) {wid : Nat} (hw : S.items wid) (pid : Nat) {level : LifecycleLevel}
    (hl : S.pulls ∨ level ∉ headLevels) (hs : S.deeds .settle ∨ level.toNat < LifecycleLevel.merged.toNat)
    (why : String) :
    Acts env S tx (raiseLevel env tx wid pid level why) := by
  unfold raiseLevel
  refine .editPull ?_ pid (Or.inr fun row => ?_) (hs.imp_right fun hs row => ?_) (Or.inr fun row => ?_)
  · split
    · split
      · refine (Acts.refl.quiet (quiet_log _ _ _ _ _ _ _ _ _ (by decide) (Or.inr (by decide)))).editItem hw fun w =>
          ⟨rfl, rfl, ?_, Or.inr rfl, Or.inr rfl, Or.inr rfl⟩
        exact hl.imp_right fun hl => ⟨rfl, Or.inr hl⟩
      · exact .refl
    · exact .refl
  · split <;> rfl
  · split
    · exact ⟨rfl, Or.inr hs⟩
    · exact ⟨rfl, Or.inl le_rfl⟩
  · split <;> rfl

theorem raiseLevel_levels (tx : Tx) (wid pid : Nat) {level : LifecycleLevel} (hl : level ∉ headLevels) (why : String) :
    Acts env (.levels wid) tx (raiseLevel env tx wid pid level why) :=
  raiseLevel_acts env tx rfl pid (Or.inr hl) (Or.inl rfl) why

theorem raiseLevel_does (tx : Tx) (wid pid : Nat) {level : LifecycleLevel} (hl : level ∉ headLevels) (why : String) :
    Acts env (.closing wid fun _ => False) tx (raiseLevel env tx wid pid level why) :=
  raiseLevel_acts env tx rfl pid (Or.inr hl) (Or.inl rfl) why

theorem raiseLevel_head (tx : Tx) (wid pid : Nat) {level : LifecycleLevel}
    (hl : level.toNat < LifecycleLevel.merged.toNat)
    (why : String) : OnHead env wid tx (raiseLevel env tx wid pid level why) :=
  raiseLevel_acts env tx rfl pid (Or.inl trivial) (Or.inr hl) why

theorem resetLevel_edits (tx : Tx) (wid pid : Nat) {level : LifecycleLevel} (hl : level ∉ headLevels) (why : String) :
    Acts env (.edits wid) tx (resetLevel env tx wid pid level why) := by
  unfold resetLevel
  refine .editPull ?_ pid (Or.inr fun row => ?_) (Or.inr fun row => ?_) (Or.inr fun row => ?_)
  · split
    · split
      · exact (Acts.refl.quiet (quiet_log _ _ _ _ _ _ _ _ _ (by decide) (Or.inr (by decide)))).editItem rfl fun w =>
          ⟨rfl, rfl, Or.inr ⟨rfl, Or.inr hl⟩, Or.inr rfl, Or.inr rfl, Or.inr rfl⟩
      · exact .refl
    · exact .refl
  · split <;> rfl
  · split
    · rename_i hlt
      exact ⟨rfl, Or.inl hlt.le⟩
    · exact ⟨rfl, Or.inl le_rfl⟩
  · split <;> rfl

/-! ### Grouping and issues -/

theorem membersJoined_does (tx : Tx) (wid : Nat) (joining : List Finding) :
    Acts env (.findingsOnly fun _ => False) tx (membersJoined env tx wid joining) := by
  unfold membersJoined
  cases tx.db.workItems.get? wid with
  | none => exact .refl
  | some item =>
    have h₀ := (Acts.refl : Acts env (.findingsOnly fun _ => False) tx tx).quiet
      (quiet_log tx env .workItem wid (some item.state.value)
      (some item.state.value) (toString joining.length ++ " new finding(s): " ++
        commaJoin ((sortedSet (joining.map Finding.vulnId)).take 8)) "scanner" [] (by decide)
        (Or.inr (show "members_added" ≠ _ by decide)))
    dsimp only
    cases item.issueNumber with
    | none => exact h₀
    | some n =>
      dsimp only
      split
      · exact h₀
      · cases item.activeSessionId with
        | none => exact h₀.must _
        | some sid =>
          dsimp only
          split
          · split
            · exact ((h₀.must _).must _).quiet (quiet_modifySession ..)
            · exact (h₀.must _).must _
          · exact h₀.must _

theorem workItemForGroup_does (tx : Tx) (kind : Kind) (key : String) (members : List Finding) :
    Acts env .grouping tx (workItemForGroup env tx kind key members).1 := by
  have hcreate (key : String) (regressionOf : Option Nat) :
      Acts env .grouping tx (createItem env tx kind key members regressionOf).1 :=
    (Acts.refl.insertItem trivial ⟨rfl, rfl, rfl, rfl, rfl, rfl⟩).quiet
      (quiet_log _ _ _ _ _ _ _ _ _ (by decide) (Or.inr (by decide)))
  unfold workItemForGroup
  dsimp only
  split
  · exact hcreate _ _
  · split
    · exact hcreate _ _
    · exact .refl

theorem joinItem_does (wid : Nat) (groupKey : String) (tx : Tx) (fid : Nat) :
    Acts env .grouping tx (joinItem env wid groupKey tx fid) :=
  (Acts.refl.own trivial (Or.inl trivial)).finding trivial (Or.inr (by decide)) ..

theorem groupFindings_does (rid : Nat) (kind : Kind) (key : String) (ids : List Nat) (tx : Tx) :
    Acts env .grouping tx (groupFindings env rid kind key ids tx) := by
  unfold groupFindings
  dsimp only
  split
  · exact .refl
  · refine .foldl _ ?_ fun t fid _ => ?_
    · split
      · exact (workItemForGroup_does env tx kind key _).trans
          ((membersJoined_does env _ _ _).widen (Scope.findingsOnly_within fun _ h => h.elim))
      · exact workItemForGroup_does env tx kind key _
    · exact joinItem_does env _ _ t fid

theorem bindIssue_does (tx : Tx) (wid : Nat) (issue : Issue) (reason : String) :
    Acts env (.binding wid) tx (bindIssue env tx wid issue reason) := by
  refine .wi (.editItem .refl rfl ?_) rfl (show WorkItemEvent.issueCreated ∉ .dispatchStarted :: headEvents by decide)
    reason "controller"
  exact fun _ => ⟨rfl, rfl, Or.inr ⟨rfl, Or.inl rfl⟩, Or.inr rfl, Or.inl rfl, Or.inr rfl⟩

theorem openIssue_does (tx : Tx) (wid : Nat) (existing : Option (List (String × Issue)))
    (relisted : Option (List Issue))
    (created : Except String Issue) :
    Acts env (.binding wid) tx (openIssue env tx wid existing relisted created).1 := by
  unfold openIssue
  split
  · exact .refl
  · dsimp only
    split
    · exact bindIssue_does env tx wid _ _
    · split
      · exact Acts.refl.log _ _ _ _ (by decide)
      · exact (Acts.refl.answered _).trans (bindIssue_does env _ wid _ _)

/-! ### Dispatch -/

theorem recordSession_edits (tx : Tx) (wid : Nat) (snap : SessionSnapshot) (adopted : Bool) :
    Acts env (.edits wid) tx (recordSession env tx wid snap adopted) := by
  unfold recordSession
  split
  · exact .refl
  · dsimp only
    refine .quiet (.editItem ?_ rfl ?_) (quiet_log _ _ _ _ _ _ _ _ _ (by decide) (Or.inl (by decide)))
    · split
      · exact .refl
      · exact Acts.refl.quiet (quiet_insertSession ..)
    · exact fun _ => .plain rfl rfl rfl rfl rfl rfl

theorem recordSession_does (tx : Tx) (wid : Nat) (snap : SessionSnapshot) (adopted : Bool) :
    OnItem env wid tx (recordSession env tx wid snap adopted) :=
  (recordSession_edits env tx wid snap adopted).widen (Scope.edits_within_item wid _)

theorem dispatchFailed_does (tx : Tx) (wid : Nat) (reason : String) :
    OnItem env wid tx (dispatchFailed env tx wid reason) := by
  unfold dispatchFailed
  dsimp only
  have h : OnItem env wid tx (tx.modifyItem wid fun w => { w with dispatchFailures := w.dispatchFailures + 1 }) :=
    .edit .refl fun _ => .plain rfl rfl rfl rfl rfl rfl
  split
  · exact h.fire .blocked _ _ (by decide)
  · exact h.fire .dispatchFailed _ _ (by decide)

theorem adoptTagged_does (tx : Tx) (wid : Nat) (recovering : Bool) (remote : Except String (List SessionSnapshot)) :
    OnItem env wid tx (adoptTagged env tx wid recovering remote).1 := by
  unfold adoptTagged
  dsimp only
  split
  · exact dispatchFailed_does env tx wid _
  · split
    · exact (recordSession_does env tx wid _ true).fire .sessionAdopted _ _ (by decide)
    · split
      · exact dispatchFailed_does env tx wid _
      · exact .refl

theorem createSession_does (tx : Tx) (wid : Nat) (members : List (Nat × Finding))
    (answer : Except String SessionSnapshot)
    (commented : Except String Unit) :
    Acts env (.sweeping (· = .recall)) tx (createSession env tx wid members answer commented) := by
  unfold createSession
  split
  · exact (dispatchFailed_does env tx wid _).widen (Scope.item_within_sweeping ..)
  · rename_i snap
    dsimp only
    set t := members.foldl _ _ with ht
    have h : Acts env (.sweeping (· = .recall)) tx t := by
      have h₀ (call : Call) : OnItem env wid tx (recordSession env (tx.answered call) wid snap false) :=
        (Acts.refl.answered call).trans (recordSession_does env _ wid snap false)
      refine .foldl members (((h₀ _).fire .sessionCreated _ _ (by decide)).widen (Scope.item_within_sweeping ..))
        fun t m _ => ?_
      exact Acts.refl.findingFrom trivial (Or.inl rfl) (Or.inr (by decide)) ..
    split
    · exact h
    · split
      · exact h.answered _
      · exact h.log _ _ _ _ (by decide)
      · exact h

/-- The reservation of an item. -/
theorem reserve_acts (tx : Tx) (wid : Nat) : Acts env (.reservation wid) tx (reserve env tx wid) :=
  Acts.refl.wi rfl (show WorkItemEvent.dispatchStarted ∉ headEvents by decide) ..

theorem dispatchCandidate_acts (tx : Tx) (wid issue : Nat) (severity : Severity) (labels : List String) :
    Acts env (.reservation wid) tx (dispatchCandidate env tx wid issue severity labels).1 := by
  unfold dispatchCandidate
  split
  · exact .refl
  · split
    · exact .refl
    · split
      · exact .refl
      · split
        · exact .refl
        · dsimp only
          split
          · exact Acts.refl.log _ _ _ _ (by decide)
          · exact reserve_acts env tx wid

theorem recover_does (tx : Tx) (wid : Nat) : OnItem env wid tx (recover env tx wid) := Acts.refl.log _ _ _ _ (by decide)

theorem relaunch_does (tx : Tx) (wid : Nat) (item : WorkItem) (operator : String) :
    OnRetries env wid tx (relaunch env tx wid item operator) := by
  unfold relaunch
  dsimp only
  refine .fireRetries (.count ?_ ?_) .humanRetry _ _ (by decide)
  · split
    · exact Acts.refl.attempt _
    · exact .refl
  · exact fun _ => .retried rfl rfl rfl rfl rfl

theorem launchFailed_does (tx : Tx) (wid : Nat) (item : WorkItem) (reason : String) :
    OnItem env wid tx (launchFailed env tx wid item reason) := Acts.refl.log _ _ _ _ (by decide)

theorem launchReserve_acts (tx : Tx) (wid issue : Nat) (item : WorkItem) (operator : String) (answers : LaunchAnswers) :
    Acts env (.reservation wid) tx (launchReserve env tx wid issue item operator answers).1 := by
  unfold launchReserve
  dsimp only
  split
  · exact (launchFailed_does env tx wid item _).reserving
  · set t := if (item.severity ∉ defaultDispatchSeverities : Bool) then _ else tx with ht
    have h : Acts env (.reservation wid) tx t := by
      rw [ht]
      split
      · exact (Acts.refl.answered _).attempt _
      · exact .refl
    split
    · refine .trans ?_ (launchFailed_does env _ wid item _).reserving
      split
      · exact h.attempt _
      · exact h
    · split
      · exact ((h.answered _).log _ _ _ _ (by decide)).trans (reserve_acts env _ wid)
      · exact ((h.answered _).log _ _ _ _ (by decide)).trans (launchFailed_does env _ wid item _).reserving

theorem launch_acts (tx : Tx) (wid : Nat) (operator : String) (answers : LaunchAnswers) :
    Acts env (.launching wid) tx (launch env tx wid operator answers).1 := by
  unfold launch
  split
  · exact .refl
  · rename_i item _
    split
    · rename_i action _
      dsimp only
      set t := if action = .relaunch then _ else tx with ht
      have h : Acts env (.launching wid) tx t := by
        rw [ht]
        split
        · exact (relaunch_does env tx wid item operator).widen (Scope.retrying_within_launching wid)
        · exact .refl
      set o := if _ = WorkItemState.queued then _ else (t, true) with ho
      have h' : Acts env (.launching wid) tx o.1 := by
        rw [ho]
        split
        · exact h.trans (openIssue_does env t wid ..).launching
        · exact h
      split
      · exact h'
      · split
        · exact h'
        · split
          · exact h'.trans ((launchReserve_acts env _ wid _ _ _ _).widen (Scope.reservation_within_launching wid))
          · exact h'
    · exact Acts.refl.log _ _ _ _ (by decide)

/-- **What a launch is checked against.** Unless no run is pending, a slot is free and the budget has room for the
item's cap, a launch only logs that it was refused. -/
theorem launch_checked (tx : Tx) (wid : Nat) (operator : String) (answers : LaunchAnswers) :
    (pendingScanRunCount tx.db = 0 ∧ activeSessionCount tx.db < env.settings.maxConcurrentSessions ∧
      ∃ item, tx.db.workItems.get? wid = some item ∧
        Binary64.add (acuBudgetPosition tx.db).committed item.acuCap ≤ env.settings.globalAcuBudget) ∨
    Quiet tx (launch env tx wid operator answers).1 ∧ (launch env tx wid operator answers).2 = false := by
  unfold launch
  split
  · exact Or.inr ⟨quiet_tx tx, rfl⟩
  · rename_i item hitem
    split
    · rename_i action haction
      left
      obtain ⟨-, hpending, hactive, hbudget⟩ := launchPreview_eq_some haction
      exact ⟨hpending, hactive, item, hitem, hbudget⟩
    · exact Or.inr ⟨quiet_log _ _ _ _ _ _ _ _ _ (by decide) (Or.inr (by decide)), rfl⟩

theorem cancelRequest_does (tx : Tx) (wid : Nat) (operator : String) :
    OnItem env wid tx (cancelRequest env tx wid operator).1 := by
  unfold cancelRequest
  split
  · exact .refl
  · dsimp only
    split
    · exact Acts.refl.log _ _ _ _ (by decide)
    · exact Acts.refl.log _ _ _ _ (by decide)

theorem cancelAnswer_does (tx : Tx) (wid row : Nat) (operator : String) (answer : Except String SessionSnapshot) :
    OnItem env wid tx (cancelAnswer env tx wid row operator answer) := by
  unfold cancelAnswer
  split
  · exact .refl
  · split
    · exact Acts.refl.log _ _ _ _ (by decide)
    · dsimp only
      have h (t : Tx) (poll : SessionPoll) (f : Session → Session) (ht : t = (tx.modifySession row f).insertPoll poll) :
          OnItem env wid tx t := ht ▸ (Acts.refl.quiet (quiet_modifySession ..)).quiet (quiet_insertPoll ..)
      split
      · exact (((h _ _ _ rfl).quiet (quiet_log _ _ _ _ _ _ _ _ _ (by decide) (Or.inl (by decide)))).fire
          .operatorCancelled _ _ (by decide)).attempt _
      · exact ((h _ _ _ rfl).quiet (quiet_log _ _ _ _ _ _ _ _ _ (by decide) (Or.inl (by decide)))).fire
          .operatorCancelled _ _ (by decide)

/-! ### Polls -/

theorem recordPr_acts {S : Scope} (tx : Tx) {wid : Nat} (hw : S.items wid) (hp : S.pulls) (hr : S.deeds .record)
    (pr : PullRequestInfo) : Acts env S tx (recordPr env tx wid pr) := by
  unfold recordPr
  dsimp only
  refine .trans (.editItem ?_ hw ?_) (raiseLevel_acts env _ hw _ (Or.inl hp) (Or.inr (by decide)) _)
  · split
    · exact .refl
    · exact Acts.refl.insertPull hp hr ⟨rfl⟩
  · exact fun _ => ⟨rfl, rfl, Or.inl hp, Or.inl hr, Or.inr rfl, Or.inr rfl⟩

theorem recordPr_does (tx : Tx) (wid : Nat) (pr : PullRequestInfo) :
    Acts env (.report wid) tx (recordPr env tx wid pr) :=
  recordPr_acts env tx rfl trivial rfl pr

theorem sendMessage_acts {S : Scope} (tx : Tx) (row : Nat) (session message : String) :
    Acts env S tx (sendMessage tx row session message) := (Acts.refl.must _).quiet (quiet_modifySession ..)

theorem applyDecision_does (tx : Tx) (wid row : Nat) (item : WorkItem) (snap : SessionSnapshot) (facts : SnapshotFacts)
    (result : Assessment) : Acts env (.report wid) tx (applyDecision env tx wid row item snap facts result) := by
  unfold applyDecision
  split
  · exact .refl
  · exact sendMessage_acts env tx row _ _
  · refine .editItem (sendMessage_acts env tx row _ _) rfl ?_
    exact fun _ => .plain rfl rfl rfl rfl rfl rfl
  · have h : OnItem env wid tx (tx.wi env wid .blocked (takeText 500 (assessmentDetail facts result)) "controller") :=
      Acts.refl.fire .blocked _ _ (by decide)
    dsimp only
    split
    · unfold postDisagreementVerdict
      split
      · exact (h.must _).report
      · exact h.report
    · exact h.report
  · split
    · exact .refl
    · rename_i pr _
      have hfires (t : Tx) : OnItem env wid t ((t.wi env wid .prOpened pr.url "controller").wi env wid .checksStarted
          pr.headSha "controller") := (Acts.refl.fire .prOpened _ _ (by decide)).fire .checksStarted _ _ (by decide)
      have h := (recordPr_does env tx wid pr).trans (hfires _).report
      dsimp only
      split
      · exact h.must _
      · exact h

theorem pollSession_does (wid : Nat) (sid : String) (snap : SessionSnapshot) (answers : SessionAnswers) (tx : Tx) :
    Acts env (.report wid) tx (pollSession env wid sid snap answers tx) := by
  unfold pollSession
  split
  · exact .refl
  · split
    · exact .refl
    · split
      · exact (Acts.refl.fire .blocked _ _ (by decide)).report
      · split
        · refine .trans ?_ (applyDecision_does env _ wid ..)
          exact (Acts.refl.quiet (quiet_modifySession ..)).quiet (quiet_insertPoll ..)
        · exact .refl

theorem reverifyNewHead_does (tx : Tx) (wid pid : Nat) (headSha : String) :
    OnHead env wid tx (reverifyNewHead env tx wid pid headSha) := by
  unfold reverifyNewHead
  dsimp only
  have hlevel : LifecycleLevel.prOpened ∉ headLevels := by decide
  refine .editItem
    (.quiet (.trans ?_ ((resetLevel_edits env _ wid pid hlevel _).widen (Scope.edits_within_item wid _)).onHead)
    (quiet_modifyPullRequest _ _ ?_ ?_ ?_)) rfl ?_
  · split
    · exact Acts.refl.wi rfl (show WorkItemEvent.newHeadPushed ≠ .dispatchStarted by decide) _ _
    · exact .refl
  · exact fun _ => rfl
  · exact fun _ => rfl
  · exact fun _ => rfl
  · exact fun _ => .plain rfl rfl rfl rfl rfl rfl

theorem applyNewHead_does (tx : Tx) (wid pid : Nat) (row : PullRequest) (pr : PullRequestInfo) :
    OnHead env wid tx (applyNewHead env tx wid pid row pr) := by
  unfold applyNewHead
  split
  · exact .refl
  · dsimp only
    have h (t : Tx) (f : PullRequest → PullRequest) (ht : OnHead env wid tx t) (hf : ∀ row, (f row).owner = row.owner)
        (hs : ∀ row, (f row).outcome = row.outcome) :
        OnHead env wid tx
          ((t.modifyPullRequest pid f).modifyItem wid fun w => { w with prHeadSha := some pr.headSha }) :=
      (ht.observe pid hf hs).editItem rfl fun _ => .plain rfl rfl rfl rfl rfl rfl
    have hlog : OnHead env wid tx (tx.event env .pullRequest pid (.log "head_changed") (some row.headSha)
        (some pr.headSha) "new push" "controller" []) :=
      Acts.refl.quiet (quiet_log _ _ _ _ _ _ _ _ _ (by decide) (Or.inl (by decide)))
    split
    · refine (h _ _ hlog ?_ ?_).trans (reverifyNewHead_does env _ wid pid _)
      · exact fun _ => rfl
      · exact fun _ => rfl
    · refine h _ _ hlog ?_ ?_
      · exact fun _ => rfl
      · exact fun _ => rfl

theorem firstHeadSeen_tracked (headSha : String) (green : Bool) (row : PullRequest) :
    (firstHeadSeen headSha green row).tracked = row.tracked ∧ (firstHeadSeen headSha green row).owner = row.owner ∧
      (firstHeadSeen headSha green row).outcome = row.outcome := by
  unfold firstHeadSeen
  split <;> exact ⟨rfl, rfl, rfl⟩

theorem retryOrFail_does (tx : Tx) (wid pid : Nat) (pr : PullRequestInfo) (checks : List CheckRun) :
    OnRetries env wid tx (retryOrFail env tx wid pid pr checks) := by
  unfold retryOrFail
  dsimp only
  have h₀ : OnRetries env wid tx (tx.modifyPullRequest pid (firstHeadSeen pr.headSha false)) :=
    Acts.refl.quiet (quiet_modifyPullRequest _ _ (fun row => (firstHeadSeen_tracked _ _ row).1)
      (fun row => (firstHeadSeen_tracked _ _ row).2.1) fun row => (firstHeadSeen_tracked _ _ row).2.2)
  split
  · exact h₀
  · split
    · split
      · exact h₀.fireRetries .retriesExhausted _ _ (by decide)
      · split
        · refine .must (.fireRetries ?_ .retrySent _ _ (by decide)) _
          split
          · refine .quiet (.must (.count h₀ ?_) _) (quiet_modifySession ..)
            exact fun _ => .retried rfl rfl rfl rfl rfl
          · refine .must (.count h₀ ?_) _
            exact fun _ => .retried rfl rfl rfl rfl rfl
        · refine .fireRetries ?_ .retrySent _ _ (by decide)
          split
          · refine .quiet (.must (.count h₀ ?_) _) (quiet_modifySession ..)
            exact fun _ => .retried rfl rfl rfl rfl rfl
          · refine .must (.count h₀ ?_) _
            exact fun _ => .retried rfl rfl rfl rfl rfl
    · exact h₀.fireRetries .retriesExhausted _ _ (by decide)

theorem reviewTimeout_does (tx : Tx) (wid : Nat) (head why : String) :
    OnItem env wid tx (reviewTimeout env tx wid head why) := by
  unfold reviewTimeout
  dsimp only
  split
  · split
    · exact Acts.refl.fire .reviewNotObserved _ _ (by decide)
    · exact .refl
  · exact .refl

theorem observeReview_does (tx : Tx) (wid pid : Nat) (head : String) (snap : ReviewSnapshot) :
    OnHead env wid tx (observeReview env tx wid pid head snap) := by
  unfold observeReview
  split
  · exact (reviewTimeout_does env tx wid _ _).onHead
  · dsimp only
    have h : OnHead env wid tx (tx.modifyPullRequest pid fun row =>
        { row with reviewId := some (snap.repoPath ++ "#" ++ toString snap.prNumber ++ "@" ++ snap.commitSha)
                   reviewHeadSha := some snap.commitSha, reviewStatus := some snap.status.value }) := by
      refine Acts.refl.observe pid ?_ ?_
      · exact fun _ => rfl
      · exact fun _ => rfl
    split
    · exact (h.wi rfl (show WorkItemEvent.reviewCompleted ≠ .dispatchStarted by decide) _ _).trans
        (raiseLevel_head env _ wid pid (by decide) _)
    · exact h.trans (reviewTimeout_does env _ wid _ _).onHead

theorem triggerReview_does (tx : Tx) (wid pid : Nat) (pr : PullRequestInfo) (reason : String)
    (answer : Except String ReviewSnapshot) : OnHead env wid tx (triggerReview env tx wid pid pr reason answer) := by
  unfold triggerReview
  split
  · exact (Acts.refl.attempt _).trans (reviewTimeout_does env _ wid _ _).onHead
  · exact ((Acts.refl.answered _).quiet (quiet_log _ _ _ _ _ _ _ _ _ (by decide) (Or.inl (by decide)))).trans
      (observeReview_does env _ wid pid _ _)

theorem checkReview_does (tx : Tx) (wid pid : Nat) (pr : PullRequestInfo) (answers : PrAnswers) :
    OnHead env wid tx (checkReview env tx wid pid pr answers) := by
  unfold checkReview
  dsimp only
  split
  · exact (reviewTimeout_does env tx wid _ _).onHead
  · exact triggerReview_does env tx wid pid pr _ _
  · split
    · split
      · exact (Acts.refl.fire .reviewNotObserved _ _ (by decide)).onHead
      · exact triggerReview_does env tx wid pid pr _ _
    · exact (Acts.refl.fire .reviewNotObserved _ _ (by decide)).onHead
    · exact observeReview_does env tx wid pid _ _

theorem checkApproval_does (tx : Tx) (wid pid : Nat) (pr : PullRequestInfo) (reviews : List Review) :
    OnHead env wid tx (checkApproval env tx wid pid pr reviews) := by
  unfold checkApproval
  split
  · exact .refl
  · split
    · refine .trans (Acts.refl.observe pid ?_ ?_) (raiseLevel_head env _ wid pid (by decide) _)
      · exact fun _ => rfl
      · exact fun _ => rfl
    · exact .refl

theorem recordDepth_edits (tx : Tx) (wid pid : Nat) (headSha : String) (checks : List CheckRun) :
    Acts env (.edits wid) tx (recordDepth env tx wid pid headSha checks) := by
  unfold recordDepth
  split
  · dsimp only
    refine .editItem (.quiet ?_ (quiet_modifyPullRequest _ _ ?_ ?_ ?_)) rfl ?_
    · have h (records : List CheckRecord) :
          Acts env (.edits wid) tx (records.foldl (recordComponent env pid headSha) tx) :=
        .foldl records .refl fun t rec _ => Acts.refl.quiet (quiet_recordComponent t env pid headSha rec)
      split
      · exact (h _).quiet (quiet_log _ _ _ _ _ _ _ _ _ (by decide) (Or.inr (by decide)))
      · exact h _
    · exact fun _ => rfl
    · exact fun _ => rfl
    · exact fun _ => rfl
    · exact fun _ => .plain rfl rfl rfl rfl rfl rfl
  · exact .refl

theorem checksPassed_does (tx : Tx) (wid pid : Nat) (pr : PullRequestInfo) :
    OnHead env wid tx (checksPassed env tx wid pid pr) := by
  unfold checksPassed
  split
  · have hseen : OnHead env wid tx (tx.modifyPullRequest pid (firstHeadSeen pr.headSha true)) :=
      Acts.refl.observe pid (fun row => (firstHeadSeen_tracked _ _ row).2.1) fun row =>
        (firstHeadSeen_tracked _ _ row).2.2
    exact (hseen.wi rfl (show WorkItemEvent.checksGreen ≠ .dispatchStarted by decide) _ _).trans
      (raiseLevel_head env _ wid pid (by decide) _)
  · exact .refl

theorem reviewWaiting_does (tx : Tx) (wid pid : Nat) (pr : PullRequestInfo) (answers : PrAnswers) :
    OnHead env wid tx (reviewWaiting env tx wid pid pr answers) := by
  unfold reviewWaiting
  split
  · exact checkReview_does env tx wid pid pr answers
  · exact .refl

theorem applyGreen_does (tx : Tx) (wid pid : Nat) (pr : PullRequestInfo) (answers : PrAnswers) :
    OnHead env wid tx (applyGreen env tx wid pid pr answers) := by
  have h₀ := (checksPassed_does env tx wid pid pr).trans (reviewWaiting_does env _ wid pid pr answers)
  unfold applyGreen
  dsimp only
  split
  · exact h₀.trans (checkApproval_does env _ wid pid pr _)
  · exact h₀

theorem checksSeen_does (tx : Tx) (wid pid : Nat) (pr : PullRequestInfo) (checks : List CheckRun) :
    OnItem env wid tx (checksSeen env tx wid pid pr checks) := by
  have h₀ : OnItem env wid tx
    (recordDepth env (checks.foldl (recordCheck env pid pr.headSha) tx) wid pid pr.headSha checks) :=
    (Acts.foldl checks .refl fun t c _ => Acts.refl.quiet (quiet_recordCheck t env pid pr.headSha c)).trans
      ((recordDepth_edits env _ wid pid _ _).widen (Scope.edits_within_item wid _))
  unfold checksSeen
  dsimp only
  split
  · exact h₀.fire .checksStarted _ _ (by decide)
  · exact h₀

theorem applyChecks_does (tx : Tx) (wid pid : Nat) (pr : PullRequestInfo) (checks : List CheckRun)
    (answers : PrAnswers) :
    OnChecks env wid tx (applyChecks env tx wid pid pr checks answers) := by
  have h₀ := (checksSeen_does env tx wid pid pr checks).onHead.onChecks
  unfold applyChecks
  dsimp only
  split
  · split
    · exact (h₀.wi rfl (show WorkItemEvent.checksRed ≠ .dispatchStarted by decide) _ _).trans
        ((retryOrFail_does env _ wid pid pr checks).widen (Scope.retrying_within_checking wid))
    · exact h₀
  · exact h₀.trans (applyGreen_does env _ wid pid pr answers).onChecks
  · exact h₀

theorem resolve_does (tx : Tx) (wid : Nat) (label : HumanLabel) : OnItem env wid tx (resolve env tx wid label) := by
  refine .fire (.edit .refl ?_) .humanResolved _ _ (by decide)
  exact fun _ => .plain rfl rfl rfl rfl rfl rfl

theorem applyLabels_does (tx : Tx) (wid : Nat) (item : WorkItem) (issue : Nat) (labels : List String) :
    OnRetries env wid tx (applyLabels env tx wid item issue labels) := by
  unfold applyLabels
  split
  · refine .fireRetries (.count (Acts.refl.must _) ?_) .humanRetry _ _ (by decide)
    exact fun _ => .retried rfl rfl rfl rfl rfl
  · split
    · exact (resolve_does env tx wid _).onRetries
    · split
      · exact (resolve_does env tx wid _).onRetries
      · exact .refl

theorem pollHumanLabel_does (wid number : Nat) (issueState : String) (labels : List String) (tx : Tx) :
    Acts env (.retrying wid fun _ => True) tx (pollHumanLabel env wid number issueState labels tx) := by
  unfold pollHumanLabel
  split
  · exact .refl
  · split
    · exact .refl
    · split
      · dsimp only
        have habandoned : Acts env (.item wid fun _ => True) tx
            (tx.wi env wid .humanAbandoned "issue closed by human" "human") :=
          Acts.refl.fire .humanAbandoned _ _ (by decide)
        exact .foldl _ (habandoned.widen (Scope.item_within_retrying fun _ h => h)) fun t fid _ =>
          Acts.refl.finding trivial (Or.inr (by decide)) ..
      · split
        · exact (applyLabels_does env tx wid _ number labels).widen (Scope.retrying_within_retrying fun _ h => h.elim)
        · exact .refl

/-! ### Closing -/

/-- No outcome of a closing run reopens a finding. -/
theorem closingEvent_closes {externalRunId reason actor : String} {outcome : ClosingOutcome} {event : FindingEvent}
    (h : closingEvent externalRunId outcome = some (event, reason, actor)) : event ∉ reopeningEvents := by
  cases outcome <;> cases h <;> decide

theorem closeMember_does (cmp : Compare) (ev : Evidence) (item : WorkItem) (acc : Judged) (fid : Nat) :
    Acts env (.findingsOnly (· = fid)) acc.1 (closeMember env cmp ev item acc fid).1 := by
  unfold closeMember
  split
  · exact .refl
  · dsimp only
    split
    · rename_i hevent
      exact (Acts.refl.tally _).finding rfl (Or.inr (closingEvent_closes hevent)) ..
    · exact Acts.refl.tally _

theorem raiseVerified_levels (tx : Tx) (wid : Nat) (run : ScanRun) :
    Acts env (.levels wid) tx (raiseVerified env tx wid run) := by
  unfold raiseVerified
  split
  · exact raiseLevel_levels env tx wid _ (by decide) _
  · refine .editItem .refl rfl fun w => ?_
    split
    · exact ⟨rfl, rfl, Or.inr ⟨rfl, Or.inr (show LifecycleLevel.rescanVerified ∉ headLevels by decide)⟩, Or.inr rfl,
        Or.inr rfl, Or.inr rfl⟩
    · exact .plain rfl rfl rfl rfl rfl rfl

theorem raiseVerified_does (tx : Tx) (wid : Nat) (run : ScanRun) :
    Acts env (.closing wid fun _ => False) tx (raiseVerified env tx wid run) :=
  (raiseVerified_levels env tx wid run).widen (Scope.levels_within_closing wid _)

theorem verifyItem_does (tx : Tx) (wid : Nat) (ev : Evidence) (states : List FindingState) :
    Acts env (.closing wid fun _ => False) tx (verifyItem env tx wid ev states) := by
  have h₀ :
      OnItem env wid tx ((tx.modifyItem wid fun w => { w with verifiedAt := some env.now }).wi env wid .rescanVerified
      ("run " ++ ev.run.externalRunId) "scanner") := by
    refine .fire (.edit .refl ?_) .rescanVerified _ _ (by decide)
    exact fun _ => .plain rfl rfl rfl rfl rfl rfl
  unfold verifyItem
  dsimp only
  split
  · exact h₀.closing.trans (raiseVerified_does env _ wid _)
  · exact ((h₀.closing.trans (raiseVerified_does env _ wid _)).must _).must _

theorem beginRescan_does (tx : Tx) (wid : Nat) (run : ScanRun) : OnItem env wid tx (beginRescan env tx wid run) := by
  unfold beginRescan
  split
  · exact Acts.refl.fire .rescanStarted _ _ (by decide)
  · exact .refl

theorem stillPresent_does (tx : Tx) (wid : Nat) (run : ScanRun) (still : List Nat) :
    Acts env (.item wid (· ∈ still)) tx (stillPresent env tx wid run still) := by
  unfold stillPresent
  split
  · exact .refl
  · exact .foldl _ (Acts.refl.fire .rescanShowsPresent _ _ (by decide)) fun t fid hfid =>
      Acts.refl.finding hfid (Or.inr (by decide)) ..

theorem settleItem_does (tx : Tx) (wid : Nat) (ev : Evidence) (outcomes : List (Nat × ClosingOutcome × List String)) :
    Acts env (.closing wid (· ∈ outcomes.map Prod.fst)) tx (settleItem env tx wid ev outcomes) := by
  unfold settleItem
  dsimp only
  split
  · exact (Acts.refl.fire .rescanStarted _ _ (by decide) : Acts env (.item wid _) tx _).closing
  · split
    · exact ((beginRescan_does env tx wid _).closing.trans (verifyItem_does env _ wid ev _)).widen
        (Scope.closing_within_closing fun _ h => h.elim)
    · refine (beginRescan_does env tx wid _).writing.closing.trans ((stillPresent_does env _ wid _ _).widen ?_)
      exact Scope.item_within_closing fun fid hfid => by
        obtain ⟨o, ho, rfl⟩ := List.mem_map.mp hfid
        exact List.mem_map.mpr ⟨o, (List.mem_filter.mp ho).1, rfl⟩

theorem judgeMembers_does (cmp : Compare) (ev : Evidence) (tx : Tx) (wid : Nat) (item : WorkItem) :
    Acts env (.findingsOnly (· ∈ tx.db.members wid)) tx (judgeMembers env cmp ev tx wid item).1 := by
  refine Rows.foldl_invariant (fun acc : Judged => Acts env _ tx acc.1) (fun acc fid hfid h => ?_) .refl
  refine h.trans ((closeMember_does env cmp ev item acc fid).widen (Scope.findingsOnly_within ?_))
  rintro _ rfl
  exact hfid

/-- The members judged are members. -/
theorem mem_outcomes {cmp : Compare} {ev : Evidence} {tx : Tx} {wid : Nat} {item : WorkItem} {fid : Nat}
    (h : fid ∈ (judgeMembers env cmp ev tx wid item).2.map Prod.fst) : fid ∈ tx.db.members wid := by
  refine Rows.foldl_invariant (fun acc : Judged => ∀ k ∈ acc.2.map Prod.fst, k ∈ tx.db.members wid)
    (f := closeMember env cmp ev item) (l := tx.db.members wid) (fun acc k hk hacc k' hk' => ?_)
    (fun k hk => (List.not_mem_nil hk).elim) fid h
  unfold closeMember at hk'
  split at hk'
  · exact hacc k' hk'
  · rw [List.map_append, List.mem_append] at hk'
    rcases hk' with hk' | hk'
    · exact hacc k' hk'
    · obtain rfl := List.mem_singleton.mp hk'
      exact hk

theorem closeWorkItem_does (cmp : Compare) (ev : Evidence) (tx : Tx) (wid : Nat) :
    Acts env (.closing wid (· ∈ tx.db.members wid)) tx (closeWorkItem env cmp ev tx wid) := by
  unfold closeWorkItem
  split
  · exact .refl
  · rename_i item _
    dsimp only
    refine .trans ((judgeMembers_does env cmp ev tx wid item).widen (Scope.findingsOnly_within fun _ h => h))
      ((settleItem_does env _ wid ev _).widen ?_)
    exact Scope.closing_within_closing fun fid hfid => mem_outcomes env hfid

theorem reopenFinding_does (ev : Evidence) (tx : Tx) (fid : Nat) (f : Finding) :
    Acts env (.reopening (· = fid)) tx (reopenFinding env ev tx fid f) := by
  unfold reopenFinding
  dsimp only
  have h₀ : Acts env (.reopening (· = fid)) tx (tx.finding env fid .reappeared
      ("present again in run " ++ ev.run.externalRunId) "scanner" (some ev.rid)).1 :=
    Acts.refl.finding rfl (Or.inl rfl) ..
  split
  · exact h₀
  · refine .own ?_ rfl (Or.inr rfl)
    split
    · exact ((h₀.tally _).must _).must _
    · exact h₀.tally _

theorem regressFinding_does (cmp : Compare) (ev : Evidence) (present : List (String × String × Option String × String))
    (tx : Tx) (fid : Nat) : Acts env (.reopening (· = fid)) tx (regressFinding env cmp ev present tx fid) := by
  unfold regressFinding
  split
  · exact .refl
  · split
    · exact .refl
    · split
      · exact .refl
      · split
        · exact .refl
        · exact reopenFinding_does env ev tx fid _

theorem regressions_does (cmp : Compare) (ev : Evidence) (tx : Tx) :
    Acts env (.reopening fun _ => True) tx (regressions env cmp ev tx) := by
  unfold regressions
  dsimp only
  split
  · exact .refl
  · exact .foldl _ .refl fun t fid _ =>
      (regressFinding_does env cmp ev _ t fid).widen (Scope.reopening_within_reopening fun _ _ => trivial)

theorem driftFinding_does (ev : Evidence) (present : List (String × String × Option String × String))
    (acc : Tx × List Nat) (fid : Nat) :
    Acts env (.findingsOnly (· = fid)) acc.1 (driftFinding env ev present acc fid).1 := by
  unfold driftFinding
  split
  · exact .refl
  · split
    · exact .refl
    · split
      · exact .refl
      · dsimp only
        split
        · exact .refl
        · split
          · exact (Acts.refl.finding rfl (Or.inr (by decide)) ..).tally _
          · exact Acts.refl.finding rfl (Or.inr (by decide)) ..

theorem supersedeItem_does (ev : Evidence) (tx : Tx) (wid : Nat) : OnItem env wid tx (supersedeItem env ev tx wid) := by
  unfold supersedeItem
  split
  · dsimp only
    split
    · exact ((Acts.refl.fire .superseded _ _ (by decide)).must _).must _
    · exact Acts.refl.fire .superseded _ _ (by decide)
  · exact .refl

theorem drift_does (ev : Evidence) (tx : Tx) : Acts env (.sweeping fun _ => False) tx (drift env ev tx) := by
  unfold drift
  dsimp only
  refine .foldl _ ?_ fun t wid _ => (supersedeItem_does env ev t wid).widen (Scope.item_within_sweeping ..)
  refine Rows.foldl_invariant (fun acc : Tx × List Nat => Acts env (.sweeping fun _ => False) tx acc.1)
    (fun acc fid _ h => ?_) .refl
  exact h.trans ((driftFinding_does env ev _ acc fid).widen (Scope.findingsOnly_within fun _ _ => trivial))

theorem replayRun_does (cmp : Compare) (wid : Nat) (tx : Tx) (rid : Nat) :
    Acts env (.closing wid fun _ => True) tx (replayRun env cmp wid tx rid) := by
  unfold replayRun
  split
  · split
    · exact (closeWorkItem_does env cmp _ tx wid).widen (Scope.closing_within_closing fun _ _ => trivial)
    · exact .refl
  · exact .refl

theorem closeFromAppliedRuns_does (cmp : Compare) (tx : Tx) (wid : Nat) :
    Acts env (.closing wid fun _ => True) tx (closeFromAppliedRuns env cmp tx wid) := by
  unfold closeFromAppliedRuns
  split
  · exact .refl
  · exact .foldl _ .refl fun t rid _ => replayRun_does env cmp wid t rid

theorem recordMerge_does (tx : Tx) (wid pid : Nat) (pr : PullRequestInfo) :
    Acts env (.closing wid fun _ => False) tx (recordMerge env tx wid pid pr) := by
  refine .editItem (Acts.refl.editPull pid (Or.inr ?_) (Or.inl rfl) (Or.inr ?_)) rfl ?_
  · exact fun _ => rfl
  · exact fun _ => rfl
  · exact fun _ => .plain rfl rfl rfl rfl rfl rfl

theorem blockUnverified_does (tx : Tx) (wid : Nat) : OnItem env wid tx (blockUnverified env tx wid) := by
  unfold blockUnverified
  split
  · exact .refl
  · exact Acts.refl.fire .blocked _ _ (by decide)

/-- A closing unit that writes no finding is one that may write some. -/
theorem closing_writing {tx t : Tx} {wid : Nat} {F : Nat → Prop} (h : Acts env (.closing wid fun _ => False) tx t) :
    Acts env (.closing wid F) tx t := h.widen (Scope.closing_within_closing fun _ h => h.elim)

theorem completeMerge_does (tx : Tx) (wid pid : Nat) (sha : String) (cmp : Compare) :
    Acts env (.closing wid fun _ => True) tx (completeMerge env tx wid pid sha cmp) := by
  refine .trans ?_ (closeFromAppliedRuns_does env cmp _ wid)
  refine .foldl _ ?_ fun t fid _ => Acts.refl.finding trivial (Or.inr (by decide)) ..
  have hmerged : OnItem env wid tx (tx.wi env wid .humanMerged sha "human") :=
    Acts.refl.fire .humanMerged _ _ (by decide)
  exact closing_writing env (hmerged.closing.trans (raiseLevel_does env _ wid pid (by decide) _))

theorem applyMerge_does (tx : Tx) (wid pid : Nat) (pr : PullRequestInfo) (cmp : Compare) :
    Acts env (.closing wid fun _ => True) tx (applyMerge env tx wid pid pr cmp) := by
  have h₀ := closing_writing (F := fun _ => True) env
    ((recordMerge_does env tx wid pid pr).trans (blockUnverified_does env _ wid).closing)
  unfold applyMerge
  dsimp only
  split
  · exact h₀.trans (completeMerge_does env _ wid pid _ cmp)
  · exact h₀

/-- The head as it is polled. -/
theorem polledHead_does (tx : Tx) (wid pid : Nat) (row : PullRequest) (pr : PullRequestInfo) :
    OnHead env wid tx
    (applyNewHead env (tx.modifyPullRequest pid fun row => { row with updatedAt := env.now }) wid pid row
      pr) := by
  refine .trans (Acts.refl.observe pid ?_ ?_) (applyNewHead_does env _ wid pid row pr)
  · exact fun _ => rfl
  · exact fun _ => rfl

/-- A pull request that is open settles nothing. -/
theorem applyPr_open {pr : PullRequestInfo} (hm : pr.merged = false) (hc : pr.state ≠ "closed") (tx : Tx)
    (wid pid : Nat) (row : PullRequest) (checks : List CheckRun) (answers : PrAnswers) :
    OnChecks env wid tx (applyPr env tx wid pid row pr checks answers) := by
  have h₀ := (polledHead_does env tx wid pid row pr).onChecks
  unfold applyPr
  dsimp only
  rw [hm, if_neg nofun, if_neg hc]
  split
  · exact h₀
  · exact h₀.trans (applyChecks_does env _ wid pid pr checks answers)

/-- A poll writes no finding, or it applies a merge. -/
theorem pollPullRequest_merges (wid number : Nat) (pr : PullRequestInfo) (checks : List CheckRun) (answers : PrAnswers)
    (tx : Tx) : OnPull env wid tx (pollPullRequest env wid number pr checks answers tx) ∨
      ∃ pid t, OnPull env wid tx t ∧
        pollPullRequest env wid number pr checks answers tx = applyMerge env t wid pid pr answers.compare := by
  unfold pollPullRequest
  split
  · exact Or.inl .refl
  · split
    · exact Or.inl .refl
    · split
      · exact Or.inl .refl
      · rename_i pid _
        split
        · rename_i row _
          have h₀ := (polledHead_does env tx wid pid row pr).onChecks.onPull
          by_cases hm : pr.merged = true
          · refine Or.inr ⟨pid, _, h₀, ?_⟩
            unfold applyPr
            exact if_pos hm
          · left
            by_cases hc : pr.state = "closed"
            · have hclosed : OnPull env wid tx ((applyNewHead env (tx.modifyPullRequest pid fun row =>
                  { row with updatedAt := env.now }) wid pid row pr).modifyPullRequest pid fun row =>
                    { row with state := "closed" }) :=
                h₀.editPull pid (Or.inl trivial) (Or.inl List.mem_cons_self) (Or.inr (by exact fun _ => rfl))
              unfold applyPr
              dsimp only
              rw [if_neg hm, if_pos hc]
              split
              · exact hclosed
              · exact hclosed.wi rfl (show WorkItemEvent.prClosedUnmerged ≠ .dispatchStarted by decide) _ _
            · exact (applyPr_open env (Bool.eq_false_iff.mpr hm) hc tx wid pid row checks answers).onPull
        · exact Or.inl .refl

theorem pollPullRequest_does (wid number : Nat) (pr : PullRequestInfo) (checks : List CheckRun) (answers : PrAnswers)
    (tx : Tx) : Acts env (.pull wid fun _ => True) tx (pollPullRequest env wid number pr checks answers tx) := by
  rcases pollPullRequest_merges env wid number pr checks answers tx with h | ⟨pid, t, h, heq⟩
  · exact h.widen (Scope.pull_within_pull fun _ h => h.elim)
  · rw [heq]
    exact (h.widen (Scope.pull_within_pull fun _ h => h.elim)).trans
      ((applyMerge_does env t wid pid pr _).widen (Scope.closing_within_pull fun _ h => h))

end Units

end HardeningLoop
