import HardeningLoop.Orchestrator.Engine.Calls
import HardeningLoop.Orchestrator.Engine.PullRequests

/-!
# What polls call for

Two kinds of calls are made at most once in a poll: a message to a session, and a request for a review. The units of a
poll are `Routine`: they make neither, except those that ask for a fix, answer a question, or trigger a review.
-/

namespace HardeningLoop

/-- A message to a session. -/
def Call.isMessage : Call → Bool
  | .sendMessage .. => true
  | _ => false

/-- A request for a review. -/
def Call.isTrigger : Call → Bool
  | .triggerReview .. => true
  | _ => false

def Effect.isMessage (e : Effect) : Bool := e.calls.any Call.isMessage

def Effect.isTrigger (e : Effect) : Bool := e.calls.any Call.isTrigger

/-- The unit sends no message. -/
abbrev SendsNone (tx t : Tx) : Prop := Makes (fun call => call.isMessage = false) tx t

/-- The unit triggers no review. -/
abbrev TriggersNone (tx t : Tx) : Prop := Makes (fun call => call.isTrigger = false) tx t

/-- The unit does neither. -/
abbrev Routine (tx t : Tx) : Prop := Makes (fun call => call.isMessage = false ∧ call.isTrigger = false) tx t

section Routine

variable {env : Env} {tx t : Tx} {wid pid : Nat} {pr : PullRequestInfo} {checks : List CheckRun} {cmp : Compare}

theorem Makes.sendsNone (h : Routine tx t) : SendsNone tx t := h.imp fun _ => And.left

theorem Makes.triggersNone (h : Routine tx t) : TriggersNone tx t := h.imp fun _ => And.right

theorem Call.routine_of_syncs (call : Call) (h : call.syncsLabel) :
    call.isMessage = false ∧ call.isTrigger = false := by
  cases call <;> first | exact ⟨rfl, rfl⟩ | exact h.elim

theorem routine_wi (event : WorkItemEvent) (reason actor : String) : Routine t (t.wi env wid event reason actor) :=
  .wi Call.routine_of_syncs ..

/-- The calls of a kind in a transaction, after a unit that makes none of them. -/
theorem Makes.filter_any {p : Call → Bool} (h : Makes (fun call => p call = false) tx t) :
    t.effects.filter (fun e => e.calls.any p) = tx.effects.filter fun e => e.calls.any p := by
  obtain ⟨l, hl, hall⟩ := h
  have hnone : l.filter (fun e => e.calls.any p) = [] := by
    rw [List.filter_eq_nil_iff]
    intro e he hany
    obtain ⟨call, hcall, hp⟩ := List.any_eq_true.mp hany
    rw [hall e he call hcall] at hp
    cases hp
  rw [hl, List.filter_append, hnone, List.append_nil]

theorem Makes.messages (h : SendsNone tx t) : t.effects.filter Effect.isMessage = tx.effects.filter Effect.isMessage :=
  h.filter_any

theorem Makes.triggers (h : TriggersNone tx t) :
    t.effects.filter Effect.isTrigger = tx.effects.filter Effect.isTrigger :=
  h.filter_any

theorem raiseLevel_routine (level : LifecycleLevel) (why : String) :
    Routine t (raiseLevel env t wid pid level why) := by
  unfold raiseLevel
  dsimp only
  split
  · split <;> exact .of_same rfl
  · exact .of_same rfl

theorem resetLevel_routine (level : LifecycleLevel) (why : String) :
    Routine t (resetLevel env t wid pid level why) := by
  unfold resetLevel
  dsimp only
  split
  · split <;> exact .of_same rfl
  · exact .of_same rfl

theorem applyNewHead_routine (row : PullRequest) : Routine t (applyNewHead env t wid pid row pr) := by
  unfold applyNewHead
  split
  · exact .refl t
  · dsimp only
    split
    · unfold reverifyNewHead
      dsimp only
      refine .modifyItem (.modifyPullRequest (.trans ?_ (resetLevel_routine ..)) _ _) _ _
      split
      · exact .trans (.modifyItem (.modifyPullRequest (.event (.refl t) ..) ..) ..) (routine_wi ..)
      · exact .modifyItem (.modifyPullRequest (.event (.refl t) ..) ..) ..
    · exact .modifyItem (.modifyPullRequest (.event (.refl t) ..) ..) ..

/-! ### Checks and reviews -/

theorem recordDepth_routine (headSha : String) : Routine t (recordDepth env t wid pid headSha checks) := by
  unfold recordDepth
  split
  · dsimp only
    have hloop (records : List CheckRecord) : Routine t (records.foldl (recordComponent env pid headSha) t) :=
      .foldl records (fun t rec _ => (.of_same rfl : Routine t (recordComponent env pid headSha t rec))) t
    refine .modifyItem (.modifyPullRequest ?_ _ _) _ _
    split
    · exact (hloop _).event ..
    · exact hloop _
  · exact .refl t

theorem checksSeen_routine : Routine t (checksSeen env t wid pid pr checks) := by
  have hrecords :
      Routine t (recordDepth env (checks.foldl (recordCheck env pid pr.headSha) t) wid pid pr.headSha checks) :=
    .trans (.foldl checks (fun t c _ => (.of_same rfl : Routine t (recordCheck env pid pr.headSha t c))) t)
      (recordDepth_routine _)
  unfold checksSeen
  dsimp only
  split
  · exact hrecords.trans (routine_wi ..)
  · exact hrecords

theorem reviewTimeout_routine (head why : String) : Routine t (reviewTimeout env t wid head why) := by
  unfold reviewTimeout
  dsimp only
  split
  · split
    · exact routine_wi ..
    · exact .refl t
  · exact .refl t

theorem observeReview_routine (head : String) (snap : ReviewSnapshot) :
    Routine t (observeReview env t wid pid head snap) := by
  unfold observeReview
  dsimp only
  split
  · exact reviewTimeout_routine ..
  · split
    · exact ((Makes.modifyPullRequest (.refl t) ..).trans (routine_wi ..)).trans (raiseLevel_routine ..)
    · exact (Makes.modifyPullRequest (.refl t) ..).trans (reviewTimeout_routine ..)

theorem checkApproval_routine (reviews : List Review) : Routine t (checkApproval env t wid pid pr reviews) := by
  unfold checkApproval
  split
  · exact .refl t
  · split
    · exact (Makes.modifyPullRequest (.refl t) ..).trans (raiseLevel_routine ..)
    · exact .refl t

theorem checksPassed_routine : Routine t (checksPassed env t wid pid pr) := by
  unfold checksPassed
  split
  · exact ((Makes.modifyPullRequest (.refl t) ..).trans (routine_wi ..)).trans (raiseLevel_routine ..)
  · exact .refl t

/-! ### Merges -/

theorem verifyItem_routine (ev : Evidence) (states : List FindingState) :
    Routine t (verifyItem env t wid ev states) := by
  have hraised :
      Routine t (raiseVerified env ((t.modifyItem wid fun w => { w with verifiedAt := some env.now }).wi env wid
      .rescanVerified ("run " ++ ev.run.externalRunId) "scanner") wid ev.run) := by
    have hfired := (Makes.modifyItem (.refl t) wid fun w => { w with verifiedAt := some env.now }).trans
      (@routine_wi env _ wid .rescanVerified ("run " ++ ev.run.externalRunId) "scanner")
    unfold raiseVerified
    split
    · exact hfired.trans (raiseLevel_routine ..)
    · exact hfired.modifyItem ..
  unfold verifyItem
  dsimp only
  split
  · exact hraised
  · exact .trans (.trans hraised (.must ⟨rfl, rfl⟩)) (.must ⟨rfl, rfl⟩)

theorem settleItem_routine (ev : Evidence) (outcomes : List (Nat × ClosingOutcome × List String)) :
    Routine t (settleItem env t wid ev outcomes) := by
  have hrescan : Routine t (beginRescan env t wid ev.run) := by
    unfold beginRescan
    split
    · exact routine_wi ..
    · exact .refl t
  unfold settleItem
  dsimp only
  split
  · exact routine_wi ..
  · split
    · exact hrescan.trans (verifyItem_routine ..)
    · refine hrescan.trans ?_
      unfold stillPresent
      split
      · exact .refl _
      · exact .trans (routine_wi ..) (.foldl _ (fun _ _ _ => .finding ..) _)

theorem closeWorkItem_routine (ev : Evidence) : Routine t (closeWorkItem env cmp ev t wid) := by
  unfold closeWorkItem
  split
  · exact .refl t
  · rename_i item _
    dsimp only
    refine .trans ?_ (settleItem_routine ..)
    unfold judgeMembers
    refine Rows.foldl_invariant (fun acc : Judged => Routine t acc.1) (fun acc fid _ h => ?_) (.refl t)
    refine h.trans ?_
    unfold closeMember
    split
    · exact .refl _
    · dsimp only
      split
      · exact .finding (t := acc.1.tally _) ..
      · exact .of_same rfl

theorem applyMerge_routine : Routine t (applyMerge env t wid pid pr cmp) := by
  have hblocked : Routine t (blockUnverified env (recordMerge env t wid pid pr) wid) := by
    unfold blockUnverified
    split
    · exact .of_same rfl
    · exact routine_wi (t := recordMerge env t wid pid pr) ..
  have hreplay (t : Tx) : Routine t (closeFromAppliedRuns env cmp t wid) := by
    unfold closeFromAppliedRuns
    split
    · exact .refl t
    · refine .foldl _ (fun t rid _ => ?_) t
      unfold replayRun
      split
      · split
        · exact closeWorkItem_routine ..
        · exact .refl t
      · exact .refl t
  unfold applyMerge
  dsimp only
  split
  · refine hblocked.trans (.trans ?_ (hreplay _))
    exact .trans (.trans (routine_wi ..) (raiseLevel_routine ..)) (.foldl _ (fun _ _ _ => .finding ..) _)
  · exact hblocked

/-! ### Reports -/

theorem recordPr_routine (pr : PullRequestInfo) : Routine t (recordPr env t wid pr) := by
  unfold recordPr
  dsimp only
  refine .trans (.modifyItem ?_ _ _) (raiseLevel_routine ..)
  split
  · exact .refl t
  · exact .of_same rfl

theorem postDisagreementVerdict_routine (item : WorkItem) (snap : SessionSnapshot) :
    Routine t (postDisagreementVerdict t item snap) := by
  unfold postDisagreementVerdict
  split
  · exact .must ⟨rfl, rfl⟩
  · exact .refl t

end Routine

end HardeningLoop
