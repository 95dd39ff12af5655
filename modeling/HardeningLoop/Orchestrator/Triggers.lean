import HardeningLoop.Orchestrator.Engine.PollCalls
import HardeningLoop.Orchestrator.Retries

/-!
# Triggers of a review

A head whose checks are green gets a review of Devin. A poll triggers one when Devin knows none of the head, and once
more when the review errored; that it did is read off the event log. `Desk` runs the controller with the reports of
errors and the triggers that reached Devin: a transaction that raises is rolled back, its trigger is not.

- `applyPr_asks`: a poll triggers at most one review, and puts a re-trigger on the log;
- `triggers_bounded`: a head is triggered twice at most, the second time after an error, where Devin knows what it was
  asked for and the re-triggers are on the log.
-/

namespace HardeningLoop

open Rows (Table)

/-! ## When a review is asked for -/

/-- The checks of an open pull request that no human owns are green, and its head has no review yet. -/
def reviewDue (settings : Settings) (item : WorkItem) (row : PullRequest) (pr : PullRequestInfo)
    (checks : List CheckRun) :
    Bool :=
  !pr.merged && pr.state != "closed" && item.state != .needsHuman && checksVerdict settings checks == .green &&
    (item.state != .readyForHuman || pr.headSha != row.headSha)

/-- Devin reports no review of the head, or one that errored and was not triggered again by the log. -/
def wantsReview (db : Db) (pid : Nat) (head : String) (answers : PrAnswers) : Bool :=
  match answers.review with
  | .error _ => false
  | .ok none => true
  | .ok (some snap) => snap.status == .errored && !reviewRetriggered db pid head

/-- Devin reports an errored review of the head. -/
def PrAnswers.errored (answers : PrAnswers) (head : String) : Bool :=
  match answers.review with
  | .ok (some snap) => snap.status == .errored && snap.commitSha == head
  | _ => false

/-- The trigger is answered with a review of the head. -/
def PrAnswers.names (answers : PrAnswers) (head : String) : Bool :=
  match answers.triggered with
  | .ok snap => snap.commitSha == head
  | .error _ => false

/-- A unit triggers no review, or one that is wanted; a re-trigger that is answered for the head is then on the log. -/
inductive Asks (pid : Nat) (head : String) (answers : PrAnswers) (tx t : Tx) : Prop
  | none (h : TriggersNone tx t)
  | once (hwants : wantsReview tx.db pid head answers = true)
      (hcount : t.effects.countP Effect.isTrigger = tx.effects.countP Effect.isTrigger + 1)
      (hlogged : answers.errored head = true → answers.names head = true → reviewRetriggered t.db pid head = true)

/-- The log only grows. -/
def LogGrows (db db' : Db) : Prop := ∃ l, db'.events = db.events ++ l

section Units

variable {env : Env} {S : Scope} {tx t t' : Tx} {wid pid : Nat} {head : String} {pr : PullRequestInfo}
  {checks : List CheckRun}
  {answers : PrAnswers}

theorem Acts.logGrows (h : Acts env S tx t) : LogGrows tx.db t.db := by
  obtain ⟨l, hl, -⟩ := h.events
  exact ⟨l, hl⟩

/-- What was triggered again stays so. -/
theorem LogGrows.retriggered {db db' : Db} (h : LogGrows db db') (hr : reviewRetriggered db pid head = true) :
    reviewRetriggered db' pid head = true := by
  obtain ⟨l, hl⟩ := h
  unfold reviewRetriggered at hr ⊢
  rw [hl, List.any_append, hr, Bool.true_or]

theorem LogGrows.wants {db db' : Db} (h : LogGrows db db') (hw : wantsReview db' pid head answers = true) :
    wantsReview db pid head answers = true := by
  unfold wantsReview at hw ⊢
  split at hw
  · exact hw
  · rfl
  · rw [Bool.and_eq_true, Bool.not_eq_true'] at hw ⊢
    refine ⟨hw.1, Bool.eq_false_iff.mpr fun hr => ?_⟩
    rw [h.retriggered hr] at hw
    cases hw.2

theorem countP_triggers (h : TriggersNone tx t) :
    t.effects.countP Effect.isTrigger = tx.effects.countP Effect.isTrigger := by
  rw [List.countP_eq_length_filter, List.countP_eq_length_filter, h.triggers]

theorem Asks.after (h : Asks pid head answers tx t) (hr : TriggersNone t t') (hg : LogGrows t.db t'.db) :
    Asks pid head answers tx t' := by
  cases h with
  | none h => exact .none (h.trans hr)
  | once hwants hcount hlogged =>
    exact .once hwants ((countP_triggers hr).trans hcount) fun he hn => hg.retriggered (hlogged he hn)

theorem Asks.before (hr : TriggersNone tx t) (hg : LogGrows tx.db t.db) (h : Asks pid head answers t t') :
    Asks pid head answers tx t' := by
  cases h with
  | none h => exact .none (hr.trans h)
  | once hwants hcount hlogged => exact .once (hg.wants hwants) (hcount.trans (by rw [countP_triggers hr])) hlogged

/-- A trigger, and its event on the log. -/
theorem triggerReview_asks {reason : String} (hwants : wantsReview t.db pid pr.headSha answers = true)
    (hreason : answers.errored pr.headSha = true → hasPrefix "review errored" reason = true) :
    Asks pid pr.headSha answers t (triggerReview env t wid pid pr reason answers.triggered) := by
  unfold triggerReview
  split
  · rename_i exc hfailed
    have hattempt : Asks pid pr.headSha answers t (t.attempt [.triggerReview pr.url]) := by
      refine .once hwants ?_ fun _ hn => ?_
      · show (t.effects ++ [_]).countP _ = _
        rw [List.countP_append]
        rfl
      · rw [PrAnswers.names, hfailed] at hn
        cases hn
    exact hattempt.after (reviewTimeout_routine ..).triggersNone (reviewTimeout_does env _ wid _ _).logGrows
  · rename_i snap hsnap
    have hcalled : Asks pid pr.headSha answers t ((t.answered (.triggerReview pr.url)).event env .pullRequest pid
        (.log "review_triggered") none (some snap.commitSha) reason "controller" []) := by
      refine .once hwants ?_ fun he hn => ?_
      · show (t.effects ++ [_]).countP _ = _
        rw [List.countP_append]
        rfl
      · rw [PrAnswers.names, hsnap, beq_iff_eq] at hn
        show (t.db.events ++ [_]).any _ = true
        rw [List.any_append, Bool.or_eq_true]
        right
        simp [hn, hreason he]
    exact hcalled.after (observeReview_routine ..).triggersNone (observeReview_does env _ wid pid _ _).logGrows

theorem checkReview_asks : Asks pid pr.headSha answers t (checkReview env t wid pid pr answers) := by
  unfold checkReview
  dsimp only
  split
  · exact .none (reviewTimeout_routine ..).triggersNone
  · rename_i hnone
    refine triggerReview_asks (by rw [wantsReview, hnone]) fun he => ?_
    rw [PrAnswers.errored, hnone] at he
    cases he
  · rename_i snap hsnap
    split
    · rename_i herrored
      split
      · exact .none (routine_wi ..).triggersNone
      · rename_i hfresh
        refine triggerReview_asks ?_ fun _ => ?_
        · simp [wantsReview, hsnap, herrored, hfresh]
        · simp [hasPrefix]
    · exact .none (routine_wi ..).triggersNone
    · exact .none (observeReview_routine ..).triggersNone

/-- A request for a fix triggers no review. -/
theorem retryOrFail_triggersNone : TriggersNone t (retryOrFail env t wid pid pr checks) := by
  have hseen : TriggersNone t (t.modifyPullRequest pid (firstHeadSeen pr.headSha false)) := .of_same rfl
  unfold retryOrFail
  dsimp only
  split
  · exact hseen
  · rename_i item _
    split
    · rename_i sid _
      split
      · exact hseen.trans (routine_wi ..).triggersNone
      · have hsent (message : String) :
            TriggersNone t (((t.modifyPullRequest pid (firstHeadSeen pr.headSha false)).modifyItem
            wid fun w => { w with retriesUsed := item.retriesUsed + 1 }).must (.sendMessage sid message)) :=
          (hseen.modifyItem ..).trans (.must rfl)
        have hfired (t' : Tx) (reason : String) : TriggersNone t' (t'.wi env wid .retrySent reason "controller") :=
          (routine_wi ..).triggersNone
        split
        · refine .trans (.trans ?_ (hfired ..)) (.must rfl)
          split
          · exact (hsent _).trans (.of_same rfl)
          · exact hsent _
        · refine .trans ?_ (hfired ..)
          split
          · exact (hsent _).trans (.of_same rfl)
          · exact hsent _
    · exact hseen.trans (routine_wi ..).triggersNone

/-- Green checks: a review is asked for where the item waits for one. -/
theorem applyGreen_asks : Asks pid pr.headSha answers t (applyGreen env t wid pid pr answers) := by
  have hpassed : LogGrows t.db (checksPassed env t wid pid pr).db := (checksPassed_does env t wid pid pr).logGrows
  have hreview :
      Asks pid pr.headSha answers t (reviewWaiting env (checksPassed env t wid pid pr) wid pid pr answers) := by
    unfold reviewWaiting
    split
    · exact .before checksPassed_routine.triggersNone hpassed checkReview_asks
    · exact .none checksPassed_routine.triggersNone
  unfold applyGreen
  dsimp only
  split
  · exact hreview.after (checkApproval_routine ..).triggersNone (checkApproval_does env _ wid pid pr _).logGrows
  · exact hreview

/-- An item that is ready for a human waits for no review. -/
theorem applyGreen_ready (hready : t.db.itemState wid = some .readyForHuman) :
    TriggersNone t (applyGreen env t wid pid pr answers) := by
  have hpassed : checksPassed env t wid pid pr = t := by
    unfold checksPassed
    rw [hready, if_neg (by decide)]
  have hwaiting : reviewWaiting env t wid pid pr answers = t := by
    unfold reviewWaiting
    rw [hready, if_neg (by decide)]
  unfold applyGreen
  rw [hpassed, hwaiting, if_pos hready]
  exact (checkApproval_routine ..).triggersNone

/-- The checks of an open pull request: green ones ask for a review, unless the item is ready for a human. -/
theorem applyChecks_asks {s : WorkItemState} (hs : t.db.itemState wid = some s) :
    Asks pid pr.headSha answers t (applyChecks env t wid pid pr checks answers) ∧
      ((checksVerdict env.settings checks == .green && s != .readyForHuman) = false →
        TriggersNone t (applyChecks env t wid pid pr checks answers)) := by
  have hseen : TriggersNone t (checksSeen env t wid pid pr checks) := checksSeen_routine.triggersNone
  have hlog : LogGrows t.db (checksSeen env t wid pid pr checks).db :=
    (checksSeen_does env t wid pid pr checks).logGrows
  unfold applyChecks
  dsimp only
  cases checksVerdict env.settings checks with
  | red =>
    have hred : TriggersNone t (if (((checksSeen env t wid pid pr checks).db.itemState wid).any
        (· ∈ [WorkItemState.checksRunning, .reviewPending, .readyForHuman])) = true then
          retryOrFail env ((checksSeen env t wid pid pr checks).wi env wid .checksRed
            (commaJoin ((checks.filter checkFailed).map CheckRun.name)) "ci") wid pid pr checks
        else checksSeen env t wid pid pr checks) := by
      split
      · exact (hseen.trans (routine_wi ..).triggersNone).trans retryOrFail_triggersNone
      · exact hseen
    exact ⟨.none hred, fun _ => hred⟩
  | running => exact ⟨.none hseen, fun _ => hseen⟩
  | green =>
    refine ⟨.before hseen hlog applyGreen_asks, fun hready => ?_⟩
    have hs' : s = .readyForHuman := by simpa using hready
    have hstate : (checksSeen env t wid pid pr checks).db.itemState wid = some .readyForHuman := by
      subst hs'
      exact (checksSeen_at hs pid pr checks).state
    exact hseen.trans (applyGreen_ready hstate)

/-- **The poll of a pull request** triggers a review only where one is due and wanted. -/
theorem applyPr_asks {item : WorkItem} (hi : tx.db.workItems.get? wid = some item) (hmem : item.state ∈ prStates)
    (row : PullRequest) : Asks pid pr.headSha answers tx (applyPr env tx wid pid row pr checks answers) ∧
      (reviewDue env.settings item row pr checks = false →
        TriggersNone tx (applyPr env tx wid pid row pr checks answers)) := by
  set t₀ := tx.modifyPullRequest pid fun row => { row with updatedAt := env.now } with ht₀
  have hs₀ : t₀.db.itemState wid = some item.state := congrArg (Option.map WorkItem.state) hi
  set t := applyNewHead env t₀ wid pid row pr with ht
  have hpolled : TriggersNone tx t :=
    (Makes.modifyPullRequest (.refl tx) ..).trans (applyNewHead_routine row).triggersNone
  have hlog : LogGrows tx.db t.db := (applyNewHead_does env t₀ wid pid row pr).logGrows
  obtain ⟨s, hat, -, hhuman⟩ := @applyNewHead_at env t₀ wid item.state hs₀ hmem pid row pr
  have hsame (hhead : pr.headSha = row.headSha) : s = item.state := by
    have hstate : t₀.db.itemState wid = some s := by
      have h := hat.state
      rwa [applyNewHead, if_pos hhead] at h
    exact Option.some.inj (hstate.symm.trans hs₀)
  unfold applyPr
  dsimp only
  rw [← ht₀, ← ht]
  split
  · exact ⟨.none (hpolled.trans applyMerge_routine.triggersNone),
      fun _ => hpolled.trans applyMerge_routine.triggersNone⟩
  · rename_i hmerged
    split
    · have hclosed : TriggersNone tx (t.modifyPullRequest pid fun row => { row with state := "closed" }) :=
        hpolled.modifyPullRequest ..
      split
      · exact ⟨.none hclosed, fun _ => hclosed⟩
      · exact ⟨.none (hclosed.trans (routine_wi ..).triggersNone), fun _ => hclosed.trans (routine_wi ..).triggersNone⟩
    · rename_i hopen
      split
      · exact ⟨.none hpolled, fun _ => hpolled⟩
      · rename_i hneeds
        obtain ⟨hasks, hnone⟩ := @applyChecks_asks env t wid pid pr checks answers s hat.state
        refine ⟨.before hpolled hlog hasks, fun hdue => hpolled.trans (hnone ?_)⟩
        have hitem : item.state ≠ .needsHuman := fun h => hneeds (hhuman.mpr h ▸ hat.state)
        by_contra hgo
        rw [Bool.not_eq_false, Bool.and_eq_true] at hgo
        have hready : (item.state != .readyForHuman || pr.headSha != row.headSha) = true := by
          rw [Bool.or_eq_true, bne_iff_ne, bne_iff_ne]
          by_contra hno
          rw [not_or, not_not, not_not] at hno
          exact absurd ((hsame hno.2).trans hno.1) (bne_iff_ne.mp hgo.2)
        rw [reviewDue, hgo.1, hready, bne_iff_ne.mpr hopen, bne_iff_ne.mpr hitem, Bool.eq_false_iff.mpr hmerged] at hdue
        cases hdue

end Units

/-! ## The steps of the controller -/

/-- A trigger of a review: of a head of a row, upon an errored review of it or not, and whether its answer is about that
head in a transaction that commits. -/
structure ReviewTrigger where
  pull : Nat
  head : String
  again : Bool
  kept : Bool
  deriving DecidableEq, Repr

/-- What polls of the reviews leave behind outside the database. -/
inductive Note where
  /-- Devin reports an errored review of the head. -/
  | errored (pull : Nat) (head : String)
  | triggered (t : ReviewTrigger)
  deriving DecidableEq, Repr

/-- The poll of a step that asks for the review of a head. -/
def reviewPoll (c : Controller) (s : Sys) : Action → Option (Nat × PullRequestInfo × PrAnswers)
  | .pollPullRequest now wid number pr checks answers =>
    match s.flight, s.phase with
    | none, .polling =>
      (polledRow (c.env now) s.db wid number).filter (fun pid =>
        ((s.db.workItems.get? wid).bind fun item => (s.db.pullRequests.get? pid).map fun row =>
          reviewDue c.settings item row pr checks) == some true) |>.map (·, pr, answers)
    | _, _ => none
  | _ => none

/-- The trigger that the poll of a review may make. -/
def triggerOf (poll : Nat × PullRequestInfo × PrAnswers) (commits : Bool) : ReviewTrigger :=
  { pull := poll.1, head := poll.2.1.headSha
    again := poll.2.2.errored poll.2.1.headSha, kept := commits && poll.2.2.names poll.2.1.headSha }

/-- What a step leaves behind after its first calls: what Devin reported, if the step got so far, and its triggers. -/
def notesOf (c : Controller) (s : Sys) (a : Action) (commits : Bool) (made : Nat) : List Note :=
  (reviewPoll c s a).elim [] fun poll =>
    let t := triggerOf poll commits
    let calls := ((pollEffects c s a).take made).countP Effect.isTrigger
    (if t.again && (commits || calls != 0) then [.errored t.pull t.head] else []) ++ List.replicate calls (.triggered t)

/-- The controller with what its polls of reviews left behind. -/
structure Desk where
  sys : Sys
  notes : List Note := []

namespace Desk

def initial : Desk := { sys := .initial }

def exec (c : Controller) (d : Desk) : Turn → Desk
  | .commits a =>
    { sys := HardeningLoop.exec c d.sys a
      notes := d.notes ++ notesOf c d.sys a true (pollEffects c d.sys a).length }
  | .raises a made =>
    { sys := HardeningLoop.exec c d.sys .stop, notes := d.notes ++ notesOf c d.sys a false made }

end Desk

/-- The note is a trigger of the head of the row. -/
def Note.triggers (pull : Nat) (head : String) : Note → Bool
  | .triggered t => t.pull == pull && t.head == head
  | .errored .. => false

/-- A head may be triggered for the first time, or for the second time after an error. -/
def Allowed (l : List Note) (pull : Nat) (head : String) : Prop :=
  l.countP (Note.triggers pull head) = 0 ∨ l.countP (Note.triggers pull head) = 1 ∧ .errored pull head ∈ l

/-- **Bounded triggers**: of a head of a row at most two, and the second only after a review of the head errored. -/
def BoundedTriggers (l : List Note) : Prop :=
  ∀ l₁ t l₂, l = l₁ ++ .triggered t :: l₂ → Allowed l₁ t.pull t.head

/-- The action and whether it commits. -/
def Turn.parts : Turn → Action × Bool
  | .commits a => (a, true)
  | .raises a _ => (a, false)

/-- The note is a re-trigger that was answered for another head, failed, or was rolled back. -/
def Note.lost : Note → Bool
  | .triggered t => t.again && !t.kept
  | .errored .. => false

/-- Where a step wants a review of a head that was triggered before, it is upon an error of the head, and no re-trigger
of the head was lost. -/
def FreshTrigger (c : Controller) (d : Desk) (m : Turn) : Prop :=
  ∀ poll ∈ reviewPoll c d.sys m.parts.1, wantsReview d.sys.db poll.1 poll.2.1.headSha poll.2.2 = true →
    ∀ n ∈ d.notes, n.triggers poll.1 poll.2.1.headSha = true →
      poll.2.2.errored poll.2.1.headSha = true ∧ n.lost = false

section Runs

variable {c : Controller} {s : Sys} {d : Desk}

/-- **What a step triggers**: nothing without the poll of a review, and otherwise what the poll asks for. -/
theorem exec_asks (c : Controller) (s : Sys) (a : Action) : match reviewPoll c s a with
    | none => (pollEffects c s a).countP Effect.isTrigger = 0
    | some poll => ∃ t, (pollEffects c s a) = t.effects ∧ (exec c s a).db = t.db ∧
        Asks poll.1 poll.2.1.headSha poll.2.2 { db := s.db } t := by
  cases a with
  | pollPullRequest now wid number pr checks answers =>
    dsimp only [exec, stepFree, pollEffects, reviewPoll]
    cases s.flight with
    | some flight => rfl
    | none =>
      cases s.phase with
      | polling =>
        dsimp only [Sys.commit, Option.isSome_none]
        have hpoll := @pollPullRequest_polled (c.env now) wid number pr checks answers { db := s.db }
        cases hrow : polledRow (c.env now) s.db wid number with
        | none =>
          rw [hrow] at hpoll
          dsimp only at hpoll
          rw [hpoll]
          rfl
        | some pid =>
          rw [hrow] at hpoll
          obtain ⟨row, hget, heq⟩ := hpoll
          obtain ⟨item, hitem, -⟩ := Option.bind_eq_some_iff.mp hrow
          obtain ⟨hi, hstates⟩ := Option.filter_eq_some_iff.mp hitem
          simp only [Bool.and_eq_true, decide_eq_true_eq] at hstates
          obtain ⟨hasks, hnone⟩ :=
            @applyPr_asks (c.env now) { db := s.db } wid pid pr checks answers item hi hstates.1 row
          have hget' : s.db.pullRequests.get? pid = some row := hget
          rw [heq, Option.filter_some, hi, hget', Option.bind_some, Option.map_some]
          cases hdue : reviewDue c.settings item row pr checks with
          | true => exact ⟨_, rfl, rfl, hasks⟩
          | false => exact countP_triggers (hnone hdue)
      | _ => rfl
  | _ => rfl

/-- A log with one more note. -/
theorem boundedTriggers_concat {l : List Note} {n : Note} : BoundedTriggers (l ++ [n]) ↔
    BoundedTriggers l ∧ ∀ t, n = .triggered t → Allowed l t.pull t.head := by
  constructor
  · refine fun h => ⟨fun l₁ t l₂ hl => h l₁ t (l₂ ++ [n]) (by simp [hl]), fun t hn => h l t [] (by rw [hn])⟩
  · rintro ⟨hold, hnew⟩ l₁ t l₂ hl
    rcases l₂.eq_nil_or_concat with rfl | ⟨l₂, n', hl₂⟩
    · obtain ⟨rfl, hlast⟩ := List.append_inj' hl rfl
      exact hnew t (List.cons.inj hlast).1
    · rw [List.concat_eq_append] at hl₂
      subst hl₂
      have hsplit : l ++ [n] = (l₁ ++ .triggered t :: l₂) ++ [n'] := by simp [hl]
      obtain ⟨rfl, -⟩ := List.append_inj' hsplit rfl
      exact hold l₁ t l₂ rfl

/-- The triggers of a head that were made without an error of it. -/
def Note.first (pull : Nat) (head : String) : Note → Bool
  | .triggered t => t.pull == pull && t.head == head && !t.again
  | .errored .. => false

/-- What the runs of the desk keep: beside the bound, a head is triggered once without an error, and the re-triggers
that were kept are on the event log. -/
structure Desk.Tracked (d : Desk) : Prop where
  bounded : BoundedTriggers d.notes
  first : ∀ pull head, d.notes.countP (Note.first pull head) ≤ 1
  logged : ∀ t, .triggered t ∈ d.notes → t.again = true → t.kept = true →
    reviewRetriggered d.sys.db t.pull t.head = true

theorem exec_logGrows (c : Controller) (s : Sys) (a : Action) : LogGrows s.db (exec c s a).db := by
  have hcommits := exec_commits c s a
  generalize (exec c s a).db = db' at hcommits ⊢
  cases hcommits with
  | units h => exact h.logGrows
  | evaluation h rid => exact h.logGrows
  | ingested h =>
    obtain ⟨l, hl, -⟩ := (ingestRun_ingested h).events
    exact ⟨l, hl⟩

/-- Notes without a trigger, on a log that grew. -/
theorem Desk.Tracked.silent {d' : Desk} (h : d.Tracked) (hg : LogGrows d.sys.db d'.sys.db) {l : List Note}
    (hl : d'.notes = d.notes ++ l) (hnone : ∀ n ∈ l, ∀ t, n ≠ .triggered t) : d'.Tracked := by
  induction l generalizing d with
  | nil =>
    rw [List.append_nil] at hl
    exact ⟨hl ▸ h.bounded, hl ▸ h.first, fun t ht ha hk => hg.retriggered (h.logged t (hl ▸ ht) ha hk)⟩
  | cons n l ih =>
    refine @ih { d with notes := d.notes ++ [n] } ⟨?_, fun pull head => ?_, fun t ht => ?_⟩ hg (by simp [hl])
      fun n' hn' => hnone n' (List.mem_cons_of_mem _ hn')
    · exact boundedTriggers_concat.mpr ⟨h.bounded, fun t hn => absurd hn (hnone n List.mem_cons_self t)⟩
    · rw [List.countP_append]
      cases n with
      | errored p k => exact h.first pull head
      | triggered t => exact absurd rfl (hnone _ List.mem_cons_self t)
    · rw [List.mem_append, List.mem_singleton] at ht
      rcases ht with ht | ht
      · exact h.logged t ht
      · exact absurd ht.symm (hnone n List.mem_cons_self t)

/-- One more trigger, of a head that may be triggered. -/
theorem Desk.Tracked.triggered {d' : Desk} (h : d.Tracked) (hg : LogGrows d.sys.db d'.sys.db) {t : ReviewTrigger}
    (hl : d'.notes = d.notes ++ [.triggered t]) (hallowed : Allowed d.notes t.pull t.head)
    (hfirst : t.again = false → d.notes.countP (Note.first t.pull t.head) = 0)
    (hlogged : t.again = true → t.kept = true → reviewRetriggered d'.sys.db t.pull t.head = true) : d'.Tracked := by
  refine ⟨?_, fun pull head => ?_, fun t' ht => ?_⟩
  · rw [hl]
    refine boundedTriggers_concat.mpr ⟨h.bounded, fun t' ht => ?_⟩
    cases ht
    exact hallowed
  · rw [hl, List.countP_append, List.countP_singleton]
    have hone := h.first pull head
    split
    · rename_i hmatch
      simp only [Note.first, Bool.and_eq_true, beq_iff_eq, Bool.not_eq_true'] at hmatch
      obtain ⟨⟨rfl, rfl⟩, hagain⟩ := hmatch
      rw [hfirst hagain]
    · exact hone
  · rw [hl, List.mem_append, List.mem_singleton] at ht
    rcases ht with ht | ht
    · exact fun ha hk => hg.retriggered (h.logged t' ht ha hk)
    · cases ht
      exact hlogged

/-- Without triggers of a head, nothing is counted. -/
theorem countP_first_le (l : List Note) (pull : Nat) (head : String) :
    l.countP (Note.first pull head) ≤ l.countP (Note.triggers pull head) := by
  refine List.countP_mono_left fun n _ hn => ?_
  cases n with
  | errored p k => cases hn
  | triggered t =>
    simp only [Note.first, Bool.and_eq_true] at hn
    simpa [Note.triggers] using hn.1

/-- **A fresh trigger may be made**: the head was never triggered, or once without an error. -/
theorem fresh_allowed (h : d.Tracked) {poll : Nat × PullRequestInfo × PrAnswers}
    (hwants : wantsReview d.sys.db poll.1 poll.2.1.headSha poll.2.2 = true)
    (hfresh : ∀ n ∈ d.notes, n.triggers poll.1 poll.2.1.headSha = true →
      poll.2.2.errored poll.2.1.headSha = true ∧ n.lost = false) :
    if poll.2.2.errored poll.2.1.headSha then d.notes.countP (Note.triggers poll.1 poll.2.1.headSha) ≤ 1
    else d.notes.countP (Note.triggers poll.1 poll.2.1.headSha) = 0 := by
  obtain ⟨pid, pr, answers⟩ := poll
  dsimp only at hwants hfresh ⊢
  split
  · rename_i herrored
    -- a re-trigger that was kept would be on the log, and none was lost
    have hnew : reviewRetriggered d.sys.db pid pr.headSha = false := by
      unfold wantsReview at hwants
      unfold PrAnswers.errored at herrored
      split at hwants
      · rename_i hreview
        rw [hreview] at herrored
        cases herrored
      · rename_i hreview
        rw [hreview] at herrored
        cases herrored
      · simpa using (Bool.and_eq_true_iff.mp hwants).2
    refine Nat.le_trans (List.countP_mono_left fun n hn htriggers => ?_) (h.first pid pr.headSha)
    cases n with
    | errored p k => cases htriggers
    | triggered t =>
      have hlost : (t.again && !t.kept) = false := (hfresh _ hn htriggers).2
      simp only [Note.triggers, Bool.and_eq_true, beq_iff_eq] at htriggers
      obtain ⟨rfl, hhead⟩ := htriggers
      have hagain : t.again = false := by
        rw [Bool.eq_false_iff]
        intro ha
        rw [ha, Bool.true_and, Bool.not_eq_false'] at hlost
        have hlogged := h.logged t hn ha hlost
        rw [hhead, hnew] at hlogged
        cases hlogged
      simp [Note.first, hhead, hagain]
  · rename_i herrored
    rw [List.countP_eq_zero]
    exact fun n hn htriggers => herrored (hfresh n hn htriggers).1

/-- The calls that a step has made. -/
def Turn.made (c : Controller) (s : Sys) : Turn → Nat
  | .commits a => (pollEffects c s a).length
  | .raises _ made => made

theorem Desk.exec_notes (c : Controller) (d : Desk) (m : Turn) :
    (d.exec c m).notes = d.notes ++ notesOf c d.sys m.parts.1 m.parts.2 (m.made c d.sys) := by
  cases m <;> rfl

theorem Desk.exec_logGrows (c : Controller) (d : Desk) (m : Turn) : LogGrows d.sys.db (d.exec c m).sys.db := by
  cases m with
  | commits a => exact HardeningLoop.exec_logGrows c d.sys a
  | raises a made => exact HardeningLoop.exec_logGrows c d.sys .stop

theorem tracked_step {m : Turn} (h : d.Tracked) (hm : FreshTrigger c d m) : (d.exec c m).Tracked := by
  have hnotes := d.exec_notes c m
  have hlog := d.exec_logGrows c m
  have hasks := exec_asks c d.sys m.parts.1
  unfold notesOf at hnotes
  cases hpoll : reviewPoll c d.sys m.parts.1 with
  | none =>
    rw [hpoll] at hnotes
    exact h.silent hlog hnotes fun n hn => absurd hn List.not_mem_nil
  | some poll =>
    rw [hpoll] at hnotes hasks
    dsimp only [Option.elim] at hnotes hasks
    obtain ⟨t, heffects, hdb, hasks⟩ := hasks
    set calls := ((pollEffects c d.sys m.parts.1).take (m.made c d.sys)).countP Effect.isTrigger with hcalls
    have hle : calls ≤ t.effects.countP Effect.isTrigger :=
      heffects ▸ (List.take_sublist _ _).countP_le
    have hreports (b : Bool) : ∀ n ∈ (if b = true then [Note.errored (triggerOf poll m.parts.2).pull
        (triggerOf poll m.parts.2).head] else []), ∀ t, n ≠ .triggered t := by
      intro n hn t hnt
      subst hnt
      split at hn
      · cases List.mem_singleton.mp hn
      · exact List.not_mem_nil hn
    cases hasks with
    | none hnone =>
      have hzero : calls = 0 := Nat.le_zero.mp (hle.trans (Nat.le_of_eq (countP_triggers hnone)))
      rw [hzero, List.replicate_zero, List.append_nil] at hnotes
      exact h.silent hlog hnotes (hreports _)
    | once hwants hcount hlogged =>
      rcases Nat.le_one_iff_eq_zero_or_eq_one.mp (hle.trans (Nat.le_of_eq hcount)) with hzero | hone
      · rw [hzero, List.replicate_zero, List.append_nil] at hnotes
        exact h.silent hlog hnotes (hreports _)
      · rw [hone, List.replicate_one, ← List.append_assoc] at hnotes
        have hbefore := fresh_allowed h hwants (hm poll hpoll hwants)
        have hmade : (m.parts.2 || (1 : Nat) != 0) = true := Bool.or_true _
        rw [hmade, Bool.and_true] at hnotes
        have hkept (ha : (triggerOf poll m.parts.2).again = true) (hk : (triggerOf poll m.parts.2).kept = true) :
            reviewRetriggered (d.exec c m).sys.db poll.1 poll.2.1.headSha = true := by
          obtain ⟨hcommits, hnames⟩ := Bool.and_eq_true_iff.mp hk
          cases m with
          | commits a =>
            show reviewRetriggered (HardeningLoop.exec c d.sys a).db .. = true
            exact hdb ▸ hlogged ha hnames
          | raises a made => cases hcommits
        cases herrored : (triggerOf poll m.parts.2).again with
        | true =>
          have hagain : poll.2.2.errored poll.2.1.headSha = true := herrored
          rw [herrored, if_pos rfl] at hnotes
          rw [hagain, if_pos rfl] at hbefore
          have h₁ : Desk.Tracked { d with notes := d.notes ++ [.errored poll.1 poll.2.1.headSha] } :=
            h.silent ⟨[], (List.append_nil _).symm⟩ rfl fun n hn t hnt => by
              cases (hnt ▸ List.mem_singleton.mp hn : Note.triggered t = .errored _ _)
          refine h₁.triggered hlog hnotes ?_ (fun hno => by cases herrored.symm.trans hno) hkept
          have hcount :
              (d.notes ++ [Note.errored poll.1 poll.2.1.headSha]).countP (Note.triggers poll.1 poll.2.1.headSha) =
              d.notes.countP (Note.triggers poll.1 poll.2.1.headSha) := List.countP_append
          rcases Nat.le_one_iff_eq_zero_or_eq_one.mp hbefore with hzero | hone
          · exact .inl (hcount.trans hzero)
          · exact .inr ⟨hcount.trans hone, List.mem_append_right _ List.mem_cons_self⟩
        | false =>
          have hagain : poll.2.2.errored poll.2.1.headSha = false := herrored
          rw [herrored, if_neg Bool.false_ne_true, List.append_nil] at hnotes
          rw [hagain, if_neg Bool.false_ne_true] at hbefore
          exact h.triggered hlog hnotes (.inl hbefore)
            (fun _ => Nat.le_zero.mp ((countP_first_le ..).trans (Nat.le_of_eq hbefore))) hkept

theorem tracked_initial : Desk.initial.Tracked := by
  refine ⟨fun l₁ t l₂ h => ?_, fun _ _ => Nat.zero_le _, fun t ht => absurd ht List.not_mem_nil⟩
  cases l₁ <;> cases h

end Runs

/-- **Triggers are bounded** in every run in which Devin reports no review of a head only when it was never asked for
one, the reviews that are triggered again errored for their head, and the earlier re-triggers of the head were answered
for it in transactions that committed. -/
theorem triggers_bounded (c : Controller) (trace : List Turn)
    (h : Machine.AllSteps (Desk.exec c) (FreshTrigger c) .initial trace) :
    BoundedTriggers (Machine.run (Desk.exec c) .initial trace).notes :=
  (Machine.AllSteps.invariant Desk.Tracked (fun _ _ => tracked_step) tracked_initial h).bounded

instance instDecidableFreshTrigger (c : Controller) (d : Desk) (m : Turn) : Decidable (FreshTrigger c d m) :=
  inferInstanceAs (Decidable (∀ poll ∈ reviewPoll c d.sys m.parts.1,
    wantsReview d.sys.db poll.1 poll.2.1.headSha poll.2.2 = true → ∀ n ∈ d.notes,
      n.triggers poll.1 poll.2.1.headSha = true → poll.2.2.errored poll.2.1.headSha = true ∧ n.lost = false))

/-- A review of a head of the first pull request. -/
def headReview (status : ReviewStatus) (head : String) : ReviewSnapshot :=
  { status := status, repoPath := "superset", prNumber := 1, commitSha := head }

/-- The checks of head `a` are green, and Devin has this review of it; a trigger is answered for a head. -/
def greenPoll (now : DateTime) (review : Option ReviewSnapshot) (head : String) : Action :=
  .pollPullRequest now 1 1 (samplePull "a") sampleGreen
    { review := .ok review, triggered := .ok (headReview .running head) }

/-- A tick that polls head `a`. -/
def reviewTick (now : DateTime) (review : Option ReviewSnapshot) (head : String) : List Action :=
  [.beginTick, greenPoll now review head, .stop]

/-- A review is triggered, errors, is triggered again and errors again. -/
theorem errored_review_bounded : BoundedTriggers (Machine.run (Desk.exec sampleController) .initial ((pullOpened ++
    reviewTick 14 none "a" ++ reviewTick 15 (some (headReview .errored "a")) "a" ++
      reviewTick 16 (some (headReview .errored "a")) "a").map .commits)).notes :=
  triggers_bounded sampleController _ (by decide +kernel)

/-- Devin does not know yet of the review it was asked for. -/
def reviewLags : List Turn := (pullOpened ++ reviewTick 14 none "a" ++ reviewTick 15 none "a").map .commits

/-- The re-trigger of an errored review is answered for another head, three times. -/
def answeredElsewhere : List Turn := (pullOpened ++ reviewTick 14 (some (headReview .errored "a")) "b" ++
  reviewTick 15 (some (headReview .errored "a")) "b" ++ reviewTick 16 (some (headReview .errored "a")) "b").map .commits

/-- A head is triggered a second time without an error, and a third time after errors. -/
theorem triggers_unbounded : ¬ BoundedTriggers (Machine.run (Desk.exec sampleController) .initial reviewLags).notes ∧
    ¬ BoundedTriggers (Machine.run (Desk.exec sampleController) .initial answeredElsewhere).notes := by
  constructor
  · intro h
    let t : ReviewTrigger := { pull := 1, head := "a", again := false, kept := true }
    have hnotes :
        (Machine.run (Desk.exec sampleController) .initial reviewLags).notes = [.triggered t, .triggered t] := by
      decide +kernel
    have hsecond := h [.triggered t] t [] hnotes
    revert hsecond
    unfold Allowed
    decide
  · intro h
    let t : ReviewTrigger := { pull := 1, head := "a", again := true, kept := false }
    have hnotes : (Machine.run (Desk.exec sampleController) .initial answeredElsewhere).notes =
        [.errored 1 "a", .triggered t, .errored 1 "a", .triggered t, .errored 1 "a", .triggered t] := by decide +kernel
    have hthird := h [.errored 1 "a", .triggered t, .errored 1 "a", .triggered t, .errored 1 "a"] t [] hnotes
    revert hthird
    unfold Allowed
    decide

end HardeningLoop
