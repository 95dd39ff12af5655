import HardeningLoop.Devin.Rest
import HardeningLoop.Lib.Standing
import HardeningLoop.Orchestrator.Ownership
import HardeningLoop.Orchestrator.Retries

/-!
# Questions of a session

A session that waits for its user is asked for its messages; a question of the whitelist is answered by a message
through the HTTP client. `Dialogue` runs the controller with what every poll of a waiting session read and sent: a
transaction that raises is rolled back, the message is not.

- `assess_answers`: the snapshots that are answered;
- `pollSession_messages`: the poll of a waiting session sends one message for these, none for the others;
- `answered_once_iff`: the questions are answered once exactly when no answer is delivered twice or to a question that
  was answered and is still the latest.
-/

namespace HardeningLoop

open Rows (Table)
open Readings (standing OnceStanding)

/-! ## What is answered -/

/-- A session waits with a question of the whitelist, and nothing stops it. -/
def answerable (snap : SessionSnapshot) (facts : SessionFacts) (question : Option String) : Bool :=
  !snap.isBudgetStop && !snap.isError && snap.acusConsumed ≤ facts.acuCap && !facts.wallClockExceeded &&
    !snap.isWaitingForApproval && snap.isWaitingForUser && !snap.isFinalReport && (whitelistedReply question).isSome

section Assessments

variable {ext : External} {snap : SessionSnapshot} {facts : SessionFacts} {question : Option String}

/-- The verdict on a report answers nothing and gives no warning. -/
theorem assessReport_decision : (assessReport ext snap facts).decision = .needsHuman ∨
    (assessReport ext snap facts).decision = .readyForVerification := by
  unfold assessReport
  split
  · exact .inl rfl
  · split
    · exact .inl rfl
    · exact .inl rfl
    · split
      · exact .inl rfl
      · split
        · exact .inl rfl
        · split
          · exact .inl rfl
          · exact .inr rfl
    · exact .inl rfl

theorem assess_answers : (assess ext snap facts question).decision = .answerQuestion ↔
    answerable snap facts question = true := by
  have hreport : (assessReport ext snap facts).decision ≠ .answerQuestion := by
    rcases @assessReport_decision ext snap facts with h | h <;> rw [h] <;> decide
  unfold assess answerable
  split
  · simp_all [needsHuman]
  · split
    · simp_all [needsHuman]
    · split
      · rename_i hacu
        simp [needsHuman, not_le.mpr hacu]
      · rename_i hacu
        split
        · simp_all [needsHuman]
        · split
          · simp_all [needsHuman]
          · split
            · cases hreply : whitelistedReply question <;> simp_all [needsHuman]
            · split
              · simp_all
              · split <;> simp_all

/-- A session that waits for its user is not warned of its budget. -/
theorem assess_not_warned (hw : snap.isWaitingForUser = true) :
    (assess ext snap facts question).decision ≠ .budgetWarning := by
  have hreport : (assessReport ext snap facts).decision ≠ .budgetWarning := by
    rcases @assessReport_decision ext snap facts with h | h <;> rw [h] <;> decide
  unfold assess
  rw [hw, Bool.true_and]
  split
  · exact fun h => by cases h
  · split
    · exact fun h => by cases h
    · split
      · exact fun h => by cases h
      · split
        · exact fun h => by cases h
        · split
          · exact fun h => by cases h
          · cases hfinal : snap.isFinalReport
            · rw [Bool.not_false, if_pos rfl]
              split <;> exact fun h => by cases h
            · rw [Bool.not_true, if_neg Bool.false_ne_true, if_pos rfl]
              exact hreport

end Assessments

/-! ## What a poll sends -/

section Polls

variable {env : Env} {tx t : Tx} {wid row : Nat} {item : WorkItem} {snap : SessionSnapshot}

/-- A decision that neither answers nor warns sends nothing. -/
theorem applyDecision_silent {facts : SnapshotFacts} {result : Assessment} (ha : result.decision ≠ .answerQuestion)
    (hb : result.decision ≠ .budgetWarning) : SendsNone t (applyDecision env t wid row item snap facts result) := by
  unfold applyDecision
  split
  · exact .refl t
  · exact absurd ‹_› ha
  · exact absurd ‹_› hb
  · dsimp only
    split
    · exact (Makes.trans (routine_wi ..) (postDisagreementVerdict_routine ..)).sendsNone
    · exact (routine_wi ..).sendsNone
  · split
    · exact .refl t
    · rename_i pr _
      have hrecorded : Routine t (((recordPr env t wid pr).wi env wid .prOpened pr.url "controller").wi env wid
          .checksStarted pr.headSha "controller") :=
        .trans (.trans (recordPr_routine pr) (routine_wi ..)) (routine_wi ..)
      dsimp only
      split
      · exact hrecorded.sendsNone.trans (.must rfl)
      · exact hrecorded.sendsNone

/-- The item that waits for a session, and the session's row. -/
def polledSession (db : Db) (wid : Nat) (sid : String) : Option (WorkItem × Session) :=
  ((db.workItems.get? wid).filter (WorkItem.runs · sid)).bind fun item =>
    (db.sessions.first fun s => s.devinId == sid).bind fun row => (db.sessions.get? row).map (item, ·)

/-- What `assess` is told about a polled session. -/
def polledFacts (env : Env) (polled : WorkItem × Session) (snap : SessionSnapshot) (answers : SessionAnswers) :
    SessionFacts :=
  sessionFacts env polled.1 polled.2 snap (snapshotFacts env polled.1.kind snap answers)

/-- The messages in the calls of a transaction. -/
def Tx.messages (t : Tx) : List Effect := t.effects.filter Effect.isMessage

/-- **The poll of a session that waits for its user** sends the answer, if there is one. -/
theorem pollSession_messages (sid : String) (answers : SessionAnswers) (hw : snap.isWaitingForUser = true) :
    (pollSession env wid sid snap answers tx).messages.length = tx.messages.length +
      if (polledSession tx.db wid sid).any fun polled =>
        answerable snap (polledFacts env polled snap answers) answers.question then 1 else 0 := by
  have hsilent {t : Tx} (h : SendsNone tx t) : t.messages.length = tx.messages.length + if false = true then 1 else 0 :=
    congrArg List.length h.messages
  unfold pollSession polledSession
  cases hi : tx.db.workItems.get? wid with
  | none => exact hsilent (.refl tx)
  | some item =>
    rw [Option.filter_some]
    dsimp only
    rw [item.not_runs]
    cases item.runs sid with
    | false => exact hsilent (.refl tx)
    | true =>
      rw [if_pos rfl, if_neg (by decide), Option.bind_some]
      cases tx.db.sessions.first fun s => s.devinId == sid with
      | none => exact hsilent (routine_wi ..).sendsNone
      | some row =>
        rw [Option.bind_some]
        dsimp only
        cases tx.db.sessions.get? row with
        | none => exact hsilent (.refl tx)
        | some session =>
          rw [Option.map_some, Option.any_some]
          unfold applySnapshot
          dsimp only
          rw [if_pos hw]
          generalize hbefore : Tx.insertPoll _ _ = t
          have hsame : t.effects = tx.effects := by rw [← hbefore]; rfl
          set facts := snapshotFacts env item.kind snap answers
          set result := assess env.ext snap (sessionFacts env item session snap facts) answers.question with hresult
          have hanswers : result.decision = .answerQuestion ↔
              answerable snap (polledFacts env (item, session) snap answers) answers.question = true := assess_answers
          by_cases ha : result.decision = .answerQuestion
          · rw [if_pos (hanswers.mp ha)]
            unfold applyDecision Tx.messages
            rw [ha, ← hsame]
            show (t.effects ++ [_] |>.filter Effect.isMessage).length = _
            rw [List.filter_append, List.length_append]
            rfl
          · rw [if_neg fun h => ha (hanswers.mpr h)]
            have hdecides : SendsNone t (applyDecision env t wid row item snap facts result) :=
              applyDecision_silent ha (assess_not_warned hw)
            exact (congrArg List.length hdecides.messages).trans (by rw [hsame]; rfl)

end Polls

/-! ## Runs -/

/-- The poll is given this session's messages. -/
def Action.asking (ext : External) (pages : List MessagePage) : Action → Action
  | .pollSession now wid sid snap answers =>
    .pollSession now wid sid snap { answers with question := lastUserFacingQuestion ext pages }
  | a => a

/-- The controller polls sessions. -/
def Sys.pollsSessions (s : Sys) : Bool :=
  match s.flight, s.phase with
  | none, .polling | none, .settling => true
  | _, _ => false

/-- A step of the controller: the messages it lists, the attempts at the message it sends, and whether its transaction
commits; without a commit it raised, and the tick ends. -/
structure Exchange where
  action : Action
  pages : List MessagePage := []
  attempts : List (Attempt Unit Unit) := []
  commits : Bool := true

/-- What `send_message` delivers, and its result. -/
def Exchange.sending (x : Exchange) : List Unit × Option (Except String Unit) :=
  request "POST messages" false x.attempts

/-- The messages a poll sends. -/
def Exchange.messages (c : Controller) (s : Sys) (x : Exchange) : List Effect :=
  match x.action.asking c.ext x.pages with
  | .pollSession now wid sid snap answers =>
    if s.pollsSessions then (pollSession (c.env now) wid sid snap answers { db := s.db }).messages else []
  | _ => []

/-- Messages that are sent have to be accepted for the step to commit. -/
def Exchange.committed (c : Controller) (s : Sys) (x : Exchange) : Bool :=
  x.commits && (x.messages c s = [] || x.sending.2.any Except.isOk)

/-- What a poll read of a session that waits: its latest question, and how many messages it delivered. -/
structure Reading where
  session : String
  question : Option (Int × String)
  replies : Nat
  deriving DecidableEq, Repr

/-- The poll lists the messages of the session when it waits for its user. -/
def Exchange.reading (c : Controller) (s : Sys) (x : Exchange) : Option Reading :=
  match x.action with
  | .pollSession _ wid sid snap _ =>
    if s.pollsSessions && (polledSession s.db wid sid).isSome && snap.isWaitingForUser then
      some { session := snap.sessionId, question := latestMessage c.ext x.pages
             replies := (x.messages c s).length * x.sending.1.length }
    else none
  | _ => none

/-- The controller, with what its polls read. -/
structure Dialogue where
  sys : Sys
  readings : List Reading := []

namespace Dialogue

def initial : Dialogue := { sys := .initial }

def exec (c : Controller) (d : Dialogue) (x : Exchange) : Dialogue :=
  { sys := HardeningLoop.exec c d.sys (if x.committed c d.sys then x.action.asking c.ext x.pages else .stop)
    readings := d.readings ++ (x.reading c d.sys).toList }

end Dialogue

/-- The reading delivered an answer. -/
def Reading.answered (r : Reading) : Bool := r.replies != 0

/-- **Questions are answered once**: no poll delivers two messages, and between two that answered the same question of a
session another question was its latest. -/
structure AnsweredOnce (d : Dialogue) : Prop where
  single : ∀ r ∈ d.readings, r.replies ≤ 1
  once : OnceStanding Reading.session Reading.question Reading.answered d.readings

/-- The session whose question the step answers, and the question. -/
def Exchange.answers (c : Controller) (s : Sys) (x : Exchange) : Option (String × Option (Int × String)) :=
  match x.action.asking c.ext x.pages with
  | .pollSession now wid sid snap answers =>
    if s.pollsSessions && (polledSession s.db wid sid).any fun polled =>
        answerable snap (polledFacts (c.env now) polled snap answers) answers.question then
      some (snap.sessionId, latestMessage c.ext x.pages)
    else none
  | _ => none

/-- An answer of the step is delivered once at most, and not to a question that was answered and is the latest since. -/
def FreshQuestion (c : Controller) (d : Dialogue) (x : Exchange) : Prop :=
  ∀ a ∈ x.answers c d.sys, ¬ TakesEffectTwice x.attempts ∧
    (x.sending.1 ≠ [] → standing Reading.session Reading.question Reading.answered a.1 d.readings ≠ some a.2)

section Runs

variable {c : Controller} {s : Sys} {d : Dialogue} {x : Exchange}

/-- Only a session that waits for its user is answered. -/
theorem answerable_waits {snap : SessionSnapshot} {facts : SessionFacts} {question : Option String}
    (h : answerable snap facts question = true) : snap.isWaitingForUser = true := by
  simp only [answerable, Bool.and_eq_true] at h
  exact h.1.1.2

/-- **What a step answers and what it reads**: it answers only a question that it read, and delivers something only if
it answers. -/
theorem reading_answers : match x.reading c s with
    | none => x.answers c s = none
    | some r => x.answers c s = none ∧ r.replies = 0 ∨
        x.answers c s = some (r.session, r.question) ∧ r.replies = x.sending.1.length := by
  unfold Exchange.reading Exchange.answers Exchange.messages
  cases x.action with
  | pollSession now wid sid snap answers =>
    dsimp only [Action.asking]
    cases hp : s.pollsSessions with
    | false => rfl
    | true =>
      rw [Bool.true_and, Bool.true_and, if_pos rfl]
      cases hw : snap.isWaitingForUser with
      | false =>
        rw [Bool.and_false, if_neg Bool.false_ne_true]
        refine if_neg fun h => ?_
        obtain ⟨polled, -, hanswers⟩ := (Option.any_eq_true _ _).mp h
        rw [answerable_waits hanswers] at hw
        cases hw
      | true =>
        have hsent := @pollSession_messages (c.env now) { db := s.db } wid snap sid
          { answers with question := lastUserFacingQuestion c.ext x.pages } hw
        rw [Bool.and_true]
        cases hsome : polledSession s.db wid sid with
        | none => rfl
        | some polled =>
          rw [Option.isSome_some, if_pos rfl]
          rw [hsome, Option.any_some] at hsent
          rw [Option.any_some]
          dsimp only
          rw [hsent]
          show _ ∨ _
          split
          · exact .inr ⟨rfl, Nat.one_mul _⟩
          · exact .inl ⟨rfl, Nat.zero_mul _⟩
  | _ => rfl

/-- **One step**: the questions stay answered once exactly when the step answers a fresh question, once. -/
theorem exec_answeredOnce (d : Dialogue) (x : Exchange) :
    AnsweredOnce (d.exec c x) ↔ AnsweredOnce d ∧ FreshQuestion c d x := by
  have hread := @reading_answers c d.sys x
  have hkeep (hr : x.reading c d.sys = none) : (d.exec c x).readings = d.readings := by
    show d.readings ++ _ = _
    rw [hr, Option.toList_none, List.append_nil]
  unfold FreshQuestion
  cases hr : x.reading c d.sys with
  | none =>
    rw [hr] at hread
    rw [hread]
    have hsame := hkeep hr
    constructor
    · exact fun h => ⟨⟨hsame ▸ h.single, hsame ▸ h.once⟩, fun a ha => by cases ha⟩
    · exact fun h => ⟨hsame.symm ▸ h.1.single, hsame.symm ▸ h.1.once⟩
  | some r =>
    rw [hr] at hread
    have hmore : (d.exec c x).readings = d.readings ++ [r] := by
      show d.readings ++ _ = _
      rw [hr, Option.toList_some]
    have hsingle : (∀ r' ∈ (d.exec c x).readings, r'.replies ≤ 1) ↔ (∀ r' ∈ d.readings, r'.replies ≤ 1) ∧
      r.replies ≤ 1 := by
      rw [hmore]
      simp [or_imp, forall_and]
    have honce : AnsweredOnce (d.exec c x) ↔ AnsweredOnce d ∧ r.replies ≤ 1 ∧ (r.answered = true →
        standing Reading.session Reading.question Reading.answered r.session d.readings ≠ some r.question) := by
      constructor
      · intro h
        obtain ⟨hold, hnew⟩ := hsingle.mp h.single
        obtain ⟨hstood, hstands⟩ := Readings.onceStanding_concat.mp (hmore ▸ h.once)
        exact ⟨⟨hold, hstood⟩, hnew, hstands⟩
      · rintro ⟨h, hnew, hstands⟩
        exact ⟨hsingle.mpr ⟨h.single, hnew⟩, hmore ▸ Readings.onceStanding_concat.mpr ⟨h.once, hstands⟩⟩
    rw [honce]
    refine and_congr_right fun _ => ?_
    rcases hread with ⟨hnone, hzero⟩ | ⟨hsome, hsent⟩
    · rw [hnone]
      refine iff_of_true ⟨hzero ▸ Nat.zero_le 1, fun ha => ?_⟩ fun a ha => by cases ha
      rw [Reading.answered, hzero] at ha
      cases ha
    · have htwice : r.replies ≤ 1 ↔ ¬ TakesEffectTwice x.attempts := by
        rw [← two_effects_iff "POST messages" false, hsent, not_lt]
        rfl
      have hany : r.answered = true ↔ x.sending.1 ≠ [] := by
        rw [Reading.answered, hsent, bne_iff_ne, ne_eq, List.length_eq_zero_iff]
      rw [hsome, htwice, hany]
      constructor
      · intro h a ha
        cases ha
        exact h
      · exact fun h => h _ rfl

end Runs

/-- **Questions are answered once** in a run exactly when no answer of it is delivered twice, and none is delivered to a
question that was answered before and was the session's latest in every reading since. -/
theorem answered_once_iff (c : Controller) (trace : List Exchange) :
    AnsweredOnce (Machine.run (Dialogue.exec c) .initial trace) ↔
      Machine.AllSteps (Dialogue.exec c) (FreshQuestion c) .initial trace := by
  have hinit : AnsweredOnce .initial := ⟨fun r hr => absurd hr List.not_mem_nil, fun l₁ e m e' l₂ h => by
    cases l₁ <;> cases h⟩
  have hrun :=
    @Machine.AllSteps.run_iff _ _ (Dialogue.exec c) (FreshQuestion c) (fun _ => True) (fun _ => True) AnsweredOnce
    (fun _ _ _ _ => trivial) (fun d x _ _ => exec_answeredOnce d x) .initial trace (fun _ _ => trivial) trivial
  rw [hrun]
  exact and_iff_right hinit

/-- The session of the first item waits for its user. -/
def sampleWaiting : SessionSnapshot := { sampleSession with statusDetail := some .waitingForUser }

/-- It is asked for a branch; the answer is delivered. -/
def branchAsked (now : DateTime) : Exchange :=
  { action := .pollSession now 1 "s1" sampleWaiting {}
    pages := [{ items := [{ source := "devin", message := "Which base branch do I use?", createdAt := 12 }] }]
    attempts := [{ effect := some (), reply := some (.response 200 "" ()) }] }

/-- Two polls in a row return the same snapshot and the same messages. -/
def polledTwice : List Exchange :=
  ([sampleIngest "1" 10 (samplePair "CVE-1" "openssl" "1")] ++ sampleReserve 11 ++ sampleCreate 12).map
    ({ action := · }) ++
    [{ action := .beginTick }, branchAsked 13, { action := .stop }, { action := .beginTick }, branchAsked 14]

/-- The question is answered by both polls. -/
theorem answered_twice : ¬ AnsweredOnce (Machine.run (Dialogue.exec sampleController) .initial polledTwice) := by
  intro h
  let r : Reading := { session := "s1", question := some (12, "Which base branch do I use?"), replies := 1 }
  have hread : (Machine.run (Dialogue.exec sampleController) .initial polledTwice).readings = [r, r] := by
    decide +kernel
  obtain ⟨x, hx, -⟩ := h.once [] r [] r [] hread rfl rfl rfl rfl
  exact List.not_mem_nil hx

end HardeningLoop
