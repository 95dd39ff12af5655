import HardeningLoop.Orchestrator.Adoption
import HardeningLoop.Orchestrator.Engine.Calls

/-!
# The approval that a launch grants

An operator's launch of an item that may not be dispatched by its severity puts the `dispatch:approved` label on the
issue, and only then comments, reads the labels back and asks Devin. `operatorLaunch` is the whole launch: the
transaction of `launch`, and the search and the creation of a dispatch.

- `launch_eq`, `launchReserve_eq`: the launch up to the label, and from there;
- `Ran`: the calls that take effect, when the call that takes the label away succeeds;
- `approval_revoked_iff`: a launch that starts no session leaves no approval behind exactly when its comment raises.
-/

namespace HardeningLoop

open Rows (Table)

/-! ## A launch step by step -/

/-- A launch up to the item that has its issue. -/
def launchIssue (env : Env) (tx : Tx) (wid : Nat) (operator : String) (answers : LaunchAnswers) :
    Tx × Option (Nat × WorkItem) :=
  match tx.db.workItems.get? wid with
  | none => (tx, none)
  | some item =>
    match launchPreview env.settings (launchFigures tx.db) item.state item.acuCap with
    | (some action, none) =>
      let tx := if action = .relaunch then relaunch env tx wid item operator else tx
      let state := ((tx.db.workItems.get? wid).map WorkItem.state).getD item.state
      let (tx, opened) := if state = .queued then openIssue env tx wid none answers.listed answers.created
        else (tx, true)
      if !opened then (tx, none)
      else match tx.db.workItems.get? wid with
        | none => (tx, none)
        | some item =>
          match item.state, item.issueNumber with
          | .issueOpen, some issue => (tx, some (issue, item))
          | _, _ => (tx, none)
    | (_, block) =>
      (tx.log env wid "operator_launch_refused" item.state
        (block.elim "ineligible" LaunchBlock.value ++ "; operator=" ++ operator) "operator", none)

theorem launch_eq (env : Env) (tx : Tx) (wid : Nat) (operator : String) (answers : LaunchAnswers) :
    launch env tx wid operator answers = match launchIssue env tx wid operator answers with
      | (tx, none) => (tx, false)
      | (tx, some (issue, item)) => launchReserve env tx wid issue item operator answers := by
  unfold launch launchIssue
  cases tx.db.workItems.get? wid with
  | none => rfl
  | some item =>
    dsimp only
    generalize launchPreview env.settings (launchFigures tx.db) item.state item.acuCap = preview
    match preview with
    | (none, block) => rfl
    | (some action, some block) => rfl
    | (some action, none) =>
      dsimp only
      generalize (if _ = WorkItemState.queued then _ else _ : Tx × Bool) = opened
      obtain ⟨t, done⟩ := opened
      cases done with
      | false => rfl
      | true =>
        dsimp only
        cases t.db.workItems.get? wid with
        | none => rfl
        | some item =>
          dsimp only
          cases item.state <;> cases item.issueNumber <;> rfl

/-- A launch of an item that has its issue, up to the labels it reads back: the approval and the comment. -/
def launchApprove (env : Env) (tx : Tx) (wid issue : Nat) (item : WorkItem) (operator : String)
    (answers : LaunchAnswers) :
    Tx × Bool :=
  let needsApproval : Bool := item.severity ∉ defaultDispatchSeverities
  let comment := Call.commentIssue issue ("Operator `" ++ operator ++ "` launched Devin from the dashboard (cap " ++
    formatFixed 0 item.acuCap ++ " ACU, base `" ++ remediationBranch ++ "`).")
  match (if needsApproval then answers.approved else .ok ()) with
  | .error exc => (launchFailed env tx wid item ("github:" ++ exc), false)
  | .ok () =>
    let tx := if needsApproval then
        (tx.answered (.addLabels issue [HumanLabel.dispatchApproved.value])).attempt
          [.removeLabel issue awaitingDispatchLabel]
      else tx
    match answers.commented with
    | .error exc =>
      let tx := if needsApproval then
          tx.attempt [.removeLabel issue HumanLabel.dispatchApproved.value, .addLabels issue [awaitingDispatchLabel]]
        else tx
      (launchFailed env tx wid item ("github:" ++ exc), false)
    | .ok () =>
      ((tx.answered comment).log env wid "operator_launch" item.state
        ("operator=" ++ operator ++ "; cap=" ++ formatFixed 0 item.acuCap) "operator", true)

theorem launchReserve_eq (env : Env) (tx : Tx) (wid issue : Nat) (item : WorkItem) (operator : String)
    (answers : LaunchAnswers) :
    launchReserve env tx wid issue item operator answers = match launchApprove env tx wid issue item
    operator answers with
      | (tx, false) => (tx, false)
      | (tx, true) => if dispatchAllowed item.severity answers.labels then (reserve env tx wid, true)
        else (launchFailed env tx wid item "dispatch_not_allowed_after_labeling", false) := by
  unfold launchReserve launchApprove
  dsimp only
  cases (if (item.severity ∉ defaultDispatchSeverities : Bool) then answers.approved else .ok ()) with
  | error exc => rfl
  | ok _ => cases answers.commented <;> rfl

/-- The answers of all calls of a launch: those of `launch` with the labels read back, Devin's answers to the search and
to the creation, and the comment of a new session; and the database as the search and the creation find it. -/
structure LaunchCalls where
  listed : Option (List Issue)
  created : Except String Issue
  approved : Except String Unit
  commented : Except String Unit
  labels : Except String (List String)
  remote : Except String (List SessionSnapshot)
  session : Except String SessionSnapshot
  noted : Except String Unit
  atSearch : Db
  atCreation : Db

def LaunchCalls.answers (calls : LaunchCalls) : LaunchAnswers :=
  { listed := calls.listed, created := calls.created, approved := calls.approved, commented := calls.commented
    labels := calls.labels.toOption.getD [] }

inductive LaunchEnd where
  /-- The launch was not eligible, or the item got no issue. -/
  | refused
  | failed
  | raised
  | adopted
  | created
  deriving DecidableEq, Repr

/-- `_dispatch_one`, after the reservation. -/
def dispatchOne (env : Env) (tx : Tx) (wid : Nat) (calls : LaunchCalls) : List Effect × LaunchEnd :=
  match adoptTagged env { tx with db := calls.atSearch } wid false calls.remote with
  | (tx, some (.creating _ members)) =>
    ((createSession env { tx with db := calls.atCreation } wid members calls.session calls.noted).effects,
      if calls.session.toOption.isSome then .created else .failed)
  | (tx, _) => (tx.effects, if calls.remote.toOption.isSome then .adopted else .failed)

/-- `launch`: what it does on GitHub and Devin, and how it ends. Only the reading of the labels may raise out of it;
where it does not, the transaction is that of the controller's step. -/
def operatorLaunch (env : Env) (db : Db) (wid : Nat) (operator : String) (calls : LaunchCalls) :
    List Effect × LaunchEnd :=
  match launchIssue env { db := db } wid operator calls.answers with
  | (tx, none) => (tx.effects, .refused)
  | (tx, some (issue, item)) =>
    match launchApprove env tx wid issue item operator calls.answers, calls.labels with
    | (tx, false), _ => (tx.effects, .failed)
    | (tx, true), .error _ => (tx.effects, .raised)
    | (_, true), .ok _ =>
      match launch env { db := db } wid operator calls.answers with
      | (tx, true) => dispatchOne env tx wid calls
      | (tx, false) => (tx.effects, .failed)

/-! ## The label on the issue -/

/-- The labels of an issue after a call. -/
def relabeled (issue : Nat) (labels : List String) : Call → List String
  | .addLabels n new => if n = issue then labels ++ new else labels
  | .removeLabel n label => if n = issue then labels.filter (· ≠ label) else labels
  | _ => labels

/-- The approval is on the issue after the calls. -/
def Approved (issue : Nat) (labels : List String) (calls : List Call) : Prop :=
  HumanLabel.dispatchApproved.value ∈ calls.foldl (relabeled issue) labels

/-- The calls of an effect that take effect: of a group whose exceptions are caught a first part, which is not empty
where the group begins with the removal of the approval. -/
def Effect.Ran : Effect → List Call → Prop
  | .must call, done => done = [call]
  | .answered call, done => done = [call]
  | .attempt calls, done => done <+: calls ∧
      ((∃ n rest, calls = .removeLabel n HumanLabel.dispatchApproved.value :: rest) → done ≠ [])

/-- The calls of a unit that take effect. -/
inductive Ran : List Effect → List Call → Prop
  | nil : Ran [] []
  | cons {e : Effect} {es : List Effect} {done rest : List Call} (h : e.Ran done) (hrest : Ran es rest) :
      Ran (e :: es) (done ++ rest)

/-- The call leaves the approval as it is. -/
def Call.sparesApproval : Call → Prop
  | .addLabels _ labels => HumanLabel.dispatchApproved.value ∉ labels
  | .removeLabel _ label => label ≠ HumanLabel.dispatchApproved.value
  | _ => True

theorem Call.spares_of_syncs {call : Call} (h : call.syncsLabel) : call.sparesApproval := by
  cases call with
  | addLabels n labels =>
    rw [show labels = _ from h]
    show HumanLabel.dispatchApproved.value ∉ [HumanLabel.needsHuman.value]
    decide
  | removeLabel n label =>
    rw [show label = _ from h]
    show HumanLabel.needsHuman.value ≠ HumanLabel.dispatchApproved.value
    decide
  | _ => trivial

section Labels

variable {issue : Nat} {labels : List String} {es es' : List Effect} {done : List Call}

theorem approved_append (calls calls' : List Call) :
    Approved issue labels (calls ++ calls') ↔ Approved issue (calls.foldl (relabeled issue) labels) calls' := by
  rw [Approved, Approved, List.foldl_append]

theorem approved_spared {calls : List Call} (h : ∀ call ∈ calls, call.sparesApproval) :
    Approved issue labels calls ↔ HumanLabel.dispatchApproved.value ∈ labels := by
  unfold Approved
  induction calls generalizing labels with
  | nil => rfl
  | cons call calls ih =>
    rw [List.foldl_cons, ih fun c hc => h c (List.mem_cons_of_mem _ hc)]
    have hcall := h call List.mem_cons_self
    cases call with
    | addLabels n new =>
      dsimp only [relabeled]
      split
      · rw [List.mem_append, or_iff_left hcall]
      · rfl
    | removeLabel n label =>
      dsimp only [relabeled]
      split
      · rw [List.mem_filter, and_iff_left (by simpa using Ne.symm hcall)]
      · rfl
    | _ => rfl

/-- What takes effect are calls of the unit. -/
theorem Ran.calls (h : Ran es done) : ∀ call ∈ done, ∃ e ∈ es, call ∈ e.calls := by
  induction h with
  | nil => simp
  | @cons e es done rest he _ ih =>
    intro call hcall
    rcases List.mem_append.mp hcall with hcall | hcall
    · refine ⟨e, List.mem_cons_self, ?_⟩
      cases e with
      | must c => rwa [show done = [c] from he] at hcall
      | answered c => rwa [show done = [c] from he] at hcall
      | attempt calls => exact he.1.subset hcall
    · obtain ⟨e', he', hmem⟩ := ih call hcall
      exact ⟨e', List.mem_cons_of_mem _ he', hmem⟩

theorem Ran.append_inv (h : Ran (es ++ es') done) : ∃ d d', done = d ++ d' ∧ Ran es d ∧ Ran es' d' := by
  induction es generalizing done with
  | nil => exact ⟨[], done, rfl, .nil, h⟩
  | cons e es ih =>
    cases h with
    | cons he hrest =>
      obtain ⟨d, d', rfl, hd, hd'⟩ := ih hrest
      exact ⟨_, d', (List.append_assoc ..).symm, .cons he hd, hd'⟩

theorem Ran.spares (h : Ran es done) (hes : ∀ e ∈ es, ∀ call ∈ e.calls, call.sparesApproval) :
    ∀ call ∈ done, call.sparesApproval := by
  intro call hcall
  obtain ⟨e, he, hmem⟩ := h.calls call hcall
  exact hes e he call hmem

/-- An approval that nothing takes away stays. -/
theorem Ran.kept (h : Ran (es ++ .answered (.addLabels issue [HumanLabel.dispatchApproved.value]) :: es') done)
    (hes : ∀ e ∈ es', ∀ call ∈ e.calls, call.sparesApproval) : Approved issue labels done := by
  obtain ⟨d, d', rfl, _, hd'⟩ := h.append_inv
  cases hd' with
  | @cons _ _ x rest hadd hrest =>
    rw [approved_append, show x = [_] from hadd, approved_append, approved_spared (hrest.spares hes)]
    show _ ∈ if issue = issue then _ ++ [HumanLabel.dispatchApproved.value] else _
    rw [if_pos rfl]
    exact List.mem_append_right _ List.mem_cons_self

/-- An approval that the last group begins by taking away is gone. -/
theorem Ran.revoked {calls : List Call}
    (h : Ran (es ++ [.attempt (.removeLabel issue HumanLabel.dispatchApproved.value :: calls)]) done)
    (hcalls : ∀ call ∈ calls, call.sparesApproval) : ¬ Approved issue labels done := by
  obtain ⟨d, d', rfl, _, hd'⟩ := h.append_inv
  cases hd' with
  | @cons _ _ x rest hrun hnil =>
    cases hnil
    obtain ⟨hpre, hne⟩ := hrun
    cases x with
    | nil => exact absurd rfl (hne ⟨issue, calls, rfl⟩)
    | cons call x =>
      obtain ⟨rfl, hx⟩ := List.cons_prefix_cons.mp hpre
      rw [List.append_nil, approved_append, Approved, List.foldl_cons, ← Approved,
        approved_spared fun c hc => hcalls c (hx.subset hc)]
      show ¬ _ ∈ if issue = issue then List.filter _ _ else _
      rw [if_pos rfl]
      intro hmem
      simpa using (List.mem_filter.mp hmem).2

/-- All calls may take effect. -/
theorem ran_all (es : List Effect) : Ran es (es.flatMap Effect.calls) := by
  induction es with
  | nil => exact .nil
  | cons e es ih =>
    refine .cons ?_ ih
    cases e with
    | must call => exact rfl
    | answered call => exact rfl
    | attempt calls =>
      refine ⟨List.prefix_refl _, ?_⟩
      rintro ⟨n, rest, rfl⟩ hnil
      cases hnil

end Labels

/-! ## What a launch leaves on the issue -/

section Launch

variable {env : Env} {tx t : Tx} {wid : Nat} {item : WorkItem} {operator : String}

theorem reserve_spares : Makes Call.sparesApproval tx (reserve env tx wid) := .wi (fun _ => Call.spares_of_syncs) ..

theorem dispatchFailed_spares (reason : String) : Makes Call.sparesApproval tx (dispatchFailed env tx wid reason) := by
  have hcount : Makes Call.sparesApproval tx
      (tx.modifyItem wid fun w => { w with dispatchFailures := w.dispatchFailures + 1 }) := .of_same rfl
  unfold dispatchFailed
  dsimp only
  split
  · exact hcount.trans (.wi (fun _ => Call.spares_of_syncs) ..)
  · exact hcount.trans (.wi (fun _ => Call.spares_of_syncs) ..)

theorem recordSession_effects (snap : SessionSnapshot) (adopted : Bool) :
    (recordSession env tx wid snap adopted).effects = tx.effects := by
  unfold recordSession
  split
  · rfl
  · dsimp only
    split <;> rfl

theorem adoptTagged_spares (recovering : Bool) (remote : Except String (List SessionSnapshot)) :
    Makes Call.sparesApproval tx (adoptTagged env tx wid recovering remote).1 := by
  unfold adoptTagged
  dsimp only
  split
  · exact dispatchFailed_spares _
  · split
    · exact (Makes.of_same (recordSession_effects _ _)).trans (.wi (fun _ => Call.spares_of_syncs) ..)
    · split
      · exact dispatchFailed_spares _
      · exact .refl tx

theorem createSession_spares (members : List (Nat × Finding)) (answer : Except String SessionSnapshot)
    (commented : Except String Unit) :
    Makes Call.sparesApproval tx (createSession env tx wid members answer commented) := by
  unfold createSession
  split
  · exact dispatchFailed_spares _
  · rename_i snap
    dsimp only
    generalize hstarted : List.foldl (startRemediation env snap.sessionId) _ members = t
    have ht : Makes Call.sparesApproval tx t := by
      rw [← hstarted]
      have hcreate (cap : Acu) : Makes Call.sparesApproval tx (tx.answered (.createSession wid cap)) :=
        .answered trivial
      refine (((hcreate _).trans (.of_same (recordSession_effects snap false))).trans
        (.wi (fun _ => Call.spares_of_syncs) ..)).trans (.foldl members (fun t m _ => ?_) _)
      exact .findingFrom ..
    split
    · exact ht
    · split
      · exact ht.trans (.answered trivial)
      · exact ht.trans (.of_same rfl)
      · exact ht

theorem dispatchOne_spares (calls : LaunchCalls) :
    ∃ l, (dispatchOne env tx wid calls).1 = tx.effects ++ l ∧ ∀ e ∈ l, ∀ call ∈ e.calls, call.sparesApproval := by
  have hsearch := @adoptTagged_spares env { tx with db := calls.atSearch } wid false calls.remote
  unfold dispatchOne
  split
  · rename_i t _ members hadopt
    rw [hadopt] at hsearch
    exact hsearch.trans (createSession_spares members calls.session calls.noted : Makes _
      { t with db := calls.atCreation } _)
  · rename_i t _ _ hadopt
    rw [hadopt] at hsearch
    exact hsearch

/-- A launch whose comment raises ends by taking the approval away. -/
theorem launchApprove_failed {issue : Nat} {answers : LaunchAnswers} {exc : String}
    (hseverity : item.severity ∉ defaultDispatchSeverities) (happroved : answers.approved = .ok ())
    (hcommented : answers.commented = .error exc) :
    (launchApprove env tx wid issue item operator answers).2 = false ∧
    (launchApprove env tx wid issue item operator answers).1.effects = tx.effects ++
      [.answered (.addLabels issue [HumanLabel.dispatchApproved.value]),
       .attempt [.removeLabel issue awaitingDispatchLabel]] ++
      [.attempt [.removeLabel issue HumanLabel.dispatchApproved.value, .addLabels issue [awaitingDispatchLabel]]] := by
  unfold launchApprove
  simp only [hseverity, happroved, hcommented, not_false_eq_true, decide_true, if_true]
  simp [launchFailed, Tx.log, Tx.event, Tx.attempt, Tx.answered]

/-- A launch whose comment is made goes on with the approval on the issue. -/
theorem launchApprove_made {issue : Nat} {answers : LaunchAnswers}
    (hseverity : item.severity ∉ defaultDispatchSeverities) (happroved : answers.approved = .ok ())
    (hcommented : answers.commented = .ok ()) :
    (launchApprove env tx wid issue item operator answers).2 = true ∧ ∃ l,
    (launchApprove env tx wid issue item operator answers).1.effects = tx.effects ++
      .answered (.addLabels issue [HumanLabel.dispatchApproved.value]) :: l ∧
      ∀ e ∈ l, ∀ call ∈ e.calls, call.sparesApproval := by
  unfold launchApprove
  simp only [hseverity, happroved, hcommented, not_false_eq_true, decide_true, if_true]
  have hawaiting : ∀ call ∈ [Call.removeLabel issue awaitingDispatchLabel], call.sparesApproval := by
    intro call hcall
    rw [List.mem_singleton.mp hcall]
    show awaitingDispatchLabel ≠ HumanLabel.dispatchApproved.value
    decide
  have hrest (comment : String) (t : Tx) (ht : t.effects = ((tx.answered (.addLabels issue
      [HumanLabel.dispatchApproved.value])).attempt [.removeLabel issue awaitingDispatchLabel] |>.answered
      (.commentIssue issue comment)).effects) :
      Makes Call.sparesApproval (tx.answered (.addLabels issue [HumanLabel.dispatchApproved.value])) t :=
    have hcomment (t : Tx) : Makes Call.sparesApproval t (t.answered (.commentIssue issue comment)) := .answered trivial
    ((Makes.attempt hawaiting).trans (hcomment _)).trans (.of_same ht)
  obtain ⟨l, hl, hall⟩ := hrest _ _ rfl
  exact ⟨trivial, l, hl.trans (List.append_assoc ..), hall⟩

end Launch

/-- The issue that a launch puts the approval on, and the severity of its item. -/
def approves (env : Env) (db : Db) (wid : Nat) (operator : String) (calls : LaunchCalls) : Option (Nat × Severity) :=
  match launchIssue env { db := db } wid operator calls.answers with
  | (_, some (issue, item)) =>
    if item.severity ∈ defaultDispatchSeverities then none else calls.approved.toOption.map fun _ =>
      (issue, item.severity)
  | (_, none) => none

/-- A failed launch leaves no approval behind: whatever labels were on the issue and whichever of the caught calls take
effect, the label it added is gone and the scheduler skips the item. -/
def LeavesNoApproval (env : Env) (db : Db) (wid : Nat) (operator : String) (calls : LaunchCalls) : Prop :=
  ∀ issue severity, approves env db wid operator calls = some (issue, severity) →
    (operatorLaunch env db wid operator calls).2 ≠ .adopted → (operatorLaunch env db wid operator calls).2 ≠ .created →
    ∀ labels done, Ran (operatorLaunch env db wid operator calls).1 done →
      ¬ Approved issue labels done ∧
      ∀ env' tx', (dispatchCandidate env' tx' wid issue severity (done.foldl (relabeled issue) labels)).2 = .skipped

/-- Devin gives the launch a session: the labels are read back with the approval, and a session is adopted or
created. -/
def LaunchCalls.GetsSession (calls : LaunchCalls) (wid : Nat) : Prop :=
  (∃ labels, calls.labels = .ok labels ∧ HumanLabel.dispatchApproved.value ∈ labels) ∧
  ∃ sessions, calls.remote = .ok sessions ∧
    ((∃ s ∈ sessions, adoptableSession calls.atSearch wid s = true) ∨ ∃ snap, calls.session = .ok snap)

theorem dispatchCandidate_unapproved {severity : Severity} {labels : List String}
    (hseverity : severity ∉ defaultDispatchSeverities)
    (h : HumanLabel.dispatchApproved.value ∉ labels) (env : Env) (tx : Tx) (wid issue : Nat) :
    (dispatchCandidate env tx wid issue severity labels).2 = .skipped := by
  have hallowed : dispatchAllowed severity labels = false := by simp [dispatchAllowed, hseverity, h]
  unfold dispatchCandidate
  rw [hallowed]
  rfl

theorem newestSession_isSome (sessions : List SessionSnapshot) : (newestSession sessions).isSome ↔ sessions ≠ [] := by
  cases sessions <;> simp [newestSession]

/-- A dispatch starts a session exactly when one is adoptable or Devin creates one. -/
theorem dispatchOne_starts {env : Env} {tx : Tx} {wid : Nat} {calls : LaunchCalls} :
    ((dispatchOne env tx wid calls).2 = .adopted ∨ (dispatchOne env tx wid calls).2 = .created) ↔
      ∃ sessions, calls.remote = .ok sessions ∧
        ((∃ s ∈ sessions, adoptableSession calls.atSearch wid s = true) ∨ ∃ snap, calls.session = .ok snap) := by
  unfold dispatchOne
  cases hremote : calls.remote with
  | error exc => simp [adoptTagged, Except.toOption]
  | ok sessions =>
    have hadoptable : (adoptedSession calls.atSearch wid sessions).isSome ↔
        ∃ s ∈ sessions, adoptableSession calls.atSearch wid s = true := by
      simp [adoptedSession, newestSession_isSome, List.filter_eq_nil_iff]
    rw [adoptTagged_eq]
    simp only [Except.ok.injEq, exists_eq_left', ← hadoptable]
    cases adoptedSession calls.atSearch wid sessions with
    | some snap => simp [Except.toOption]
    | none => cases calls.session <;> simp [Except.toOption]

section Launch

variable {env : Env} {db : Db} {tx : Tx} {wid issue : Nat} {item : WorkItem} {operator : String} {calls : LaunchCalls}

/-- A launch whose comment raises takes the approval away. -/
theorem operatorLaunch_revokes {exc : String} {done : List Call}
    (hissue : launchIssue env { db := db } wid operator calls.answers = (tx, some (issue, item)))
    (hseverity : item.severity ∉ defaultDispatchSeverities) (happroved : calls.approved = .ok ())
    (hcommented : calls.commented = .error exc) (h : Ran (operatorLaunch env db wid operator calls).1 done) :
    ∀ labels, ¬ Approved issue labels done := by
  intro labels
  obtain ⟨hfailed, heffects⟩ :=
    @launchApprove_failed env tx wid item operator issue calls.answers exc hseverity happroved
    hcommented
  have hawaiting : ∀ call ∈ [Call.addLabels issue [awaitingDispatchLabel]], call.sparesApproval := by
    intro call hcall
    rw [List.mem_singleton.mp hcall]
    show HumanLabel.dispatchApproved.value ∉ [awaitingDispatchLabel]
    decide
  have hend : (operatorLaunch env db wid operator calls).1 =
      (launchApprove env tx wid issue item operator calls.answers).1.effects := by
    unfold operatorLaunch
    rw [hissue]
    dsimp only
    generalize launchApprove env tx wid issue item operator calls.answers = failed at hfailed
    obtain ⟨t, made⟩ := failed
    obtain rfl : made = false := hfailed
    rfl
  rw [hend, heffects] at h
  exact h.revoked hawaiting

/-- A launch that gets as far as the labels goes by them. -/
theorem launch_approved {t : Tx}
    (hissue : launchIssue env { db := db } wid operator calls.answers = (tx, some (issue, item)))
    (hmade : launchApprove env tx wid issue item operator calls.answers = (t, true)) :
    launch env { db := db } wid operator calls.answers =
      if dispatchAllowed item.severity calls.answers.labels then (reserve env t wid, true)
      else (launchFailed env t wid item "dispatch_not_allowed_after_labeling", false) := by
  rw [launch_eq, hissue]
  dsimp only
  rw [launchReserve_eq, hmade]

/-- A launch whose comment is made keeps the approval on the issue; it starts a session exactly when Devin gives it
one. -/
theorem operatorLaunch_keeps
    (hissue : launchIssue env { db := db } wid operator calls.answers = (tx, some (issue, item)))
    (hseverity : item.severity ∉ defaultDispatchSeverities) (happroved : calls.approved = .ok ())
    (hcommented : calls.commented = .ok ()) :
    (∀ labels done, Ran (operatorLaunch env db wid operator calls).1 done → Approved issue labels done) ∧
    (((operatorLaunch env db wid operator calls).2 = .adopted ∨
      (operatorLaunch env db wid operator calls).2 = .created) ↔
      calls.GetsSession wid) := by
  obtain ⟨hmade, l, heffects, hl⟩ :=
    @launchApprove_made env tx wid item operator issue calls.answers hseverity happroved
    hcommented
  unfold operatorLaunch LaunchCalls.GetsSession
  rw [hissue]
  dsimp only
  generalize happrove : launchApprove env tx wid issue item operator calls.answers = approved at hmade heffects ⊢
  obtain ⟨t, made⟩ := approved
  obtain rfl : made = true := hmade
  -- Nothing after the label takes it away again.
  have hkept (t' : List Effect) (hmore : ∃ l', t' = t.effects ++ l' ∧ ∀ e ∈ l', ∀ call ∈ e.calls, call.sparesApproval)
      (labels : List String) (done : List Call) (h : Ran t' done) : Approved issue labels done := by
    obtain ⟨l', rfl, hl'⟩ := hmore
    rw [heffects, List.append_assoc, List.cons_append] at h
    exact h.kept fun e he => (List.mem_append.mp he).elim (hl e) (hl' e)
  cases hlabels : calls.labels with
  | error exc => exact ⟨hkept _ ⟨[], (List.append_nil _).symm, by simp⟩, by simp⟩
  | ok labels =>
    have hanswers : calls.answers.labels = labels := by rw [LaunchCalls.answers, hlabels]; rfl
    have hallowed : dispatchAllowed item.severity labels = true ↔ HumanLabel.dispatchApproved.value ∈ labels := by
      simp [dispatchAllowed, hseverity]
    dsimp only
    rw [launch_approved hissue happrove, hanswers]
    by_cases hread : HumanLabel.dispatchApproved.value ∈ labels
    · rw [if_pos (hallowed.mpr hread)]
      dsimp only
      rw [dispatchOne_starts]
      obtain ⟨r, hr, hrspares⟩ := @reserve_spares env t wid
      obtain ⟨l', hl', hspares⟩ := @dispatchOne_spares env (reserve env t wid) wid calls
      refine ⟨hkept _ ⟨r ++ l', by rw [hl', hr, List.append_assoc], fun e he => ?_⟩, ?_⟩
      · exact (List.mem_append.mp he).elim (hrspares e) (hspares e)
      · simp [hread]
    · rw [if_neg (hread ∘ hallowed.mp)]
      exact ⟨hkept _ ⟨[], by simp [launchFailed, Tx.log, Tx.event], by simp⟩, by simp [hread]⟩

end Launch

/-- **An operator's launch that starts no session leaves no approval behind** exactly when its comment raises: only then
is the label taken away. A launch that puts no label on the issue has nothing to take away. -/
theorem approval_revoked_iff (env : Env) (db : Db) (wid : Nat) (operator : String) (calls : LaunchCalls) :
    LeavesNoApproval env db wid operator calls ↔
      (approves env db wid operator calls ≠ none → (∃ exc, calls.commented = .error exc) ∨ calls.GetsSession wid) := by
  rcases hissue : launchIssue env { db := db } wid operator calls.answers with ⟨tx, _ | ⟨issue, item⟩⟩
  · simp [LeavesNoApproval, approves, hissue]
  by_cases hseverity : item.severity ∈ defaultDispatchSeverities
  · simp [LeavesNoApproval, approves, hissue, hseverity]
  match happroved : calls.approved with
  | .error exc => simp [LeavesNoApproval, approves, hissue, happroved, Except.toOption]
  | .ok () =>
    have happroves : approves env db wid operator calls = some (issue, item.severity) := by
      simp [approves, hissue, hseverity, happroved, Except.toOption]
    unfold LeavesNoApproval
    simp only [happroves, Option.some.injEq, Prod.mk.injEq, ne_eq, reduceCtorEq, not_false_eq_true, forall_const]
    match hcommented : calls.commented with
    | .error exc =>
      refine iff_of_true ?_ (.inl ⟨exc, rfl⟩)
      rintro _ _ ⟨rfl, rfl⟩ _ _ labels done hdone
      have hgone := operatorLaunch_revokes hissue hseverity happroved hcommented hdone labels
      exact ⟨hgone, fun env' tx' => dispatchCandidate_unapproved hseverity hgone env' tx' wid issue⟩
    | .ok () =>
      obtain ⟨hkept, hstarts⟩ := operatorLaunch_keeps hissue hseverity happroved hcommented
      constructor
      · intro h
        refine .inr (hstarts.mp ?_)
        by_contra hends
        obtain ⟨hadopted, hcreated⟩ := not_or.mp hends
        have hall := ran_all (operatorLaunch env db wid operator calls).1
        exact (h issue item.severity ⟨rfl, rfl⟩ hadopted hcreated [] _ hall).1 (hkept [] _ hall)
      · rintro (⟨exc, hexc⟩ | hsession)
        · cases hexc
        · rintro _ _ _ hadopted hcreated
          exact ((hstarts.mpr hsession).elim hadopted hcreated).elim

/-- A package of medium severity; its work item has its issue and waits for an approval. -/
def mediumTrace : List Action :=
  [sampleIngest "1" 10 ((samplePair "CVE-1" "openssl" "1").map fun v => { v with severity := .medium }), .beginTick,
    .next true none, .applyRun 11 linearCompare, .next true none, .group 11, .next true none,
    .openIssue 11 (some []) (.ok sampleIssue), .stop]

/-- A launch of it that Devin refuses a session. -/
def refusedLaunch : LaunchCalls :=
  let s := sampleState (mediumTrace ++ [.launch 12 1 "ops" { listed := none, created := .error "", approved := .ok ()
                                                             commented := .ok ()
                                                             labels := [HumanLabel.dispatchApproved.value] }])
  { listed := none, created := .error "", approved := .ok (), commented := .ok ()
    labels := .ok [HumanLabel.dispatchApproved.value], remote := .ok [], session := .error "503", noted := .ok ()
    atSearch := s.db, atCreation := s.db }

/-- The creation of the session fails and the approval stays on the issue; the next tick dispatches the item. -/
theorem approval_left :
    let s := sampleState mediumTrace
    let env := sampleController.env 12
    Reachable sampleController s ∧ (operatorLaunch env s.db 1 "ops" refusedLaunch).2 = .failed ∧
      ¬ LeavesNoApproval env s.db 1 "ops" refusedLaunch ∧
      (sampleState (mediumTrace ++ [.launch 12 1 "ops" refusedLaunch.answers, .adopt 12 (.ok []),
        .create 12 (.error "503") (.ok ()), .beginTick, .next true none, .next true none, .group 13, .next true none,
        .next true none, .next true none, .dispatch 13 [HumanLabel.dispatchApproved.value]])).db.itemState 1 =
        some .dispatching := by
  refine ⟨sampleState_reachable _, by decide +kernel, fun h => ?_, by decide +kernel⟩
  have hgone := (h 7 .medium (by decide +kernel) (by decide +kernel) (by decide +kernel) [] _ (ran_all _)).1
  refine hgone ?_
  unfold Approved
  decide +kernel

end HardeningLoop
