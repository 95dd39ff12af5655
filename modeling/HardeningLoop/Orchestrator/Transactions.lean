import HardeningLoop.Orchestrator.Engine.Phases
import HardeningLoop.Orchestrator.System

/-!
# What a step of the controller commits

Every step of the machine commits the work of units, the evaluation of a run (units, and the mark that the run was
applied), or an ingested run.

- `exec_commits`: that, with the scope of the action: only a dispatch or a launch reserves an item, and only the
  polls of sessions and pull requests observe a pull request.
-/

namespace HardeningLoop

open Rows (Table)

/-- Only two actions reserve an item for a session, and two others observe pull requests. -/
def Action.scope : Action → Scope
  | .dispatch .. | .launch .. => .reserving
  | .pollSession .. | .pollPullRequest .. => .unreserving
  | _ => .unobserving

/-- The step may insert work items. -/
def Action.inserts : Action → Prop
  | .group _ => True
  | _ => False

/-- What the step may do besides. -/
def Action.deeds : Action → Deed → Prop
  | .launch .. => (· ∈ [Deed.bind, .retry])
  | .openIssue .. => (· = .bind)
  | .pollSession .. => (· = .record)
  | .pollPullRequest .. => (· ∈ [Deed.settle, .retry])
  | .pollHumanLabel .. => (· = .retry)
  | .applyRun .. => (· ∈ [Deed.settle, .reopen])
  | .create .. => (· = .recall)
  | _ => fun _ => False

/-- The scope of the step with what few steps do. -/
def Action.licence (a : Action) : Scope := { a.scope with inserts := a.inserts, deeds := a.deeds }

theorem Action.licence_within_scope (a : Action) : a.licence.Within a.scope := by
  refine ⟨fun _ h => h, fun _ => ?_, fun _ h => h, fun _ h => h, fun h => h, fun _ _ => ?_⟩
  all_goals cases a <;> trivial

/-! A unit of one item has the licence of its action. -/

theorem Scope.reservation_within_licence (now : DateTime) (labels : List String) (wid : Nat) :
    (Scope.reservation wid).Within (Action.dispatch now labels).licence :=
  ⟨fun _ h => h, id, fun _ _ => trivial, fun _ _ => trivial, id, fun _ h => h⟩

theorem Scope.launching_within_licence (now : DateTime) (wid : Nat) (operator : String) (answers : LaunchAnswers) :
    (Scope.launching wid).Within (Action.launch now wid operator answers).licence :=
  ⟨fun _ h => h, id, fun _ _ => trivial, fun _ _ => trivial, id, fun _ h => h⟩

theorem Scope.report_within_licence (now : DateTime) (wid : Nat) (sid : String) (snap : SessionSnapshot)
    (answers : SessionAnswers) : (Scope.report wid).Within (Action.pollSession now wid sid snap answers).licence :=
  ⟨fun _ h => h, id, fun _ _ => trivial, fun _ _ => trivial, id, fun _ h => h⟩

theorem Scope.pull_within_licence (now : DateTime) (wid number : Nat) (pr : PullRequestInfo) (checks : List CheckRun)
    (answers : PrAnswers) (F : Nat → Prop) :
    (Scope.pull wid F).Within (Action.pollPullRequest now wid number pr checks answers).licence :=
  ⟨fun _ h => h, id, fun _ _ => trivial, fun _ _ => trivial, id, fun _ h => h⟩

theorem Scope.grouping_within_licence (now : DateTime) : Scope.grouping.Within (Action.group now).licence :=
  ⟨fun _ h => h.elim, id, fun _ _ => trivial, fun _ _ => trivial, id, fun _ h => h⟩

/-- The step ingests a run or applies one. -/
def Action.brings : Action → Bool
  | .ingest .. | .applyRun .. => true
  | _ => false

/-- The run is marked as applied. -/
def Db.markApplied (db : Db) (rid : Nat) (now : DateTime) : Db :=
  { db with scanRuns := db.scanRuns.modify rid fun r => { r with closureAppliedAt := some now } }

/-- The step commits the work of units. -/
def Worked (S : Scope) (db db' : Db) : Prop := ∃ (env : Env) (tx : Tx), Acts env S { db := db } tx ∧ tx.db = db'

namespace Worked

variable {S : Scope} {db : Db}

theorem idle (env : Env) : Worked S db db := ⟨env, { db := db }, .refl, rfl⟩

theorem of_acts {env : Env} {tx : Tx} (h : Acts env S { db := db } tx) : Worked S db tx.db := ⟨env, tx, h, rfl⟩

theorem widen {S' : Scope} {db' : Db} (hS : S.Within S') (h : Worked S db db') : Worked S' db db' := by
  obtain ⟨env, tx, h, rfl⟩ := h
  exact of_acts (h.widen hS)

end Worked

/-- What a step commits. -/
inductive Commits (c : Controller) (S : Scope) (db : Db) : Db → Prop
  | units {env : Env} {tx : Tx} (h : Acts env S { db := db } tx) : Commits c S db tx.db
  | evaluation {env : Env} {tx : Tx} (h : Acts env S { db := db } tx) (rid : Nat) :
      Commits c S db (tx.db.markApplied rid env.now)
  | ingested {run : RunMeta} {jobs : List ScanJobEvidence} {upperBounds : List (String × String)} {now : DateTime}
      {db' : Db} {result : IngestResult} (h : ingestRun c.ext db run jobs upperBounds now = .ok (db', result)) :
      Commits c S db db'

namespace Commits

variable {c : Controller} {S : Scope} {db db' : Db}

theorem worked (h : Worked S db db') : Commits c S db db' := by
  obtain ⟨env, tx, h, rfl⟩ := h
  exact .units h

theorem widen {S' : Scope} (hS : S.Within S') (h : Commits c S db db') : Commits c S' db db' := by
  cases h with
  | units h => exact .units (h.widen hS)
  | evaluation h rid => exact .evaluation (h.widen hS) rid
  | ingested h => exact .ingested h

end Commits

section Steps

variable {c : Controller} {s : Sys}

/-- What an evaluation does to close, reopen and retire. -/
theorem evaluation_does (env : Env) (cmp : Compare) (ev : Evidence) (tx : Tx) :
    Acts env (.sweeping (· ∈ [Deed.settle, .reopen])) tx
      (drift env ev (regressions env cmp ev (closeItems env cmp ev tx))) := by
  refine .trans (.trans ((@closeItems_does env cmp ev tx).widen (Scope.sweeping_within_sweeping ?_)) ?_)
    ((drift_does env ev _).widen (Scope.sweeping_within_sweeping fun _ h => h.elim))
  · rintro _ rfl
    exact List.mem_cons_self
  · refine (regressions_does env cmp ev _).widen
      ((Scope.reopening_within_sweeping _).trans (Scope.sweeping_within_sweeping ?_))
    rintro _ rfl
    exact List.mem_cons_of_mem _ List.mem_cons_self

theorem applyScanRun_commits (env : Env) (cmp : Compare) (rid : Nat) (db : Db) :
    Commits c (.sweeping (· ∈ [Deed.settle, .reopen])) db (applyScanRun env cmp rid { db := db }).db := by
  unfold applyScanRun
  split
  · rename_i ev _
    split
    · exact .worked (.idle env)
    · exact .evaluation (evaluation_does env cmp ev { db := db }) ev.rid
  · exact .worked (.idle env)

theorem stepGroup_worked (env : Env) : Worked .grouping s.db (stepGroup env s).db := by
  unfold stepGroup
  split
  · exact .of_acts (groupFindings_does env _ _ _ _ _)
  · exact .idle env

theorem stepOpen_worked (env : Env) (relisted : Option (List Issue)) (created : Except String Issue) :
    Worked (.sweeping (· = .bind)) s.db (stepOpen env relisted created s).db := by
  unfold stepOpen
  split
  · dsimp only
    split
    · exact .of_acts ((openIssue_does env _ _ _ _ _).widen (Scope.binding_within_sweeping _))
    · exact .idle env
  · exact .idle env

theorem stepRecover_worked (env : Env) : Worked (.sweeping fun _ => False) s.db (stepRecover env s).db := by
  unfold stepRecover
  split
  · dsimp only
    split
    · exact .of_acts ((recover_does env _ _).widen (Scope.item_within_sweeping ..))
    · exact .idle env
  · exact .idle env

theorem stepDispatch_worked (env : Env) (labels : List String) (now : DateTime) :
    Worked (Action.dispatch now labels).licence s.db (stepDispatch env labels s).db := by
  unfold stepDispatch
  split
  · exact .of_acts ((dispatchCandidate_acts env _ _ _ _ _).widen (Scope.reservation_within_licence now labels _))
  · exact .idle env

theorem stepAdopt_worked (env : Env) (remote : Except String (List SessionSnapshot)) :
    Worked (.sweeping fun _ => False) s.db (stepAdopt env remote s).db := by
  unfold stepAdopt
  split
  · exact .of_acts ((adoptTagged_does env _ _ _ _).widen (Scope.item_within_sweeping ..))
  · exact .idle env

theorem stepCreate_worked (env : Env) (answer : Except String SessionSnapshot) (commented : Except String Unit) :
    Worked (.sweeping (· = .recall)) s.db (stepCreate env answer commented s).db := by
  unfold stepCreate
  split
  · exact .of_acts (createSession_does env _ _ _ _ _)
  · exact .idle env

theorem stepCancel_worked (env : Env) (answer : Except String SessionSnapshot) :
    Worked (.sweeping fun _ => False) s.db (stepCancel env answer s).db := by
  unfold stepCancel
  split
  · exact .of_acts ((cancelAnswer_does env _ _ _ _ _).widen (Scope.item_within_sweeping ..))
  · exact .idle env

theorem stepFree_worked {a : Action} (ha : a.brings = false) : Worked a.licence s.db (stepFree c s a).db := by
  cases a with
  | beginTick => dsimp only [stepFree]; split <;> exact .idle (c.env 0)
  | pollSession now wid sid snap answers =>
    have hone : Worked (Action.pollSession now wid sid snap answers).licence s.db
        (pollSession (c.env now) wid sid snap answers { db := s.db }).db :=
      .of_acts ((pollSession_does (c.env now) wid sid snap answers _).widen (Scope.report_within_licence ..))
    dsimp only [stepFree]
    split
    · exact hone
    · exact hone
    · exact .idle (c.env now)
  | pollPullRequest now wid number pr checks answers =>
    dsimp only [stepFree]
    split
    · exact .of_acts
        ((pollPullRequest_does (c.env now) wid number pr checks answers _).widen (Scope.pull_within_licence ..))
    · exact .idle (c.env now)
  | pollHumanLabel now wid number state labels =>
    dsimp only [stepFree]
    split
    · exact .of_acts
        ((pollHumanLabel_does (c.env now) wid number state labels _).widen (Scope.retrying_within_sweeping ..))
    · exact .idle (c.env now)
  | applyRun now compare => cases ha
  | applyFailed => dsimp only [stepFree]; split <;> exact .idle (c.env 0)
  | group now => exact (stepGroup_worked (c.env now)).widen (Scope.grouping_within_licence now)
  | openIssue now relisted created => exact stepOpen_worked (c.env now) relisted created
  | recover now => exact stepRecover_worked (c.env now)
  | dispatch now labels => exact stepDispatch_worked (c.env now) labels now
  | launch now wid operator answers =>
    dsimp only [stepFree]
    split
    · exact .of_acts ((launch_acts (c.env now) _ wid operator answers).widen (Scope.launching_within_licence ..))
    · exact .idle (c.env now)
  | cancelRequest now wid operator =>
    dsimp only [stepFree]
    split
    · exact .of_acts ((cancelRequest_does (c.env now) _ wid operator).widen (Scope.item_within_sweeping ..))
    · exact .idle (c.env now)
  | next autoDispatch listed => exact .idle (c.env 0)
  | ingest _ _ _ _ => exact .idle (c.env 0)
  | adopt _ _ => exact .idle (c.env 0)
  | create _ _ _ => exact .idle (c.env 0)
  | cancelAnswer _ _ => exact .idle (c.env 0)
  | stop => exact .idle (c.env 0)

/-- A step that neither ingests a run nor applies one does the work of units. -/
theorem exec_licensed (c : Controller) (s : Sys) {a : Action} (ha : a.brings = false) :
    Worked a.licence s.db (exec c s a).db := by
  have hfree : Worked a.licence s.db (if s.flight.isSome then s else stepFree c s a).db := by
    split
    · exact .idle (c.env 0)
    · exact stepFree_worked ha
  cases a with
  | ingest run jobs upperBounds now => cases ha
  | stop => exact .idle (c.env 0)
  | adopt now remote => exact stepAdopt_worked (c.env now) remote
  | create now answer commented => exact stepCreate_worked (c.env now) answer commented
  | cancelAnswer now answer => exact stepCancel_worked (c.env now) answer
  | _ => exact hfree

theorem exec_worked (c : Controller) (s : Sys) {a : Action} (ha : a.brings = false) :
    Worked a.scope s.db (exec c s a).db :=
  (exec_licensed c s ha).widen a.licence_within_scope

/-- **What a step commits**, with what few steps do. -/
theorem exec_commits_licensed (c : Controller) (s : Sys) (a : Action) : Commits c a.licence s.db (exec c s a).db := by
  cases a with
  | ingest run jobs upperBounds now =>
    dsimp only [exec]
    split
    · rename_i h
      exact .ingested h
    · exact .worked (.idle (c.env now))
  | applyRun now compare =>
    dsimp only [exec, stepFree]
    split
    · exact .worked (.idle (c.env now))
    · split
      · exact applyScanRun_commits (c.env now) compare _ _
      · exact .worked (.idle (c.env now))
  | _ => exact .worked (exec_licensed c s rfl)

/-- **What a step commits.** -/
theorem exec_commits (c : Controller) (s : Sys) (a : Action) : Commits c a.scope s.db (exec c s a).db :=
  (exec_commits_licensed c s a).widen a.licence_within_scope

end Steps

end HardeningLoop
