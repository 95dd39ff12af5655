import HardeningLoop.Orchestrator.Intake

/-!
# Nothing is spent while a scan is unapplied

The tick lists the pending runs once and dispatches later; an ingest may commit a run in between.

- `reserves_dispatch`: only a dispatch or a launch reserves an item, and a launch checks for pending runs itself;
- `Held`: in the second half of a tick every run is applied, if no run was committed since the listing (`held_step`);
- `held_run`: in every run in which ingests keep out of that window, no item is reserved while a run is pending.
-/

namespace HardeningLoop

open Rows (Table)

/-- The step reserves a work item. -/
def Reserves (c : Controller) (s : Sys) (a : Action) : Prop :=
  ∃ e ∈ (exec c s a).db.events.drop s.db.events.length, e.event = .workItem .dispatchStarted

/-- The tick has listed the pending runs and may still dispatch. -/
def Phase.holds : Phase → Bool
  | .applying _ | .grouping .. | .opening .. | .recovering _ true | .dispatching _ => true
  | _ => false

/-- Every run is applied. -/
def AllApplied (db : Db) : Prop := ∀ rid run, db.scanRuns.get? rid = some run → run.closureAppliedAt.isSome

/-- What the controller relies on in each phase of its tick: while it applies the listed runs, the others are applied,
and then all are. -/
def Held (s : Sys) : Prop :=
  match s.phase with
  | .applying pending => ∀ rid run, s.db.scanRuns.get? rid = some run → run.closureAppliedAt = none → rid ∈ pending
  | .grouping .. | .opening .. | .recovering _ true | .dispatching _ => AllApplied s.db
  | _ => True

theorem pendingScanRunCount_eq_zero {db : Db} : pendingScanRunCount db = 0 ↔ AllApplied db := by
  unfold pendingScanRunCount AllApplied
  rw [List.length_eq_zero_iff, List.eq_nil_iff_forall_not_mem]
  constructor
  · intro h rid run hrun
    by_contra hno
    exact h rid (Table.mem_select.mpr ⟨run, hrun, by simpa using hno⟩)
  · intro h rid hmem
    obtain ⟨run, hrun, hno⟩ := Table.mem_select.mp hmem
    have happlied := h rid run hrun
    rw [Option.isNone_iff_eq_none.mp hno] at happlied
    cases happlied

theorem mem_pendingScanRuns {db : Db} {rid : Nat} :
    rid ∈ pendingScanRuns db ↔ ∃ run, db.scanRuns.get? rid = some run ∧ run.closureAppliedAt = none := by
  unfold pendingScanRuns Db.sortRuns
  rw [(List.perm_insertionSort _ _).mem_iff, Table.mem_select]
  simp only [Option.isNone_iff_eq_none]

section Reservations

variable {c : Controller} {s : Sys} {S : Scope} {db db' : Db}

/-- Commits outside the scope of reservations add none. -/
theorem Commits.no_reservation (h : Commits c S db db') (hS : ¬ S.fires .dispatchStarted) {e : Event}
    (he : e ∈ db'.events.drop db.events.length) : e.event ≠ .workItem .dispatchStarted := by
  intro hev
  have hunits {env : Env} {tx : Tx} (h : Acts env S { db := db } tx) (he : e ∈ tx.db.events.drop db.events.length) :
      False := by
    obtain ⟨l, hl, hall⟩ := h.events
    rw [hl, List.drop_left] at he
    rcases (hall e he _ hev).2.2 with hf | hf
    · exact hS hf
    · cases hf
  cases h with
  | units h => exact hunits h he
  | evaluation h rid => exact hunits h he
  | ingested h =>
    obtain ⟨l, hl, hall⟩ := (ingestRun_ingested h).events
    rw [hl, List.drop_left] at he
    obtain ⟨name, hname, -⟩ := hall e he
    rw [hname] at hev
    cases hev

/-- A launch that reserves has seen no pending run. -/
theorem launch_reserves {env : Env} {wid : Nat} {operator : String} {answers : LaunchAnswers} {e : Event}
    (he : e ∈ (launch env { db := db } wid operator answers).1.db.events.drop db.events.length)
    (hev : e.event = .workItem .dispatchStarted) : pendingScanRunCount db = 0 := by
  rcases launch_checked env { db := db } wid operator answers with hchecked | ⟨hquiet, -⟩
  · exact hchecked.1
  · obtain ⟨logs, hlogs, hlog⟩ := hquiet.events
    rw [hlogs, List.drop_left] at he
    obtain ⟨⟨name, hname⟩, -⟩ := hlog e he
    rw [hname] at hev
    cases hev

/-- **Only a dispatch or a launch reserves an item**, and the launch only when no run is pending. -/
theorem reserves_dispatch {a : Action} (h : Reserves c s a) :
    pendingScanRunCount s.db = 0 ∨ ∃ now labels targets, a = .dispatch now labels ∧ s.phase = .dispatching targets := by
  obtain ⟨e, he, hev⟩ := h
  have hother (hS : ¬ a.scope.fires .dispatchStarted) : False := (exec_commits c s a).no_reservation hS he hev
  cases a with
  | dispatch now labels =>
    have hsame {s' : Sys} (hs' : s'.db = s.db) (he : e ∈ s'.db.events.drop s.db.events.length) : False := by
      rw [hs', List.drop_length] at he
      cases he
    dsimp only [exec] at he
    split at he
    · exact (hsame rfl he).elim
    · dsimp only [stepFree] at he
      unfold stepDispatch at he
      split at he
      · exact Or.inr ⟨now, labels, _, rfl, ‹_›⟩
      · exact (hsame rfl he).elim
  | launch now wid operator answers =>
    have hsame {s' : Sys} (hs' : s'.db = s.db) (he : e ∈ s'.db.events.drop s.db.events.length) : False := by
      rw [hs', List.drop_length] at he
      cases he
    dsimp only [exec] at he
    split at he
    · exact (hsame rfl he).elim
    · dsimp only [stepFree] at he
      split at he
      · exact Or.inl (launch_reserves he hev)
      · exact (hsame rfl he).elim
  | pollSession _ _ _ _ _ => exact (hother fun hno => hno rfl).elim
  | pollPullRequest _ _ _ _ _ _ => exact (hother fun hno => hno rfl).elim
  | _ => exact (hother fun hno => hno List.mem_cons_self).elim

end Reservations

/-! ## From the listing to the dispatch -/

/-- A new run is committed between the listing of the pending runs and the end of the dispatch. -/
def Intrudes (s : Sys) : Action → Prop
  | .ingest run _ _ _ =>
    s.phase.holds = true ∧ (s.db.scanRuns.first fun r => r.externalRunId == run.externalRunId) = none
  | _ => False

theorem applyScanRun_pending {env : Env} {cmp : Compare} {rid r : Nat} {run : ScanRun} {db : Db}
    (hr : (applyScanRun env cmp rid { db := db }).db.scanRuns.get? r = some run) (hno : run.closureAppliedAt = none) :
    db.scanRuns.get? r = some run ∧ r ≠ rid := by
  unfold applyScanRun Db.evidence at hr
  cases hrun : db.scanRuns.get? rid with
  | none =>
    rw [hrun] at hr
    refine ⟨hr, fun h => ?_⟩
    rw [← h, show db.scanRuns.get? r = some run from hr] at hrun
    cases hrun
  | some applied =>
    simp only [hrun, Option.map_some] at hr
    split at hr
    · rename_i happlied
      refine ⟨hr, fun h => ?_⟩
      rw [← h, show db.scanRuns.get? r = some run from hr] at hrun
      rw [← Option.some.inj hrun, hno] at happlied
      cases happlied
    · rename_i happlied
      obtain ⟨tx, hacts, htx⟩ : ∃ tx : Tx, Acts env (.sweeping (· ∈ [Deed.settle, .reopen])) { db := db } tx ∧
          (evaluateRun env cmp ⟨rid, applied, db.jobsOf rid, db.sightingsOf rid⟩ { db := db }).db =
            tx.db.markApplied rid env.now :=
        ⟨_, evaluation_does env cmp ⟨rid, applied, db.jobsOf rid, db.sightingsOf rid⟩ { db := db }, rfl⟩
      rw [htx] at hr
      simp only [Db.markApplied, Table.get?_modify, hacts.scanRuns] at hr
      split at hr
      · obtain ⟨_, -, rfl⟩ := Option.map_eq_some_iff.mp hr
        cases hno
      · exact ⟨hr, ‹_›⟩

section Steps

variable {c : Controller} {s : Sys}

theorem held_next {autoDispatch : Bool} {listed : Option (List Issue)} (h : Held s) :
    Held { s with phase := nextPhase c s.db autoDispatch listed s.phase } := by
  unfold nextPhase
  split
  · exact fun rid run hrun hno => mem_pendingScanRuns.mpr ⟨run, hrun, hno⟩
  · rename_i hphase
    have hall : AllApplied s.db := by
      intro rid run hrun
      by_contra hno
      rw [Held, hphase] at h
      cases h rid run hrun (by simpa using hno)
    unfold beginGrouping
    split <;> exact hall
  · rename_i hphase
    rw [Held, hphase] at h
    split
    · exact h
    · trivial
  · rename_i hphase
    rw [Held, hphase] at h
    cases autoDispatch
    · trivial
    · exact h
  · rename_i hphase
    rw [Held, hphase] at h
    exact h
  · trivial
  · trivial
  · exact h

/-- The same phase, or a later one of the same tick, with the same runs. -/
theorem Held.congr {s' : Sys} (h : Held s) (hruns : s'.db.scanRuns = s.db.scanRuns) (hphase : s'.phase = s.phase) :
    Held s' := by
  unfold Held AllApplied at *
  rw [hphase, hruns]
  exact h

theorem allApplied_congr {db db' : Db} (hruns : db'.scanRuns = db.scanRuns) : AllApplied db' ↔ AllApplied db := by
  unfold AllApplied
  rw [hruns]

theorem held_stepFree {a : Action} (h : Held s) : Held (stepFree c s a) := by
  have hruns (ha : a.brings = false) : (stepFree c s a).db.scanRuns = s.db.scanRuns := by
    obtain ⟨env, tx, hacts, htx⟩ := stepFree_worked (c := c) (s := s) ha
    rw [← htx]
    exact hacts.scanRuns
  cases a with
  | next autoDispatch listed => exact held_next h
  | beginTick => dsimp only [stepFree]; split <;> trivial
  | applyFailed => dsimp only [stepFree]; split <;> trivial
  | applyRun now compare =>
    dsimp only [stepFree]
    split
    · rename_i rid pending hphase
      intro r run hr hno
      obtain ⟨hbefore, hne⟩ := applyScanRun_pending hr hno
      rw [Held, hphase] at h
      exact (List.mem_cons.mp (h r run hbefore hno)).resolve_left hne
    · exact h
  | group now =>
    have hruns := hruns rfl
    dsimp only [stepFree] at hruns ⊢
    unfold stepGroup at hruns ⊢
    split
    · rename_i hphase
      rw [Held, hphase] at h
      simp only [hphase] at hruns
      exact (allApplied_congr hruns).mpr h
    · exact h
  | openIssue now relisted created =>
    have hruns := hruns rfl
    dsimp only [stepFree] at hruns ⊢
    unfold stepOpen at hruns ⊢
    split
    · rename_i hphase
      rw [Held, hphase] at h
      simp only [hphase] at hruns
      exact (allApplied_congr hruns).mpr h
    · exact h
  | recover now =>
    have hruns := hruns rfl
    dsimp only [stepFree] at hruns ⊢
    unfold stepRecover at hruns ⊢
    split
    · rename_i wid stuck dispatching hphase
      rw [Held, hphase] at h
      simp only [hphase] at hruns
      cases dispatching with
      | false => dsimp only; split <;> trivial
      | true =>
        have hall := (allApplied_congr hruns).mpr h
        dsimp only at hall ⊢
        split at hall <;> rename_i hstate
        · rw [if_pos hstate]
          exact hall
        · rw [if_neg hstate]
          exact hall
    · exact h
  | dispatch now labels =>
    have hruns := hruns rfl
    dsimp only [stepFree] at hruns ⊢
    unfold stepDispatch at hruns ⊢
    split
    · rename_i hphase
      rw [Held, hphase] at h
      simp only [hphase] at hruns
      exact (allApplied_congr hruns).mpr h
    · exact h
  | ingest _ _ _ _ => exact h
  | adopt _ _ => exact h
  | create _ _ _ => exact h
  | cancelAnswer _ _ => exact h
  | stop => exact h
  | _ =>
    refine Held.congr h (hruns rfl) ?_
    dsimp only [stepFree]
    split <;> rfl

/-- **Every step keeps `Held`**, unless a run intrudes. -/
theorem held_step {a : Action} (h : Held s) (ha : ¬ Intrudes s a) : Held (exec c s a) := by
  have hwaits (s' : Sys) (hdb : Worked .unobserving s.db s'.db) (hphase : s'.phase = s.phase) : Held s' := by
    obtain ⟨env, tx, hacts, htx⟩ := hdb
    exact h.congr (htx ▸ hacts.scanRuns) hphase
  cases a with
  | ingest run jobs upperBounds now =>
    dsimp only [exec]
    cases hfirst : s.db.scanRuns.first fun r => r.externalRunId == run.externalRunId with
    | some rid =>
      unfold ingestRun
      rw [hfirst]
      exact h
    | none =>
      have hholds : s.phase.holds = false := by
        rw [← Bool.not_eq_true]
        exact fun hholds => ha ⟨hholds, hfirst⟩
      split
      · unfold Held
        unfold Phase.holds at hholds
        split <;> simp_all
      · exact h
  | stop => trivial
  | adopt now remote =>
    refine hwaits _ (exec_worked c s (a := .adopt now remote) rfl) ?_
    dsimp only [exec, stepAdopt]
    split <;> rfl
  | create now answer commented =>
    refine hwaits _ (exec_worked c s (a := .create now answer commented) rfl) ?_
    dsimp only [exec, stepCreate]
    split <;> rfl
  | cancelAnswer now answer =>
    refine hwaits _ (exec_worked c s (a := .cancelAnswer now answer) rfl) ?_
    dsimp only [exec, stepCancel]
    split <;> rfl
  | _ =>
    dsimp only [exec]
    split
    · exact h
    · exact held_stepFree h

/-- **Nothing is reserved while a run is unapplied**, in every run in which no run is committed between the listing of
the pending ones and the dispatch. -/
theorem held_run (c : Controller) (trace : List Action)
    (h : Machine.AllSteps (exec c) (fun s a => ¬ Intrudes s a) .initial trace) :
    Machine.AllSteps (exec c) (fun s a => Reserves c s a → AllApplied s.db) .initial trace := by
  refine Machine.AllSteps.imp_invariant Held (fun s a => held_step) (fun s a hheld _ hreserves => ?_) ?_ h
  · rcases reserves_dispatch hreserves with hnone | ⟨_, _, targets, rfl, hphase⟩
    · exact pendingScanRunCount_eq_zero.mp hnone
    · rw [Held, hphase] at hheld
      exact hheld
  · trivial

end Steps

/-- One scan is applied, and the controller is about to dispatch the item it opened. -/
def heldTrace : List Action :=
  sampleIngest "1" 10 (samplePair "CVE-1" "openssl" "1") :: (sampleReserve 11).dropLast

/-- A scan that is committed just before the dispatch does not stop it. -/
theorem reserves_while_pending : ∃ s a, Reachable sampleController s ∧ Reserves sampleController s a ∧
    ¬ AllApplied s.db := by
  refine ⟨sampleState (heldTrace ++ [sampleIngest "2" 12 []]), .dispatch 13 [], sampleState_reachable _,
    ?_, fun h => ?_⟩
  · have hnew :
        ((exec sampleController (sampleState (heldTrace ++ [sampleIngest "2" 12 []])) (.dispatch 13 [])).db.events.drop
        (sampleState (heldTrace ++ [sampleIngest "2" 12 []])).db.events.length).any
        (fun e => e.event == .workItem .dispatchStarted) = true := by
      decide +kernel
    obtain ⟨e, he, hev⟩ := List.any_eq_true.mp hnew
    exact ⟨e, he, by simpa using hev⟩
  · have hpending : pendingScanRunCount (sampleState (heldTrace ++ [sampleIngest "2" 12 []])).db ≠ 0 := by
      decide +kernel
    exact hpending (pendingScanRunCount_eq_zero.mpr h)

theorem held_run_dispatch :
    Machine.AllSteps (exec sampleController) (fun s a => Reserves sampleController s a → AllApplied s.db) .initial
      (heldTrace ++ [.dispatch 13 []]) := by
  refine held_run sampleController _ ?_
  refine ⟨fun h => absurd h.1 (by decide), ?_⟩
  exact ⟨id, id, id, id, id, id, id, id, id, id, trivial⟩

end HardeningLoop
