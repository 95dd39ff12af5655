import HardeningLoop.Orchestrator.Reopening

/-!
# What the application of a run closes

- `evaluated_closes`: the findings it closes as fixed: those of the first loop (`Closes`) and those that drift
  (`drifts`);
- `evaluated_reopens`: the findings it reopens;
- `closes_iff_ground`, `reopens_iff_ground`: the part of a later run in both is the guard `laterRunSaw`;
- `older_run_iff`: when a run that is evaluated late overrules a newer one;
- `drift_complete_iff`: which findings that are gone and nobody works on are closed.
-/

namespace HardeningLoop

open Rows (Table)

section Closed

variable {env : Env} {cmp : Compare} {db : Db} {ev : Evidence} {rid fid : Nat} {f : Finding}

/-- A finding that is to drift has no edge for the other events of the first loop. -/
theorem afterClosing_of_drifts (hd : drifts env db ev f = true) (hc : ¬ Closes env cmp db ev fid f) (l : List Event) :
    afterClosing env cmp db ev fid (f, l) = (f, l) := by
  simp only [drifts, Bool.and_eq_true, decide_eq_true_eq] at hd
  obtain ⟨⟨⟨⟨hst, -⟩, -⟩, howner⟩, -⟩ := hd
  cases hj : judge db f with
  | none => simp only [afterClosing, hj]
  | some owner =>
    obtain ⟨wid, item⟩ := owner
    obtain ⟨how, hitem, hclosing⟩ := judge_eq_some.mp hj
    have hnot : f.state ≠ .grouped := by
      intro hg
      have hqueued : item.state ∉ [WorkItemState.queued, .issueOpen] := by
        simp only [List.mem_cons, List.not_mem_nil, or_false] at hclosing
        rcases hclosing with h | h <;> rw [h] <;> decide
      simp only [driftOwner, hg, how, hitem, Option.any_some, decide_eq_false hqueued, Bool.false_eq_true, if_false,
        Option.isSome_none] at howner
    have hedge (event : FindingEvent) (reason actor : String) (runId : Option Nat)
        (he : event ∈ [FindingEvent.closingVex, .disagreementResolved, .humanBlocked]) :
        fired env fid event reason actor runId (f, l) = (f, l) := by
      have hnone : nextFindingState f.state event = none := by
        revert hst hnot he
        cases f.state <;> cases event <;> decide
      simp only [fired, hnone]
    simp only [afterClosing, hj, settledMember]
    split
    · split
      · exact hedge _ _ _ _ (by decide)
      · rfl
    · unfold judged
      cases hev : closingEvent ev.run.externalRunId (memberOutcome env cmp db ev item fid f) with
      | none => rfl
      | some e =>
        obtain ⟨event, reason, actor⟩ := e
        rcases closingEvent_event hev with ⟨ho, rfl, -⟩ | ⟨-, rfl⟩ | ⟨-, rfl⟩
        · have hopen : f.state.isClosing = false := by
            revert hst
            cases f.state <;> decide
          exact absurd ⟨hopen, wid, item, hj, memberOutcome_eq_fixed.mp ho⟩ hc
        · exact hedge _ _ _ _ (by decide)
        · exact hedge _ _ _ _ (by decide)

/-- The second and the third loop keep what the first recorded. -/
theorem evaluated_keeps (h : History) :
    Appends (fun _ => True) (afterClosing env cmp db ev fid h) (evaluated env cmp db ev fid h) := by
  unfold evaluated
  exact (afterRegression_appends fun _ _ => trivial).trans (afterDrift_appends fun _ _ _ _ => trivial)

/-- **The evaluation of a run closes a finding as fixed exactly when** the first loop does or the finding drifts. -/
theorem evaluated_closes (l : List Event) :
    (∃ e ∈ (evaluated env cmp db ev fid (f, l)).2.drop l.length, e.toState = some FindingState.fixed.value) ↔
      Closes env cmp db ev fid f ∨ drifts env db ev f = true := by
  constructor
  · rintro ⟨e, he, hto⟩
    have happends : Appends (fun e => e.toState = some FindingState.fixed.value →
        Closes env cmp db ev fid f ∨ drifts env db ev f = true) (f, l) (evaluated env cmp db ev fid (f, l)) := by
      refine .trans (.trans ?_ (afterRegression_appends fun e hne hto => absurd hto hne))
        (afterDrift_appends fun hd e _ _ _ => Or.inr ?_)
      · rcases @afterClosing_fixed env cmp db ev fid (f, l) with ⟨hc, heq⟩ | ⟨-, -, entries, happ, hP⟩
        · rw [heq]
          exact .fired fun _ _ _ => Or.inl hc
        · exact ⟨entries, happ, fun e he hto => absurd hto (hP e he).1⟩
      · have hst :
            (afterRegression env cmp db ev fid (afterClosing env cmp db ev fid (f, l))).1.state ∈ driftStates := by
          simp only [drifts, Bool.and_eq_true, decide_eq_true_eq] at hd
          exact hd.1.1.1.1
        have hregress := afterRegression_of_drift hst
        rw [hregress] at hst hd
        have hclosing := afterClosing_of_drift hst
        rwa [hclosing] at hd
    obtain ⟨entries, happ, hP⟩ := happends
    rw [happ, List.drop_left] at he
    exact hP e he hto
  · intro h
    by_cases hc : Closes env cmp db ev fid f
    · rcases @afterClosing_fixed env cmp db ev fid (f, l) with ⟨-, heq⟩ | ⟨hno, -⟩
      · obtain ⟨entries, happ, -⟩ := @evaluated_keeps env cmp db ev fid (f, l)
        rw [happ, heq, fired_closingAbsent (h := (f, l)) hc.1]
        dsimp only
        rw [List.append_assoc, List.drop_left]
        exact ⟨_, List.mem_cons_self, rfl⟩
      · exact absurd hc hno
    · have hd : drifts env db ev f = true := h.resolve_left hc
      have hst : f.state ∈ driftStates := by
        simp only [drifts, Bool.and_eq_true, decide_eq_true_eq] at hd
        exact hd.1.1.1.1
      have hopen : f.state.isClosing = false ∧ f.state ≠ .fixed := by
        revert hst
        cases f.state <;> decide
      unfold evaluated
      rw [afterClosing_of_drifts hd hc]
      have hsame : afterRegression env cmp db ev fid (f, l) = (f, l) := by
        simp [afterRegression, not_reopens (h := (f, l)) hopen.2]
      rw [hsame, afterDrift, if_pos hd, fired_closingAbsent (h := (f, l)) hopen.1]
      dsimp only
      rw [List.drop_left]
      exact ⟨_, List.mem_cons_self, rfl⟩

/-- **The evaluation of a run reopens a finding exactly when** it shows a fixed one, or closes and reopens it. -/
theorem evaluated_reopens (hev : db.evidence rid = some ev) (l : List Event) :
    (∃ e ∈ (evaluated env cmp db ev fid (f, l)).2.drop l.length, e.toState = some FindingState.regression.value) ↔
      reopens env cmp db ev fid f = true ∨
      (Closes env cmp db ev fid f ∧ familyKey f ∈ presentFamilies db ev.sightings) := by
  constructor
  · rintro ⟨e, he, hto⟩
    cases hr : reopens env cmp db ev fid (afterClosing env cmp db ev fid (f, l)).1 with
    | false =>
      have hsame : afterRegression env cmp db ev fid (afterClosing env cmp db ev fid (f, l)) =
          afterClosing env cmp db ev fid (f, l) := by simp [afterRegression, hr]
      obtain ⟨entries, happ, hP⟩ : Appends (fun e => e.toState ≠ some FindingState.regression.value) (f, l)
        (afterDrift env db ev fid (afterClosing env cmp db ev fid (f, l))) := appends_no_regression
      rw [evaluated, hsame, happ, List.drop_left] at he
      exact absurd hto (hP e he)
    | true =>
      rcases @afterClosing_fixed env cmp db ev fid (f, l) with ⟨hc, heq⟩ | ⟨-, hsame, -⟩
      · rw [heq, fired_closingAbsent (h := (f, l)) hc.1] at hr
        simp only [reopens, Bool.and_eq_true, decide_eq_true_eq] at hr
        exact Or.inr ⟨hc, hr.1.2⟩
      · have hfixed : (afterClosing env cmp db ev fid (f, l)).1.state = .fixed := by
          simp only [reopens, Bool.and_eq_true, decide_eq_true_eq] at hr
          exact hr.1.1
        rw [hsame hfixed] at hr
        exact Or.inl hr
  · rintro (hr | hboth)
    · have hfixed : f.state = .fixed := by
        simp only [reopens, Bool.and_eq_true, decide_eq_true_eq] at hr
        exact hr.1.1
      rw [evaluated_of_closing (h := (f, l)) (by rw [hfixed]; rfl), (afterDrift_reopened (h := (f, l)) hr).2]
      dsimp only
      rw [List.drop_left]
      exact ⟨_, List.mem_cons_self, rfl⟩
    · obtain ⟨-, e, he, -, hto⟩ := (evaluated_twoStories hev l).mpr hboth
      exact ⟨e, he, hto⟩

end Closed

/-! ## An older run, evaluated late -/

section Older

variable {env : Env} {cmp : Compare} {db : Db} {ev : Evidence} {rid fid : Nat} {f : Finding}

/-- The policy scan is required of the closing run of a member. -/
def requiresPolicy (item : WorkItem) : Bool :=
  item.kind == .noFixReachability || item.humanResolution == some HumanLabel.dispositionApproved.value

/-- A closing run is one but for later runs, and no later run saw the finding. -/
theorem closingRun_iff_own {ext : External} {run : ScanRun} {jobs : List ScanJob} {mergeSha : Option String}
    {isAncestor : String → String → Bool} {requirePolicy : Bool} {sup : Option ScanRun} :
    ClosingRun ext run jobs f mergeSha isAncestor requirePolicy sup ↔
      sup = none ∧ ClosingRun ext run jobs f mergeSha isAncestor requirePolicy none := by
  constructor
  · rintro ⟨h₁, h₂, h₃, h₄, h₅, h₆, h₇, h₈, h₉⟩; exact ⟨h₁, rfl, h₂, h₃, h₄, h₅, h₆, h₇, h₈, h₉⟩
  · rintro ⟨h₁, -, h₂, h₃, h₄, h₅, h₆, h₇, h₈, h₉⟩; exact ⟨h₁, h₂, h₃, h₄, h₅, h₆, h₇, h₈, h₉⟩

/-- What the run itself gives to close a member of a merged work item. -/
def MemberGround (env : Env) (cmp : Compare) (db : Db) (ev : Evidence) (fid : Nat) (f : Finding) : Prop :=
  f.state.isClosing = false ∧ ∃ wid item, judge db f = some (wid, item) ∧
    ClosingRun env.ext ev.run ev.jobs f item.mergeSha (isAncestor cmp ⟨true, ev.rid, fid⟩) (requiresPolicy item) none ∧
      shownBy f (sightingsFor fid ev.rid ev.sightings (familyIds db f)) = false

/-- What the run itself gives to close a finding nobody works on. -/
def DriftGround (env : Env) (db : Db) (ev : Evidence) (f : Finding) : Prop :=
  f.state ∈ driftStates ∧ f.lastSeenRunId ≠ ev.rid ∧ familyKey f ∉ presentFamilies db ev.sightings ∧
    (driftOwner db f).isSome ∧ ClosingRun env.ext ev.run ev.jobs f none (fun _ _ => false) false none

/-- What the run itself gives to close a finding as fixed. -/
def ClosingGround (env : Env) (cmp : Compare) (db : Db) (ev : Evidence) (fid : Nat) (f : Finding) : Prop :=
  MemberGround env cmp db ev fid f ∨ DriftGround env db ev f

/-- What the run itself gives to reopen a finding: it was fixed, or the run closes it and its family is present. -/
def ReopeningGround (env : Env) (cmp : Compare) (db : Db) (ev : Evidence) (fid : Nat) (f : Finding) : Prop :=
  familyKey f ∈ presentFamilies db ev.sightings ∧
    (MemberGround env cmp db ev fid f ∨ (f.state = .fixed ∧ ClosingRun env.ext ev.run ev.jobs f
      ((f.closedByRunId.bind db.scanRuns.get?).map ScanRun.sourceSha) (isAncestor cmp ⟨false, ev.rid, fid⟩) false none))

theorem closes_iff_ground : Closes env cmp db ev fid f ↔
    laterRunSaw db ev.rid ev.run f = none ∧ MemberGround env cmp db ev fid f := by
  have hvalid (item : WorkItem) : (memberValidity env cmp db ev item fid f).valid = true ↔
      laterRunSaw db ev.rid ev.run f = none ∧ ClosingRun env.ext ev.run ev.jobs f item.mergeSha
        (isAncestor cmp ⟨true, ev.rid, fid⟩) (requiresPolicy item) none :=
    validateClosingRun_valid.trans closingRun_iff_own
  constructor
  · rintro ⟨hs, wid, item, hj, hv, hshown⟩
    obtain ⟨hlater, hown⟩ := (hvalid item).mp hv
    exact ⟨hlater, hs, wid, item, hj, hown, hshown⟩
  · rintro ⟨hlater, hs, wid, item, hj, hown, hshown⟩
    exact ⟨hs, wid, item, hj, (hvalid item).mpr ⟨hlater, hown⟩, hshown⟩

theorem drifts_iff_ground : drifts env db ev f = true ↔
    laterRunSaw db ev.rid ev.run f = none ∧ DriftGround env db ev f := by
  have hvalid : (driftValidity env db ev f).valid = true ↔ laterRunSaw db ev.rid ev.run f = none ∧
      ClosingRun env.ext ev.run ev.jobs f none (fun _ _ => false) false none :=
    validateClosingRun_valid.trans closingRun_iff_own
  simp only [drifts, Bool.and_eq_true, decide_eq_true_eq, hvalid, DriftGround]
  constructor
  · rintro ⟨⟨⟨⟨h₁, h₂⟩, h₃⟩, h₄⟩, hlater, h₅⟩; exact ⟨hlater, h₁, h₂, h₃, h₄, h₅⟩
  · rintro ⟨hlater, h₁, h₂, h₃, h₄, h₅⟩; exact ⟨⟨⟨⟨h₁, h₂⟩, h₃⟩, h₄⟩, hlater, h₅⟩

theorem reopens_iff_ground :
    (reopens env cmp db ev fid f = true ∨
    (Closes env cmp db ev fid f ∧ familyKey f ∈ presentFamilies db ev.sightings)) ↔
      laterRunSaw db ev.rid ev.run f = none ∧ ReopeningGround env cmp db ev fid f := by
  have hvalid : (reopenValidity env cmp db ev fid f).valid = true ↔ laterRunSaw db ev.rid ev.run f = none ∧
      ClosingRun env.ext ev.run ev.jobs f ((f.closedByRunId.bind db.scanRuns.get?).map ScanRun.sourceSha)
        (isAncestor cmp ⟨false, ev.rid, fid⟩) false none :=
    validateClosingRun_valid.trans closingRun_iff_own
  rw [closes_iff_ground]
  simp only [reopens, Bool.and_eq_true, decide_eq_true_eq, hvalid, ReopeningGround]
  tauto

/-- A run on the fork's main branch that finished before another that was applied, both of the finding's platform. -/
structure Overtaken (older newer : ScanRun) (f : Finding) : Prop where
  platform : older.platform = f.platform ∧ newer.platform = f.platform
  repo : older.sourceRepo = forkRepo ∧ newer.sourceRepo = forkRepo
  branch : older.sourceBranch = remediationBranch ∧ newer.sourceBranch = remediationBranch
  order : ∃ t ∈ older.finishedAt, ∃ t' ∈ newer.finishedAt, t < t'
  applied : newer.closureAppliedAt.isSome = true

instance (older newer : ScanRun) (f : Finding) : Decidable (Overtaken older newer f) :=
  decidable_of_iff ((older.platform = f.platform ∧ newer.platform = f.platform) ∧
      (older.sourceRepo = forkRepo ∧ newer.sourceRepo = forkRepo) ∧
        (older.sourceBranch = remediationBranch ∧ newer.sourceBranch = remediationBranch) ∧
          (∃ t ∈ older.finishedAt, ∃ t' ∈ newer.finishedAt, t < t') ∧ newer.closureAppliedAt.isSome = true)
    ⟨fun ⟨h₁, h₂, h₃, h₄, h₅⟩ => ⟨h₁, h₂, h₃, h₄, h₅⟩, fun ⟨h₁, h₂, h₃, h₄, h₅⟩ => ⟨h₁, h₂, h₃, h₄, h₅⟩⟩

/-- The runs that were applied and finished later do not let the application of run `rid` close or reopen the
finding. -/
def NeverOverrules (env : Env) (cmp : Compare) (db : Db) (rid fid : Nat) (f : Finding) : Prop :=
  ∀ rid' older newer, db.evidence rid = some older → db.evidence rid' = some newer → Overtaken older.run newer.run f →
    (familyKey f ∈ presentFamilies db newer.sightings →
      ¬ ∃ e ∈ newTransitions db (applyScanRun env cmp rid { db := db }).db fid,
        e.toState = some FindingState.fixed.value) ∧
    (ClosingRun env.ext newer.run newer.jobs f none (fun _ _ => false) false none →
      familyKey f ∉ presentFamilies db newer.sightings →
        ¬ ∃ e ∈ newTransitions db (applyScanRun env cmp rid { db := db }).db fid,
          e.toState = some FindingState.regression.value)

/-- **A run evaluated late never overrules a newer one exactly when**, for each newer run that would forbid it, the last
run that reported the finding or the one that closed it finished later too, or the run itself gives no ground to. -/
theorem older_run_iff (hf : db.findings.get? fid = some f) (hev : db.evidence rid = some ev)
    (howed : ev.run.closureAppliedAt = none) :
    NeverOverrules env cmp db rid fid f ↔
      ∀ rid' newer, db.evidence rid' = some newer → Overtaken ev.run newer.run f →
        (familyKey f ∈ presentFamilies db newer.sightings →
          laterRunSaw db ev.rid ev.run f ≠ none ∨ ¬ ClosingGround env cmp db ev fid f) ∧
        (ClosingRun env.ext newer.run newer.jobs f none (fun _ _ => false) false none →
          familyKey f ∉ presentFamilies db newer.sightings →
            laterRunSaw db ev.rid ev.run f ≠ none ∨ ¬ ReopeningGround env cmp db ev fid f) := by
  have hcloses : (¬ ∃ e ∈ newTransitions db (applyScanRun env cmp rid { db := db }).db fid,
      e.toState = some FindingState.fixed.value) ↔
        laterRunSaw db ev.rid ev.run f ≠ none ∨ ¬ ClosingGround env cmp db ev fid f := by
    rw [applyScanRun_new hf hev howed, evaluated_closes, closes_iff_ground, drifts_iff_ground, ClosingGround]
    tauto
  have hreopens : (¬ ∃ e ∈ newTransitions db (applyScanRun env cmp rid { db := db }).db fid,
      e.toState = some FindingState.regression.value) ↔
        laterRunSaw db ev.rid ev.run f ≠ none ∨ ¬ ReopeningGround env cmp db ev fid f := by
    rw [applyScanRun_new hf hev howed, evaluated_reopens hev, reopens_iff_ground]
    tauto
  unfold NeverOverrules
  rw [hcloses, hreopens]
  constructor
  · intro h rid' newer hnewer hover
    exact h rid' ev newer hev hnewer hover
  · intro h rid' older newer holder hnewer hover
    cases hev.symm.trans holder
    exact h rid' newer hnewer hover

end Older

/-- A package is reported in one version and, by a later run, in another; a run that finished between the two and shows
neither arrives last. -/
def otherVersionTrace : List Action :=
  sampleIngest "1" 10 [sampleVuln .trivy "CVE-1" "openssl" "1"] :: sampleApply 11 ++
    sampleIngest "2" 30 [sampleVuln .trivy "CVE-1" "openssl" "2"] :: sampleApply 31 ++ [sampleIngest "3" 20 []]

/-- The late run closes the finding of the first version, though the newest run shows its family. -/
theorem older_run_closes : ∃ s f, Reachable sampleController s ∧ s.db.findings.get? 1 = some f ∧
    ¬ NeverOverrules (sampleController.env 32) linearCompare s.db 3 1 f := by
  have hall : ((sampleState otherVersionTrace).db.findings.get? 1).any (fun f =>
      ((sampleState otherVersionTrace).db.evidence 3).any fun older =>
        ((sampleState otherVersionTrace).db.evidence 2).any fun newer => decide (Overtaken older.run newer.run f) &&
          decide (familyKey f ∈ presentFamilies (sampleState otherVersionTrace).db newer.sightings)) = true := by
    decide +kernel
  obtain ⟨f, hf, hall⟩ := (Option.any_eq_true ..).mp hall
  obtain ⟨older, holder, hall⟩ := (Option.any_eq_true ..).mp hall
  obtain ⟨newer, hnewer, hall⟩ := (Option.any_eq_true ..).mp hall
  simp only [Bool.and_eq_true, decide_eq_true_eq] at hall
  have hcloses : ∃ e ∈ newTransitions (sampleState otherVersionTrace).db
      (applyScanRun (sampleController.env 32) linearCompare 3 { db := (sampleState otherVersionTrace).db }).db 1,
        e.toState = some FindingState.fixed.value := by decide +kernel
  exact ⟨sampleState otherVersionTrace, f, sampleState_reachable _, hf,
    fun h => (h 2 older newer holder hnewer hall.1).1 hall.2 hcloses⟩

/-- A newer run of the same version leaves the late run nothing to close. -/
def sameVersionTrace : List Action :=
  sampleIngest "1" 10 [sampleVuln .trivy "CVE-1" "openssl" "1"] :: sampleApply 11 ++
    sampleIngest "2" 30 [sampleVuln .trivy "CVE-1" "openssl" "1"] :: sampleApply 31 ++ [sampleIngest "3" 20 []]

theorem older_run_spares : ∃ f, (sampleState sameVersionTrace).db.findings.get? 1 = some f ∧
    NeverOverrules (sampleController.env 32) linearCompare (sampleState sameVersionTrace).db 3 1 f := by
  have hall : ((sampleState sameVersionTrace).db.findings.get? 1).any (fun f =>
      ((sampleState sameVersionTrace).db.evidence 3).any fun older => older.run.closureAppliedAt == none &&
        (laterRunSaw (sampleState sameVersionTrace).db older.rid older.run f).isSome) = true := by
    decide +kernel
  obtain ⟨f, hf, hall⟩ := (Option.any_eq_true ..).mp hall
  obtain ⟨older, holder, hall⟩ := (Option.any_eq_true ..).mp hall
  simp only [Bool.and_eq_true, beq_iff_eq] at hall
  have hlater := Option.isSome_iff_ne_none.mp hall.2
  exact ⟨f, hf, (older_run_iff hf holder hall.1).mpr fun _ _ _ _ => ⟨fun _ => Or.inl hlater, fun _ _ => Or.inl hlater⟩⟩

/-! ## Findings that are gone -/

section Gone

variable {env : Env} {cmp : Compare} {db : Db} {ev : Evidence} {rid fid : Nat} {f : Finding}

/-- No work item in a state that is not final owns the finding. -/
def Unowned (db : Db) (f : Finding) : Prop :=
  ∀ wid ∈ f.workItemId, ∀ item ∈ db.workItems.get? wid, item.state ∈ terminalWorkItemStates

/-- The latest main run shows that an open finding is gone which nobody works on. -/
structure Gone (env : Env) (db : Db) (ev : Evidence) (f : Finding) : Prop where
  latest : latestMainRun db = some ev.rid
  «open» : f.state.isClosing = false
  unowned : Unowned db f
  absent : familyKey f ∉ presentFamilies db ev.sightings
  valid : (driftValidity env db ev f).valid = true

/-- The run that last reported a finding shows its family. -/
theorem lastSeen_present (hi : Intake db) (hf : db.findings.get? fid = some f) (hev : db.evidence rid = some ev)
    (hlast : f.lastSeenRunId = rid) : familyKey f ∈ presentFamilies db ev.sightings := by
  obtain ⟨sg, hsg, hfid, hrid, -, hp⟩ := hi.reported fid f hf
  obtain ⟨-, -, -, hsight⟩ := evidence_eq_some.mp hev
  exact mem_presentFamilies.mpr ⟨sg, hsight ▸ mem_sightingsOf.mpr ⟨hsg, hrid.trans hlast⟩, hp, f, hfid.symm ▸ hf, rfl⟩

/-- A finding without a working owner is judged by no work item. -/
theorem judge_of_unowned (h : Unowned db f) : judge db f = none := by
  cases hj : judge db f with
  | none => rfl
  | some owner =>
    obtain ⟨wid, item⟩ := owner
    obtain ⟨how, hitem, hclosing⟩ := judge_eq_some.mp hj
    have hterminal := h wid how item hitem
    exfalso
    revert hclosing hterminal
    cases item.state <;> decide

/-- The owner of a grouped finding is final, so its issue is not waiting. -/
theorem driftOwner_of_unowned (h : Unowned db f) :
    (driftOwner db f).isSome = true ↔ (f.state = .grouped → f.workItemId = none) := by
  unfold driftOwner
  cases hs : f.state with
  | grouped =>
    cases how : f.workItemId with
    | none => simp
    | some wid =>
      dsimp only
      cases hitem : db.workItems.get? wid with
      | none => simp
      | some item =>
        have hterminal := h wid how item hitem
        have hno : item.state ∉ [WorkItemState.queued, .issueOpen] := by
          revert hterminal
          cases item.state <;> decide
        rw [Option.any_some, decide_eq_false hno]
        simp
  | _ => simp

/-- **An open finding that the latest main run shows to be gone, and that nobody works on, is closed as fixed exactly
when** it is open, unclassified, or grouped without a work item. -/
theorem drift_complete_iff {c : Controller} {s : Sys} (hs : Reachable c s) (hf : s.db.findings.get? fid = some f)
    (hev : s.db.evidence rid = some ev) (howed : ev.run.closureAppliedAt = none) (hg : Gone env s.db ev f) :
    (applyScanRun env cmp rid { db := s.db }).db.findingState fid = some .fixed ↔
      f.state ∈ [FindingState.«open», .unclassified] ∨ (f.state = .grouped ∧ f.workItemId = none) := by
  have hhist : s.db.history fid = some (f, s.db.transitions fid) := history_eq_some.mpr ⟨hf, rfl⟩
  have hafter : (applyScanRun env cmp rid { db := s.db }).db.history fid =
      (s.db.history fid).map (evaluated env cmp s.db ev fid) := applyScanRun_history hev howed fid
  rw [hhist, Option.map_some] at hafter
  have hclosing : afterClosing env cmp s.db ev fid (f, s.db.transitions fid) = (f, s.db.transitions fid) := by
    simp only [afterClosing, judge_of_unowned hg.unowned]
  have hregress : afterRegression env cmp s.db ev fid (f, s.db.transitions fid) = (f, s.db.transitions fid) := by
    simp [afterRegression, reopens, hg.absent]
  have hlast : f.lastSeenRunId ≠ ev.rid := by
    intro hl
    exact hg.absent (lastSeen_present hs.intake hf hev (hl.trans (evidence_eq_some.mp hev).2.1))
  have hdrifts : drifts env s.db ev f = true ↔
      f.state ∈ [FindingState.«open», .unclassified] ∨ (f.state = .grouped ∧ f.workItemId = none) := by
    simp only [drifts, Bool.and_eq_true, decide_eq_true_eq, driftOwner_of_unowned hg.unowned, hlast,
      hg.absent, hg.valid,
      ne_eq, not_false_eq_true, and_true, driftStates]
    cases f.state <;> simp
  unfold evaluated at hafter
  rw [hclosing, hregress] at hafter
  unfold Db.findingState
  rw [(history_eq_some.mp hafter).1, Option.map_some, Option.some.injEq, ← hdrifts]
  unfold afterDrift
  cases hd : drifts env s.db ev f with
  | true =>
    rw [if_pos rfl, fired_closingAbsent (h := (f, s.db.transitions fid)) hg.open]
    exact iff_of_true rfl rfl
  | false =>
    have hopen := hg.open
    refine iff_of_false (fun h => ?_) Bool.false_ne_true
    simp only [Bool.false_eq_true, if_false] at h
    rw [h] at hopen
    cases hopen

end Gone

/-- A package that is fixed, comes back, and is gone again before it was grouped. -/
def goneAgainTrace : List Action := comebackTrace ++ sampleApply 31 ++ [sampleIngest "4" 40 []]

instance (env : Env) (db : Db) (ev : Evidence) (f : Finding) : Decidable (Gone env db ev f) :=
  decidable_of_iff (latestMainRun db = some ev.rid ∧ f.state.isClosing = false ∧
      (∀ wid ∈ f.workItemId, ∀ item ∈ db.workItems.get? wid, item.state ∈ terminalWorkItemStates) ∧
        familyKey f ∉ presentFamilies db ev.sightings ∧ (driftValidity env db ev f).valid = true)
    ⟨fun ⟨h₁, h₂, h₃, h₄, h₅⟩ => ⟨h₁, h₂, h₃, h₄, h₅⟩, fun ⟨h₁, h₂, h₃, h₄, h₅⟩ => ⟨h₁, h₂, h₃, h₄, h₅⟩⟩

/-- The regression stays: drift does not look at it. -/
theorem drift_leaves_regression : ∃ s f ev, Reachable sampleController s ∧ s.db.findings.get? 1 = some f ∧
    s.db.evidence 4 = some ev ∧ ev.run.closureAppliedAt = none ∧ Gone (sampleController.env 41) s.db ev f ∧
      (applyScanRun (sampleController.env 41) linearCompare 4 { db := s.db }).db.findingState 1 = some .regression := by
  have hall : ((sampleState goneAgainTrace).db.findings.get? 1).any (fun f =>
      ((sampleState goneAgainTrace).db.evidence 4).any fun ev => ev.run.closureAppliedAt == none &&
        decide (Gone (sampleController.env 41) (sampleState goneAgainTrace).db ev f)) = true := by
    decide +kernel
  obtain ⟨f, hf, hall⟩ := (Option.any_eq_true ..).mp hall
  obtain ⟨ev, hev, hall⟩ := (Option.any_eq_true ..).mp hall
  simp only [Bool.and_eq_true, beq_iff_eq, decide_eq_true_eq] at hall
  exact ⟨sampleState goneAgainTrace, f, ev, sampleState_reachable _, hf, hev, hall.1, hall.2, by decide +kernel⟩

/-- A package that is gone in the second run is closed. -/
theorem drift_closes_open :
    let s := sampleState ([sampleIngest "1" 10 [sampleVuln .trivy "CVE-1" "openssl" "1"]] ++ sampleApply 11 ++
      [sampleIngest "2" 20 []])
    (applyScanRun (sampleController.env 21) linearCompare 2 { db := s.db }).db.findingState 1 = some .fixed := by
  intro s
  have hall : (s.db.findings.get? 1).any (fun f => (s.db.evidence 2).any fun ev => ev.run.closureAppliedAt == none &&
      decide (f.state ∈ [FindingState.«open», .unclassified]) &&
      decide (Gone (sampleController.env 21) s.db ev f)) = true := by
    decide +kernel
  obtain ⟨f, hf, hall⟩ := (Option.any_eq_true ..).mp hall
  obtain ⟨ev, hev, hall⟩ := (Option.any_eq_true ..).mp hall
  simp only [Bool.and_eq_true, beq_iff_eq, decide_eq_true_eq] at hall
  exact (drift_complete_iff (sampleState_reachable _) hf hev hall.1.1 hall.2).mpr (Or.inl hall.1.2)

end HardeningLoop
