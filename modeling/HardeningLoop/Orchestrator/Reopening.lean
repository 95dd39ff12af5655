import HardeningLoop.Orchestrator.ClosingEvidence

/-!
# Closing and reopening by one run

The evaluation of a run closes members of work items by what the detectors that opened them show, and reopens fixed
findings by what any scanner shows, in any mode.

- `reopenValidity_closed`: a run that may close a finding may reopen it;
- `afterClosing_fixed`: the findings the first loop closes as fixed;
- `evaluated_twoStories`, `one_story_iff`: the findings that one evaluation closes and reopens;
- `evaluated_of_closing`, `returned_reopens_iff`: what becomes of a closed finding.
-/

namespace HardeningLoop

open Rows (Table)

section Run

variable {env : Env} {cmp : Compare} {db : Db} {ev : Evidence} {rid fid : Nat}

/-- A run that is evidence for closing a member is evidence for reopening it once it closed it. -/
theorem reopenValidity_closed {f : Finding} {item : WorkItem} (hev : db.evidence rid = some ev)
    (hv : (memberValidity env cmp db ev item fid f).valid = true) :
    (reopenValidity env cmp db ev fid (Tx.settled env .fixed (some ev.rid) f)).valid = true := by
  obtain ⟨hrow, hrid, -, -⟩ := evidence_eq_some.mp hev
  have hrun := validateClosingRun_valid.mp hv
  have hclosed : (Tx.settled env .fixed (some ev.rid) f).closedByRunId = some ev.rid := rfl
  refine validateClosingRun_valid.mpr ⟨?_, hrun.repo, hrun.branch, hrun.trigger, hrun.complete, ?_, hrun.platform, ?_,
    hrun.succeeded⟩
  · -- the run itself is not a later run
    refine laterRunSaw_eq_none.mpr fun t ht other hother hne => ?_
    rw [hclosed] at hother
    rcases List.mem_cons.mp hother with rfl | hother
    · exact laterRunSaw_eq_none.mp hrun.latest t ht _ List.mem_cons_self hne
    · exact absurd (Option.mem_toList.mp hother) (by simpa using Ne.symm hne)
  · intro sha hsha
    rw [hclosed, hrid, Option.bind_some, hrow, Option.map_some, Option.mem_def, Option.some.injEq] at hsha
    simp [isAncestor, hsha]
  · have hscans := hrun.scans
    have hlayer : (Tx.settled env .fixed (some ev.rid) f).layer = f.layer := rfl
    rw [hlayer]
    split at hscans
    · rename_i hl
      rw [if_pos hl]
      exact hscans
    · rename_i hl
      rw [if_neg hl]
      refine ⟨hscans.digest, hscans.detected, fun det hdet mode hmode => ?_⟩
      obtain ⟨job, hjob, hfit⟩ := hscans.scanned det hdet mode fun hp => absurd (hmode hp) Bool.false_ne_true
      exact ⟨job, hjob, hfit.success, hfit.image, hfit.version, hfit.database⟩

/-- The run may close the finding as fixed for the work item that owns it. -/
def Closes (env : Env) (cmp : Compare) (db : Db) (ev : Evidence) (fid : Nat) (f : Finding) : Prop :=
  f.state.isClosing = false ∧ ∃ wid item, judge db f = some (wid, item) ∧
    (memberValidity env cmp db ev item fid f).valid = true ∧
      shownBy f (sightingsFor fid ev.rid ev.sightings (familyIds db f)) = false

/-- The entries of the transitions to other states than `fixed` and `regression`. -/
def StaysElsewhere (e : Event) : Prop :=
  e.toState ≠ some FindingState.fixed.value ∧ e.toState ≠ some FindingState.regression.value

/-- An event that leads neither to `fixed` nor to `regression` leaves a fixed finding alone. -/
theorem fired_elsewhere {event : FindingEvent} {reason actor : String} {runId : Option Nat} {h : History}
    (he : event ∈ [FindingEvent.closingVex, .disagreementResolved, .humanBlocked]) :
    ((fired env fid event reason actor runId h).1.state = .fixed → fired env fid event reason actor runId h = h) ∧
      Appends StaysElsewhere h (fired env fid event reason actor runId h) := by
  have hall : ∀ row ∈ findingTransitions, row.1.2 ∈ [FindingEvent.closingVex, .disagreementResolved, .humanBlocked] →
      row.2 ≠ .fixed ∧ row.2 ≠ .regression := by decide
  constructor
  · unfold fired
    cases hn : nextFindingState h.1.state event with
    | none => exact fun _ => rfl
    | some after => exact fun hs => absurd hs (hall _ (mem_of_lookup hn) he).1
  · refine .fired fun after hn => ?_
    obtain ⟨hfixed, hregression⟩ := hall _ (mem_of_lookup hn) he
    exact ⟨fun h => hfixed (value_findingState_inj (Option.some.inj h)),
      fun h => hregression (value_findingState_inj (Option.some.inj h))⟩

theorem memberOutcome_eq_fixed {item : WorkItem} {f : Finding} :
    memberOutcome env cmp db ev item fid f = .fixed ↔ (memberValidity env cmp db ev item fid f).valid = true ∧
      shownBy f (sightingsFor fid ev.rid ev.sightings (familyIds db f)) = false := by
  unfold memberOutcome
  exact decideOutcome_eq_fixed

/-- The first loop closes a finding as fixed, or it leaves a finding that is fixed then as it was. -/
theorem afterClosing_fixed (h : History) :
    (Closes env cmp db ev fid h.1 ∧ afterClosing env cmp db ev fid h =
        fired env fid .closingAbsent ("absent in run " ++ ev.run.externalRunId) "scanner" (some ev.rid) h) ∨
      (¬ Closes env cmp db ev fid h.1 ∧
        ((afterClosing env cmp db ev fid h).1.state = .fixed → afterClosing env cmp db ev fid h = h) ∧
          Appends StaysElsewhere h (afterClosing env cmp db ev fid h)) := by
  cases hj : judge db h.1 with
  | none =>
    have hsame : afterClosing env cmp db ev fid h = h := by simp only [afterClosing, hj]
    rw [hsame]
    refine Or.inr ⟨?_, fun _ => rfl, .refl _ _⟩
    rintro ⟨-, wid, item, hj', -⟩
    rw [hj] at hj'
    cases hj'
  | some owner =>
    obtain ⟨wid, item⟩ := owner
    have hafter : afterClosing env cmp db ev fid h = settledMember env cmp db ev wid item fid h := by
      simp only [afterClosing, hj]
    rw [hafter]
    have hcloses : Closes env cmp db ev fid h.1 ↔
        h.1.state.isClosing = false ∧ memberOutcome env cmp db ev item fid h.1 = .fixed := by
      unfold Closes
      rw [memberOutcome_eq_fixed]
      refine and_congr_right fun _ => ⟨?_, fun hv => ⟨wid, item, hj, hv⟩⟩
      rintro ⟨wid', item', hj', hv⟩
      cases hj.symm.trans hj'
      exact hv
    rw [hcloses]
    unfold settledMember
    split
    · rename_i hstill
      refine Or.inr ⟨fun h => (by rw [hstill] at h; cases h.2), ?_⟩
      split
      · exact fired_elsewhere (by decide)
      · exact ⟨fun _ => rfl, .refl _ _⟩
    · unfold judged
      cases hc : closingEvent ev.run.externalRunId (memberOutcome env cmp db ev item fid h.1) with
      | none =>
        refine Or.inr ⟨fun h => ?_, fun _ => rfl, .refl _ _⟩
        rw [h.2] at hc
        cases hc
      | some e =>
        obtain ⟨event, reason, actor⟩ := e
        dsimp only
        rcases closingEvent_event hc with ⟨ho, rfl, rfl⟩ | ⟨ho, rfl⟩ | ⟨ho, rfl⟩
        · rw [ho] at hc ⊢
          cases hc
          cases hs : h.1.state.isClosing with
          | false => exact Or.inl ⟨⟨rfl, rfl⟩, rfl⟩
          | true =>
            have hsame : fired env fid .closingAbsent ("absent in run " ++ ev.run.externalRunId) "scanner"
              (some ev.rid) h = h := by simp only [fired, next_closingAbsent, hs, if_true]
            rw [hsame]
            exact Or.inr ⟨fun h => Bool.false_ne_true h.1.symm, fun _ => rfl, .refl _ _⟩
        · exact Or.inr ⟨fun h => (by rw [ho] at h; cases h.2), fired_elsewhere (by decide)⟩
        · exact Or.inr ⟨fun h => (by rw [ho] at h; cases h.2), fired_elsewhere (by decide)⟩

/-- A finding that is not fixed after the first loop is not reopened. -/
theorem not_reopens {h : History} (hs : h.1.state ≠ .fixed) : reopens env cmp db ev fid h.1 = false := by
  simp [reopens, hs]

/-- A reopened finding is not closed again by the same run. -/
theorem afterDrift_reopened {h : History} (hr : reopens env cmp db ev fid h.1 = true) :
    afterDrift env db ev fid (afterRegression env cmp db ev fid h) = afterRegression env cmp db ev fid h ∧
      afterRegression env cmp db ev fid h = (Finding.giveTo none (Tx.settled env .regression (some ev.rid) h.1),
        h.2 ++ [⟨env.now, "scanner", .finding, fid, .finding .reappeared, some FindingState.fixed.value,
          some FindingState.regression.value, some ("present again in run " ++ ev.run.externalRunId), [ev.rid]⟩]) := by
  have hfixed : h.1.state = .fixed := by
    simp only [reopens, Bool.and_eq_true, decide_eq_true_eq] at hr
    exact hr.1.1
  have hafter :
      afterRegression env cmp db ev fid h = (Finding.giveTo none (Tx.settled env .regression (some ev.rid) h.1),
      h.2 ++ [⟨env.now, "scanner", .finding, fid, .finding .reappeared, some FindingState.fixed.value,
        some FindingState.regression.value, some ("present again in run " ++ ev.run.externalRunId), [ev.rid]⟩]) := by
    unfold afterRegression
    rw [if_pos hr]
    simp only [fired, hfixed, next_reappeared, if_true]
    rfl
  refine ⟨?_, hafter⟩
  have hno : drifts env db ev (afterRegression env cmp db ev fid h).1 = false := by
    rw [hafter]
    rfl
  simp only [afterDrift, hno, Bool.false_eq_true, if_false]

/-- A run both closes and reopens a finding: transitions to `fixed` and from it. -/
def TwoStories (entries : List Event) : Prop :=
  (∃ e ∈ entries, e.toState = some FindingState.fixed.value) ∧
    ∃ e ∈ entries, e.fromState = some FindingState.fixed.value ∧ e.toState = some FindingState.regression.value

/-- The history of a finding that a run closed as fixed. -/
theorem fired_closingAbsent {h : History} (hs : h.1.state.isClosing = false) (reason : String) :
    fired env fid .closingAbsent reason "scanner" (some ev.rid) h = (Tx.settled env .fixed (some ev.rid) h.1,
      h.2 ++ [⟨env.now, "scanner", .finding, fid, .finding .closingAbsent, some h.1.state.value,
        some FindingState.fixed.value, some reason, [ev.rid]⟩]) := by
  simp only [fired, next_closingAbsent, hs, Bool.false_eq_true, if_false]
  rfl

/-- The first and the third loop record no regression. -/
theorem appends_no_regression {h : History} :
    Appends (fun e => e.toState ≠ some FindingState.regression.value) h
      (afterDrift env db ev fid (afterClosing env cmp db ev fid h)) := by
  have hclosing (reason : String) (h : History) : Appends (fun e => e.toState ≠ some FindingState.regression.value) h
      (fired env fid .closingAbsent reason "scanner" (some ev.rid) h) := by
    refine .fired fun after hn hto => ?_
    have hafter := value_findingState_inj (Option.some.inj hto)
    rw [next_closingAbsent, hafter] at hn
    split at hn <;> cases hn
  have hfirst : Appends (fun e => e.toState ≠ some FindingState.regression.value) h
    (afterClosing env cmp db ev fid h) := by
    rcases @afterClosing_fixed env cmp db ev fid h with ⟨-, heq⟩ | ⟨-, -, entries, happ, hP⟩
    · rw [heq]
      exact hclosing _ h
    · exact ⟨entries, happ, fun e he => (hP e he).2⟩
  refine hfirst.trans ?_
  unfold afterDrift
  split
  · exact hclosing _ _
  · exact .refl _ _

/-- **The evaluation of a run closes and reopens a finding exactly when** it may close it and its family is present. -/
theorem evaluated_twoStories {f : Finding} (hev : db.evidence rid = some ev) (l : List Event) :
    TwoStories ((evaluated env cmp db ev fid (f, l)).2.drop l.length) ↔
      Closes env cmp db ev fid f ∧ familyKey f ∈ presentFamilies db ev.sightings := by
  unfold evaluated
  have hclosing : Closes env cmp db ev fid f → afterClosing env cmp db ev fid (f, l) =
      fired env fid .closingAbsent ("absent in run " ++ ev.run.externalRunId) "scanner" (some ev.rid) (f, l) := by
    intro hc
    rcases afterClosing_fixed (f, l) with ⟨-, heq⟩ | ⟨hno, -⟩
    · exact heq
    · exact absurd hc hno
  cases hr : reopens env cmp db ev fid (afterClosing env cmp db ev fid (f, l)).1 with
  | false =>
    have hsame : afterRegression env cmp db ev fid (afterClosing env cmp db ev fid (f, l)) =
        afterClosing env cmp db ev fid (f, l) := by simp [afterRegression, hr]
    rw [hsame]
    constructor
    · rintro ⟨-, e, he, -, hto⟩
      obtain ⟨entries, happ, hP⟩ : Appends (fun e => e.toState ≠ some FindingState.regression.value) (f, l)
        (afterDrift env db ev fid (afterClosing env cmp db ev fid (f, l))) := appends_no_regression
      rw [happ, List.drop_left] at he
      exact absurd hto (hP e he)
    · rintro ⟨hc, hfamily⟩
      obtain ⟨hs, wid, item, -, hv, -⟩ := id hc
      rw [hclosing hc, fired_closingAbsent (h := (f, l)) hs] at hr
      have hreopen : reopens env cmp db ev fid (Tx.settled env .fixed (some ev.rid) f) = true := by
        unfold reopens
        rw [reopenValidity_closed hev hv]
        have hkey : familyKey (Tx.settled env .fixed (some ev.rid) f) = familyKey f := rfl
        rw [hkey, decide_eq_true hfamily]
        rfl
      rw [hreopen] at hr
      cases hr
  | true =>
    obtain ⟨hdrift, hafter⟩ := afterDrift_reopened (h := afterClosing env cmp db ev fid (f, l)) hr
    rw [hdrift, hafter]
    rcases @afterClosing_fixed env cmp db ev fid (f, l) with ⟨hc, heq⟩ | ⟨hno, hsame, -⟩
    · rw [heq, fired_closingAbsent (h := (f, l)) hc.1]
      have hfamily : familyKey f ∈ presentFamilies db ev.sightings := by
        rw [heq, fired_closingAbsent (h := (f, l)) hc.1] at hr
        simp only [reopens, Bool.and_eq_true, decide_eq_true_eq] at hr
        exact hr.1.2
      refine iff_of_true ?_ ⟨hc, hfamily⟩
      dsimp only
      rw [List.append_assoc, List.drop_left]
      exact ⟨⟨_, List.mem_cons_self, rfl⟩, _, List.mem_cons_of_mem _ List.mem_cons_self, rfl, rfl⟩
    · -- it was fixed before, so nothing closed it
      have hfixed : (afterClosing env cmp db ev fid (f, l)).1.state = .fixed := by
        simp only [reopens, Bool.and_eq_true, decide_eq_true_eq] at hr
        exact hr.1.1
      rw [hsame hfixed]
      refine iff_of_false ?_ fun h => hno h.1
      dsimp only
      rw [List.drop_left]
      rintro ⟨⟨e, he, hto⟩, -⟩
      obtain rfl := List.mem_singleton.mp he
      exact absurd (value_findingState_inj (Option.some.inj hto)) (by decide)

/-! ## One run, two stories -/

/-- What the application of a run adds to a finding. -/
theorem applyScanRun_new {f : Finding} (hf : db.findings.get? fid = some f) (hev : db.evidence rid = some ev)
    (howed : ev.run.closureAppliedAt = none) : newTransitions db (applyScanRun env cmp rid { db := db }).db fid =
      (evaluated env cmp db ev fid (f, db.transitions fid)).2.drop (db.transitions fid).length := by
  have hhist : db.history fid = some (f, db.transitions fid) := history_eq_some.mpr ⟨hf, rfl⟩
  have hafter : (applyScanRun env cmp rid { db := db }).db.history fid =
    (db.history fid).map (evaluated env cmp db ev fid) :=
    applyScanRun_history hev howed fid
  rw [hhist, Option.map_some] at hafter
  unfold newTransitions
  rw [(history_eq_some.mp hafter).2]

/-- A run that is not there, or was applied before, adds nothing. -/
theorem applyScanRun_none (h : ¬ ∃ ev, db.evidence rid = some ev ∧ ev.run.closureAppliedAt = none) :
    newTransitions db (applyScanRun env cmp rid { db := db }).db fid = [] := by
  have hidle : applyScanRun env cmp rid { db := db } = { db := db } := by
    refine applyScanRun_idle fun ev hev => ?_
    rw [Option.isSome_iff_ne_none]
    exact fun hnone => h ⟨ev, hev, hnone⟩
  rw [hidle]
  exact List.drop_length

/-- **A run tells one story about a finding exactly when** it is not true that the owner of the finding waits for a
closing run, the run is one, the detectors that opened the finding do not show it there, and the finding's family is
present. -/
theorem one_story_iff {f : Finding} (hf : db.findings.get? fid = some f) :
    ¬ TwoStories (newTransitions db (applyScanRun env cmp rid { db := db }).db fid) ↔
      ¬ ∃ ev, db.evidence rid = some ev ∧ ev.run.closureAppliedAt = none ∧ Closes env cmp db ev fid f ∧
        familyKey f ∈ presentFamilies db ev.sightings := by
  refine not_congr ?_
  constructor
  · intro h
    by_cases howed : ∃ ev, db.evidence rid = some ev ∧ ev.run.closureAppliedAt = none
    · obtain ⟨ev, hev, hnone⟩ := howed
      rw [applyScanRun_new hf hev hnone, evaluated_twoStories hev] at h
      exact ⟨ev, hev, hnone, h⟩
    · rw [applyScanRun_none howed] at h
      obtain ⟨⟨e, he, -⟩, -⟩ := h
      exact absurd he List.not_mem_nil
  · rintro ⟨ev, hev, hnone, h⟩
    rw [applyScanRun_new hf hev hnone, evaluated_twoStories hev]
    exact h

end Run

/-- A package that Trivy alone reports, accepted as a disagreement of the scanners and then reported by Grype alone. -/
def otherScannerTrace : List Action :=
  sampleIngest "1" 10 [sampleVuln .trivy "CVE-1" "openssl" "1"] :: sampleReserve 11 ++ sampleCreate 11 ++
    sampleAccept 12 .disagreementResolved ++ [sampleIngest "2" 20 [sampleVuln .grype "CVE-1" "openssl" "1"]]

instance (entries : List Event) : Decidable (TwoStories entries) := inferInstanceAs (Decidable (_ ∧ _))

/-- The second run moves the finding to `fixed`, for Trivy does not report it, and from `fixed` to `regression`, for
Grype does. -/
theorem one_story_fails : ∃ s, Reachable sampleController s ∧
    TwoStories (newTransitions s.db (applyScanRun (sampleController.env 21) linearCompare 2 { db := s.db }).db 1) :=
  ⟨sampleState otherScannerTrace, sampleState_reachable _, by decide +kernel⟩

/-- A run that Grype does not report it in either tells one story. -/
theorem one_story_drift :
    let s := sampleState ([sampleIngest "1" 10 [sampleVuln .trivy "CVE-1" "openssl" "1"]] ++ sampleApply 11 ++
      [sampleIngest "2" 20 []])
    ¬ TwoStories
      (newTransitions s.db (applyScanRun (sampleController.env 21) linearCompare 2 { db := s.db }).db 1) := by
  intro s
  obtain ⟨f, hf⟩ : ∃ f, s.db.findings.get? 1 = some f := Option.isSome_iff_exists.mp (by decide +kernel)
  obtain ⟨ev, hev⟩ : ∃ ev, s.db.evidence 2 = some ev := Option.isSome_iff_exists.mp (by decide +kernel)
  have hnone : ((s.db.evidence 2).map fun ev => presentFamilies s.db ev.sightings) = some [] := by decide +kernel
  refine (one_story_iff hf).mpr ?_
  rintro ⟨ev', hev', -, -, hfamily⟩
  rw [hev', Option.map_some, Option.some.injEq] at hnone
  rw [hnone] at hfamily
  exact List.not_mem_nil hfamily

/-! ## Leaving a closing state -/

section Returned

variable {env : Env} {cmp : Compare} {db : Db} {ev : Evidence} {rid fid : Nat}

/-- An event of an evaluation that is no reappearance leaves a closed finding alone. -/
theorem fired_of_closing {event : FindingEvent} {reason actor : String} {runId : Option Nat} {h : History}
    (hc : h.1.state.isClosing = true) (hr : event ≠ .reappeared) (ho : event ≠ .humanReopened) :
    fired env fid event reason actor runId h = h := by
  simp only [fired, next_of_closing hc hr ho]

/-- The first loop leaves a closed finding alone. -/
theorem afterClosing_of_closing {h : History} (hc : h.1.state.isClosing = true) :
    afterClosing env cmp db ev fid h = h := by
  unfold afterClosing
  cases judge db h.1 with
  | none => rfl
  | some owner =>
    obtain ⟨wid, item⟩ := owner
    dsimp only
    unfold settledMember
    split
    · rename_i hs
      rw [not_closing_of_stillPresent hs] at hc
      cases hc
    · unfold judged
      cases hev : closingEvent ev.run.externalRunId (memberOutcome env cmp db ev item fid h.1) with
      | none => rfl
      | some e =>
        obtain ⟨event, reason, actor⟩ := e
        rcases closingEvent_event hev with ⟨-, rfl, -⟩ | ⟨-, rfl⟩ | ⟨-, rfl⟩
        · exact fired_of_closing hc (by decide) (by decide)
        · exact fired_of_closing hc (by decide) (by decide)
        · exact fired_of_closing hc (by decide) (by decide)

/-- **A closed finding after the evaluation of a run**: it is reopened, or it is left alone. -/
theorem evaluated_of_closing {h : History} (hc : h.1.state.isClosing = true) :
    evaluated env cmp db ev fid h = afterRegression env cmp db ev fid h := by
  unfold evaluated
  rw [afterClosing_of_closing hc]
  cases hr : reopens env cmp db ev fid h.1 with
  | true => exact (afterDrift_reopened hr).1
  | false =>
    have hsame : afterRegression env cmp db ev fid h = h := by simp [afterRegression, hr]
    have hno : h.1.state ∉ driftStates := by
      revert hc
      cases h.1.state <;> decide
    rw [hsame, afterDrift, drifts, decide_eq_false hno]
    rfl

/-- What the run shows of a closed finding beyond its disposition: a fixed one by a detector that opened it, an accepted
one also in the policy scan, a resolved disagreement by both scanners. -/
def shownBeyond (db : Db) (ev : Evidence) (fid : Nat) (f : Finding) : Bool :=
  let view := sightingsFor fid ev.rid ev.sightings (familyIds db f)
  let raw (s : Scanner) := (view.rawPresent s).getD false
  match f.state with
  | .fixed => (originalDetectors f).any raw
  | .approvedDisposition =>
    (originalDetectors f).any raw && [Scanner.trivy, .grype].any fun s => (view.policyPresent s).getD false
  | .scannerDisagreementResolved => raw .trivy && raw .grype
  | _ => false

/-- A closed finding comes back in a run: valid evidence, finished after the run that closed it, showing it beyond its
disposition. -/
structure Returned (env : Env) (cmp : Compare) (db : Db) (ev : Evidence) (fid : Nat) (f : Finding) : Prop where
  closed : f.state.isClosing = true
  valid : (reopenValidity env cmp db ev fid f).valid = true
  later : ∀ run' ∈ f.closedByRunId.bind db.scanRuns.get?, ∃ t' ∈ run'.finishedAt, ∃ t ∈ ev.run.finishedAt, t' < t
  shown : shownBeyond db ev fid f = true

instance (env : Env) (cmp : Compare) (db : Db) (ev : Evidence) (fid : Nat) (f : Finding) :
    Decidable (Returned env cmp db ev fid f) :=
  decidable_of_iff (f.state.isClosing = true ∧ (reopenValidity env cmp db ev fid f).valid = true ∧
      (∀ run' ∈ f.closedByRunId.bind db.scanRuns.get?, ∃ t' ∈ run'.finishedAt, ∃ t ∈ ev.run.finishedAt, t' < t) ∧
        shownBeyond db ev fid f = true)
    ⟨fun ⟨h₁, h₂, h₃, h₄⟩ => ⟨h₁, h₂, h₃, h₄⟩, fun ⟨h₁, h₂, h₃, h₄⟩ => ⟨h₁, h₂, h₃, h₄⟩⟩

/-- What a detector shows of a finding is its family. -/
theorem present_of_shown {f : Finding} (hf : db.findings.get? fid = some f) {s : Scanner}
    (h : ((sightingsFor fid ev.rid ev.sightings (familyIds db f)).rawPresent s).getD false = true) :
    familyKey f ∈ presentFamilies db ev.sightings := by
  obtain ⟨sg, hsg, hid, -, -, -, hp⟩ := rawPresent_eq_true.mp h
  rcases List.mem_cons.mp hid with rfl | hid
  · exact mem_presentFamilies.mpr ⟨sg, hsg, hp, f, hf, rfl⟩
  · obtain ⟨g, hg, hkey⟩ := mem_familyIds.mp hid
    exact mem_presentFamilies.mpr ⟨sg, hsg, hp, g, hg, hkey⟩

/-- **A closed finding that comes back leaves its closing state exactly when it was closed as fixed.** -/
theorem returned_reopens_iff {f : Finding} (hf : db.findings.get? fid = some f) (hev : db.evidence rid = some ev)
    (howed : ev.run.closureAppliedAt = none) (hr : Returned env cmp db ev fid f) :
    ((applyScanRun env cmp rid { db := db }).db.findingState fid).any (fun s => !s.isClosing) = true ↔
      f.state = .fixed := by
  have hhist : db.history fid = some (f, db.transitions fid) := history_eq_some.mpr ⟨hf, rfl⟩
  have hafter : (applyScanRun env cmp rid { db := db }).db.history fid =
    (db.history fid).map (evaluated env cmp db ev fid) :=
    applyScanRun_history hev howed fid
  rw [hhist, Option.map_some, evaluated_of_closing hr.closed] at hafter
  unfold Db.findingState
  rw [(history_eq_some.mp hafter).1, Option.map_some, Option.any_some]
  constructor
  · intro hopen
    by_contra hs
    have hno : reopens env cmp db ev fid f = false := not_reopens (h := (f, db.transitions fid)) hs
    have hsame : afterRegression env cmp db ev fid (f, db.transitions fid) = (f, db.transitions fid) := by
      simp [afterRegression, hno]
    rw [hsame, hr.closed] at hopen
    cases hopen
  · intro hs
    have hshown := hr.shown
    unfold shownBeyond at hshown
    rw [hs] at hshown
    obtain ⟨s, -, hseen⟩ := List.any_eq_true.mp hshown
    have hreopen : reopens env cmp db ev fid f = true := by
      simp only [reopens, hs, decide_true, hr.valid, present_of_shown hf hseen, Bool.and_true]
    rw [(afterDrift_reopened (h := (f, db.transitions fid)) hreopen).2]
    rfl

end Returned

/-- A package that Trivy alone reports, accepted as a disagreement of the scanners, still reported by Trivy alone, and
then by both. -/
def agreementTrace : List Action :=
  sampleIngest "1" 10 [sampleVuln .trivy "CVE-1" "openssl" "1"] :: sampleReserve 11 ++ sampleCreate 11 ++
    sampleAccept 12 .disagreementResolved ++ sampleIngest "2" 20 [sampleVuln .trivy "CVE-1" "openssl" "1"] ::
      sampleApply
      21 ++ [sampleIngest "3" 30 [sampleVuln .trivy "CVE-1" "openssl" "1", sampleVuln .grype "CVE-1" "openssl" "1"]]

/-- The third run is evidence for the resolved disagreement, and both scanners report it; it stays resolved. -/
theorem returned_stays : ∃ s f ev, Reachable sampleController s ∧ s.db.findings.get? 1 = some f ∧
    s.db.evidence 3 = some ev ∧ ev.run.closureAppliedAt = none ∧
      Returned (sampleController.env 31) linearCompare s.db ev 1 f ∧
        (applyScanRun (sampleController.env 31) linearCompare 3 { db := s.db }).db.findingState 1 =
          some .scannerDisagreementResolved := by
  have hall : ((sampleState agreementTrace).db.findings.get? 1).any (fun f =>
      ((sampleState agreementTrace).db.evidence 3).any fun ev => ev.run.closureAppliedAt == none &&
        decide (Returned (sampleController.env 31) linearCompare (sampleState agreementTrace).db ev 1 f)) = true := by
    decide +kernel
  obtain ⟨f, hf, hall⟩ := (Option.any_eq_true ..).mp hall
  obtain ⟨ev, hev, hall⟩ := (Option.any_eq_true ..).mp hall
  simp only [Bool.and_eq_true, beq_iff_eq, decide_eq_true_eq] at hall
  exact ⟨sampleState agreementTrace, f, ev, sampleState_reachable _, hf, hev, hall.1, hall.2, by decide +kernel⟩

/-- A package that is fixed by drift and comes back in a third run. -/
def comebackTrace : List Action :=
  sampleIngest "1" 10 [sampleVuln .trivy "CVE-1" "openssl" "1"] :: sampleApply 11 ++ sampleIngest "2" 20 [] ::
    sampleApply 21 ++ [sampleIngest "3" 30 [sampleVuln .trivy "CVE-1" "openssl" "1"]]

/-- It leaves `fixed`. -/
theorem returned_reopens_fixed :
    let s := sampleState comebackTrace
    ((applyScanRun (sampleController.env 31) linearCompare 3 { db := s.db }).db.findingState 1).any
      (fun s => !s.isClosing) = true := by
  intro s
  have hall : (s.db.findings.get? 1).any (fun f => (s.db.evidence 3).any fun ev =>
      ev.run.closureAppliedAt == none && f.state == .fixed &&
        decide (Returned (sampleController.env 31) linearCompare s.db ev 1 f)) = true := by
    decide +kernel
  obtain ⟨f, hf, hall⟩ := (Option.any_eq_true ..).mp hall
  obtain ⟨ev, hev, hall⟩ := (Option.any_eq_true ..).mp hall
  simp only [Bool.and_eq_true, beq_iff_eq, decide_eq_true_eq] at hall
  exact (returned_reopens_iff hf hev hall.1.1 hall.2).mpr hall.1.2

end HardeningLoop
