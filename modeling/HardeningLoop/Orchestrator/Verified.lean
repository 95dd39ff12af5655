import HardeningLoop.Orchestrator.Reopening

/-!
# When a work item is verified

The evaluation of a run settles the members of a merged work item one by one and then looks at the states they are in.

- `judged_isClosing`: a member is settled when it was closed before, or its outcome fires an event its state has;
- `settledState_eq_verified`: the item is verified when the run is valid for every member and all are settled;
- `verified_settles_iff`, `closing_complete_iff`: what that says of the outcomes.
-/

namespace HardeningLoop

open Rows (Table)

section Closing

variable {env : Env} {cmp : Compare} {db : Db} {ev : Evidence} {wid fid : Nat} {item : WorkItem} {f : Finding}

/-- An event of a closing outcome leads to a closing state. -/
theorem next_of_closingEvent {x reason actor : String} {o : ClosingOutcome} {event : FindingEvent}
    {s after : FindingState}
    (h : closingEvent x o = some (event, reason, actor)) (hn : nextFindingState s event = some after) :
    after.isClosing = true := by
  have hall : ∀ row ∈ findingTransitions,
      row.1.2 ∈ [FindingEvent.closingAbsent, .closingVex, .disagreementResolved] → row.2.isClosing = true := by decide
  have hmem : event ∈ [FindingEvent.closingAbsent, .closingVex, .disagreementResolved] := by
    rcases closingEvent_event h with ⟨-, rfl, -⟩ | ⟨-, rfl⟩ | ⟨-, rfl⟩ <;> decide
  exact hall _ (mem_of_lookup hn) hmem

/-- The outcome of a member fires an event that its state has. -/
def hasEdge (s : FindingState) : ClosingOutcome → Bool
  | .fixed => !s.isClosing
  | .approvedDisposition => s ∈ [FindingState.inRemediation, .awaitingRescan, .humanBlocked]
  | .scannerDisagreementResolved => s ∈ [FindingState.inRemediation, .humanBlocked]
  | _ => false

theorem next_isSome_of_closingEvent {x reason actor : String} {o : ClosingOutcome} {event : FindingEvent}
    (s : FindingState) (h : closingEvent x o = some (event, reason, actor)) :
    (nextFindingState s event).isSome = hasEdge s o := by
  rcases closingEvent_event h with ⟨rfl, rfl, -⟩ | ⟨rfl, rfl⟩ | ⟨rfl, rfl⟩ <;> cases s <;> rfl

/-- **A member is settled exactly when** it was closed before or its outcome fires an event its state has. -/
theorem judged_isClosing (h : History) : (judged env cmp db ev item fid h).1.state.isClosing =
    (h.1.state.isClosing || hasEdge h.1.state (memberOutcome env cmp db ev item fid h.1)) := by
  unfold judged
  cases hc : closingEvent ev.run.externalRunId (memberOutcome env cmp db ev item fid h.1) with
  | none =>
    have hedge : hasEdge h.1.state (memberOutcome env cmp db ev item fid h.1) = false := by
      revert hc
      cases memberOutcome env cmp db ev item fid h.1 <;> simp [closingEvent, hasEdge]
    rw [hedge, Bool.or_false]
  | some e =>
    obtain ⟨event, reason, actor⟩ := e
    rw [← next_isSome_of_closingEvent h.1.state hc]
    dsimp only
    unfold fired
    cases hn : nextFindingState h.1.state event with
    | none => simp
    | some after => simp [Tx.settled, next_of_closingEvent hc hn]

/-- Every member is closed already or has an edge for its outcome. -/
def AllSettle (env : Env) (cmp : Compare) (db : Db) (ev : Evidence) (wid : Nat) (item : WorkItem) : Prop :=
  db.members wid ≠ [] ∧ ∀ k ∈ db.members wid, ∀ f, db.findings.get? k = some f →
    f.state.isClosing = true ∨ hasEdge f.state (memberOutcome env cmp db ev item k f) = true

theorem allSettled_iff : allSettled env cmp db ev wid item = true ↔ AllSettle env cmp db ev wid item := by
  simp only [allSettled, AllSettle, Bool.and_eq_true, decide_eq_true_eq, List.all_eq_true]
  refine and_congr_right fun _ => forall₂_congr fun k hk => ?_
  obtain ⟨f, hf, -⟩ := Db.mem_members.mp hk
  have hh : db.history k = some (f, db.transitions k) := history_eq_some.mpr ⟨hf, rfl⟩
  rw [hh, Option.all_some, judged_isClosing, Bool.or_eq_true]
  constructor
  · intro h f' hf'
    cases hf.symm.trans hf'
    exact h
  · intro h
    exact h f hf

theorem runApplies_iff : runApplies env cmp db ev wid item = true ↔ ∀ k ∈ db.members wid, ∀ f,
    db.findings.get? k = some f → (memberValidity env cmp db ev item k f).valid = true := by
  simp only [runApplies, List.all_eq_true]
  refine forall₂_congr fun k hk => ?_
  obtain ⟨f, hf, -⟩ := Db.mem_members.mp hk
  rw [hf, Option.all_some]
  constructor
  · intro h f' hf'
    cases hf'
    exact h
  · intro h
    exact h f rfl

/-- **An item is verified exactly when** the run is valid for every member and each is settled. -/
theorem settledState_eq_verified : settledState env cmp db ev wid item = .verified ↔
    (∀ k ∈ db.members wid, ∀ f, db.findings.get? k = some f → (memberValidity env cmp db ev item k f).valid = true) ∧
      AllSettle env cmp db ev wid item := by
  rw [← runApplies_iff, ← allSettled_iff]
  unfold settledState
  cases runApplies env cmp db ev wid item with
  | false => simp
  | true =>
    cases allSettled env cmp db ev wid item with
    | true => simp
    | false =>
      simp only [Bool.not_true, Bool.false_eq_true, if_false, and_false, iff_false]
      split <;> decide

/-- A closed member that a valid run shows again. -/
def ShownAgain (env : Env) (cmp : Compare) (db : Db) (ev : Evidence) (item : WorkItem) (fid : Nat) (f : Finding) :
    Prop :=
  f.state.isClosing = true ∧ (memberValidity env cmp db ev item fid f).valid = true ∧
    shownBy f (sightingsFor fid ev.rid ev.sightings (familyIds db f)) = true

/-- The outcome of a member that is settled does not settle it exactly when it is closed and shown again. -/
theorem not_settles_iff (hv : (memberValidity env cmp db ev item fid f).valid = true)
    (hs : f.state.isClosing = true ∨ hasEdge f.state (memberOutcome env cmp db ev item fid f) = true) :
    (memberOutcome env cmp db ev item fid f).settles = false ↔ ShownAgain env cmp db ev item fid f := by
  cases hc : f.state.isClosing with
  | false =>
    have hedge := hs.resolve_left (by rw [hc]; exact Bool.false_ne_true)
    refine iff_of_false (fun hno => ?_) fun h => Bool.false_ne_true (hc.symm.trans h.1)
    revert hno hedge
    cases memberOutcome env cmp db ev item fid f <;> simp [hasEdge, ClosingOutcome.settles]
  | true =>
    unfold memberOutcome ShownAgain
    rw [hc]
    cases hp : shownBy f (sightingsFor fid ev.rid ev.sightings (familyIds db f)) with
    | false =>
      rw [decideOutcome_absent hv hp]
      simp [ClosingOutcome.settles]
    | true =>
      rw [decideOutcome_closed hv hp]
      simp [ClosingOutcome.settles, hv]

/-- **Verifying an item means that every outcome settles exactly when** no closed member is shown again, or the item is
kept open by a member the run is not valid for, or that is not settled. -/
theorem verified_settles_iff {tx : Tx} (hi : tx.db.workItems.get? wid = some item)
    (hst : item.state ∈ [WorkItemState.merged, .awaitingRescan]) :
    ((closeWorkItem env cmp ev tx wid).db.itemState wid = some .verified →
        ∀ k ∈ tx.db.members wid, ∀ f, tx.db.findings.get? k = some f →
          (memberOutcome env cmp tx.db ev item k f).settles = true) ↔
      (∀ k ∈ tx.db.members wid, ∀ f, tx.db.findings.get? k = some f → ¬ ShownAgain env cmp tx.db ev item k f) ∨
        (∃ k ∈ tx.db.members wid, ∃ f, tx.db.findings.get? k = some f ∧
          (memberValidity env cmp tx.db ev item k f).valid = false) ∨ ¬ AllSettle env cmp tx.db ev wid item := by
  rw [closeWorkItem_itemState hi hst, Option.some.injEq, settledState_eq_verified]
  constructor
  · intro h
    by_cases hvalid : ∀ k ∈ tx.db.members wid, ∀ f, tx.db.findings.get? k = some f →
        (memberValidity env cmp tx.db ev item k f).valid = true
    · by_cases hall : AllSettle env cmp tx.db ev wid item
      · refine Or.inl fun k hk f hf hshown => ?_
        have hno := (not_settles_iff (hvalid k hk f hf) (hall.2 k hk f hf)).mpr hshown
        rw [h ⟨hvalid, hall⟩ k hk f hf] at hno
        cases hno
      · exact Or.inr (Or.inr hall)
    · refine Or.inr (Or.inl ?_)
      by_contra hno
      refine hvalid fun k hk f hf => ?_
      by_contra hv
      exact hno ⟨k, hk, f, hf, by simpa using hv⟩
  · rintro h ⟨hvalid, hall⟩ k hk f hf
    by_contra hno
    have hshown := (not_settles_iff (hvalid k hk f hf) (hall.2 k hk f hf)).mp (by simpa using hno)
    rcases h with h | ⟨k', hk', f', hf', hinv⟩ | h
    · exact h k hk f hf hshown
    · rw [hvalid k' hk' f' hf'] at hinv
      cases hinv
    · exact h hall

end Closing

/-- A package with two findings that Trivy alone reports. A human accepts the disagreement, the first finding is gone in
the third run, which is no evidence for the second, and the fourth run reports `left`. -/
def disagreedTrace (left : List RawVuln) : List Action :=
  [sampleIngest "1" 10 [sampleVuln .trivy "CVE-1" "openssl" "1", sampleVuln .trivy "CVE-2" "openssl" "1"]] ++
    sampleReserve 11 ++ sampleCreate 12 ++ [sampleIngest "2" 30 [sampleVuln .trivy "CVE-2" "openssl" "1"]] ++
    sampleApply 31 ++ sampleAccept 32 .disagreementResolved ++ [sampleIngest "3" 20 []] ++ sampleApply 33 ++
    [sampleIngest "4" 40 left]

/-- The first finding is back in the fourth run, where the second is gone. -/
def returnTrace : List Action := disagreedTrace [sampleVuln .trivy "CVE-1" "openssl" "1"]

/-- The item is verified by a run that shows its first finding again. -/
theorem verified_with_returned : ∃ s item f ev, Reachable sampleController s ∧ s.db.workItems.get? 1 = some item ∧
    s.db.findings.get? 1 = some f ∧ 1 ∈ s.db.members 1 ∧ s.db.evidence 4 = some ev ∧
      ev.run.closureAppliedAt = none ∧ item.state ∈ [WorkItemState.merged, .awaitingRescan] ∧
        (closeWorkItem (sampleController.env 41) linearCompare ev { db := s.db } 1).db.itemState 1 = some .verified ∧
          memberOutcome (sampleController.env 41) linearCompare s.db ev item 1 f = .regression := by
  have hall : ((sampleState returnTrace).db.workItems.get? 1).any (fun item =>
      ((sampleState returnTrace).db.findings.get? 1).any fun f =>
      ((sampleState returnTrace).db.evidence 4).any fun ev =>
        decide (1 ∈ (sampleState returnTrace).db.members 1) && ev.run.closureAppliedAt == none &&
          decide (item.state ∈ [WorkItemState.merged, .awaitingRescan]) &&
          decide ((closeWorkItem (sampleController.env 41) linearCompare ev { db := (sampleState returnTrace).db }
            1).db.itemState 1 = some .verified) &&
          decide (memberOutcome (sampleController.env 41) linearCompare (sampleState returnTrace).db ev item 1 f =
            .regression)) = true := by
    decide +kernel
  obtain ⟨item, hi, hall⟩ := (Option.any_eq_true ..).mp hall
  obtain ⟨f, hf, hall⟩ := (Option.any_eq_true ..).mp hall
  obtain ⟨ev, hev, hall⟩ := (Option.any_eq_true ..).mp hall
  simp only [Bool.and_eq_true, beq_iff_eq, decide_eq_true_eq] at hall
  obtain ⟨⟨⟨⟨hk, howed⟩, hst⟩, hv⟩, ho⟩ := hall
  exact ⟨sampleState returnTrace, item, f, ev, sampleState_reachable _, hi, hf, hk, hev, howed, hst, hv, ho⟩

/-- Neither finding is in the fourth run. -/
def quietTrace : List Action := disagreedTrace []

/-- Of its two members one is closed and the other is not; the fourth run verifies the item, and the outcome of each
settles it. -/
theorem verified_settles_accepted : ∃ item ev, (sampleState quietTrace).db.workItems.get? 1 = some item ∧
    (sampleState quietTrace).db.evidence 4 = some ev ∧
      ((sampleState quietTrace).db.members 1).map (fun k => ((sampleState quietTrace).db.findings.get? k).map
        Finding.state) = [some .fixed, some .inRemediation] ∧
      ∀ k ∈ (sampleState quietTrace).db.members 1, ∀ f, (sampleState quietTrace).db.findings.get? k = some f →
        (memberOutcome (sampleController.env 41) linearCompare (sampleState quietTrace).db ev item k f).settles =
        true := by
  have hall : ((sampleState quietTrace).db.workItems.get? 1).any (fun item =>
      ((sampleState quietTrace).db.evidence 4).any fun ev =>
        decide (item.state ∈ [WorkItemState.merged, .awaitingRescan]) &&
        decide (((sampleState quietTrace).db.members 1).map (fun k =>
          ((sampleState quietTrace).db.findings.get? k).map Finding.state) = [some .fixed, some .inRemediation]) &&
        decide (∀ k ∈ (sampleState quietTrace).db.members 1, ∀ f ∈ (sampleState quietTrace).db.findings.get? k,
          shownBy f (sightingsFor k ev.rid ev.sightings (familyIds (sampleState quietTrace).db f)) = false) &&
        decide ((closeWorkItem (sampleController.env 41) linearCompare ev { db := (sampleState quietTrace).db }
          1).db.itemState 1 = some .verified)) = true := by
    decide +kernel
  obtain ⟨item, hi, hall⟩ := (Option.any_eq_true ..).mp hall
  obtain ⟨ev, hev, hall⟩ := (Option.any_eq_true ..).mp hall
  simp only [Bool.and_eq_true, decide_eq_true_eq] at hall
  obtain ⟨⟨⟨hst, hstates⟩, habsent⟩, hv⟩ := hall
  refine ⟨item, ev, hi, hev, hstates, ?_⟩
  generalize (sampleState quietTrace).db = db at hi habsent hv ⊢
  refine (@verified_settles_iff _ _ ev 1 item { db := db } hi hst).mpr (Or.inl ?_) hv
  rintro k hk f hf ⟨-, -, hshown⟩
  exact Bool.false_ne_true ((habsent k hk f hf).symm.trans hshown)

/-! ## Completeness -/

section Completeness

variable {env : Env} {cmp : Compare} {db : Db} {ev : Evidence} {wid fid : Nat} {item : WorkItem} {f : Finding}

/-- The outcome of a member has an edge in its state. -/
def Closable (env : Env) (cmp : Compare) (db : Db) (ev : Evidence) (item : WorkItem) (fid : Nat) (f : Finding) : Prop :=
  (memberOutcome env cmp db ev item fid f = .approvedDisposition →
      f.state ∈ [FindingState.inRemediation, .awaitingRescan, .humanBlocked]) ∧
    (memberOutcome env cmp db ev item fid f = .scannerDisagreementResolved →
      f.state ∈ [FindingState.inRemediation, .humanBlocked])

/-- A member whose outcome settles is settled exactly when it is closable. -/
theorem settled_iff_closable (hs : (memberOutcome env cmp db ev item fid f).settles = true) :
    f.state.isClosing = true ∨ hasEdge f.state (memberOutcome env cmp db ev item fid f) = true ↔
      Closable env cmp db ev item fid f := by
  have hopen : f.state.isClosing = true → memberOutcome env cmp db ev item fid f = .fixed := by
    intro hc
    cases hv : (memberValidity env cmp db ev item fid f).valid with
    | false =>
      rw [memberOutcome, decideOutcome_invalid hv] at hs
      cases hs
    | true =>
      by_contra hno
      have hshown := (not_settles_iff hv (Or.inl hc)).not.mp (by simpa using hs)
      refine hno (decideOutcome_eq_fixed.mpr ⟨hv, ?_⟩)
      by_contra hp
      exact hshown ⟨hc, hv, by simpa using hp⟩
  unfold Closable
  cases ho : memberOutcome env cmp db ev item fid f with
  | fixed => cases hc : f.state.isClosing <;> simp [hasEdge, hc]
  | approvedDisposition =>
    have hc : f.state.isClosing ≠ true := fun hc => by cases (hopen hc).symm.trans ho
    simp [hasEdge, hc]
  | scannerDisagreementResolved =>
    have hc : f.state.isClosing ≠ true := fun hc => by cases (hopen hc).symm.trans ho
    simp [hasEdge, hc]
  | _ =>
    rw [ho] at hs
    cases hs

/-- The members of a verified item are closed. -/
theorem members_closed {tx : Tx} (hi : tx.db.workItems.get? wid = some item)
    (hall : AllSettle env cmp tx.db ev wid item) :
    ∀ k ∈ tx.db.members wid,
    ((closeWorkItem env cmp ev tx wid).db.findingState k).any FindingState.isClosing = true := by
  intro k hk
  obtain ⟨f, hf, -⟩ := Db.mem_members.mp hk
  have hh : tx.db.history k = some (f, tx.db.transitions k) := history_eq_some.mpr ⟨hf, rfl⟩
  have hafter : (closeWorkItem env cmp ev tx wid).db.history k =
      some (settledMember env cmp tx.db ev wid item k (f, tx.db.transitions k)) := by
    rw [closeWorkItem_history hi, if_pos hk, hh, Option.map_some]
  have hno : memberOutcome env cmp tx.db ev item k f ≠ .stillPresent := by
    intro hstill
    rw [← allSettled_iff, allSettled_of_stillPresent hk hf hstill] at hall
    cases hall
  rw [settledMember, if_neg hno] at hafter
  rw [Db.findingState, (history_eq_some.mp hafter).1, Option.map_some, Option.any_some, judged_isClosing,
    Bool.or_eq_true]
  exact hall.2 k hk f hf

/-- **When every outcome of a run settles, the item and all its members are closed exactly when** the item has members
and each outcome has an edge in the state its member is in. -/
theorem closing_complete_iff {tx : Tx} (hi : tx.db.workItems.get? wid = some item)
    (hst : item.state ∈ [WorkItemState.merged, .awaitingRescan])
    (hall : ∀ k ∈ tx.db.members wid, ∀ f, tx.db.findings.get? k = some f →
      (memberOutcome env cmp tx.db ev item k f).settles = true) :
    ((∀ k ∈ tx.db.members wid,
    ((closeWorkItem env cmp ev tx wid).db.findingState k).any FindingState.isClosing = true) ∧
        (closeWorkItem env cmp ev tx wid).db.itemState wid = some .verified) ↔
      tx.db.members wid ≠ [] ∧ ∀ k ∈ tx.db.members wid, ∀ f, tx.db.findings.get? k = some f →
        Closable env cmp tx.db ev item k f := by
  have hvalid : ∀ k ∈ tx.db.members wid, ∀ f, tx.db.findings.get? k = some f →
      (memberValidity env cmp tx.db ev item k f).valid = true := by
    intro k hk f hf
    by_contra hv
    have hout := hall k hk f hf
    rw [memberOutcome, decideOutcome_invalid (by simpa using hv)] at hout
    cases hout
  have hiff : AllSettle env cmp tx.db ev wid item ↔ tx.db.members wid ≠ [] ∧
      ∀ k ∈ tx.db.members wid, ∀ f, tx.db.findings.get? k = some f → Closable env cmp tx.db ev item k f :=
    and_congr_right fun _ => forall₄_congr fun k hk f hf => settled_iff_closable (hall k hk f hf)
  rw [closeWorkItem_itemState hi hst, Option.some.injEq, settledState_eq_verified, ← hiff]
  constructor
  · rintro ⟨-, -, h⟩
    exact h
  · intro h
    exact ⟨members_closed hi h, hvalid, h⟩

end Completeness

instance (env : Env) (cmp : Compare) (db : Db) (ev : Evidence) (item : WorkItem) (fid : Nat) (f : Finding) :
    Decidable (Closable env cmp db ev item fid f) := instDecidableAnd

/-- A package that Trivy alone reports, with a session of its own and an accepted disagreement. -/
def acceptedTrace : List Action :=
  [sampleIngest "1" 10 [sampleVuln .trivy "CVE-1" "openssl" "1"]] ++ sampleReserve 11 ++ sampleCreate 12 ++
    sampleAccept 13 .disagreementResolved ++ [sampleIngest "2" 20 [sampleVuln .trivy "CVE-1" "openssl" "1"]]

/-- The second run closes the item whose disagreement was accepted. -/
theorem closing_complete_accepted : ∃ item ev, (sampleState acceptedTrace).db.workItems.get? 1 = some item ∧
    (sampleState acceptedTrace).db.evidence 2 = some ev ∧
      (closeWorkItem (sampleController.env 21) linearCompare ev
      { db := (sampleState acceptedTrace).db } 1).db.itemState 1 =
        some .verified := by
  have hall : ((sampleState acceptedTrace).db.workItems.get? 1).any (fun item =>
      ((sampleState acceptedTrace).db.evidence 2).any fun ev =>
        decide (item.state ∈ [WorkItemState.merged, .awaitingRescan]) &&
        decide (∀ k ∈ (sampleState acceptedTrace).db.members 1, ∀ f ∈ (sampleState acceptedTrace).db.findings.get? k,
          (memberOutcome (sampleController.env 21) linearCompare (sampleState acceptedTrace).db ev item k f).settles =
          true ∧
            Closable (sampleController.env 21) linearCompare (sampleState acceptedTrace).db ev item k f)) = true := by
    decide +kernel
  obtain ⟨item, hi, hall⟩ := (Option.any_eq_true ..).mp hall
  obtain ⟨ev, hev, hall⟩ := (Option.any_eq_true ..).mp hall
  simp only [Bool.and_eq_true, decide_eq_true_eq] at hall
  obtain ⟨hst, hclosable⟩ := hall
  have hmembers : (sampleState acceptedTrace).db.members 1 ≠ [] := by decide +kernel
  exact ⟨item, ev, hi, hev, ((@closing_complete_iff _ _ ev 1 item { db := (sampleState acceptedTrace).db } hi hst
    fun k hk f hf => (hclosable k hk f hf).1).mpr ⟨hmembers, fun k hk f hf => (hclosable k hk f hf).2⟩).2⟩

/-- A package that Trivy alone reports; Devin already has a session for its item, which is adopted. A human accepts the
disagreement, and the second run reports the same. -/
def adoptedTrace : List Action :=
  [sampleIngest "1" 10 [sampleVuln .trivy "CVE-1" "openssl" "1"]] ++ sampleReserve 11 ++
    [.adopt 12 (.ok [sampleSession]), .stop] ++ sampleAccept 13 .disagreementResolved ++
    [sampleIngest "2" 20 [sampleVuln .trivy "CVE-1" "openssl" "1"]]

/-- The member of an adopted session is still grouped, and the accepted disagreement never closes it. -/
theorem adopted_waits : ∃ s item ev, Reachable sampleController s ∧ s.db.workItems.get? 1 = some item ∧
    s.db.evidence 2 = some ev ∧ ev.run.closureAppliedAt = none ∧ item.state ∈ [WorkItemState.merged, .awaitingRescan] ∧
      (∀ k ∈ s.db.members 1, ∀ f ∈ s.db.findings.get? k,
        (memberOutcome (sampleController.env 21) linearCompare s.db ev item k f).settles = true) ∧
          (closeWorkItem (sampleController.env 21) linearCompare ev { db := s.db } 1).db.itemState 1 =
            some .awaitingRescan := by
  have hall : ((sampleState adoptedTrace).db.workItems.get? 1).any (fun item =>
      ((sampleState adoptedTrace).db.evidence 2).any fun ev => ev.run.closureAppliedAt == none &&
        decide (item.state ∈ [WorkItemState.merged, .awaitingRescan]) &&
        decide (∀ k ∈ (sampleState adoptedTrace).db.members 1, ∀ f ∈ (sampleState adoptedTrace).db.findings.get? k,
          (memberOutcome (sampleController.env 21) linearCompare (sampleState adoptedTrace).db ev item k f).settles =
          true) &&
        decide ((closeWorkItem (sampleController.env 21) linearCompare ev { db := (sampleState adoptedTrace).db }
          1).db.itemState 1 = some .awaitingRescan)) = true := by
    decide +kernel
  obtain ⟨item, hi, hall⟩ := (Option.any_eq_true ..).mp hall
  obtain ⟨ev, hev, hall⟩ := (Option.any_eq_true ..).mp hall
  simp only [Bool.and_eq_true, beq_iff_eq, decide_eq_true_eq] at hall
  obtain ⟨⟨⟨howed, hst⟩, hout⟩, hwait⟩ := hall
  exact ⟨sampleState adoptedTrace, item, ev, sampleState_reachable _, hi, hev, howed, hst, hout, hwait⟩

end HardeningLoop
