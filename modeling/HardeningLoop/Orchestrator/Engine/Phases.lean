import HardeningLoop.Orchestrator.Engine.Evaluation

/-!
# The three loops of an evaluation

What the evaluation of a run does to each finding, loop by loop, as a function of its history before:

- `closeItems_history`: `afterClosing`, the judgement of the work item that owns the finding;
- `regressions_history`: `afterRegression`; `drift_history`: `afterDrift`;
- `applyScanRun_history`: the three of them, one after the other.

`closeItems_itemState` does the same for the work items of the first loop.
-/

namespace HardeningLoop

open Rows (Table)

section Phases

variable {env : Env} {cmp : Compare} {ev : Evidence} {tx : Tx}

/-! ## The first loop -/

/-- A closing work item, with everything its closing reads, is as it was. -/
structure ItemAsAt (db db' : Db) (wid : Nat) : Prop where
  evidence : SameEvidence db db'
  item : db'.workItems.get? wid = db.workItems.get? wid
  members : db'.members wid = db.members wid
  histories : ∀ k ∈ db.members wid, db'.history k = db.history k

theorem ItemAsAt.refl (db : Db) (wid : Nat) : ItemAsAt db db wid := ⟨⟨rfl, rfl⟩, rfl, rfl, fun _ _ => rfl⟩

section Item

variable {db db' : Db} {wid : Nat}

theorem ItemAsAt.runApplies (h : ItemAsAt db db' wid) (item : WorkItem) :
    runApplies env cmp db' ev wid item = HardeningLoop.runApplies env cmp db ev wid item := by
  unfold HardeningLoop.runApplies
  rw [h.members, Bool.eq_iff_iff, List.all_eq_true, List.all_eq_true]
  refine forall₂_congr fun k hk => ?_
  rw [row_of_history (h.histories k hk)]
  simp only [h.evidence.memberValidity]

theorem ItemAsAt.settledMember (h : ItemAsAt db db' wid) (item : WorkItem) (k : Nat) :
    settledMember env cmp db' ev wid item k = HardeningLoop.settledMember env cmp db ev wid item k := by
  funext hist
  unfold HardeningLoop.settledMember
  rw [h.evidence.memberOutcome, h.runApplies, h.evidence.judged]

theorem ItemAsAt.verdicts (h : ItemAsAt db db' wid) (item : WorkItem) :
    verdicts env cmp db' ev wid item = HardeningLoop.verdicts env cmp db ev wid item := by
  unfold HardeningLoop.verdicts
  rw [h.members]
  refine List.flatMap_congr fun k hk => ?_
  unfold verdict
  rw [row_of_history (h.histories k hk)]
  cases db.findings.get? k with
  | none => rfl
  | some f => dsimp only; rw [h.evidence.memberOutcome, h.evidence.memberValidity]

theorem ItemAsAt.settledState (h : ItemAsAt db db' wid) (item : WorkItem) :
    settledState env cmp db' ev wid item = HardeningLoop.settledState env cmp db ev wid item := by
  have hmembers : ((db.members wid).all fun k =>
        (db'.history k).all fun hist => (judged env cmp db' ev item k hist).1.state.isClosing) =
      (db.members wid).all fun k =>
        (db.history k).all fun hist => (judged env cmp db ev item k hist).1.state.isClosing := by
    rw [Bool.eq_iff_iff, List.all_eq_true, List.all_eq_true]
    refine forall₂_congr fun k hk => ?_
    rw [h.histories k hk]
    simp only [h.evidence.judged]
  have hall : allSettled env cmp db' ev wid item = allSettled env cmp db ev wid item := by
    unfold allSettled
    rw [h.members, hmembers]
  unfold HardeningLoop.settledState stillIds
  rw [h.runApplies, hall, h.verdicts]

end Item

theorem fired_owner (fid : Nat) (event : FindingEvent) (reason actor : String) (runId : Option Nat) (h : History) :
    (fired env fid event reason actor runId h).1.workItemId = h.1.workItemId := by
  unfold fired
  split <;> rfl

theorem settledMember_owner {db : Db} (wid : Nat) (item : WorkItem) (fid : Nat) (h : History) :
    (settledMember env cmp db ev wid item fid h).1.workItemId = h.1.workItemId := by
  unfold settledMember judged
  split
  · split
    · exact fired_owner ..
    · rfl
  · split
    · exact fired_owner ..
    · rfl

theorem closeWorkItem_owner (wid k : Nat) :
    ((closeWorkItem env cmp ev tx wid).db.findings.get? k).map Finding.workItemId =
      (tx.db.findings.get? k).map Finding.workItemId := by
  cases hi : tx.db.workItems.get? wid with
  | none => unfold closeWorkItem; rw [hi]
  | some item =>
    have hmap (o : Option History) : (o.map (settledMember env cmp tx.db ev wid item k)).map (·.1.workItemId) =
        o.map (·.1.workItemId) := by
      cases o with
      | none => rfl
      | some h => exact congrArg some (settledMember_owner wid item k h)
    have hrow (db : Db) : (db.findings.get? k).map Finding.workItemId = (db.history k).map (·.1.workItemId) := by
      simp [Db.history, Option.map_map, Function.comp_def]
    rw [hrow, hrow, closeWorkItem_history hi]
    split
    · exact hmap _
    · rfl

theorem closeWorkItem_members (wid wid' : Nat) :
    (closeWorkItem env cmp ev tx wid).db.members wid' = tx.db.members wid' := by
  refine Table.select_congr (closeWorkItem_does env cmp ev tx wid).sameEvidence.size fun k => ?_
  have hany (o : Option Finding) : o.any (fun f => f.workItemId == some wid') =
      (o.map Finding.workItemId).any (· == some wid') := by cases o <;> rfl
  rw [hany, hany, closeWorkItem_owner]

theorem mem_closingItems {db : Db} {wid : Nat} :
    wid ∈ closingItems db ↔
      ∃ item, db.workItems.get? wid = some item ∧ item.state ∈ [WorkItemState.merged, .awaitingRescan] := by
  simp [closingItems, Table.mem_select]

/-- Closing one item leaves what the closing of the others reads. -/
theorem closeWorkItem_keeps :
    Rows.Keeps (fun (t : Tx) wid => ItemAsAt tx.db t.db wid) (closeWorkItem env cmp ev) (closingItems tx.db) := by
  intro t wid hwid wid' hwid' hne h h'
  have hacts := closeWorkItem_does env cmp ev t wid
  refine ⟨h'.evidence.trans hacts.sameEvidence, ?_, (closeWorkItem_members wid wid').trans h'.members, fun k hk => ?_⟩
  · exact (hacts.item (S := .closing wid (· ∈ t.db.members wid)) not_false (Ne.symm hne)).trans h'.item
  · have hnot : k ∉ t.db.members wid := by
      rw [h.members]
      intro hk'
      obtain ⟨f, hf, how⟩ := Db.mem_members.mp hk
      obtain ⟨f', hf', how'⟩ := Db.mem_members.mp hk'
      cases hf.symm.trans hf'
      exact hne (Option.some.inj (how'.symm.trans how))
    exact (hacts.history hnot).trans (h'.histories k hk)

/-- The work item that judges the finding: its owner, when that waits for a closing run. -/
def judge (db : Db) (f : Finding) : Option (Nat × WorkItem) :=
  f.workItemId.bind fun wid =>
    ((db.workItems.get? wid).filter fun w => w.state ∈ [WorkItemState.merged, .awaitingRescan]).map (wid, ·)

theorem judge_eq_some {db : Db} {f : Finding} {wid : Nat} {item : WorkItem} :
    judge db f = some (wid, item) ↔ f.workItemId = some wid ∧ db.workItems.get? wid = some item ∧
      item.state ∈ [WorkItemState.merged, .awaitingRescan] := by
  simp only [judge, Option.bind_eq_some_iff, Option.map_eq_some_iff, Option.filter_eq_some_iff, decide_eq_true_eq,
    Prod.mk.injEq]
  constructor
  · rintro ⟨w, hw, i, ⟨hi, hs⟩, rfl, rfl⟩; exact ⟨hw, hi, hs⟩
  · rintro ⟨hw, hi, hs⟩; exact ⟨wid, hw, item, ⟨hi, hs⟩, rfl, rfl⟩

/-- A finding after the first loop. -/
def afterClosing (env : Env) (cmp : Compare) (db : Db) (ev : Evidence) (fid : Nat) (h : History) : History :=
  match judge db h.1 with
  | some (wid, item) => settledMember env cmp db ev wid item fid h
  | none => h

/-- **The first loop, for each finding.** -/
theorem closeItems_history (k : Nat) :
    (closeItems env cmp ev tx).db.history k = (tx.db.history k).map (afterClosing env cmp tx.db ev k) := by
  have howned (t : Tx) (wid : Nat) (hwid : wid ∈ closingItems tx.db) (h : ItemAsAt tx.db t.db wid) (k : Nat)
      (hk : k ∈ tx.db.members wid) : (closeWorkItem env cmp ev t wid).db.history k =
        (t.db.history k).map (afterClosing env cmp tx.db ev k) := by
    obtain ⟨item, hi, hst⟩ := mem_closingItems.mp hwid
    obtain ⟨f, hf, how⟩ := Db.mem_members.mp hk
    have hh : tx.db.history k = some (f, tx.db.transitions k) := history_eq_some.mpr ⟨hf, rfl⟩
    have hj : judge tx.db f = some (wid, item) := judge_eq_some.mpr ⟨how, hi, hst⟩
    rw [closeWorkItem_history (h.item.trans hi), if_pos (h.members ▸ hk), h.settledMember, h.histories k hk, hh,
      Option.map_some, Option.map_some, afterClosing, hj]
  have hframe (t : Tx) (wid : Nat) (_ : wid ∈ closingItems tx.db) (h : ItemAsAt tx.db t.db wid) (k : Nat)
      (hk : k ∉ tx.db.members wid) : (closeWorkItem env cmp ev t wid).db.history k = t.db.history k :=
    (closeWorkItem_does env cmp ev t wid).history (S := .closing wid (· ∈ t.db.members wid)) (h.members ▸ hk)
  have hnd : (closingItems tx.db).Nodup := Table.nodup_select ..
  obtain ⟨hown, hfree⟩ := Rows.foldl_owned (fun (t : Tx) k => t.db.history k) (fun wid k => k ∈ tx.db.members wid)
    (fun _ k => Option.map (afterClosing env cmp tx.db ev k)) hnd closeWorkItem_keeps
    (fun wid _ wid' _ k h₁ h₂ => by
      obtain ⟨f, hf, how⟩ := Db.mem_members.mp h₁
      obtain ⟨f', hf', how'⟩ := Db.mem_members.mp h₂
      cases hf.symm.trans hf'
      exact Option.some.inj (how.symm.trans how'))
    howned hframe (fun wid _ => ItemAsAt.refl tx.db wid) k
  cases hf : tx.db.findings.get? k with
  | none =>
    have hno : ∀ wid ∈ closingItems tx.db, k ∉ tx.db.members wid := by
      rintro wid - hk
      obtain ⟨f, hf', -⟩ := Db.mem_members.mp hk
      rw [hf] at hf'
      cases hf'
    rw [closeItems, hfree hno]
    simp [Db.history, hf]
  | some f =>
    have hh : tx.db.history k = some (f, tx.db.transitions k) := history_eq_some.mpr ⟨hf, rfl⟩
    cases hj : judge tx.db f with
    | some owner =>
      obtain ⟨wid, item⟩ := owner
      obtain ⟨how, hi, hst⟩ := judge_eq_some.mp hj
      exact hown wid (mem_closingItems.mpr ⟨item, hi, hst⟩) (Db.mem_members.mpr ⟨f, hf, how⟩)
    | none =>
      have hno : ∀ wid ∈ closingItems tx.db, k ∉ tx.db.members wid := by
        intro wid hwid hk
        obtain ⟨item, hi, hst⟩ := mem_closingItems.mp hwid
        obtain ⟨f', hf', how⟩ := Db.mem_members.mp hk
        cases hf.symm.trans hf'
        rw [judge_eq_some.mpr ⟨how, hi, hst⟩] at hj
        cases hj
      rw [closeItems, hfree hno, hh, Option.map_some, afterClosing, hj]

/-- **The first loop, for each work item.** -/
theorem closeItems_itemState (wid : Nat) :
    (closeItems env cmp ev tx).db.itemState wid =
      if wid ∈ closingItems tx.db then (tx.db.workItems.get? wid).map (settledState env cmp tx.db ev wid)
      else tx.db.itemState wid := by
  have hnd : (closingItems tx.db).Nodup := Table.nodup_select ..
  refine Rows.foldl_rows (fun (t : Tx) wid => t.db.itemState wid)
    (fun wid _ => (tx.db.workItems.get? wid).map (settledState env cmp tx.db ev wid)) hnd closeWorkItem_keeps
    (fun t wid hwid h => ?_) (fun t wid _ _ k hk => ?_) (fun wid _ => ItemAsAt.refl tx.db wid) wid
  · obtain ⟨item, hi, hst⟩ := mem_closingItems.mp hwid
    rw [closeWorkItem_itemState (h.item.trans hi) hst, hi, h.settledState]
    rfl
  · unfold Db.itemState
    rw [(closeWorkItem_does env cmp ev t wid).item (S := .closing wid (· ∈ t.db.members wid)) not_false hk]

theorem closeItems_does (tx : Tx) : Acts env (.sweeping (· = .settle)) tx (closeItems env cmp ev tx) :=
  .foldl _ .refl fun t wid _ => (closeWorkItem_does env cmp ev t wid).widen (Scope.closing_within_sweeping ..)

/-! ## The second loop -/

/-- The run shows that a fixed finding is back. -/
def reopens (env : Env) (cmp : Compare) (db : Db) (ev : Evidence) (fid : Nat) (f : Finding) : Bool :=
  f.state = .fixed && familyKey f ∈ presentFamilies db ev.sightings && (reopenValidity env cmp db ev fid f).valid

/-- A finding after the second loop. -/
def afterRegression (env : Env) (cmp : Compare) (db : Db) (ev : Evidence) (fid : Nat) (h : History) : History :=
  if reopens env cmp db ev fid h.1 then
    let h := fired env fid .reappeared ("present again in run " ++ ev.run.externalRunId) "scanner" (some ev.rid) h
    (Finding.giveTo none h.1, h.2)
  else h

theorem SameEvidence.afterRegression {db db' : Db} (h : SameEvidence db db') (fid : Nat) :
    afterRegression env cmp db' ev fid = HardeningLoop.afterRegression env cmp db ev fid := by
  funext hist
  unfold HardeningLoop.afterRegression reopens
  rw [h.presentFamilies, h.reopenValidity]

/-- Only a fixed finding reappears. -/
theorem findingFrom_reappeared (t : Tx) (fid : Nat) (s : FindingState) (reason actor : String) (runId : Option Nat) :
    (t.findingFrom env fid s .reappeared reason actor runId).2 = decide (s = .fixed) := by
  rw [Tx.findingFrom_fired, next_reappeared]
  by_cases hs : s = .fixed <;> simp [hs]

theorem reopenFinding_history {t : Tx} {fid : Nat} {h : History} (hh : t.db.history fid = some h) :
    (reopenFinding env ev t fid h.1).db.history fid = some (if h.1.state = .fixed then
      let h := fired env fid .reappeared ("present again in run " ++ ev.run.externalRunId) "scanner" (some ev.rid) h
      (Finding.giveTo none h.1, h.2) else h) := by
  have hfired : (t.finding env fid .reappeared ("present again in run " ++ ev.run.externalRunId) "scanner"
      (some ev.rid)).2 = decide (h.1.state = .fixed) := by
    unfold Tx.finding
    rw [(history_eq_some.mp hh).1]
    exact findingFrom_reappeared ..
  have hhist : (t.finding env fid .reappeared ("present again in run " ++ ev.run.externalRunId) "scanner"
      (some ev.rid)).1.db.history fid = some (fired env fid .reappeared
        ("present again in run " ++ ev.run.externalRunId) "scanner" (some ev.rid) h) := by
    rw [history_finding, if_pos rfl, hh, Option.map_some]
  unfold reopenFinding
  dsimp only
  rw [hfired]
  by_cases hs : h.1.state = .fixed
  · simp only [hs, decide_true, Bool.not_true, Bool.false_eq_true, if_false, if_true]
    rw [history_own, if_pos rfl]
    split
    · exact congrArg _ hhist
    · exact congrArg _ hhist
  · simp only [hs, decide_false, Bool.not_false, if_true, if_false]
    rw [hhist, fired, next_reappeared, if_neg hs]

/-- One step of the second loop. -/
theorem regressFinding_history {t : Tx} {fid : Nat} {present : List (String × String × Option String × String)}
    (hp : present = presentFamilies t.db ev.sightings) :
    (regressFinding env cmp ev present t fid).db.history fid =
      (t.db.history fid).map (afterRegression env cmp t.db ev fid) := by
  unfold regressFinding
  cases hf : t.db.findings.get? fid with
  | none =>
    have hh : t.db.history fid = none := by simp [Db.history, hf]
    rw [hh]
    rfl
  | some f =>
    have hh : t.db.history fid = some (f, t.db.transitions fid) := history_eq_some.mpr ⟨hf, rfl⟩
    rw [hh, Option.map_some]
    dsimp only
    unfold afterRegression reopens
    rw [← hp]
    by_cases hmem : familyKey f ∈ present
    · cases hv : (reopenValidity env cmp t.db ev fid f).valid with
      | false => simp [hmem, hh]
      | true =>
        by_cases hs : f.state = .fixed
        · have hsup : stillSuppressed t.db ev fid f = false := by simp [stillSuppressed, hs]
          simp only [hmem, not_true, if_false, Bool.not_true, Bool.false_eq_true, hsup, hs, decide_true, Bool.and_true]
          rw [reopenFinding_history (h := (f, t.db.transitions fid)) hh, if_pos hs]
          rfl
        · simp only [hmem, not_true, if_false, Bool.not_true, Bool.false_eq_true, hs, decide_false, Bool.false_and]
          split
          · exact hh
          · rw [reopenFinding_history (h := (f, t.db.transitions fid)) hh, if_neg hs]
    · simp [hmem, hh]

/-- **The second loop, for each finding.** -/
theorem regressions_history (k : Nat) :
    (regressions env cmp ev tx).db.history k = (tx.db.history k).map (afterRegression env cmp tx.db ev k) := by
  have hid (h : History) (hno : reopens env cmp tx.db ev k h.1 = false) : afterRegression env cmp tx.db ev k h = h := by
    simp [afterRegression, hno]
  unfold regressions
  dsimp only
  split
  · rename_i hnil
    cases hh : tx.db.history k with
    | none => rfl
    | some h => rw [Option.map_some, hid h (by simp [reopens, hnil])]
  · have hnd : (tx.db.findings.select fun f => f.state.isClosing).Nodup := Table.nodup_select ..
    have hkeeps : Rows.Keeps (fun (t : Tx) fid => AsAt tx.db t.db fid)
        (regressFinding env cmp ev (presentFamilies tx.db ev.sightings))
        (tx.db.findings.select fun f => f.state.isClosing) :=
      keeps_asAt id fun t fid _ => regressFinding_does env cmp ev _ t fid
    rw [Rows.foldl_rows (fun (t : Tx) k => t.db.history k)
      (fun k => Option.map (afterRegression env cmp tx.db ev k)) hnd
      hkeeps (fun t fid _ h => ?_) (fun t fid _ _ k hk => ?_) (fun fid _ => AsAt.refl tx.db fid) k]
    · split
      · rfl
      · rename_i hno
        cases hh : tx.db.history k with
        | none => rfl
        | some h =>
          rw [Option.map_some, hid h]
          have hcl : h.1.state.isClosing = false := by
            by_contra hcl
            exact hno (Table.mem_select.mpr ⟨h.1, (history_eq_some.mp hh).1, by simpa using hcl⟩)
          have hs : h.1.state ≠ .fixed := fun hs => by rw [hs] at hcl; cases hcl
          simp [reopens, hs]
    · rw [regressFinding_history (h.evidence.presentFamilies _).symm, h.evidence.afterRegression]
    · exact (regressFinding_does env cmp ev _ t fid).history (S := .reopening (· = fid)) hk

/-! ## The third loop -/

/-- The run shows that a finding nobody works on is gone. -/
def drifts (env : Env) (db : Db) (ev : Evidence) (f : Finding) : Bool :=
  f.state ∈ driftStates && f.lastSeenRunId ≠ ev.rid && familyKey f ∉ presentFamilies db ev.sightings &&
    (driftOwner db f).isSome && (driftValidity env db ev f).valid

/-- A finding after the third loop. -/
def afterDrift (env : Env) (db : Db) (ev : Evidence) (fid : Nat) (h : History) : History :=
  if drifts env db ev h.1 then
    fired env fid .closingAbsent ("absent in run " ++ ev.run.externalRunId ++ " (no remediation)") "scanner"
      (some ev.rid) h
  else h

theorem AsAt.afterDrift {db db' : Db} {fid : Nat} (h : AsAt db db' fid) :
    afterDrift env db' ev fid = HardeningLoop.afterDrift env db ev fid := by
  funext hist
  have howner (f : Finding) : driftOwner db' f = driftOwner db f := by unfold driftOwner; rw [h.workItems]
  unfold HardeningLoop.afterDrift drifts
  rw [h.evidence.presentFamilies, h.evidence.driftValidity, howner]

/-- One step of the third loop. -/
theorem driftFinding_history {acc : Tx × List Nat} {fid : Nat}
    {present : List (String × String × Option String × String)} (hp : present = presentFamilies acc.1.db ev.sightings)
    {h : History} (hh : acc.1.db.history fid = some h) (hst : h.1.state ∈ driftStates)
    (hlast : h.1.lastSeenRunId ≠ ev.rid) :
    (driftFinding env ev present acc fid).1.db.history fid = some (afterDrift env acc.1.db ev fid h) := by
  unfold driftFinding
  rw [(history_eq_some.mp hh).1]
  dsimp only
  unfold afterDrift drifts
  rw [← hp]
  by_cases hmem : familyKey h.1 ∈ present
  · simp [hmem, hh]
  · cases ho : driftOwner acc.1.db h.1 with
    | none => simp [hmem, hh]
    | some owner =>
      cases hv : (driftValidity env acc.1.db ev h.1).valid with
      | false => simp [hmem, hh]
      | true =>
        have hfire : (acc.1.finding env fid .closingAbsent
            ("absent in run " ++ ev.run.externalRunId ++ " (no remediation)") "scanner"
            (some ev.rid)).1.db.history fid =
            _ := history_finding ..
        rw [if_pos rfl, hh, Option.map_some] at hfire
        simp only [hmem, not_false_eq_true, decide_true, if_false, Bool.not_true, Bool.false_eq_true, hst, hlast, ne_eq,
          Bool.and_true, Option.isSome_some, if_true]
        split
        · exact hfire
        · exact hfire

/-- **The third loop, for each finding.** -/
theorem drift_history (k : Nat) :
    (drift env ev tx).db.history k = (tx.db.history k).map (afterDrift env tx.db ev k) := by
  have hsupersede (t : Tx) (l : List Nat) : (l.foldl (supersedeItem env ev) t).db.history k = t.db.history k :=
    Rows.foldl_frame (fun t : Tx => t.db.history k)
      (fun t wid _ => (supersedeItem_does env ev t wid).history (S := .item wid fun _ => False) not_false) t
  unfold drift
  dsimp only
  rw [hsupersede]
  have hnd : (tx.db.findings.select fun f => f.state ∈ driftStates && f.lastSeenRunId ≠ ev.rid).Nodup :=
    Table.nodup_select ..
  have hkeeps : Rows.Keeps (fun (acc : Tx × List Nat) fid => AsAt tx.db acc.1.db fid)
      (driftFinding env ev (presentFamilies tx.db ev.sightings))
      (tx.db.findings.select fun f => f.state ∈ driftStates && f.lastSeenRunId ≠ ev.rid) :=
    keeps_asAt Prod.fst fun acc fid _ =>
      (driftFinding_does env ev _ acc fid).widen (Scope.findingsOnly_within fun _ h => h)
  rw [Rows.foldl_rows (fun (acc : Tx × List Nat) k => acc.1.db.history k)
    (fun k => Option.map (afterDrift env tx.db ev k)) hnd hkeeps (fun acc fid hfid h => ?_)
    (fun acc fid _ _ k hk => ?_) (fun fid _ => AsAt.refl tx.db fid) k]
  · split
    · rfl
    · rename_i hno
      cases hh : tx.db.history k with
      | none => rfl
      | some h =>
        have hnot : drifts env tx.db ev h.1 = false := by
          by_contra hd
          refine hno (Table.mem_select.mpr ⟨h.1, (history_eq_some.mp hh).1, ?_⟩)
          simp only [drifts, Bool.not_eq_false, Bool.and_eq_true] at hd
          rw [Bool.and_eq_true]
          exact hd.1.1.1
        rw [Option.map_some, afterDrift, hnot]
        rfl
  · obtain ⟨f, hf, hsel⟩ := Table.mem_select.mp hfid
    simp only [Bool.and_eq_true, decide_eq_true_eq] at hsel
    have hh : acc.1.db.history fid = some (f, tx.db.transitions fid) :=
      h.history.trans (history_eq_some.mpr ⟨hf, rfl⟩)
    rw [driftFinding_history (h.evidence.presentFamilies _).symm hh hsel.1 hsel.2, h.afterDrift, hh, Option.map_some]
  · exact (driftFinding_does env ev _ acc fid).history (S := .findingsOnly (· = fid)) hk

/-! ## The whole evaluation -/

/-- The events an evaluation fires at a finding. -/
def evaluationEvents : List FindingEvent :=
  [.closingAbsent, .closingVex, .disagreementResolved, .humanBlocked, .reappeared]

theorem next_not_drift {s s' : FindingState} {e : FindingEvent} (h : nextFindingState s e = some s')
    (he : e ∈ evaluationEvents) : s' ∉ driftStates := by
  have hall : ∀ row ∈ findingTransitions, row.1.2 ∈ evaluationEvents → row.2 ∉ driftStates := by decide
  exact hall _ (mem_of_lookup h) he

/-- A finding that is still to drift was left alone by the event. -/
theorem fired_of_drift {fid : Nat} {event : FindingEvent} {reason actor : String} {runId : Option Nat} {h : History}
    (he : event ∈ evaluationEvents) (hd : (fired env fid event reason actor runId h).1.state ∈ driftStates) :
    fired env fid event reason actor runId h = h := by
  unfold fired at hd ⊢
  cases hn : nextFindingState h.1.state event with
  | none => rfl
  | some after =>
    simp only [hn] at hd
    exact absurd hd (next_not_drift hn he)

theorem closingEvent_event {x reason actor : String} {o : ClosingOutcome} {event : FindingEvent}
    (h : closingEvent x o = some (event, reason, actor)) :
    (o = .fixed ∧ event = .closingAbsent ∧ reason = "absent in run " ++ x) ∨
      (o = .approvedDisposition ∧ event = .closingVex) ∨
        (o = .scannerDisagreementResolved ∧ event = .disagreementResolved) := by
  cases o with
  | fixed => cases h; exact Or.inl ⟨rfl, rfl, rfl⟩
  | approvedDisposition => cases h; exact Or.inr (Or.inl ⟨rfl, rfl⟩)
  | scannerDisagreementResolved => cases h; exact Or.inr (Or.inr ⟨rfl, rfl⟩)
  | regression => cases h
  | humanBlocked => cases h
  | stillPresent => cases h
  | notApplicable => cases h

theorem judged_of_drift {db : Db} {item : WorkItem} {fid : Nat} {h : History}
    (hd : (judged env cmp db ev item fid h).1.state ∈ driftStates) : judged env cmp db ev item fid h = h := by
  unfold judged at hd ⊢
  cases hc : closingEvent ev.run.externalRunId (memberOutcome env cmp db ev item fid h.1) with
  | none => rfl
  | some e =>
    obtain ⟨event, reason, actor⟩ := e
    simp only [hc] at hd
    refine fired_of_drift ?_ hd
    rcases closingEvent_event hc with ⟨-, rfl, -⟩ | ⟨-, rfl⟩ | ⟨-, rfl⟩ <;> decide

/-- The first two loops leave a finding alone that is still to drift. -/
theorem afterClosing_of_drift {db : Db} {fid : Nat} {h : History}
    (hd : (afterClosing env cmp db ev fid h).1.state ∈ driftStates) : afterClosing env cmp db ev fid h = h := by
  unfold afterClosing at hd ⊢
  cases hj : judge db h.1 with
  | none => rfl
  | some owner =>
    obtain ⟨wid, item⟩ := owner
    simp only [hj] at hd
    dsimp only
    unfold settledMember at hd ⊢
    split at hd
    · split at hd
      · rename_i hs happ
        rw [if_pos hs, if_pos happ]
        exact fired_of_drift (by decide) hd
      · rename_i hs happ
        rw [if_pos hs, if_neg happ]
    · rename_i hs
      rw [if_neg hs]
      exact judged_of_drift hd

theorem afterRegression_of_drift {db : Db} {fid : Nat} {h : History}
    (hd : (afterRegression env cmp db ev fid h).1.state ∈ driftStates) : afterRegression env cmp db ev fid h = h := by
  unfold afterRegression at hd ⊢
  split at hd
  · rename_i hr
    have hfixed : h.1.state = .fixed := by
      simp only [reopens, Bool.and_eq_true, decide_eq_true_eq] at hr
      exact hr.1.1
    simp only [fired, hfixed, next_reappeared, if_true] at hd
    have hregression : FindingState.regression ∉ driftStates := by decide
    exact absurd hd hregression
  · rename_i hr
    rw [if_neg hr]

theorem settledState_not_queued {db : Db} {wid : Nat} {item : WorkItem} :
    settledState env cmp db ev wid item ∉ [WorkItemState.queued, .issueOpen] := by
  unfold settledState
  split
  · decide
  · split
    · decide
    · split <;> decide

/-- The first two loops neither queue an item nor take one out of the queue. -/
theorem driftOwner_closeItems (f : Finding) :
    driftOwner (regressions env cmp ev (closeItems env cmp ev tx)).db f = driftOwner tx.db f := by
  have hitems : (regressions env cmp ev (closeItems env cmp ev tx)).db.workItems =
      (closeItems env cmp ev tx).db.workItems :=
    (regressions_does env cmp ev _).workItems not_false fun _ => not_false
  have hany (o : Option WorkItem) : (o.any fun w => w.state ∈ [WorkItemState.queued, .issueOpen]) =
      (o.map WorkItem.state).any (· ∈ [WorkItemState.queued, .issueOpen]) := by cases o <;> rfl
  have hqueued (wid : Nat) : ((closeItems env cmp ev tx).db.workItems.get? wid).any
        (fun w => w.state ∈ [WorkItemState.queued, .issueOpen]) =
      (tx.db.workItems.get? wid).any fun w => w.state ∈ [WorkItemState.queued, .issueOpen] := by
    have hst : (closeItems env cmp ev tx).db.itemState wid = _ := closeItems_itemState wid
    rw [hany, hany]
    change ((closeItems env cmp ev tx).db.itemState wid).any _ = (tx.db.itemState wid).any _
    rw [hst]
    split
    · rename_i hwid
      obtain ⟨item, hi, hclosing⟩ := mem_closingItems.mp hwid
      have hnot : item.state ∉ [WorkItemState.queued, .issueOpen] := by
        simp only [List.mem_cons, List.not_mem_nil, or_false] at hclosing
        rcases hclosing with h | h <;> rw [h] <;> decide
      simp only [Db.itemState, hi, Option.map_some, Option.any_some, decide_eq_false hnot,
        decide_eq_false settledState_not_queued]
    · rfl
  unfold driftOwner
  rw [hitems]
  split
  · rw [hqueued]
  · rfl

/-- A finding after the evaluation of a run. -/
def evaluated (env : Env) (cmp : Compare) (db : Db) (ev : Evidence) (fid : Nat) (h : History) : History :=
  afterDrift env db ev fid (afterRegression env cmp db ev fid (afterClosing env cmp db ev fid h))

/-- **The evaluation of a run, for each finding.** -/
theorem evaluateRun_history (k : Nat) :
    (evaluateRun env cmp ev tx).db.history k = (tx.db.history k).map (evaluated env cmp tx.db ev k) := by
  have hclose : SameEvidence tx.db (closeItems env cmp ev tx).db := (closeItems_does tx).sameEvidence
  have hregress : SameEvidence (closeItems env cmp ev tx).db (regressions env cmp ev (closeItems env cmp ev tx)).db :=
    (regressions_does env cmp ev _).sameEvidence
  have hdrift : afterDrift env (regressions env cmp ev (closeItems env cmp ev tx)).db ev k =
      afterDrift env tx.db ev k := by
    funext h
    unfold afterDrift drifts
    rw [driftOwner_closeItems, (hclose.trans hregress).presentFamilies, (hclose.trans hregress).driftValidity]
  change (drift env ev (regressions env cmp ev (closeItems env cmp ev tx))).db.history k = _
  rw [drift_history, regressions_history, closeItems_history, hdrift, hclose.afterRegression, Option.map_map,
    Option.map_map]
  rfl

theorem evidence_eq_some {db : Db} {rid : Nat} {ev : Evidence} :
    db.evidence rid = some ev ↔
      db.scanRuns.get? rid = some ev.run ∧ ev.rid = rid ∧ ev.jobs = db.jobsOf rid ∧
      ev.sightings = db.sightingsOf rid := by
  obtain ⟨r, run, jobs, sightings⟩ := ev
  simp only [Db.evidence, Option.map_eq_some_iff, Evidence.mk.injEq]
  constructor
  · rintro ⟨run', hr, rfl, rfl, rfl, rfl⟩; exact ⟨hr, rfl, rfl, rfl⟩
  · rintro ⟨hr, rfl, rfl, rfl⟩; exact ⟨run, hr, rfl, rfl, rfl, rfl⟩

/-- **Applying a run, for each finding.** -/
theorem applyScanRun_history {rid : Nat} (hev : tx.db.evidence rid = some ev) (howed : ev.run.closureAppliedAt = none)
    (k : Nat) : (applyScanRun env cmp rid tx).db.history k = (tx.db.history k).map (evaluated env cmp tx.db ev k) := by
  unfold applyScanRun
  rw [hev]
  simp only [howed, Option.isSome_none, Bool.false_eq_true, if_false]
  exact evaluateRun_history k

/-- A run that is not owed an evaluation changes nothing. -/
theorem applyScanRun_idle {rid : Nat} (h : ∀ ev, tx.db.evidence rid = some ev → ev.run.closureAppliedAt.isSome) :
    applyScanRun env cmp rid tx = tx := by
  unfold applyScanRun
  cases hev : tx.db.evidence rid with
  | none => rfl
  | some ev => simp only [h ev hev, if_true]

end Phases

end HardeningLoop
