import HardeningLoop.Orchestrator.Engine.History

/-!
# What closing a work item does to each finding

The evaluation of a run is three loops. What each reads of the database, besides the rows it writes, no loop changes
(`SameEvidence`), so each finding's history after a loop is a function of its history before it. Here it is one work
item that is judged:

- `judgeMembers_history`, `judgeMembers_notes`: what the judgement writes, and what it says of each member;
- `closeWorkItem_history`: the histories of the findings after it; `closeWorkItem_itemState`: the state of the item.
-/

namespace HardeningLoop

open Rows (Table)

/-! ## What no unit changes -/

/-- The databases have the same runs, and the same findings up to what the engine writes. -/
structure SameEvidence (db db' : Db) : Prop where
  scanRuns : db'.scanRuns = db.scanRuns
  core : db'.findings.map Finding.core = db.findings.map Finding.core

theorem Acts.sameEvidence {env : Env} {S : Scope} {tx t : Tx} (h : Acts env S tx t) : SameEvidence tx.db t.db :=
  ⟨h.scanRuns, h.findings_core⟩

namespace SameEvidence

variable {db db' : Db}

theorem trans {db'' : Db} (h : SameEvidence db db') (h' : SameEvidence db' db'') : SameEvidence db db'' :=
  ⟨h'.scanRuns.trans h.scanRuns, h'.core.trans h.core⟩

/-- What is read off the core of a finding is the same. -/
theorem get?_map {α : Type*} (h : SameEvidence db db') (g : Finding → α) (hg : ∀ f, g f.core = g f) (i : Nat) :
    (db'.findings.get? i).map g = (db.findings.get? i).map g := by
  have hcore : (db'.findings.get? i).map Finding.core = (db.findings.get? i).map Finding.core := by
    rw [← Table.get?_map, ← Table.get?_map, h.core]
  have hmap (o : Option Finding) : o.map g = (o.map Finding.core).map g := by
    rw [Option.map_map]
    exact congrArg (o.map ·) (funext fun f => (hg f).symm)
  rw [hmap, hcore, ← hmap]

theorem size (h : SameEvidence db db') : db'.findings.size = db.findings.size := by
  rw [← Table.size_map db'.findings Finding.core, h.core, Table.size_map]

theorem familyIds (h : SameEvidence db db') (f : Finding) : familyIds db' f = HardeningLoop.familyIds db f := by
  refine Table.select_congr h.size fun i => ?_
  have := h.get?_map (fun g => g.vulnId == f.vulnId && g.ecosystem == f.ecosystem && g.pkgName == f.pkgName &&
    g.layer == f.layer) (fun _ => rfl) i
  have hany (o : Option Finding) (p : Finding → Bool) : o.any p = (o.map p).getD false := by cases o <;> rfl
  rw [hany, hany, this]

theorem presentFamilies (h : SameEvidence db db') (sightings : List Sighting) :
    presentFamilies db' sightings = HardeningLoop.presentFamilies db sightings := by
  unfold HardeningLoop.presentFamilies
  congr 1
  exact funext fun sg => h.get?_map familyKey (fun _ => rfl) sg.findingId

theorem laterRunSaw (h : SameEvidence db db') (rid : Nat) (run : ScanRun) (f : Finding) :
    laterRunSaw db' rid run f = HardeningLoop.laterRunSaw db rid run f := by
  unfold HardeningLoop.laterRunSaw
  rw [h.scanRuns]

variable {env : Env} {cmp : Compare} {ev : Evidence}

theorem memberValidity (h : SameEvidence db db') (item : WorkItem) (fid : Nat) (f : Finding) :
    memberValidity env cmp db' ev item fid f = HardeningLoop.memberValidity env cmp db ev item fid f := by
  unfold HardeningLoop.memberValidity
  rw [h.laterRunSaw]

theorem memberOutcome (h : SameEvidence db db') (item : WorkItem) (fid : Nat) (f : Finding) :
    memberOutcome env cmp db' ev item fid f = HardeningLoop.memberOutcome env cmp db ev item fid f := by
  unfold HardeningLoop.memberOutcome
  rw [h.memberValidity, h.familyIds]

theorem reopenValidity (h : SameEvidence db db') (fid : Nat) (f : Finding) :
    reopenValidity env cmp db' ev fid f = HardeningLoop.reopenValidity env cmp db ev fid f := by
  unfold HardeningLoop.reopenValidity
  rw [h.laterRunSaw, h.scanRuns]

theorem driftValidity (h : SameEvidence db db') (f : Finding) :
    driftValidity env db' ev f = HardeningLoop.driftValidity env db ev f := by
  unfold HardeningLoop.driftValidity
  rw [h.laterRunSaw]

end SameEvidence

/-- Nothing that the judgement of a finding reads has changed. -/
structure AsAt (db db' : Db) (fid : Nat) : Prop where
  evidence : SameEvidence db db'
  workItems : db'.workItems = db.workItems
  history : db'.history fid = db.history fid

theorem AsAt.refl (db : Db) (fid : Nat) : AsAt db db fid := ⟨⟨rfl, rfl⟩, rfl, rfl⟩

/-- In a loop whose steps each write one finding, the others stay as they were. -/
theorem keeps_asAt {σ : Type*} {env : Env} {db : Db} {l : List Nat} {f : σ → Nat → σ} (tx : σ → Tx)
    (h : ∀ s, ∀ fid ∈ l, Acts env (.reopening (· = fid)) (tx s) (tx (f s fid))) :
    Rows.Keeps (fun s fid => AsAt db (tx s).db fid) f l := by
  rintro s fid hfid k - hne - ⟨hev, hitems, hk⟩
  have hacts := h s fid hfid
  exact ⟨hev.trans hacts.sameEvidence, (hacts.workItems not_false fun _ => not_false).trans hitems,
    (hacts.history (S := .reopening (· = fid)) (Ne.symm hne)).trans hk⟩

/-! ## Closing a work item -/

section Closing

variable (env : Env) (cmp : Compare) (db : Db) (ev : Evidence)

/-- The event of a member's outcome, in its history. -/
def judged (item : WorkItem) (fid : Nat) (h : History) : History :=
  match closingEvent ev.run.externalRunId (memberOutcome env cmp db ev item fid h.1) with
  | some (event, reason, actor) => fired env fid event reason actor (some ev.rid) h
  | none => h

/-- What the loop over the members notes of one. -/
def verdict (item : WorkItem) (fid : Nat) : List (Nat × ClosingOutcome × List String) :=
  match db.findings.get? fid with
  | none => []
  | some f => [(fid, memberOutcome env cmp db ev item fid f, (memberValidity env cmp db ev item fid f).reasons)]

/-- The run is valid evidence for every member of the item. -/
def runApplies (wid : Nat) (item : WorkItem) : Bool :=
  (db.members wid).all fun fid => (db.findings.get? fid).all fun f => (memberValidity env cmp db ev item fid f).valid

/-- A member after its work item was closed or not. -/
def settledMember (wid : Nat) (item : WorkItem) (fid : Nat) (h : History) : History :=
  if memberOutcome env cmp db ev item fid h.1 = .stillPresent then
    if runApplies env cmp db ev wid item then
      fired env fid .humanBlocked ("present after merge in run " ++ ev.run.externalRunId) "scanner" none h
    else h
  else judged env cmp db ev item fid h

/-- Every member is settled once the run is judged. -/
def allSettled (wid : Nat) (item : WorkItem) : Bool :=
  db.members wid ≠ [] && (db.members wid).all fun fid =>
    (db.history fid).all fun h => (judged env cmp db ev item fid h).1.state.isClosing

variable {env cmp db ev}

theorem SameEvidence.judged {db' : Db} (h : SameEvidence db db') (item : WorkItem) (fid : Nat) :
    judged env cmp db' ev item fid = HardeningLoop.judged env cmp db ev item fid := by
  funext hist
  unfold HardeningLoop.judged
  rw [h.memberOutcome]

theorem history_closeMember (item : WorkItem) (acc : Judged) (fid k : Nat) :
    (closeMember env cmp ev item acc fid).1.db.history k =
      if k = fid then (acc.1.db.history k).map (judged env cmp acc.1.db ev item fid) else acc.1.db.history k := by
  unfold closeMember
  cases hf : acc.1.db.findings.get? fid with
  | none =>
    dsimp only
    split
    · rename_i hk
      subst hk
      simp [Db.history, hf]
    · rfl
  | some f =>
    have hh : acc.1.db.history fid = some (f, acc.1.db.transitions fid) := history_eq_some.mpr ⟨hf, rfl⟩
    dsimp only
    cases hc : closingEvent ev.run.externalRunId (memberOutcome env cmp acc.1.db ev item fid f) with
    | none =>
      dsimp only
      split
      · rename_i hk
        subst hk
        have hj : judged env cmp acc.1.db ev item k (f, acc.1.db.transitions k) = (f, acc.1.db.transitions k) := by
          simp only [judged, hc]
        rw [hh, Option.map_some, hj]
        exact hh
      · rfl
    | some e =>
      obtain ⟨event, reason, actor⟩ := e
      dsimp only
      rw [history_finding]
      split
      · rename_i hk
        subst hk
        have hj : judged env cmp acc.1.db ev item k (f, acc.1.db.transitions k) =
            fired env k event reason actor (some ev.rid) (f, acc.1.db.transitions k) := by
          simp only [judged, hc]
        rw [hh, Option.map_some, hj]
        exact congrArg (Option.map _) hh
      · rfl

theorem closeMember_notes (item : WorkItem) (acc : Judged) (fid : Nat) :
    (closeMember env cmp ev item acc fid).2 = acc.2 ++ verdict env cmp acc.1.db ev item fid := by
  unfold closeMember verdict
  cases acc.1.db.findings.get? fid with
  | none => simp
  | some f => rfl

section Members

variable {tx : Tx} {wid : Nat} {item : WorkItem}

variable (env cmp db ev wid item) in
/-- What the loop over the members notes. -/
def verdicts : List (Nat × ClosingOutcome × List String) := (db.members wid).flatMap (verdict env cmp db ev item)

theorem judgeMembers_history (k : Nat) :
    (judgeMembers env cmp ev tx wid item).1.db.history k =
      if k ∈ tx.db.members wid then (tx.db.history k).map (judged env cmp tx.db ev item k) else tx.db.history k := by
  refine Rows.foldl_rows (fun (acc : Judged) k => acc.1.db.history k)
    (fun k => Option.map (judged env cmp tx.db ev item k)) (Table.nodup_select ..)
    (keeps_asAt Prod.fst fun acc fid _ =>
      (closeMember_does env cmp ev item acc fid).widen (Scope.findingsOnly_within fun _ h => h)) (fun acc fid _ h => ?_)
    (fun acc fid _ _ k hk => ?_) (fun fid _ => AsAt.refl tx.db fid) k
  · rw [history_closeMember, if_pos rfl, h.evidence.judged]
  · rw [history_closeMember, if_neg hk]

theorem judgeMembers_notes : (judgeMembers env cmp ev tx wid item).2 = verdicts env cmp tx.db ev wid item := by
  have hkeeps : Rows.Keeps (fun (acc : Judged) fid => AsAt tx.db acc.1.db fid) (closeMember env cmp ev item)
      (tx.db.members wid) := keeps_asAt Prod.fst fun acc fid _ =>
      (closeMember_does env cmp ev item acc fid).widen (Scope.findingsOnly_within fun _ h => h)
  refine (Rows.foldl_emits (fun acc : Judged => acc.2) (verdict env cmp tx.db ev item) (Table.nodup_select ..) hkeeps
    (fun acc fid _ h => ?_) (fun fid _ => AsAt.refl tx.db fid)).trans (List.nil_append _)
  rw [closeMember_notes]
  congr 1
  unfold verdict
  rw [row_of_history h.history]
  cases tx.db.findings.get? fid with
  | none => rfl
  | some f => dsimp only; rw [h.evidence.memberOutcome, h.evidence.memberValidity]

theorem mem_verdicts {o : Nat × ClosingOutcome × List String} :
    o ∈ verdicts env cmp db ev wid item ↔ ∃ fid ∈ db.members wid, ∃ f, db.findings.get? fid = some f ∧
      o = (fid, memberOutcome env cmp db ev item fid f, (memberValidity env cmp db ev item fid f).reasons) := by
  rw [verdicts, List.mem_flatMap]
  refine exists_congr fun fid => and_congr_right fun _ => ?_
  unfold verdict
  cases db.findings.get? fid <;> simp

theorem verdicts_ids : (verdicts env cmp db ev wid item).map Prod.fst = db.members wid := by
  rw [verdicts, List.map_flatMap]
  have hone : ∀ fid ∈ db.members wid, (verdict env cmp db ev item fid).map Prod.fst = [fid] := by
    intro fid hfid
    obtain ⟨f, hf, -⟩ := Db.mem_members.mp hfid
    simp [verdict, hf]
  rw [List.flatMap_congr hone]
  exact List.flatMap_singleton' _

/-- Some outcome is `not_applicable` exactly when the run is no valid evidence for every member. -/
theorem verdicts_any_invalid :
    ((verdicts env cmp db ev wid item).any fun o => o.2.1 == .notApplicable) = !runApplies env cmp db ev wid item := by
  rw [Bool.eq_iff_iff, List.any_eq_true, Bool.not_eq_true', runApplies, List.all_eq_false]
  constructor
  · rintro ⟨o, ho, hna⟩
    obtain ⟨fid, hfid, f, hf, rfl⟩ := mem_verdicts.mp ho
    have hinv := decideOutcome_eq_notApplicable.mp (eq_of_beq hna)
    exact ⟨fid, hfid, by simp [hf, hinv]⟩
  · rintro ⟨fid, hfid, hinv⟩
    obtain ⟨f, hf, -⟩ := Db.mem_members.mp hfid
    simp only [hf, Option.all_some, Bool.not_eq_true] at hinv
    refine ⟨_, mem_verdicts.mpr ⟨fid, hfid, f, hf, rfl⟩, beq_iff_eq.mpr ?_⟩
    exact decideOutcome_eq_notApplicable.mpr hinv

variable (env cmp db ev wid item) in
/-- The members that a valid run still shows. -/
def stillIds : List Nat := ((verdicts env cmp db ev wid item).filter fun o => o.2.1 == .stillPresent).map Prod.fst

theorem mem_stillIds {k : Nat} :
    k ∈ stillIds env cmp db ev wid item ↔ k ∈ db.members wid ∧ ∃ f, db.findings.get? k = some f ∧
      memberOutcome env cmp db ev item k f = .stillPresent := by
  simp only [stillIds, List.mem_map, List.mem_filter, mem_verdicts]
  constructor
  · rintro ⟨o, ⟨⟨fid, hfid, f, hf, rfl⟩, hs⟩, rfl⟩
    exact ⟨hfid, f, hf, eq_of_beq hs⟩
  · rintro ⟨hk, f, hf, hs⟩
    exact ⟨_, ⟨⟨k, hk, f, hf, rfl⟩, beq_iff_eq.mpr hs⟩, rfl⟩

theorem nodup_stillIds : (stillIds env cmp db ev wid item).Nodup := by
  have hids : (verdicts env cmp db ev wid item).map Prod.fst = db.members wid := verdicts_ids
  have hsub : (stillIds env cmp db ev wid item).Sublist (db.members wid) := hids ▸ List.filter_sublist.map _
  exact hsub.nodup (Table.nodup_select ..)

variable (env cmp db ev wid item) in
/-- The state of a closing item after the evaluation. -/
def settledState : WorkItemState :=
  if !runApplies env cmp db ev wid item then .awaitingRescan
  else if allSettled env cmp db ev wid item then .verified
  else if stillIds env cmp db ev wid item = [] then .awaitingRescan
  else .needsHuman

/-- The members are all settled when the issue may close. -/
theorem issueMayClose_members :
    issueMayClose ((judgeMembers env cmp ev tx wid item).1.db.statesOf (tx.db.members wid)) =
      allSettled env cmp tx.db ev wid item := by
  have hrow : ∀ k ∈ tx.db.members wid, ∃ h, tx.db.history k = some h ∧
      (judgeMembers env cmp ev tx wid item).1.db.findings.get? k = some (judged env cmp tx.db ev item k h).1 := by
    intro k hk
    obtain ⟨f, hf, -⟩ := Db.mem_members.mp hk
    have hh : tx.db.history k = some (f, tx.db.transitions k) := history_eq_some.mpr ⟨hf, rfl⟩
    have hj : (judgeMembers env cmp ev tx wid item).1.db.history k = _ := judgeMembers_history k
    rw [if_pos hk, hh, Option.map_some] at hj
    exact ⟨_, hh, (history_eq_some.mp hj).1⟩
  generalize (judgeMembers env cmp ev tx wid item).1.db = db' at hrow ⊢
  have hmem {k : Nat} {f : Finding} (hk : k ∈ tx.db.members wid) (hf : db'.findings.get? k = some f) :
      f.state ∈ (tx.db.members wid).filterMap fun fid => (db'.findings.get? fid).map Finding.state :=
    List.mem_filterMap.mpr ⟨k, hk, by rw [hf]; rfl⟩
  rw [Bool.eq_iff_iff]
  simp only [issueMayClose, allSettled, Bool.and_eq_true, List.all_eq_true, Db.statesOf]
  constructor
  · rintro ⟨hne, hall⟩
    refine ⟨decide_eq_true fun hnil => of_decide_eq_true hne (by rw [hnil]; rfl), fun k hk => ?_⟩
    obtain ⟨h, hh, hf⟩ := hrow k hk
    rw [hh, Option.all_some]
    exact hall _ (hmem hk hf)
  · rintro ⟨hne, hall⟩
    constructor
    · obtain ⟨k, hk⟩ := List.exists_mem_of_ne_nil _ (of_decide_eq_true hne)
      obtain ⟨h, -, hf⟩ := hrow k hk
      exact decide_eq_true (List.ne_nil_of_mem (hmem hk hf))
    · intro st hst
      obtain ⟨k, hk, hst⟩ := List.mem_filterMap.mp hst
      obtain ⟨h, hh, hf⟩ := hrow k hk
      have := hall k hk
      rw [hf] at hst
      cases hst
      rwa [hh, Option.all_some] at this

theorem not_closing_of_stillPresent {fid : Nat} {f : Finding}
    (h : memberOutcome env cmp db ev item fid f = .stillPresent) : f.state.isClosing = false := by
  unfold memberOutcome at h
  exact decideOutcome_stillPresent h

theorem judged_of_stillPresent {fid : Nat} {h : History}
    (hs : memberOutcome env cmp db ev item fid h.1 = .stillPresent) : judged env cmp db ev item fid h = h := by
  have hnone : closingEvent ev.run.externalRunId .stillPresent = none := rfl
  rw [judged, hs, hnone]

/-- A member that is still present keeps the others' issue open. -/
theorem allSettled_of_stillPresent {k : Nat} {f : Finding} (hk : k ∈ db.members wid)
    (hf : db.findings.get? k = some f) (hs : memberOutcome env cmp db ev item k f = .stillPresent) :
    allSettled env cmp db ev wid item = false := by
  have hh : db.history k = some (f, db.transitions k) := history_eq_some.mpr ⟨hf, rfl⟩
  rw [allSettled, Bool.and_eq_false_iff]
  refine Or.inr (List.all_eq_false.mpr ⟨k, hk, ?_⟩)
  have hj : judged env cmp db ev item k (f, db.transitions k) = (f, db.transitions k) :=
    judged_of_stillPresent (h := (f, db.transitions k)) hs
  rw [hh, Option.all_some, hj, not_closing_of_stillPresent hs]
  exact Bool.false_ne_true

theorem history_stillPresent {t : Tx} {run : ScanRun} {still : List Nat} (hnd : still.Nodup) (k : Nat) :
    (stillPresent env t wid run still).db.history k =
      if k ∈ still then
        (t.db.history k).map
        (fired env k .humanBlocked ("present after merge in run " ++ run.externalRunId) "scanner" none)
      else t.db.history k := by
  unfold stillPresent
  split
  · rename_i hnil
    simp [hnil]
  · have hkeeps : Rows.Keeps (fun _ _ => True) (blockMember env run) still := fun _ _ _ _ _ _ _ _ => trivial
    dsimp only
    rw [Rows.foldl_rows (fun (t : Tx) k => t.db.history k)
      (fun k =>
      Option.map (fired env k .humanBlocked ("present after merge in run " ++ run.externalRunId) "scanner" none))
      hnd hkeeps (fun t fid _ _ => ?_) (fun t fid _ _ k hk => ?_) (fun _ _ => trivial) k, history_wi]
    · rw [blockMember, history_finding, if_pos rfl]
    · rw [blockMember, history_finding, if_neg hk]

/-- A run that is no valid evidence for every member changes none that is still present. -/
theorem settledMember_of_not_applies {k : Nat} (happ : runApplies env cmp db ev wid item = false) :
    settledMember env cmp db ev wid item k = judged env cmp db ev item k := by
  funext h
  unfold settledMember
  split
  · rename_i hs
    rw [happ, judged_of_stillPresent hs]
    rfl
  · rfl

theorem beginRescan_history (tx : Tx) (wid : Nat) (run : ScanRun) (k : Nat) :
    (beginRescan env tx wid run).db.history k = tx.db.history k :=
  (beginRescan_does env tx wid run).history not_false

theorem beginRescan_statesOf (tx : Tx) (wid : Nat) (run : ScanRun) (l : List Nat) :
    (beginRescan env tx wid run).db.statesOf l = tx.db.statesOf l := by
  unfold Db.statesOf
  exact List.filterMap_congr fun fid _ => by rw [row_of_history (beginRescan_history tx wid run fid)]

/-- **Closing a work item, for each finding**: its members are settled, the others are left alone. -/
theorem closeWorkItem_history (hi : tx.db.workItems.get? wid = some item) (k : Nat) :
    (closeWorkItem env cmp ev tx wid).db.history k =
      if k ∈ tx.db.members wid then (tx.db.history k).map (settledMember env cmp tx.db ev wid item k)
      else tx.db.history k := by
  unfold closeWorkItem settleItem
  rw [hi]
  dsimp only
  rw [judgeMembers_notes, verdicts_any_invalid, verdicts_ids, beginRescan_statesOf, issueMayClose_members]
  cases happ : runApplies env cmp tx.db ev wid item with
  | false =>
    rw [settledMember_of_not_applies happ, ← judgeMembers_history]
    exact history_wi ..
  | true =>
    simp only [Bool.not_true, Bool.false_eq_true, if_false]
    cases hall : allSettled env cmp tx.db ev wid item with
    | true =>
      -- nothing is still present, so the members are just judged
      have hverify (states : List FindingState) :
          (verifyItem env (beginRescan env (judgeMembers env cmp ev tx wid item).1 wid ev.run) wid ev states).db.history
            k = (judgeMembers env cmp ev tx wid item).1.db.history k :=
        ((verifyItem_does env _ wid ev states).history not_false).trans (beginRescan_history ..)
      simp only [if_true, hverify, judgeMembers_history]
      split
      · rename_i hk
        obtain ⟨f, hf, -⟩ := Db.mem_members.mp hk
        have hh : tx.db.history k = some (f, tx.db.transitions k) := history_eq_some.mpr ⟨hf, rfl⟩
        rw [hh, Option.map_some, Option.map_some, settledMember, if_neg]
        intro hs
        rw [allSettled_of_stillPresent hk hf hs] at hall
        cases hall
      · rfl
    | false =>
      simp only [Bool.false_eq_true, if_false]
      rw [← stillIds, history_stillPresent nodup_stillIds, beginRescan_history, judgeMembers_history]
      by_cases hk : k ∈ tx.db.members wid
      · obtain ⟨f, hf, -⟩ := Db.mem_members.mp hk
        have hh : tx.db.history k = some (f, tx.db.transitions k) := history_eq_some.mpr ⟨hf, rfl⟩
        simp only [if_pos hk, hh, Option.map_some]
        unfold settledMember
        by_cases hs : memberOutcome env cmp tx.db ev item k f = .stillPresent
        · have hj : judged env cmp tx.db ev item k (f, tx.db.transitions k) = (f, tx.db.transitions k) :=
            judged_of_stillPresent (h := (f, tx.db.transitions k)) hs
          have hmem : k ∈ stillIds env cmp tx.db ev wid item := mem_stillIds.mpr ⟨hk, f, hf, hs⟩
          rw [if_pos hs, happ, if_pos rfl, hj]
          exact if_pos hmem
        · rw [if_neg hs]
          refine if_neg fun hmem => ?_
          obtain ⟨-, f', hf', hs'⟩ := mem_stillIds.mp hmem
          cases hf.symm.trans hf'
          exact hs hs'
      · rw [if_neg hk, if_neg hk]
        exact if_neg fun hmem => hk (mem_stillIds.mp hmem).1

theorem beginRescan_itemState {t : Tx} {st : WorkItemState} (hs : t.db.itemState wid = some st)
    (hst : st ∈ [WorkItemState.merged, .awaitingRescan]) (run : ScanRun) :
    (beginRescan env t wid run).db.itemState wid = some .awaitingRescan := by
  unfold beginRescan
  split
  · rename_i hm
    exact Tx.wi_itemState env t hm rfl _ _
  · rename_i hm
    rw [hs] at hm ⊢
    simp only [List.mem_cons, List.not_mem_nil, or_false] at hst
    rcases hst with rfl | rfl
    · exact absurd rfl hm
    · rfl

theorem verifyItem_itemState {t : Tx} (hs : t.db.itemState wid = some .awaitingRescan) (states : List FindingState) :
    (verifyItem env t wid ev states).db.itemState wid = some .verified := by
  have h₀ : ((t.modifyItem wid fun w => { w with verifiedAt := some env.now }).wi env wid .rescanVerified
      ("run " ++ ev.run.externalRunId) "scanner").db.itemState wid = some .verified := by
    have hedit : Acts env (.edits wid) t (t.modifyItem wid fun w => { w with verifiedAt := some env.now }) :=
      .editItem .refl rfl fun _ => .plain rfl rfl rfl rfl rfl rfl
    exact Tx.wi_itemState env _ (hedit.unmoved (fun _ => not_false) hs) rfl _ _
  unfold verifyItem
  dsimp only
  have h₁ := (raiseVerified_levels env _ wid ev.run).unmoved (fun _ => not_false) h₀
  split <;> exact h₁

theorem stillPresent_itemState {t : Tx} (hs : t.db.itemState wid = some .awaitingRescan) (run : ScanRun)
    (still : List Nat) :
    (stillPresent env t wid run still).db.itemState wid =
      some (if still = [] then .awaitingRescan else .needsHuman) := by
  unfold stillPresent
  split
  · exact hs
  · have hblock (t : Tx) : Acts env (.findingsOnly fun _ => True) t (still.foldl (blockMember env run) t) :=
      .foldl _ .refl fun t fid _ => Acts.refl.finding trivial (Or.inr (by decide)) ..
    have hwi (reason : String) : (t.wi env wid .rescanShowsPresent reason "scanner").db.itemState wid =
        some .needsHuman := Tx.wi_itemState env t hs rfl reason "scanner"
    exact (hblock _).unmoved (fun _ => not_false) (hwi _)

/-- **Closing a work item, for the item itself.** -/
theorem closeWorkItem_itemState (hi : tx.db.workItems.get? wid = some item)
    (hst : item.state ∈ [WorkItemState.merged, .awaitingRescan]) :
    (closeWorkItem env cmp ev tx wid).db.itemState wid = some (settledState env cmp tx.db ev wid item) := by
  have hs : (judgeMembers env cmp ev tx wid item).1.db.itemState wid = some item.state :=
    (judgeMembers_does env cmp ev tx wid item).unmoved (fun _ => not_false) (by simp [Db.itemState, hi])
  have hb : (beginRescan env (judgeMembers env cmp ev tx wid item).1 wid ev.run).db.itemState wid = _ :=
    beginRescan_itemState hs hst ev.run
  unfold closeWorkItem settleItem settledState
  rw [hi]
  dsimp only
  rw [judgeMembers_notes, verdicts_any_invalid, verdicts_ids, beginRescan_statesOf, issueMayClose_members]
  cases runApplies env cmp tx.db ev wid item with
  | false =>
    refine Tx.wi_itemState env _ hs ?_ _ _
    simp only [List.mem_cons, List.not_mem_nil, or_false] at hst
    rcases hst with h | h <;> rw [h] <;> rfl
  | true =>
    simp only [Bool.not_true, Bool.false_eq_true, if_false]
    cases allSettled env cmp tx.db ev wid item with
    | true => exact verifyItem_itemState hb _
    | false => exact stillPresent_itemState hb ev.run _

end Members

end Closing

end HardeningLoop
