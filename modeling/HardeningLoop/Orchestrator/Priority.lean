import HardeningLoop.Orchestrator.Groups
import HardeningLoop.Orchestrator.Interleaving

/-!
# The priority of a work item

A work item takes its severity and its risk from the members it is created for; dispatch orders and admits items by
them. Later members join it, and later scans rate its members again, without a look at the item.

- `Covered`: every live item is at least as severe and as risky as its members that are not closed;
- `Acts.covered`, `groupFindings_covered_iff`, `exec_covered_iff`: what keeps it so;
- `priority_run_iff`: it holds in every state of a run exactly when no scan of the run raises a member above its item
  and no finding joins an item below it.
-/

namespace HardeningLoop

open Rows (Table)

/-- The item is at least as severe as the finding, and of high risk if the finding is. -/
def WorkItem.Covers (w : WorkItem) (f : Finding) : Prop :=
  f.severity.rank ≤ w.severity.rank ∧ (f.risk = .high → w.risk = .high)

instance (w : WorkItem) (f : Finding) : Decidable (w.Covers f) := inferInstanceAs (Decidable (_ ∧ _))

/-- The finding is a member of the item, and not closed. -/
def Finding.Pending (wid : Nat) (f : Finding) : Prop := f.state.isClosing = false ∧ f.workItemId = some wid

/-- Every live item covers its members that are not closed. -/
def Covered (db : Db) : Prop :=
  ∀ fid f wid w, db.findings.get? fid = some f → f.Pending wid → db.workItems.get? wid = some w → w.live → w.Covers f

/-- Every owner of a finding is there. -/
def OwnersThere (db : Db) : Prop :=
  ∀ fid f wid, db.findings.get? fid = some f → f.workItemId = some wid → ∃ w, db.workItems.get? wid = some w

section Kept

variable {db db' : Db}

theorem covers_congr {w w' : WorkItem} {f f' : Finding} (hw : w'.core = w.core)
    (hf : (f'.severity, f'.risk) = (f.severity, f.risk)) (h : w.Covers f) : w'.Covers f' := by
  simp only [WorkItem.core, Prod.mk.injEq] at hw hf
  unfold WorkItem.Covers
  rw [hw.2.2.2.2.1, hw.2.2.2.2.2.1, hf.1, hf.2]
  exact h

/-- Members that were pending before, with the same priority, of items that were live before. -/
theorem Covered.of_back (hcov : Covered db)
    (hback : ∀ fid f' wid, db'.findings.get? fid = some f' → f'.Pending wid →
      ∃ f, db.findings.get? fid = some f ∧ f.Pending wid ∧ (f'.severity, f'.risk) = (f.severity, f.risk))
    (hlive : ∀ wid w', db'.workItems.get? wid = some w' → w'.live →
      ∃ w, db.workItems.get? wid = some w ∧ w.live ∧ w'.core = w.core) : Covered db' := by
  intro fid f' wid w' hf' hp hw' hl
  obtain ⟨f, hf, hp, hsame⟩ := hback fid f' wid hf' hp
  obtain ⟨w, hw, hl, hcore⟩ := hlive wid w' hw' hl
  exact covers_congr hcore hsame (hcov fid f wid w hf hp hw hl)

/-- High and critical members of a covered item do not wait for an approval. -/
theorem WorkItem.Covers.dispatches {w : WorkItem} {f : Finding} (h : w.Covers f)
    (hf : f.severity ∈ defaultDispatchSeverities) (labels : List String) :
    dispatchAllowed w.severity labels = true := by
  have hrank := h.1
  have hin : w.severity ∈ defaultDispatchSeverities := by
    revert hf hrank
    cases f.severity <;> cases w.severity <;> decide
  rw [dispatchAllowed, decide_eq_true hin, Bool.true_or]

end Kept

section Units

variable {env : Env} {S : Scope} {tx t : Tx}

theorem core_priority {f f' : Finding} (h : f'.core = f.core) : (f'.severity, f'.risk) = (f.severity, f.risk) :=
  Finding.of_core (fun f => (f.severity, f.risk)) (fun _ => rfl) h

/-- A unit gives no finding to an item, unless it creates items. -/
theorem Acts.owner_back (h : Acts env S tx t) (hins : ¬ S.inserts) {fid wid : Nat} {f' : Finding}
    (hf' : t.db.findings.get? fid = some f') (ho : f'.workItemId = some wid) :
    ∃ f, tx.db.findings.get? fid = some f ∧ f.workItemId = some wid := by
  refine h.row_back hins (fun f => f.workItemId = some wid) (fun f before event runId _ _ hP => ?_)
    (fun f hf => by cases hf) hf' ho
  have hrow : (Tx.findingRow env before event runId f).workItemId = f.workItemId := by
    unfold Tx.findingRow
    split <;> rfl
  exact hrow.symm.trans hP

/-- A unit that neither creates items nor reopens findings, and looks at the stored states, makes no finding pending. -/
theorem Acts.pending_back (h : Acts env S tx t) (hins : ¬ S.inserts) (hrecall : ¬ S.deeds .recall)
    (hreopen : ¬ S.deeds .reopen) {fid wid : Nat} {f' : Finding} (hf' : t.db.findings.get? fid = some f')
    (hp : f'.Pending wid) :
    ∃ f, tx.db.findings.get? fid = some f ∧ f.Pending wid ∧ (f'.severity, f'.risk) = (f.severity, f.risk) := by
  have hfire : ∀ (f : Finding) before event runId, (S.deeds .recall ∨ f.state = before) →
      (S.deeds .reopen ∨ event ∉ reopeningEvents) → (Tx.findingRow env before event runId f).Pending wid →
        f.Pending wid := by
    intro f before event runId hb he hP
    have hstate := hb.resolve_left hrecall
    have hevent := he.resolve_left hreopen
    unfold Tx.findingRow at hP
    split at hP
    · exact hP
    · rename_i after hnext
      refine ⟨?_, hP.2⟩
      by_contra hclosing
      rw [Bool.not_eq_false, hstate] at hclosing
      have hnone := next_of_closing hclosing (fun h : event = _ => hevent (by rw [h]; decide))
        (fun h : event = _ => hevent (by rw [h]; decide))
      rw [hnext] at hnone
      cases hnone
  obtain ⟨f, hf, hpending⟩ := h.row_back hins (Finding.Pending wid) hfire (fun f hf => by cases hf.2) hf' hp
  obtain ⟨f₀, hf₀, hcore⟩ := h.finding_back hf'
  cases hf.symm.trans hf₀
  exact ⟨f, hf, hpending, core_priority hcore⟩

theorem Acts.ownersThere (h : Acts env S tx t) (hins : ¬ S.inserts) (ho : OwnersThere tx.db) : OwnersThere t.db := by
  intro fid f' wid hf' howner
  obtain ⟨f, hf, howner⟩ := h.owner_back hins hf' howner
  obtain ⟨w, hw⟩ := ho fid f wid hf howner
  obtain ⟨w', hw', -⟩ := h.itemCore hw
  exact ⟨w', hw'⟩

theorem Acts.covered (h : Acts env S tx t) (hins : ¬ S.inserts) (hrecall : ¬ S.deeds .recall)
    (hreopen : ¬ S.deeds .reopen) (hcov : Covered tx.db) : Covered t.db :=
  hcov.of_back (fun _ _ _ hf' hp => h.pending_back hins hrecall hreopen hf' hp) fun _ _ hw' hl =>
    h.live_back hins hw' hl

end Units

section Evaluation

variable {env : Env} {cmp : Compare} {ev : Evidence} {tx : Tx}

/-- A finding that reappears loses its owner. -/
theorem regressions_covered (hcov : Covered tx.db) : Covered (regressions env cmp ev tx).db := by
  have hdoes := @regressions_does env cmp ev tx
  refine hcov.of_back (fun fid f' wid hf' hp => ?_) fun wid w' hw' hl => hdoes.live_back id hw' hl
  obtain ⟨f, hf, hcore⟩ := hdoes.finding_back hf'
  refine ⟨f, hf, ?_, core_priority hcore⟩
  have hbefore : tx.db.history fid = some (f, tx.db.transitions fid) := history_eq_some.mpr ⟨hf, rfl⟩
  have hafter : (regressions env cmp ev tx).db.history fid =
      some (afterRegression env cmp tx.db ev fid (f, tx.db.transitions fid)) := by
    rw [regressions_history, hbefore, Option.map_some]
  have hrow := (history_eq_some.mp hafter).1
  rw [hf', Option.some.injEq] at hrow
  unfold afterRegression at hrow
  split at hrow
  · rw [hrow] at hp
    cases hp.2
  · rw [hrow] at hp
    exact hp

theorem evaluation_covered (hcov : Covered tx.db) :
    Covered (drift env ev (regressions env cmp ev (closeItems env cmp ev tx))).db := by
  have hclosed : Covered (closeItems env cmp ev tx).db :=
    (@closeItems_does env cmp ev tx).covered id nofun nofun hcov
  exact (drift_does env ev _).covered id id id (regressions_covered hclosed)

theorem applyScanRun_covered (rid : Nat) {db : Db} (hcov : Covered db) :
    Covered (applyScanRun env cmp rid { db := db }).db := by
  unfold applyScanRun
  split
  · split
    · exact hcov
    · exact @evaluation_covered _ _ _ { db := db } hcov
  · exact hcov

end Evaluation

/-! ## The creation of a session -/

/-- A finding that was grouped when it was read is there and not closed. -/
def RecallOpen (members : List (Nat × Finding)) (db : Db) : Prop :=
  ∀ m ∈ members, m.2.state = .grouped → ∃ f, db.findings.get? m.1 = some f ∧ f.state.isClosing = false

section Creation

variable {env : Env} {db : Db} {wid : Nat} {members : List (Nat × Finding)}

theorem createSession_covered (hnd : (members.map Prod.fst).Nodup) (hopen : RecallOpen members db) (hcov : Covered db)
    (answer : Except String SessionSnapshot) (commented : Except String Unit) :
    Covered (createSession env { db := db } wid members answer commented).db := by
  cases answer with
  | error exc => exact (dispatchFailed_does env { db := db } wid _).covered id id id hcov
  | ok snap =>
    have hdoes := createSession_does env { db := db } wid members (.ok snap) commented
    refine hcov.of_back (fun fid f' k hf' hp => ?_) fun k w' hw' hl => hdoes.live_back id hw' hl
    obtain ⟨f, hf, hcore⟩ := hdoes.finding_back hf'
    obtain ⟨f₀, hf₀, howner⟩ := hdoes.owner_back id hf' hp.2
    cases hf.symm.trans hf₀
    refine ⟨f, hf, ⟨?_, howner⟩, core_priority hcore⟩
    obtain ⟨hmember, hother⟩ :=
      @createSession_history env { db := db } wid members hnd snap commented fid
    by_cases hfid : ∃ m ∈ members, fid = m.1 ∧ m.2.state = .grouped
    · obtain ⟨m, hm, rfl, hstate⟩ := hfid
      obtain ⟨f₁, hf₁, hopen⟩ := hopen m hm hstate
      cases hf.symm.trans hf₁
      exact hopen
    · have hsame :
          (createSession env { db := db } wid members (.ok snap) commented).db.history fid = db.history fid := by
        by_cases hin : ∃ m ∈ members, fid = m.1
        · obtain ⟨m, hm, rfl⟩ := hin
          have hungrouped : m.2.state ≠ .grouped := fun hstate => hfid ⟨m, hm, rfl, hstate⟩
          refine (hmember m hm rfl).trans ?_
          rw [funext (started_ungrouped hungrouped), Option.map_id']
        · exact hother fun m hm h => hin ⟨m, hm, h⟩
      rw [row_of_history hsame, hf, Option.some.injEq] at hf'
      rw [hf']
      exact hp.1

end Creation

/-! ## A group -/

/-- The item a group is given to. -/
def Db.groupTarget (db : Db) (kind : Kind) (key : String) : Nat :=
  match db.newKey kind key with
  | some _ => db.workItems.nextId
  | none => (db.groupItem kind key).getD 0

section Grouping

variable {env : Env} {db : Db} {rid : Nat} {kind : Kind} {key : String} {ids : List Nat}

theorem mem_groupMembers {m : Nat × Finding} : m ∈ groupMembers db rid ids ↔
    m.1 ∈ ids ∧ db.findings.get? m.1 = some m.2 ∧ m.2.lastSeenRunId = rid ∧ m.2.state ∈ groupableStates := by
  obtain ⟨k, f⟩ := m
  unfold groupMembers
  rw [List.mem_filterMap]
  constructor
  · rintro ⟨fid, hfid, hm⟩
    obtain ⟨g, hg, hgm⟩ := Option.bind_eq_some_iff.mp hm
    split at hgm
    · rename_i hcond
      cases hgm
      simp only [Bool.and_eq_true, decide_eq_true_eq] at hcond
      exact ⟨hfid, hg, hcond⟩
    · cases hgm
  · rintro ⟨hk, hf, hrun, hstate⟩
    refine ⟨k, hk, ?_⟩
    dsimp only at hf hrun hstate
    rw [hf, Option.bind_some, if_pos]
    simp only [Bool.and_eq_true, decide_eq_true_eq]
    exact ⟨hrun, hstate⟩

/-- A finding that is given to an item. -/
def joined (env : Env) (wid : Nat) (f : Finding) : Finding :=
  Tx.findingRow env f.state .grouped none (Finding.giveTo (some wid) f)

theorem joined_facts (wid : Nat) (f : Finding) : (joined env wid f).core = f.core ∧
    (joined env wid f).workItemId = some wid ∧
    (f.state.isClosing = false → (joined env wid f).state.isClosing = false) := by
  unfold joined Tx.findingRow
  cases hnext : nextFindingState f.state .grouped with
  | none => exact ⟨rfl, rfl, id⟩
  | some after =>
    have hgrouped : after = .grouped := by
      revert hnext
      cases f.state <;> cases after <;> decide
    rw [hgrouped]
    exact ⟨rfl, rfl, fun _ => rfl⟩

/-- An event of a finding, for its row. -/
theorem finding_row (t : Tx) (fid : Nat) (event : FindingEvent) (reason actor : String) (runId : Option Nat) (k : Nat) :
    (t.finding env fid event reason actor runId).1.db.findings.get? k =
      if k = fid then (t.db.findings.get? k).map fun f => Tx.findingRow env f.state event runId f
      else t.db.findings.get? k := by
  unfold Tx.finding
  cases hf : t.db.findings.get? fid with
  | none =>
    dsimp only
    split
    · rename_i hk
      rw [hk, hf, Option.map_none]
    · rfl
  | some f =>
    dsimp only
    rw [Tx.findingFrom_db]
    dsimp only
    rw [Table.get?_modify]
    split
    · rename_i hk
      rw [hk, hf, Option.map_some, Option.map_some]
    · rfl

theorem joinItem_row (wid : Nat) (groupKey : String) (t : Tx) (fid k : Nat) :
    (joinItem env wid groupKey t fid).db.findings.get? k =
      if k = fid then (t.db.findings.get? k).map (joined env wid) else t.db.findings.get? k := by
  unfold joinItem
  rw [finding_row, Tx.modifyFinding]
  dsimp only
  rw [Table.get?_modify]
  split
  · rw [Option.map_map]
    rfl
  · rfl

/-- The findings after a group was given to an item. -/
theorem joinItems_row (wid : Nat) (groupKey : String) {k : Nat} : ∀ (ids : List Nat) {t : Tx} {f : Finding},
    t.db.findings.get? k = some f →
      ∃ f', (ids.foldl (joinItem env wid groupKey) t).db.findings.get? k = some f' ∧ f'.core = f.core ∧
        (f.state.isClosing = false → f'.state.isClosing = false) ∧ (k ∈ ids → f'.workItemId = some wid) ∧
        (k ∉ ids → f' = f) := by
  intro ids
  induction ids with
  | nil => exact fun {_ f} hf => ⟨f, hf, rfl, id, fun h => absurd h List.not_mem_nil, fun _ => rfl⟩
  | cons fid ids ih =>
    intro t f hf
    rw [List.foldl_cons]
    have hrow := @joinItem_row env wid groupKey t fid k
    by_cases hk : k = fid
    · rw [if_pos hk, hf, Option.map_some] at hrow
      obtain ⟨hcore, howner, hopen⟩ := @joined_facts env wid f
      obtain ⟨f', hf', hcore', hopen', hin, hout⟩ := ih hrow
      refine ⟨f', hf', hcore'.trans hcore, fun h => hopen' (hopen h), fun _ => ?_, fun hno => ?_⟩
      · by_cases hrest : k ∈ ids
        · exact hin hrest
        · rw [hout hrest, howner]
      · exact absurd (hk ▸ List.mem_cons_self) hno
    · rw [if_neg hk, hf] at hrow
      obtain ⟨f', hf', hcore', hopen', hin, hout⟩ := ih hrow
      exact ⟨f', hf', hcore', hopen', fun h => hin ((List.mem_cons.mp h).resolve_left hk),
        fun h => hout fun hrest => h (List.mem_cons_of_mem _ hrest)⟩

/-- The members that are not the item's yet. -/
def groupJoining (db : Db) (rid : Nat) (ids : List Nat) (wid : Nat) : List Nat :=
  ((groupMembers db rid ids).filter fun m => m.2.workItemId != some wid).map Prod.fst

/-- A group with members gives the ones that are not the item's yet to the item; until then the findings are as they
were. -/
theorem groupFindings_loop (hne : groupMembers db rid ids ≠ []) :
    ∃ (t : Tx) (groupKey : String), (∀ k f, db.findings.get? k = some f → t.db.findings.get? k = some f) ∧
      groupFindings env rid kind key ids { db := db } =
        (groupJoining db rid ids (db.groupTarget kind key)).foldl (joinItem env (db.groupTarget kind key) groupKey)
        t := by
  unfold groupFindings groupJoining Db.groupTarget
  dsimp only
  rw [if_neg hne, workItemForGroup_eq]
  cases db.newKey kind key with
  | some key' =>
    refine ⟨_, _, ?_, rfl⟩
    exact fun k f hf => hf
  | none =>
    refine ⟨_, _, ?_, rfl⟩
    intro k f hf
    dsimp only
    split
    · exact (row_of_history ((membersJoined_does env { db := db } _ _).history
        (S := .findingsOnly fun _ => False) id)).trans hf
    · exact hf

theorem mem_groupJoining {wid k : Nat} {f : Finding} (hf : db.findings.get? k = some f) :
    k ∈ groupJoining db rid ids wid ↔ (k, f) ∈ groupMembers db rid ids ∧ f.workItemId ≠ some wid := by
  unfold groupJoining
  rw [List.mem_map]
  constructor
  · rintro ⟨⟨k', g⟩, hg, rfl⟩
    obtain ⟨hmem, howner⟩ := List.mem_filter.mp hg
    have hstored := (mem_groupMembers.mp hmem).2.1
    cases hf.symm.trans hstored
    exact ⟨hmem, by simpa using howner⟩
  · rintro ⟨hmem, howner⟩
    exact ⟨(k, f), List.mem_filter.mpr ⟨hmem, by simpa using howner⟩, rfl⟩

/-- **What a group does to the findings**: its members are given to the item, the others are left alone. -/
theorem groupFindings_row (hne : groupMembers db rid ids ≠ []) {k : Nat} {f : Finding}
    (hf : db.findings.get? k = some f) :
    ∃ f', (groupFindings env rid kind key ids { db := db }).db.findings.get? k = some f' ∧ f'.core = f.core ∧
      (f.state.isClosing = false → f'.state.isClosing = false) ∧
      ((k, f) ∈ groupMembers db rid ids → f'.workItemId = some (db.groupTarget kind key)) ∧
      ((k, f) ∉ groupMembers db rid ids → f' = f) := by
  obtain ⟨t, groupKey, ht, hloop⟩ := @groupFindings_loop env db rid kind key ids hne
  obtain ⟨f', hf', hcore, hopen, hin, hout⟩ := @joinItems_row env (db.groupTarget kind key) groupKey k
    (groupJoining db rid ids (db.groupTarget kind key)) t f (ht k f hf)
  have hjoining := @mem_groupJoining db rid ids (db.groupTarget kind key) k f hf
  refine ⟨f', hloop ▸ hf', hcore, hopen, fun hmem => ?_, fun hno => hout fun hmem => hno (hjoining.mp hmem).1⟩
  by_cases howner : f.workItemId = some (db.groupTarget kind key)
  · rw [hout fun hmem => (hjoining.mp hmem).2 howner, howner]
  · exact hin (hjoining.mpr ⟨hmem, howner⟩)

theorem le_maxSeverity {severities : List Severity} {s : Severity} (h : s ∈ severities) :
    s.rank ≤ (maxSeverity severities).rank := by
  have hfold : ∀ (l : List Severity) (best : Severity),
      best.rank ≤ (l.foldl (fun best s => if s.rank > best.rank then s else best) best).rank ∧
        ∀ s ∈ l, s.rank ≤ (l.foldl (fun best s => if s.rank > best.rank then s else best) best).rank := by
    intro l
    induction l with
    | nil => exact fun best => ⟨le_rfl, fun _ h => absurd h List.not_mem_nil⟩
    | cons a l ih =>
      intro best
      rw [List.foldl_cons]
      obtain ⟨hbest, hrest⟩ := ih (if a.rank > best.rank then a else best)
      have hstep : best.rank ≤ (if a.rank > best.rank then a else best).rank ∧
          a.rank ≤ (if a.rank > best.rank then a else best).rank := by
        split <;> omega
      refine ⟨hstep.1.trans hbest, fun s hs => ?_⟩
      rcases List.mem_cons.mp hs with rfl | hs
      · exact hstep.2.trans hbest
      · exact hrest s hs
  exact (hfold severities _).2 s h

/-- A new item covers the findings it is created for. -/
theorem newWorkItem_covers {members : List Finding} {f : Finding} (h : f ∈ members) (regressionOf : Option Nat) :
    (newWorkItem env kind key members regressionOf).Covers f := by
  refine ⟨le_maxSeverity (List.mem_map_of_mem h), fun hrisk => ?_⟩
  have hany : (members.any fun f => f.risk == .high) = true := List.any_eq_true.mpr ⟨f, h, by rw [hrisk]; rfl⟩
  show (if members.any fun f => f.risk == .high then Risk.high else Risk.normal) = .high
  rw [if_pos hany]

/-- A member of a group is not closed. -/
theorem groupable_open {s : FindingState} (h : s ∈ groupableStates) : s.isClosing = false := by
  revert h
  cases s <;> decide

/-- A group that gets no new item finds a live one. -/
theorem groupItem_of_newKey (h : db.newKey kind key = none) : ∃ wid w, db.groupItem kind key = some wid ∧
    db.workItems.get? wid = some w ∧ w.live := by
  unfold Db.newKey at h
  cases hitem : db.groupItem kind key with
  | none =>
    rw [hitem] at h
    cases h
  | some wid =>
    obtain ⟨w, hw, -⟩ := Table.first_eq_some hitem
    rw [hitem] at h
    dsimp only at h
    split at h
    · cases h
    · rename_i hlive
      refine ⟨wid, w, rfl, hw, fun hstate => hlive ?_⟩
      rw [hw, Option.any_some]
      exact decide_eq_true hstate

/-- A group that gets a new item finds no live one. -/
theorem groupItem_of_newKey_some {key' : String} (h : db.newKey kind key = some key') {wid : Nat} {w : WorkItem}
    (hitem : db.groupItem kind key = some wid) (hw : db.workItems.get? wid = some w) : ¬ w.live := by
  unfold Db.newKey at h
  rw [hitem] at h
  dsimp only at h
  split at h
  · rename_i hclosed
    rw [hw, Option.any_some] at hclosed
    exact fun hlive => hlive (of_decide_eq_true hclosed)
  · cases h

/-- The item the group finds covers the findings of the group. -/
def ItemCovers (db : Db) (rid : Nat) (kind : Kind) (key : String) (ids : List Nat) : Prop :=
  ∀ wid w, db.groupItem kind key = some wid → db.workItems.get? wid = some w → w.live →
    ∀ m ∈ groupMembers db rid ids, w.Covers m.2

/-- **The step of a group.** -/
theorem groupFindings_covered_iff (hcov : Covered db) (ho : OwnersThere db) :
    Covered (groupFindings env rid kind key ids { db := db }).db ↔ ItemCovers db rid kind key ids := by
  by_cases hne : groupMembers db rid ids = []
  · have hsame : groupFindings env rid kind key ids { db := db } = { db := db } := by
      unfold groupFindings
      exact if_pos hne
    rw [hsame]
    refine iff_of_true hcov fun wid w _ _ _ m hm => ?_
    rw [hne] at hm
    cases hm
  have hdoes := groupFindings_does env rid kind key ids { db := db }
  have hitems := @groupFindings_workItems env { db := db } rid kind key ids
  rw [if_neg hne] at hitems
  cases hkey : db.newKey kind key with
  | some key' =>
    rw [hkey] at hitems
    refine iff_of_true ?_ fun wid w hitem hw hlive => absurd hlive (groupItem_of_newKey_some hkey hitem hw)
    intro k f' wid w hf' hp hw hl
    obtain ⟨f, hf, -⟩ := hdoes.finding_back hf'
    obtain ⟨f'', hf'', hcore, -, hin, hout⟩ := @groupFindings_row env _ rid kind key ids hne _ _ hf
    cases hf'.symm.trans hf''
    rw [hitems, Table.get?_insert] at hw
    by_cases hmem : (k, f) ∈ groupMembers db rid ids
    · have howner := hin hmem
      rw [Db.groupTarget, hkey, hp.2, Option.some.injEq] at howner
      rw [if_pos howner, Option.some.injEq] at hw
      rw [← hw]
      refine covers_congr rfl (core_priority hcore) (newWorkItem_covers ?_ _)
      exact List.mem_map.mpr ⟨(k, f), hmem, rfl⟩
    · rw [hout hmem] at hp ⊢
      obtain ⟨w₀, hw₀⟩ := ho k f wid hf hp.2
      rw [if_neg (fun h => by rw [h, Table.get?_nextId] at hw₀; cases hw₀)] at hw
      exact hcov k f wid w hf hp hw hl
  | none =>
    rw [hkey] at hitems
    obtain ⟨wid, w, hitem, hw, hlive⟩ := groupItem_of_newKey hkey
    have htarget : db.groupTarget kind key = wid := by rw [Db.groupTarget, hkey, hitem, Option.getD_some]
    constructor
    · intro hafter wid' w' hitem' hw' _ m hm
      cases hitem.symm.trans hitem'
      cases hw.symm.trans hw'
      obtain ⟨-, hf, -, hstate⟩ := mem_groupMembers.mp hm
      obtain ⟨f', hf', hcore, hopen, hin, -⟩ := @groupFindings_row env _ rid kind key ids hne _ _ hf
      have hp : f'.Pending wid := ⟨hopen (groupable_open hstate), htarget ▸ hin hm⟩
      have hcovers := hafter m.1 f' wid w hf' hp (hitems ▸ hw) hlive
      exact covers_congr rfl (core_priority hcore).symm hcovers
    · intro hcovers k f' wid' w' hf' hp hw' hl
      obtain ⟨f, hf, -⟩ := hdoes.finding_back hf'
      obtain ⟨f'', hf'', hcore, -, hin, hout⟩ := @groupFindings_row env _ rid kind key ids hne _ _ hf
      cases hf'.symm.trans hf''
      rw [hitems] at hw'
      by_cases hmem : (k, f) ∈ groupMembers db rid ids
      · have howner := hin hmem
        rw [htarget, hp.2, Option.some.injEq] at howner
        subst howner
        cases hw.symm.trans hw'
        exact covers_congr rfl (core_priority hcore) (hcovers wid' w hitem hw hlive (k, f) hmem)
      · rw [hout hmem] at hp ⊢
        exact hcov k f wid' w' hf hp hw' hl

end Grouping

/-! ## A scan -/

/-- The scan is taken in, reports the finding and no later scan has, and rates it above the item. -/
def Scan.raises (ext : External) (scan : Scan) (db : Db) (f : Finding) (w : WorkItem) : Bool :=
  scan.taken ext db && (scan.report f.dedupeKey).any fun (raw, nf) => !scan.olderThan db f &&
    (decide (w.severity.rank < nf.severity.rank) || (scan.classify ext raw nf).risk == .high && w.risk != .high)

/-- No scan that the step ingests rates a pending member of a live item above it. -/
def RatesWithin (c : Controller) (s : Sys) (a : Action) : Prop :=
  ∀ scan ∈ a.scan?, ∀ fid f wid w, s.db.findings.get? fid = some f → f.Pending wid → s.db.workItems.get? wid = some w →
    w.live → scan.raises c.ext s.db f w = false

section Ingestion

variable {ext : External} {db db' : Db} {scan : Scan} {ts : DateTime} {result : IngestResult}

theorem Scan.Leaves.covers_iff {f f' : Finding} {w : WorkItem} (h : scan.Leaves ext db f f') (hcov : w.Covers f) :
    w.Covers f' ↔ scan.raises ext db f w = false := by
  have hpriority := h.priority
  unfold Scan.raises
  cases htaken : scan.taken ext db with
  | false =>
    rw [htaken, if_neg Bool.false_ne_true] at hpriority
    exact iff_of_true (covers_congr rfl hpriority hcov) rfl
  | true =>
    rw [htaken, if_pos rfl, Scan.priorityOf] at hpriority
    cases hreport : scan.report f.dedupeKey with
    | none =>
      rw [hreport] at hpriority
      exact iff_of_true (covers_congr rfl hpriority hcov) rfl
    | some rep =>
      obtain ⟨raw, nf⟩ := rep
      rw [hreport] at hpriority
      dsimp only at hpriority
      rw [Bool.true_and, Option.any_some]
      cases holder : scan.olderThan db f with
      | true =>
        rw [holder, if_pos rfl] at hpriority
        exact iff_of_true (covers_congr rfl hpriority hcov) rfl
      | false =>
        rw [holder, if_neg Bool.false_ne_true, Prod.mk.injEq] at hpriority
        unfold WorkItem.Covers
        rw [hpriority.1, hpriority.2]
        simp only [Bool.not_false, Bool.true_and, Bool.or_eq_false_iff, decide_eq_false_iff_not, not_lt,
          Bool.and_eq_false_iff, beq_eq_false_iff_ne, bne_eq_false_iff_eq, ne_eq]
        exact and_congr_right' imp_iff_not_or

/-- **The step of an ingestion.** -/
theorem ingestRun_covered_iff (h : ingestRun ext db scan.run scan.jobs scan.upperBounds ts = .ok (db', result))
    (hu : KeysUnique db) (hcov : Covered db) : Covered db' ↔
      ∀ fid f wid w, db.findings.get? fid = some f → f.Pending wid → db.workItems.get? wid = some w → w.live →
        scan.raises ext db f w = false := by
  have hitems := (ingestRun_ingested h).workItems
  have hrow := (ingestRun_leaves h hu).2
  constructor
  · intro hafter fid f wid w hf hp hw hl
    obtain ⟨f', hf', hleaves⟩ := hrow fid f hf
    have hp' : f'.Pending wid := ⟨hleaves.isClosing.trans hp.1, hleaves.owner.trans hp.2⟩
    exact (hleaves.covers_iff (hcov fid f wid w hf hp hw hl)).mp (hafter fid f' wid w hf' hp' (hitems ▸ hw) hl)
  · intro hwithin fid f' wid w hf' hp hw hl
    rcases ingestRun_owner h hf' with howner | ⟨f, hf, howner⟩
    · rw [hp.2] at howner
      cases howner
    · obtain ⟨f'', hf'', hleaves⟩ := hrow fid f hf
      cases hf'.symm.trans hf''
      have hp' : f.Pending wid := ⟨hleaves.isClosing.symm.trans hp.1, howner.trans hp.2⟩
      rw [hitems] at hw
      exact (hleaves.covers_iff (hcov fid f wid w hf hp' hw hl)).mpr (hwithin fid f wid w hf hp' hw hl)

theorem ingestRun_ownersThere (h : ingestRun ext db scan.run scan.jobs scan.upperBounds ts = .ok (db', result))
    (ho : OwnersThere db) : OwnersThere db' := by
  intro fid f' wid hf' howner
  rcases ingestRun_owner h hf' with hnone | ⟨f, hf, hsame⟩
  · rw [howner] at hnone
    cases hnone
  · rw [(ingestRun_ingested h).workItems]
    exact ho fid f wid hf (hsame.trans howner)

end Ingestion

/-! ## Runs -/

/-- The priorities of the work items, for dispatch: live items cover their pending members, so that no item with a high
or critical one waits for an approval. -/
structure Prioritised (db : Db) : Prop where
  covered : Covered db
  dispatched : ∀ fid f wid w, db.findings.get? fid = some f → f.Pending wid → db.workItems.get? wid = some w → w.live →
    f.severity ∈ defaultDispatchSeverities → ∀ labels, dispatchAllowed w.severity labels = true

theorem prioritised_iff {db : Db} : Prioritised db ↔ Covered db :=
  ⟨Prioritised.covered, fun h => ⟨h, fun fid f wid w hf hp hw hl hs => (h fid f wid w hf hp hw hl).dispatches hs⟩⟩

/-- The step keeps the priorities: no scan it ingests rates a pending member of a live item above it, and no finding of
a group it makes joins an item that does not cover it. -/
structure KeepsPriority (c : Controller) (s : Sys) (a : Action) : Prop where
  rated : RatesWithin c s a
  joined : ∀ now rid kind key ids groups, a = .group now → s.flight = none →
    s.phase = .grouping rid (((kind, key), ids) :: groups) → ItemCovers s.db rid kind key ids

section Runs

variable {c : Controller} {s : Sys}

/-- What the controller has in hand while it waits for Devin. -/
def Recalls (s : Sys) : Prop :=
  ∀ wid members, s.flight = some (.creating wid members) →
    (members.map Prod.fst).Nodup ∧ RecallOpen members s.db

theorem Recalls.step {a : Action} (hu : KeysUnique s.db) (hr : Recalls s) : Recalls (exec c s a) := by
  intro wid members hflight
  rcases exec_waiting hflight with ⟨hbefore, hends⟩ | ⟨now, remote, rfl, hbefore⟩
  · obtain ⟨hnd, hopen⟩ := hr wid members hbefore
    refine ⟨hnd, fun m hm hstate => ?_⟩
    obtain ⟨f, hf, hf_open⟩ := hopen m hm hstate
    cases hscan : a.scan? with
    | none =>
      rw [exec_creating hbefore hends hscan]
      exact ⟨f, hf, hf_open⟩
    | some scan =>
      obtain ⟨-, f', hf', hleaves⟩ := @exec_scan c s a scan hscan hu m.1 f hf
      exact ⟨f', hf', hleaves.isClosing.trans hf_open⟩
  · obtain ⟨hdb, rfl⟩ := (@adopt_loads c s wid now remote hbefore).2 members hflight
    refine ⟨s.db.nodup_loaded wid, fun m hm hstate => ⟨m.2, ?_, ?_⟩⟩
    · rw [hdb]
      exact Db.mem_loaded hm
    · rw [hstate]
      rfl

theorem Commits.ownersThere {S : Scope} {db db' : Db} (h : Commits c S db db') (hins : ¬ S.inserts)
    (ho : OwnersThere db) :
    OwnersThere db' := by
  cases h with
  | units h => exact h.ownersThere hins ho
  | evaluation h rid => exact h.ownersThere hins ho
  | @ingested run jobs upperBounds now db' result h =>
    exact @ingestRun_ownersThere _ _ _ ⟨run, jobs, upperBounds⟩ _ _ h ho

/-- A group leaves every owner there. -/
theorem groupFindings_ownersThere {env : Env} {rid : Nat} {kind : Kind} {key : String} {ids : List Nat} {db : Db}
    (ho : OwnersThere db) : OwnersThere (groupFindings env rid kind key ids { db := db }).db := by
  have hdoes := groupFindings_does env rid kind key ids { db := db }
  by_cases hne : groupMembers db rid ids = []
  · have hsame : groupFindings env rid kind key ids { db := db } = { db := db } := by
      unfold groupFindings
      exact if_pos hne
    rw [hsame]
    exact ho
  intro k f' wid hf' howner
  obtain ⟨f, hf, -⟩ := hdoes.finding_back hf'
  obtain ⟨f'', hf'', -, -, hin, hout⟩ := @groupFindings_row env _ rid kind key ids hne _ _ hf
  cases hf'.symm.trans hf''
  by_cases hmem : (k, f) ∈ groupMembers db rid ids
  · have htarget := hin hmem
    rw [howner, Option.some.injEq] at htarget
    have hitems := @groupFindings_workItems env { db := db } rid kind key ids
    rw [if_neg hne] at hitems
    rw [htarget, hitems, Db.groupTarget]
    cases hkey : db.newKey kind key with
    | some key' => exact ⟨_, Table.get?_insert_self ..⟩
    | none =>
      obtain ⟨wid', w, hitem, hw, -⟩ := groupItem_of_newKey hkey
      rw [hitem, Option.getD_some]
      exact ⟨w, hw⟩
  · rw [hout hmem] at howner
    obtain ⟨w, hw⟩ := ho k f wid hf howner
    obtain ⟨w', hw', -⟩ := hdoes.itemCore hw
    exact ⟨w', hw'⟩

theorem exec_ownersThere {a : Action} (ho : OwnersThere s.db) : OwnersThere (exec c s a).db := by
  have hother (hins : ¬ a.licence.inserts) : OwnersThere (exec c s a).db :=
    (exec_commits_licensed c s a).ownersThere hins ho
  cases a with
  | group now =>
    rcases exec_group c s now with ⟨rid, kind, key, ids, groups, -, -, hdb⟩ | ⟨hdb, -⟩
    · rw [hdb]
      exact groupFindings_ownersThere ho
    · rw [hdb]
      exact ho
  | _ => exact hother id

/-- What is kept along the way. -/
structure Settled (s : Sys) : Prop where
  covered : Covered s.db
  owners : OwnersThere s.db
  unique : KeysUnique s.db
  recalls : Recalls s

/-- A step that neither makes a group nor ingests a scan. -/
theorem exec_covered {a : Action} (h : Settled s) (hscan : a.scan? = none) (hgroup : ∀ now, a ≠ .group now) :
    Covered (exec c s a).db := by
  have hworked (ha : a.brings = false) (hins : ¬ a.licence.inserts) (hrecall : ¬ a.licence.deeds .recall)
      (hreopen : ¬ a.licence.deeds .reopen) : Covered (exec c s a).db := by
    obtain ⟨env, tx, hacts, hdb⟩ := exec_licensed c s ha
    rw [← hdb]
    exact hacts.covered hins hrecall hreopen h.covered
  cases a with
  | ingest run jobs upperBounds now => cases hscan
  | group now => exact absurd rfl (hgroup now)
  | applyRun now compare =>
    dsimp only [exec, stepFree]
    split
    · exact h.covered
    · split
      · exact applyScanRun_covered _ h.covered
      · exact h.covered
  | create now answer commented =>
    dsimp only [exec, stepCreate]
    split
    · rename_i wid members hflight
      obtain ⟨hnd, hopen⟩ := h.recalls wid members hflight
      exact createSession_covered hnd hopen h.covered answer commented
    · exact h.covered
  | _ => exact hworked rfl id nofun nofun

/-- **The step keeps the items above their members exactly when it neither rates a member above its item nor lets a
finding join an item below it.** -/
theorem exec_covered_iff {a : Action} (h : Settled s) : Covered (exec c s a).db ↔ KeepsPriority c s a := by
  cases hscan : a.scan? with
  | some scan =>
    have hiff : Covered (exec c s a).db ↔ ∀ fid f wid w, s.db.findings.get? fid = some f → f.Pending wid →
        s.db.workItems.get? wid = some w → w.live → scan.raises c.ext s.db f w = false := by
      cases a with
      | ingest run jobs upperBounds now =>
        cases hscan
        dsimp only [exec]
        split
        · rename_i db' result hrun
          exact @ingestRun_covered_iff _ _ _ ⟨run, jobs, upperBounds⟩ _ _ hrun h.unique h.covered
        · rename_i e hrun
          refine iff_of_true h.covered fun fid f wid w _ _ _ _ => ?_
          rw [Scan.raises, @taken_of_error c.ext s.db ⟨run, jobs, upperBounds⟩ now e hrun]
          rfl
      | _ => cases hscan
    refine hiff.trans ⟨fun hrated => ⟨fun scan' hscan' => ?_, ?_⟩, fun hkeeps => hkeeps.rated scan hscan⟩
    · cases hscan.symm.trans hscan'
      exact hrated
    · rintro now rid kind key ids groups rfl
      cases hscan
  | none =>
    have hrated : RatesWithin c s a := by
      intro scan hscan'
      rw [hscan] at hscan'
      cases hscan'
    by_cases hgroup : ∃ now, a = .group now
    · obtain ⟨now, rfl⟩ := hgroup
      rcases exec_group c s now with ⟨rid, kind, key, ids, groups, hflight, hphase, hdb⟩ | ⟨hdb, hno⟩
      · rw [hdb]
        refine (groupFindings_covered_iff h.covered h.owners).trans ⟨fun hitem => ⟨hrated, ?_⟩, fun hkeeps =>
          hkeeps.joined now rid kind key ids groups rfl hflight hphase⟩
        intro now' rid' kind' key' ids' groups' _ _ hphase'
        cases hphase.symm.trans hphase'
        exact hitem
      · rw [hdb]
        refine iff_of_true h.covered ⟨hrated, ?_⟩
        intro now' rid kind key ids groups _ hflight hphase
        exact absurd hphase (hno rid kind key ids groups hflight)
    · refine iff_of_true (exec_covered h hscan fun now ha => hgroup ⟨now, ha⟩) ⟨hrated, ?_⟩
      intro now rid kind key ids groups ha
      exact absurd ⟨now, ha⟩ hgroup

theorem Settled.step {a : Action} (h : Settled s) (ha : KeepsPriority c s a) : Settled (exec c s a) :=
  ⟨(exec_covered_iff h).mpr ha, exec_ownersThere h.owners, (exec_commits c s a).keysUnique h.unique,
    h.recalls.step h.unique⟩

theorem Settled.initial : Settled .initial := by
  refine ⟨?_, ?_, KeysUnique.empty, nofun⟩
  · intro fid f _ _ hf
    rw [show Sys.initial.db.findings.get? fid = none from Table.get?_empty fid] at hf
    cases hf
  · intro fid f _ hf
    rw [show Sys.initial.db.findings.get? fid = none from Table.get?_empty fid] at hf
    cases hf

/-- **The priorities of the work items are kept in every state of a run exactly when every step of it keeps them.** -/
theorem priority_run_iff (c : Controller) (tr : List Action) :
    Machine.AllSteps (exec c) (fun s a => Prioritised (exec c s a).db) .initial tr ↔
      Machine.AllSteps (exec c) (KeepsPriority c) .initial tr := by
  refine Machine.AllSteps.congr_invariant Settled (fun _ _ h ha => h.step ha) (fun s a h => ?_) Settled.initial
  exact prioritised_iff.trans (exec_covered_iff h)

end Runs

/-- No group of the run is left. -/
def Phase.groupsDone (rid : Nat) : Phase → Bool
  | .grouping r groups => r = rid && groups.isEmpty
  | _ => false

/-- A package with a medium vulnerability has a work item; a later scan finds a high one of it, and a tick groups it. -/
def joinedTrace : List Action :=
  let medium := (samplePair "CVE-1" "openssl" "1").map fun v => { v with severity := .medium }
  [sampleIngest "1" 10 medium] ++ sampleFile 11 ++ [sampleIngest "2" 20 (medium ++ samplePair "CVE-2" "openssl" "1")] ++
    [.beginTick, .next true none, .applyRun 21 linearCompare, .next true none, .group 21]

/-- The high finding joins the item, which stays medium and waits for an approval. -/
theorem high_member_waits :
    let s := sampleState joinedTrace
    Reachable sampleController s ∧ s.phase = .grouping 2 [] ∧ ¬ Covered s.db ∧ ∃ f w, s.db.findings.get? 2 = some f ∧
      s.db.workItems.get? 1 = some w ∧ f.Pending 1 ∧ w.live ∧ f.severity = .high ∧
      dispatchAllowed w.severity [] = false := by
  intro s
  have hphase : s.phase.groupsDone 2 = true := by decide +kernel
  have hfinding : (s.db.findings.get? 2).any (fun f => f.state == .grouped && f.workItemId == some 1 &&
      f.severity == .high) = true := by decide +kernel
  have hitem : (s.db.workItems.get? 1).any (fun w => w.state == .issueOpen && w.severity == .medium) = true := by
    decide +kernel
  obtain ⟨f, hf, hall⟩ := (Option.any_eq_true ..).mp hfinding
  obtain ⟨w, hw, hall'⟩ := (Option.any_eq_true ..).mp hitem
  simp only [Bool.and_eq_true, beq_iff_eq] at hall hall'
  have hp : f.Pending 1 := ⟨by rw [hall.1.1]; rfl, hall.1.2⟩
  have hl : w.live := by
    rw [WorkItem.live, hall'.1]
    decide
  refine ⟨sampleState_reachable _, ?_, fun hcov => ?_, f, w, hf, hw, hp, hl, hall.2, by rw [hall'.2]; decide⟩
  · unfold Phase.groupsDone at hphase
    split at hphase
    · rename_i r groups hs
      simp only [Bool.and_eq_true, decide_eq_true_eq, List.isEmpty_iff] at hphase
      rw [hs, hphase.1, hphase.2]
    · cases hphase
  · have hrank := (hcov 2 f 1 w hf hp hw hl).1
    rw [hall.2, hall'.2] at hrank
    exact absurd hrank (by decide)

end HardeningLoop
