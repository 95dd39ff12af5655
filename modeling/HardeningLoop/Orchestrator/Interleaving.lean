import HardeningLoop.Ingest.States
import HardeningLoop.Orchestrator.ClosingEvidence
import HardeningLoop.Orchestrator.World

/-!
# Ingestion while a dispatch waits for Devin

A dispatch reads the findings of its item, commits, and keeps the rows it read while Devin creates a session; another
process may ingest scans meanwhile.

- `createSession_history`: the transitions of the findings are fired from the states that were read;
- `exec_creating`: while the controller waits, only an ingestion writes the database;
- `dispatch_loses_nothing_iff`: no update is lost exactly when no scan ingested meanwhile reclassifies a grouped finding
  of the item.
-/

namespace HardeningLoop

open Rows (Table)

/-- The findings of an item, as a dispatch reads them. -/
def Db.loaded (db : Db) (wid : Nat) : List (Nat × Finding) :=
  (db.members wid).filterMap fun fid => (db.findings.get? fid).map (fid, ·)

theorem Db.mem_loaded {db : Db} {wid : Nat} {m : Nat × Finding} (h : m ∈ db.loaded wid) :
    db.findings.get? m.1 = some m.2 := by
  obtain ⟨fid, -, hm⟩ := List.mem_filterMap.mp h
  obtain ⟨f, hf, rfl⟩ := Option.map_eq_some_iff.mp hm
  exact hf

theorem Db.nodup_loaded (db : Db) (wid : Nat) : ((db.loaded wid).map Prod.fst).Nodup := by
  have hsub : ((db.loaded wid).map Prod.fst).Sublist (db.members wid) := by
    unfold Db.loaded
    induction db.members wid with
    | nil => exact .slnil
    | cons fid l ih =>
      cases hf : db.findings.get? fid with
      | none =>
        rw [List.filterMap_cons_none (by rw [hf]; rfl)]
        exact ih.cons _
      | some f =>
        rw [List.filterMap_cons_some (by rw [hf]; rfl)]
        exact ih.cons_cons _
  exact hsub.nodup (Table.nodup_select ..)

/-! ## The creation of a session -/

section Creation

variable {env : Env} {tx : Tx} {wid : Nat} {members : List (Nat × Finding)}

/-- What the creation of a session does to a finding that was read. -/
def started (env : Env) (reason : String) (m : Nat × Finding) (h : History) : History :=
  recalled env m.1 m.2.state .remediationStarted reason "controller" none h

theorem startRemediations_history (hnd : (members.map Prod.fst).Nodup) (reason : String) (fid : Nat) (t : Tx) :
    (∀ m ∈ members, fid = m.1 →
      (members.foldl (startRemediation env reason) t).db.history fid = (t.db.history fid).map (started env reason m)) ∧
    ((∀ m ∈ members, fid ≠ m.1) →
      (members.foldl (startRemediation env reason) t).db.history fid = t.db.history fid) := by
  have hkeeps : Rows.Keeps (fun _ _ => True) (startRemediation env reason) members := fun _ _ _ _ _ _ _ _ => trivial
  refine Rows.foldl_owned (fun (t : Tx) k => t.db.history k) (fun m k => k = m.1)
    (fun m _ => Option.map (started env reason m)) (List.Nodup.of_map _ hnd) hkeeps ?_ ?_ ?_ (fun _ _ => trivial) fid
  · intro m hm m' hm' k h h'
    exact List.inj_on_of_nodup_map hnd hm hm' (h.symm.trans h')
  · intro t m _ _ k hk
    exact (history_recall t ..).trans (if_pos hk)
  · intro t m _ _ k hk
    exact (history_recall t ..).trans (if_neg hk)

/-- **The creation of a session, for the histories of the findings.** -/
theorem createSession_history (hnd : (members.map Prod.fst).Nodup) (snap : SessionSnapshot)
    (commented : Except String Unit) (fid : Nat) :
    (∀ m ∈ members, fid = m.1 → (createSession env tx wid members (.ok snap) commented).db.history fid =
      (tx.db.history fid).map (started env snap.sessionId m)) ∧
    ((∀ m ∈ members, fid ≠ m.1) →
      (createSession env tx wid members (.ok snap) commented).db.history fid = tx.db.history fid) := by
  unfold createSession
  dsimp only
  set cap := ((tx.db.workItems.get? wid).map WorkItem.acuCap).getD 0
  set t := (recordSession env (tx.answered (.createSession wid cap)) wid snap false).wi env wid .sessionCreated
    snap.sessionId "controller" with ht
  have hbefore : t.db.history fid = tx.db.history fid := by
    rw [ht, history_wi]
    have hrecord : OnItem env wid tx (recordSession env (tx.answered (.createSession wid cap)) wid snap false) :=
      (Acts.refl.answered _).trans (recordSession_does env _ wid snap false)
    exact hrecord.history (S := .item wid fun _ => False) not_false
  set t' := members.foldl (startRemediation env snap.sessionId) t with ht'
  have hafter (t'' : Tx) (h : OnItem env wid t' t'') : t''.db.history fid = t'.db.history fid :=
    h.history (S := .item wid fun _ => False) not_false
  have hstarted := @startRemediations_history env members hnd snap.sessionId fid t
  rw [hbefore] at hstarted
  have hrest (t'' : Tx) (h : t''.db.history fid = t'.db.history fid) :
      (∀ m ∈ members, fid = m.1 → t''.db.history fid = (tx.db.history fid).map (started env snap.sessionId m)) ∧
        ((∀ m ∈ members, fid ≠ m.1) → t''.db.history fid = tx.db.history fid) := by
    rw [h]
    exact hstarted
  refine hrest _ ?_
  split
  · rfl
  · split
    · rfl
    · exact hafter _ (Acts.refl.log _ _ _ _ (by decide))
    · rfl

end Creation

/-! ## While Devin is waited for -/

/-- The step ends the wait for Devin's answer to a creation. -/
def Action.ends : Action → Bool
  | .create .. | .stop => true
  | _ => false

/-- The scan that the step ingests. -/
def Action.scan? : Action → Option Scan
  | .ingest run jobs upperBounds _ => some ⟨run, jobs, upperBounds⟩
  | _ => none

section Waiting

variable {c : Controller} {s : Sys} {wid : Nat} {members : List (Nat × Finding)}

/-- An ingestion, for the states of the findings that are there. -/
theorem exec_scan {a : Action} {scan : Scan} (ha : a.scan? = some scan) (hu : KeysUnique s.db) {fid : Nat} {f : Finding}
    (hf : s.db.findings.get? fid = some f) : (exec c s a).flight = s.flight ∧
      ∃ f', (exec c s a).db.findings.get? fid = some f' ∧ scan.Leaves c.ext s.db f f' := by
  cases a with
  | ingest run jobs upperBounds now =>
    cases ha
    dsimp only [exec]
    split
    · rename_i db' result hrun
      exact ⟨rfl, (@ingestRun_leaves c.ext s.db db' ⟨run, jobs, upperBounds⟩ now result hrun hu).2 fid f hf⟩
    · rename_i e hrun
      exact ⟨rfl, f, hf, .untaken (@taken_of_error c.ext s.db ⟨run, jobs, upperBounds⟩ now e hrun) f⟩
  | _ => cases ha

/-- Without an ingestion nothing happens while the controller waits. -/
theorem exec_creating {a : Action} (hflight : s.flight = some (.creating wid members)) (ha : a.ends = false)
    (hscan : a.scan? = none) : exec c s a = s := by
  cases a with
  | ingest run jobs upperBounds now => cases hscan
  | create now answer commented => cases ha
  | stop => cases ha
  | adopt now remote =>
    dsimp only [exec, stepAdopt]
    rw [hflight]
  | cancelAnswer now answer =>
    dsimp only [exec, stepCancel]
    rw [hflight]
  | _ =>
    dsimp only [exec]
    rw [hflight]
    rfl

/-- A controller waits for the creation of a session because it did before, or because it has just searched for one. -/
theorem exec_waiting {a : Action} {wid : Nat} {members : List (Nat × Finding)}
    (h : (exec c s a).flight = some (.creating wid members)) :
    s.flight = some (.creating wid members) ∧ a.ends = false ∨
      ∃ now remote, a = .adopt now remote ∧ s.flight = some (.adopting wid false) := by
  cases exec_flight c s a with
  | idle hidle =>
    rw [h] at hidle
    cases hidle
  | keeps hkeep =>
    refine Or.inl ⟨hkeep.symm.trans h, ?_⟩
    cases a with
    | create now answer commented =>
      dsimp only [exec, stepCreate] at h
      rw [hkeep.symm.trans h] at h
      cases h
    | stop => cases h
    | _ => rfl
  | reserves hfree hreserved =>
    rw [h] at hreserved
    cases hreserved
  | searches ha hs hnext =>
    rw [h] at hnext
    cases hnext
    exact Or.inr ⟨_, _, ha, hs⟩

theorem Commits.keysUnique {S : Scope} {db db' : Db} (h : Commits c S db db') (hu : KeysUnique db) :
    KeysUnique db' := by
  have hkeep {env : Env} {tx : Tx} (h : Acts env S { db := db } tx) : KeysUnique tx.db := by
    have hback {i : Nat} {f : Finding} (hf : tx.db.findings.get? i = some f) :
        ∃ f₀, db.findings.get? i = some f₀ ∧ f.dedupeKey = f₀.dedupeKey := by
      obtain ⟨f₀, hf₀, hcore⟩ := h.finding_back hf
      exact ⟨f₀, hf₀, Finding.of_core Finding.dedupeKey (fun _ => rfl) hcore⟩
    intro i j f g hf hg hkey
    obtain ⟨f₀, hf₀, hfkey⟩ := hback hf
    obtain ⟨g₀, hg₀, hgkey⟩ := hback hg
    exact hu i j f₀ g₀ hf₀ hg₀ (hfkey.symm.trans (hkey.trans hgkey))
  cases h with
  | units h => exact hkeep h
  | evaluation h rid => exact hkeep h
  | @ingested run jobs upperBounds now db' result h =>
    exact @keysUnique_ingestRun _ _ _ ⟨run, jobs, upperBounds⟩ _ _ h hu

theorem keysUnique_reachable (h : Reachable c s) : KeysUnique s.db :=
  h.invariant (fun s => KeysUnique s.db) KeysUnique.empty fun s a hu => (exec_commits c s a).keysUnique hu

/-- The controller waits, and the rows that were read are there. -/
structure Waits (wid : Nat) (members : List (Nat × Finding)) (s : Sys) : Prop where
  flight : s.flight = some (.creating wid members)
  unique : KeysUnique s.db
  rows : ∀ m ∈ members, ∃ f, s.db.findings.get? m.1 = some f

/-- The findings that were grouped when they were read still are. -/
def StillGrouped (members : List (Nat × Finding)) (s : Sys) : Prop :=
  ∀ m ∈ members, m.2.state = .grouped → s.db.findingState m.1 = some .grouped

/-- A scan that the step ingests reclassifies no finding that was grouped when it was read. -/
def Spares (c : Controller) (members : List (Nat × Finding)) (s : Sys) (a : Action) : Prop :=
  ∀ scan ∈ a.scan?, ∀ m ∈ members, m.2.state = .grouped →
    ∀ f ∈ s.db.findings.get? m.1, scan.reclassifies c.ext s.db f = false

instance {a : Action} : Decidable (Spares c members s a) := inferInstanceAs (Decidable (∀ scan ∈ a.scan?, _))

theorem Waits.step {a : Action} (ha : a.ends = false) (h : Waits wid members s) : Waits wid members (exec c s a) := by
  cases hscan : a.scan? with
  | none =>
    rw [exec_creating h.flight ha hscan]
    exact h
  | some scan =>
    refine ⟨?_, (exec_commits c s a).keysUnique h.unique, fun m hm => ?_⟩
    · cases a with
      | ingest run jobs upperBounds now =>
        dsimp only [exec]
        split <;> exact h.flight
      | _ => cases hscan
    · obtain ⟨f, hf⟩ := h.rows m hm
      obtain ⟨-, f', hf', -⟩ := @exec_scan c s a scan hscan h.unique m.1 f hf
      exact ⟨f', hf'⟩

theorem stillGrouped_step {a : Action} (ha : a.ends = false) (h : Waits wid members s) :
    StillGrouped members (exec c s a) ↔ StillGrouped members s ∧ Spares c members s a := by
  cases hscan : a.scan? with
  | none =>
    rw [exec_creating h.flight ha hscan]
    simp [Spares, hscan]
  | some scan =>
    have hone {m : Nat × Finding} (hm : m ∈ members) : (exec c s a).db.findingState m.1 = some .grouped ↔
        s.db.findingState m.1 = some .grouped ∧
          ∀ f ∈ s.db.findings.get? m.1, scan.reclassifies c.ext s.db f = false := by
      obtain ⟨f, hf⟩ := h.rows m hm
      obtain ⟨-, f', hf', hleaves⟩ := @exec_scan c s a scan hscan h.unique m.1 f hf
      simp only [Db.findingState, hf', hf, Option.map_some, Option.some.injEq, hleaves.state,
        Option.mem_some, forall_eq']
      exact Scan.leaves_iff (by decide)
    constructor
    · intro hgrouped
      refine ⟨fun m hm hstate => ((hone hm).mp (hgrouped m hm hstate)).1, fun scan' hscan' m hm hstate => ?_⟩
      cases hscan.symm.trans hscan'
      exact ((hone hm).mp (hgrouped m hm hstate)).2
    · rintro ⟨hgrouped, hspares⟩ m hm hstate
      exact (hone hm).mpr ⟨hgrouped m hm hstate, hspares scan hscan m hm hstate⟩

end Waiting

/-! ## No update is lost -/

/-- A unit that read the database `read` loses no update between `db` and `db'`: every transition it records starts from
the state that is stored, and a state that was written since the read stays. -/
structure NothingLost (read db db' : Db) : Prop where
  from_stored : ∀ fid f, db.findings.get? fid = some f → ∀ e ∈ newTransitions db db' fid,
    e.fromState = some f.state.value
  kept : ∀ fid, db.findingState fid ≠ read.findingState fid → db'.findingState fid = db.findingState fid

section Lost

variable {env : Env} {read db db' : Db} {wid : Nat} {members : List (Nat × Finding)}

theorem findingState_of_history {fid : Nat} (h : db'.history fid = db.history fid) :
    db'.findingState fid = db.findingState fid := congrArg (Option.map Finding.state) (row_of_history h)

theorem NothingLost.of_history (h : ∀ fid, db'.history fid = db.history fid) : NothingLost read db db' := by
  refine ⟨fun fid f hf e hnew => ?_, fun fid _ => findingState_of_history (h fid)⟩
  have hbefore : db.history fid = some (f, db.transitions fid) := history_eq_some.mpr ⟨hf, rfl⟩
  have hafter : db'.transitions fid = db.transitions fid := (history_eq_some.mp ((h fid).trans hbefore)).2
  rw [newTransitions, hafter, List.drop_length] at hnew
  exact absurd hnew List.not_mem_nil

/-- A member that was not grouped when it was read is left alone. -/
theorem started_ungrouped {reason : String} {m : Nat × Finding} (hm : m.2.state ≠ .grouped) (h : History) :
    started env reason m h = h := by
  unfold started recalled
  have hnone : nextFindingState m.2.state .remediationStarted = none := by
    revert hm
    cases m.2.state <;> decide
  rw [hnone]

/-- A session that is created for the members as they were read. -/
theorem createSession_nothingLost (hnd : (members.map Prod.fst).Nodup)
    (hread : ∀ m ∈ members, read.findings.get? m.1 = some m.2)
    (hrows : ∀ m ∈ members, ∃ f, db.findings.get? m.1 = some f)
    (snap : SessionSnapshot) (commented : Except String Unit) :
    NothingLost read db (createSession env { db := db } wid members (.ok snap) commented).db ↔
      ∀ m ∈ members, m.2.state = .grouped → db.findingState m.1 = some .grouped := by
  set db' := (createSession env { db := db } wid members (.ok snap) commented).db with hdb'
  have hhist (fid : Nat) := @createSession_history env { db := db } wid members hnd snap commented fid
  have hmember {m : Nat × Finding} (hm : m ∈ members) (hstate : m.2.state = .grouped) {f : Finding}
      (hf : db.findings.get? m.1 = some f) : ∃ e, db'.transitions m.1 = db.transitions m.1 ++ [e] ∧
        e.fromState = some FindingState.grouped.value := by
    have hbefore : db.history m.1 = some (f, db.transitions m.1) := history_eq_some.mpr ⟨hf, rfl⟩
    have hafter : db'.history m.1 = some (started env snap.sessionId m (f, db.transitions m.1)) :=
      ((hhist m.1).1 m hm rfl).trans (congrArg _ hbefore)
    have hnext : nextFindingState FindingState.grouped .remediationStarted = some .inRemediation := rfl
    have hlog := (history_eq_some.mp hafter).2
    simp only [started, recalled, hstate, hnext] at hlog
    exact ⟨_, hlog, rfl⟩
  constructor
  · intro hlost m hm hstate
    obtain ⟨f, hf⟩ := hrows m hm
    obtain ⟨e, hlog, hfrom⟩ := hmember hm hstate hf
    have hnew : e ∈ newTransitions db db' m.1 := by
      rw [newTransitions, hlog, List.drop_left]
      exact List.mem_singleton_self e
    have hvalue : FindingState.grouped.value = f.state.value :=
      Option.some.inj (hfrom.symm.trans (hlost.from_stored m.1 f hf e hnew))
    rw [Db.findingState, hf, Option.map_some, ← value_findingState_inj hvalue]
  · intro hgrouped
    have hsame {fid : Nat} (hno : ∀ m ∈ members, fid = m.1 → m.2.state ≠ .grouped) :
        db'.history fid = db.history fid := by
      by_cases hfid : ∃ m ∈ members, fid = m.1
      · obtain ⟨m, hm, rfl⟩ := hfid
        refine ((hhist m.1).1 m hm rfl).trans ?_
        rw [funext (started_ungrouped (hno m hm rfl)), Option.map_id']
      · exact (hhist fid).2 fun m hm h => hfid ⟨m, hm, h⟩
    refine ⟨fun fid f hf e hnew => ?_, fun fid hwritten => ?_⟩
    · by_cases hfid : ∃ m ∈ members, fid = m.1 ∧ m.2.state = .grouped
      · obtain ⟨m, hm, rfl, hstate⟩ := hfid
        obtain ⟨e', hlog, hfrom⟩ := hmember hm hstate hf
        rw [newTransitions, hlog, List.drop_left] at hnew
        obtain rfl := List.mem_singleton.mp hnew
        have hstored : some f.state = some .grouped := by
          rw [← hgrouped m hm hstate, Db.findingState, hf, Option.map_some]
        rw [hfrom, Option.some.inj hstored]
      · have hquiet := hsame fun m hm h hstate => hfid ⟨m, hm, h, hstate⟩
        have hbefore : db.history fid = some (f, db.transitions fid) := history_eq_some.mpr ⟨hf, rfl⟩
        have hafter : db'.transitions fid = db.transitions fid := (history_eq_some.mp (hquiet.trans hbefore)).2
        rw [newTransitions, hafter, List.drop_length] at hnew
        exact absurd hnew List.not_mem_nil
    · refine findingState_of_history (hsame ?_)
      rintro m hm rfl hstate
      refine hwritten ((hgrouped m hm hstate).trans ?_)
      rw [Db.findingState, hread m hm, Option.map_some, hstate]

end Lost

section Dispatch

variable {c : Controller} {s : Sys} {wid : Nat}

/-- The search for a tagged session writes no finding, and a dispatch that goes on has read the findings of its item. -/
theorem adopt_loads {now : DateTime} {remote : Except String (List SessionSnapshot)}
    (hflight : s.flight = some (.adopting wid false)) :
    (∀ fid, (exec c s (.adopt now remote)).db.history fid = s.db.history fid) ∧
      ∀ members, (exec c s (.adopt now remote)).flight = some (.creating wid members) →
        (exec c s (.adopt now remote)).db = s.db ∧ members = s.db.loaded wid := by
  have hexec : exec c s (.adopt now remote) =
      { s with db := (adoptTagged (c.env now) { db := s.db } wid false remote).1.db
               flight := (adoptTagged (c.env now) { db := s.db } wid false remote).2 } := by
    dsimp only [exec, stepAdopt]
    rw [hflight]
  rw [hexec]
  refine ⟨fun fid => ?_, fun members hmembers => ?_⟩
  · exact (adoptTagged_does (c.env now) { db := s.db } wid false remote).history
      (S := .item wid fun _ => False) not_false
  · unfold adoptTagged at hmembers ⊢
    dsimp only at hmembers ⊢
    split at hmembers
    · cases hmembers
    · split at hmembers
      · cases hmembers
      · rename_i hnone
        cases hmembers
        simp only [Bool.false_eq_true, if_false]
        exact ⟨trivial, rfl⟩

/-- **A dispatch loses no update exactly when no scan that is ingested while Devin creates the session reclassifies a
finding that was grouped when the dispatch read it** (or no session is created). -/
theorem dispatch_loses_nothing_iff (hr : Reachable c s) (hflight : s.flight = some (.adopting wid false))
    (now : DateTime) (remote : Except String (List SessionSnapshot)) :
    (∀ fid, (exec c s (.adopt now remote)).db.history fid = s.db.history fid) ∧
    ∀ members, (exec c s (.adopt now remote)).flight = some (.creating wid members) →
      ∀ tr : List Action, (∀ a ∈ tr, a.ends = false) → ∀ later answer commented,
        (NothingLost s.db (Machine.run (exec c) (exec c s (.adopt now remote)) tr).db
            (exec c (Machine.run (exec c) (exec c s (.adopt now remote)) tr) (.create later answer commented)).db ↔
          (∃ exc, answer = .error exc) ∨
            Machine.AllSteps (exec c) (Spares c members) (exec c s (.adopt now remote)) tr) := by
  obtain ⟨hsearch, hload⟩ := @adopt_loads c s wid now remote hflight
  refine ⟨hsearch, fun members hmembers tr htr later answer commented => ?_⟩
  obtain ⟨hdb, rfl⟩ := hload members hmembers
  have hstart : Waits wid (s.db.loaded wid) (exec c s (.adopt now remote)) := by
    refine ⟨hmembers, keysUnique_reachable (hr.step _), fun m hm => ⟨m.2, ?_⟩⟩
    rw [hdb]
    exact Db.mem_loaded hm
  have hgrouped : StillGrouped (s.db.loaded wid) (exec c s (.adopt now remote)) := by
    intro m hm hstate
    rw [hdb, Db.findingState, Db.mem_loaded hm, Option.map_some, hstate]
  have hend : StillGrouped (s.db.loaded wid) (Machine.run (exec c) (exec c s (.adopt now remote)) tr) ↔
      StillGrouped (s.db.loaded wid) (exec c s (.adopt now remote)) ∧
        Machine.AllSteps (exec c) (Spares c (s.db.loaded wid)) (exec c s (.adopt now remote)) tr := by
    refine Machine.AllSteps.run_iff (J := Waits wid (s.db.loaded wid)) ?_ ?_ htr hstart
    · exact fun _ _ ha h => h.step ha
    · exact fun _ _ ha h => stillGrouped_step ha h
  have hwaits : Waits wid (s.db.loaded wid) (Machine.run (exec c) (exec c s (.adopt now remote)) tr) := by
    refine Machine.run_invariant_of (Waits wid (s.db.loaded wid)) ?_ hstart htr
    exact fun _ _ ha h => h.step ha
  generalize Machine.run (exec c) (exec c s (.adopt now remote)) tr = s' at hend hwaits ⊢
  have hcreate : (exec c s' (.create later answer commented)).db =
      (createSession (c.env later) { db := s'.db } wid (s.db.loaded wid) answer commented).db := by
    dsimp only [exec, stepCreate]
    rw [hwaits.flight]
    rfl
  rw [hcreate]
  cases answer with
  | error exc =>
    refine iff_of_true (NothingLost.of_history fun fid => ?_) (Or.inl ⟨exc, rfl⟩)
    exact (dispatchFailed_does (c.env later) { db := s'.db } wid _).history (S := .item wid fun _ => False) not_false
  | ok snap =>
    rw [createSession_nothingLost (s.db.nodup_loaded wid) (fun _ hm => Db.mem_loaded hm) hwaits.rows]
    refine hend.trans ((and_iff_right hgrouped).trans (Iff.symm (or_iff_right ?_)))
    rintro ⟨exc, hexc⟩
    cases hexc

end Dispatch

/-- The first work item is reserved. -/
def reservedState : Sys := sampleState ([sampleIngest "1" 10 (samplePair "CVE-1" "openssl" "1")] ++ sampleReserve 11)

/-- Devin has no session of it. -/
def searchedState : Sys := exec sampleController reservedState (.adopt 12 (.ok []))

/-- A scan reports the package again, now without a fix. -/
def unfixedIngest : Action :=
  sampleIngest "2" 13 ((samplePair "CVE-1" "openssl" "1").map fun v => { v with fixedVersions := [] })

theorem searchedState_flight : searchedState.flight = some (.creating 1 (reservedState.db.loaded 1)) := by
  decide +kernel

theorem reservedState_flight : reservedState.flight = some (.adopting 1 false) := by decide +kernel

/-- The finding becomes unclassified while Devin creates the session; then the transition of the row that was read
overwrites it. -/
theorem reclassification_lost :
    let s := exec sampleController searchedState unfixedIngest
    let s' := exec sampleController s (.create 14 (.ok sampleSession) (.ok ()))
    Reachable sampleController reservedState ∧ reservedState.flight = some (.adopting 1 false) ∧
      searchedState.flight = some (.creating 1 (reservedState.db.loaded 1)) ∧
      s.db.findingState 1 = some .unclassified ∧ s'.db.findingState 1 = some .inRemediation ∧
      ¬ NothingLost reservedState.db s.db s'.db := by
  intro s s'
  have hstored : s.db.findingState 1 = some .unclassified := by decide +kernel
  have hafter : s'.db.findingState 1 = some .inRemediation := by decide +kernel
  have hread : reservedState.db.findingState 1 = some .grouped := by decide +kernel
  refine ⟨sampleState_reachable _, reservedState_flight, searchedState_flight, hstored, hafter, fun hlost => ?_⟩
  have hkept := hlost.kept 1 (by rw [hstored, hread]; decide)
  rw [hafter, hstored] at hkept
  cases hkept

/-- A scan that reports the package as before changes nothing. -/
theorem same_report_spared :
    let s := exec sampleController searchedState (sampleIngest "2" 13 (samplePair "CVE-1" "openssl" "1"))
    NothingLost reservedState.db s.db (exec sampleController s (.create 14 (.ok sampleSession) (.ok ()))).db := by
  have hspares : Spares sampleController (reservedState.db.loaded 1) searchedState
      (sampleIngest "2" 13 (samplePair "CVE-1" "openssl" "1")) := by decide +kernel
  have hiff := (dispatch_loses_nothing_iff (c := sampleController) (s := reservedState) (sampleState_reachable _)
    reservedState_flight 12 (.ok [])).2 (reservedState.db.loaded 1) searchedState_flight
    [sampleIngest "2" 13 (samplePair "CVE-1" "openssl" "1")]
    (fun a ha => by obtain rfl := List.mem_singleton.mp ha; rfl) 14 (.ok sampleSession) (.ok ())
  exact hiff.mpr (Or.inr ⟨hspares, trivial⟩)

end HardeningLoop
