import HardeningLoop.Models.Lineage
import HardeningLoop.Orchestrator.Priority

/-!
# The lineage of the work items

A group whose item is closed gets a new item that points back at the closed one, so it points at a row that was there
before. No other step writes a link: in every reachable state the work items are a `Lineage`, and the helpers of
`HardeningLoop.Models.Lineage` describe it (`reachable_lineage`).
-/

namespace HardeningLoop

open Rows (Table)

/-- Every item regressed from an older one, if from any. -/
def RegressedFromOlder (db : Db) : Prop :=
  ∀ wid w p, db.workItems.get? wid = some w → w.regressionOfWorkItemId = some p → p < wid

/-- The rows of the work items, each with its id. -/
def Db.itemRows (db : Db) : List (Option Nat × WorkItem) :=
  db.workItems.ids.filterMap fun wid => (db.workItems.get? wid).map (some wid, ·)

section Steps

variable {c : Controller} {s : Sys} {env : Env} {S : Scope} {db db' : Db}

/-- Items keep their links, when none is inserted. -/
theorem RegressedFromOlder.of_cores (h : RegressedFromOlder db)
    (hcore : ∀ wid w', db'.workItems.get? wid = some w' → ∃ w, db.workItems.get? wid = some w ∧ w'.core = w.core) :
    RegressedFromOlder db' := by
  intro wid w' p hw' hp
  obtain ⟨w, hw, hsame⟩ := hcore wid w' hw'
  simp only [WorkItem.core, Prod.mk.injEq] at hsame
  apply h wid w p hw
  rw [← hsame.2.2.2.2.2.2.2.1, hp]

theorem Acts.cores {tx t : Tx} (h : Acts env S tx t) (hins : ¬ S.inserts) {wid : Nat} {w' : WorkItem}
    (hw' : t.db.workItems.get? wid = some w') : ∃ w, tx.db.workItems.get? wid = some w ∧ w'.core = w.core := by
  obtain ⟨w, hw⟩ := h.item_back hins hw'
  obtain ⟨w'', hw'', hsame⟩ := h.itemCore hw
  cases hw'.symm.trans hw''
  exact ⟨w, hw, hsame⟩

theorem Commits.regressedFromOlder (h : Commits c S db db') (hins : ¬ S.inserts) (hold : RegressedFromOlder db) :
    RegressedFromOlder db' := by
  cases h with
  | units h => exact hold.of_cores fun _ _ => h.cores hins
  | evaluation h rid => exact hold.of_cores fun _ _ => h.cores hins
  | ingested h =>
    refine hold.of_cores fun wid w' hw' => ⟨w', ?_, rfl⟩
    rw [← hw', (ingestRun_ingested h).workItems]

/-- The item of a group that came back points at the closed one. -/
theorem groupFindings_regressedFromOlder {rid : Nat} {kind : Kind} {key : String} {ids : List Nat}
    (hold : RegressedFromOlder db) :
    RegressedFromOlder (groupFindings env rid kind key ids { db := db }).db := by
  intro wid w p hw hp
  rw [groupFindings_workItems] at hw
  split at hw
  · exact hold wid w p hw hp
  · split at hw
    · rw [Table.get?_insert] at hw
      split at hw
      · rename_i key' hkey hwid
        cases hw
        obtain ⟨w₀, hw₀, -⟩ := Table.first_eq_some hp
        have hle := (Table.lt_of_get? hw₀).2
        rw [hwid]
        exact Nat.lt_succ_of_le hle
      · exact hold wid w p hw hp
    · exact hold wid w p hw hp

theorem exec_regressedFromOlder {a : Action} (hold : RegressedFromOlder s.db) : RegressedFromOlder (exec c s a).db := by
  have hother (hins : ¬ a.licence.inserts) : RegressedFromOlder (exec c s a).db :=
    (exec_commits_licensed c s a).regressedFromOlder hins hold
  cases a with
  | group now =>
    rcases exec_group c s now with ⟨rid, kind, key, ids, groups, -, -, hdb⟩ | ⟨hdb, -⟩
    · rw [hdb]
      exact groupFindings_regressedFromOlder hold
    · rw [hdb]
      exact hold
  | _ => exact hother id

theorem regressedFromOlder_reachable (h : Reachable c s) : RegressedFromOlder s.db := by
  refine h.invariant (fun s => RegressedFromOlder s.db) ?_ fun s a hold => exec_regressedFromOlder hold
  intro wid w p hw
  rw [show Sys.initial.db.workItems.get? wid = none from Table.get?_empty wid] at hw
  cases hw

end Steps

theorem mem_itemRows {db : Db} {wid : Nat} {w : WorkItem} :
    (some wid, w) ∈ db.itemRows ↔ db.workItems.get? wid = some w := by
  rw [Db.itemRows, List.mem_filterMap]
  constructor
  · rintro ⟨wid', -, hrow⟩
    obtain ⟨w', hw, hpair⟩ := Option.map_eq_some_iff.mp hrow
    cases hpair
    exact hw
  · intro hw
    exact ⟨wid, Table.mem_ids.mpr (by rw [hw]; rfl), by rw [hw]; rfl⟩

/-- **The lineage of a reachable state.** -/
theorem reachable_lineage {c : Controller} {s : Sys} (h : Reachable c s) : ∃ L : Lineage, L.items = s.db.itemRows := by
  refine ⟨⟨s.db.itemRows, ?_, ?_⟩, rfl⟩
  · rw [Db.itemRows, List.filterMap_filterMap]
    refine List.Nodup.filterMap (fun wid wid' id hid hid' => ?_) List.nodup_range'
    simp only [Option.mem_def, Option.bind_eq_some_iff, Option.map_eq_some_iff] at hid hid'
    obtain ⟨_, ⟨_, -, rfl⟩, hid⟩ := hid
    obtain ⟨_, ⟨_, -, rfl⟩, hid'⟩ := hid'
    exact Option.some.inj (hid.trans hid'.symm)
  · intro id w p hw hp
    exact regressedFromOlder_reachable h id w p (mem_itemRows.mp hw) hp

end HardeningLoop
