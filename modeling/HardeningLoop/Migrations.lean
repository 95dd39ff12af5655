import HardeningLoop.Lib.Dict
import HardeningLoop.Lib.Machine
import HardeningLoop.Lib.Restart
import HardeningLoop.Lib.Schemas
import Mathlib.Tactic.IntervalCases

/-!
# Opening the database

Every process that opens the database brings its schema up to date first: `init_db` makes the pending migrations, each
in a transaction of its own that records its version, creates the tables that are missing, and checks the version
recorded last. A process may die between any two transactions, and several may open the file at once.

- `Consistent`: the columns are those of the highest version recorded;
- `opening_consistent`: that is kept, however the openings of any number of processes interleave, and the schema is
  whole for every process that comes to its end;
- `opens_after_deaths`: after any number of openings that died, one at a time, the next one comes to an end at the
  current version, with the whole schema.
-/

namespace HardeningLoop

open Columns

/-! ## The file -/

def currentSchema : Nat := 6

/-- A statement of a migration. -/
inductive Statement where
  | alter (change : Change String String)
  /-- `UPDATE events SET event = new WHERE event = old`. -/
  | renameEvents (old new : String)

/-- What the openings read and write: the columns of the tables, the names of the events, and the rows of
`schema_version`, oldest first, if there is such a table. -/
structure DbFile where
  columns : List (String × String)
  events : List String := []
  versions : Option (List Nat)

namespace DbFile

def tables (f : DbFile) : List String := f.columns.map Prod.fst

def execute (f : DbFile) : Statement → Option DbFile
  | .alter c => (c.apply f.columns).map fun columns => { f with columns := columns }
  | .renameEvents old new =>
    if "events" ∈ f.tables then some { f with events := f.events.map fun e => if e = old then new else e } else none

/-- `INSERT INTO schema_version`. -/
def record (f : DbFile) (version : Nat) : Option DbFile :=
  f.versions.map fun versions => { f with versions := some (versions ++ [version]) }

/-- `_current_version`: the version recorded last. -/
def current (f : DbFile) : Option Nat := f.versions.bind List.getLast?

end DbFile

/-- `_MIGRATIONS`. -/
def migrations : List (Nat × List Statement) :=
  [ (3, [ .alter (.rename "work_items" "verification_level" "lifecycle_level"),
          .alter (.add "work_items" "verification_depth"),
          .alter (.rename "pull_requests" "verification_level" "lifecycle_level"),
          .alter (.add "pull_requests" "verification_depth"),
          .alter (.add "pull_requests" "depth_rungs"),
          .alter (.add "pull_requests" "review_id"),
          .alter (.add "pull_requests" "review_head_sha"),
          .renameEvents "verification_level" "lifecycle_level"]),
    (4, [.alter (.add "scan_runs" "workflow")]),
    (5, []),
    (6, [.alter (.add "scan_runs" "closure_applied_at")])]

/-- The transaction of one version in `migrate`; it fails as a whole. -/
def DbFile.migrate (f : DbFile) (version : Nat) : Option DbFile :=
  (Dict.get? migrations version).bind fun statements => (statements.foldlM DbFile.execute f).bind (·.record version)

/-- The tables of the models, with their columns, but `schema_version`. -/
def metadata : List (String × List String) :=
  [ ("scan_runs", ["id", "external_run_id", "run_attempt", "trigger", "source_repo", "source_branch", "source_sha",
      "platform", "lean_digest", "ci_digest", "ci_layer_delta", "tools", "scan_gate_mode", "vex_documents", "status",
      "started_at", "finished_at", "ingested_at", "is_baseline", "workflow", "closure_applied_at"]),
    ("scan_intakes", ["id", "external_run_id", "source_repo", "workflow_run_id", "run_attempt", "head_branch",
      "head_sha", "conclusion", "url", "artifact_id", "artifact_name", "artifact_digest",
      "bundle_sha256", "bundle_path",
      "status", "reasons", "scan_run_id", "observed_at"]),
    ("scan_jobs", ["id", "scan_run_id", "name", "scanner", "mode", "image_target", "layer_scope", "success",
      "tool_version", "db_built_at", "started_at", "finished_at", "artifact_path", "artifact_sha256", "counts"]),
    ("evidence", ["id", "scan_run_id", "kind", "path", "sha256", "url", "created_at"]),
    ("findings",
      ["id", "dedupe_key", "vuln_id", "purl", "pkg_name", "pkg_version", "ecosystem", "layer", "image_target",
      "platform", "resource", "title", "severity", "severity_by_scanner", "severity_disagreement",
      "fix_versions_by_scanner", "reported_by_trivy", "reported_by_grype", "opened_by_trivy", "opened_by_grype", "kind",
      "risk", "bound_blocked", "classification_trace", "unclassified_reason", "state", "first_seen_run_id",
      "last_seen_run_id", "opening_db_built_at", "work_item_id", "closed_by_run_id", "created_at", "updated_at"]),
    ("sightings", ["id", "finding_id", "scan_run_id", "scanner", "mode", "present", "severity", "fixed_versions",
      "record"]),
    ("work_items", ["id", "kind", "group_key", "title", "source_branch", "severity", "risk", "state", "acu_cap",
      "retries_used", "budget_warning_sent", "active_session_id", "issue_number", "issue_url", "pr_number", "pr_url",
      "pr_head_sha", "merge_sha", "lifecycle_level", "verification_depth", "blocked_reason", "human_resolution",
      "dispatch_failures", "regression_of_work_item_id", "created_at", "updated_at", "issue_opened_at", "pr_opened_at",
      "merged_at", "verified_at"]),
    ("sessions", ["id", "devin_id", "work_item_id", "url", "playbook_id", "max_acu_limit", "status", "status_detail",
      "acus_consumed", "structured_output", "pull_requests", "messages_sent", "created_at", "last_polled_at",
      "finished_at"]),
    ("session_polls",
      ["id", "session_id", "polled_at", "status", "status_detail", "acus_consumed", "decision", "reason"]),
    ("pull_requests", ["id", "work_item_id", "repo", "number", "url", "base_branch", "head_branch", "head_sha", "state",
      "merge_sha", "first_head_sha", "first_head_checks_green", "diff_policy_ok", "diff_policy_violations",
      "lifecycle_level", "verification_depth", "depth_rungs", "review_status", "review_id", "review_head_sha",
      "review_comment_count", "approved_by", "opened_at", "merged_at", "updated_at"]),
    ("pr_checks", ["id", "pull_request_id", "head_sha", "name", "status", "conclusion", "url", "observed_at"]),
    ("verification_checks", ["id", "pull_request_id", "head_sha", "depth", "name", "source", "status", "detail", "url",
      "observed_at"]),
    ("events", ["id", "ts", "actor", "entity_type", "entity_id", "event", "from_state", "to_state", "reason",
      "evidence_ids"]),
    ("negative_runs",
      ["id", "case", "external_run_id", "branch", "pr_url", "expected", "observed", "passed", "ran_at"]),
    ("run_reports",
      ["id", "generated_at", "baseline_run_id", "latest_run_id", "upstream_master_sha", "body", "markdown"]),
    ("fixtures_meta", ["id", "baseline_sha", "captured_at", "manifest", "sha256sums_verified"]),
    ("metrics_snapshots", ["id", "taken_at", "trigger", "latest_main_run_id", "open_high_critical", "needs_human",
      "active_sessions", "verified_prs", "acus_total", "cost_usd_total", "body"]),
    ("devin_assets", ["id", "asset_kind", "slug", "remote_id", "title", "content_sha256", "last_action", "synced_at"])]

/-- `create_all`: every table that is missing. -/
def DbFile.createAll (f : DbFile) : DbFile :=
  { f with
    columns := f.columns ++ (metadata.filter fun t => t.1 ∉ f.tables).flatMap fun t => t.2.map (t.1, ·)
    versions := some (f.versions.getD []) }

/-! ## Openings -/

/-- Where a process is in `init_db`. -/
inductive OpenStage where
  /-- Before `_has_schema_table`. -/
  | starting
  | reading
  /-- In `migrate`, before it reads the version. -/
  | rereading
  | migrating (version : Nat)
  | creating
  /-- In `_check_schema_version`. -/
  | checking
  | recording
  | opened
  | failed
  deriving DecidableEq

/-- The next transaction of `init_db`. -/
def DbFile.initDb (f : DbFile) : OpenStage → DbFile × OpenStage
  | .starting => (f, if f.versions.isSome then .reading else .creating)
  | .reading => (f, if f.current.any (· < currentSchema) then .rereading else .creating)
  | .rereading =>
    match f.current with
    | none => (f, .creating)
    | some version => (f, if version > currentSchema then .failed else .migrating (version + 1))
  | .migrating version =>
    if version > currentSchema then (f, .creating)
    else match f.migrate version with
      | some f' => (f', .migrating (version + 1))
      | none => (f, .failed)
  | .creating => (f.createAll, .checking)
  | .checking =>
    match f.current with
    | none => (f, .recording)
    | some version => (f, if version = currentSchema then .opened else .failed)
  | .recording =>
    match f.record currentSchema with
    | some f' => (f', .opened)
    | none => (f, .failed)
  | .opened => (f, .opened)
  | .failed => (f, .failed)

/-- The file and the processes that open it. -/
structure Openings where
  file : DbFile
  processes : Nat → OpenStage := fun _ => .starting

inductive OpenAction where
  | step (process : Nat)
  | die (process : Nat)

def Openings.exec (s : Openings) : OpenAction → Openings
  | .step p =>
    let (file, opening) := s.file.initDb (s.processes p)
    { file := file, processes := Function.update s.processes p opening }
  | .die p => { s with processes := Function.update s.processes p .failed }

/-! ## The plan -/

def Statement.change? : Statement → Option (Change String String)
  | .alter c => some c
  | .renameEvents _ _ => none

/-- The changes a version makes to the columns. -/
def versionChanges (version : Nat) : List (Change String String) :=
  ((Dict.get? migrations version).getD []).filterMap Statement.change?

/-- The changes of the versions up to one, and of those after it. -/
def changesTo (version : Nat) : List (Change String String) :=
  ([3, 4, 5, 6].filter (· ≤ version)).flatMap versionChanges

def changesAfter (version : Nat) : List (Change String String) :=
  ([3, 4, 5, 6].filter (version < ·)).flatMap versionChanges

/-- The columns of the models. -/
def modelColumns : List (String × String) := metadata.flatMap fun t => t.2.map (t.1, ·)

/-- The columns and tables of a version: its changes are made, and the tables that are there lack no other column. -/
structure AtVersion (version : Nat) (f : DbFile) : Prop where
  between : Between (changesTo version) (changesAfter version) f.columns
  covers : Covers modelColumns (changesAfter version) f.columns
  events : "events" ∈ f.tables

/-- The schema of the models, with a row of the current version. -/
structure Whole (f : DbFile) : Prop where
  columns : modelColumns ⊆ f.columns
  recorded : ∃ rows, f.versions = some rows ∧ currentSchema ∈ rows

theorem distinct_changes : Distinct (changesTo 6) := ⟨by decide, by decide, by decide⟩

/-- No column of the models is ever renamed away. -/
theorem modelColumns_kept : ∀ c ∈ changesTo 6, ∀ x ∈ modelColumns, c.loses ≠ some x := by decide +kernel

/-- The models have the columns of the current version. -/
theorem atVersion_metadata (events : List String) (versions : Option (List Nat)) :
    AtVersion 6 { columns := modelColumns, events := events, versions := versions } := by
  refine ⟨⟨?_, ?_, ?_, ?_⟩, ?_, ?_⟩
  · show ∀ c ∈ changesTo 6, c.gains ∈ modelColumns
    decide +kernel
  · exact fun c hc x hx hmem => modelColumns_kept c hc x hmem hx
  · exact fun c hc => absurd hc List.not_mem_nil
  · exact fun c hc => absurd hc List.not_mem_nil
  · exact fun x hx _ => .inl hx
  · show "events" ∈ modelColumns.map Prod.fst
    decide +kernel

/-- The schema of the current version is whole when no table is missing. -/
theorem AtVersion.whole {f : DbFile} (h : AtVersion 6 f) (ht : ∀ t ∈ metadata, t.1 ∈ f.tables) {rows : List Nat}
    (hrows : f.versions = some rows) (hsix : 6 ∈ rows) : Whole f := by
  refine ⟨h.covers.all fun x hx => ?_, rows, hrows, hsix⟩
  obtain ⟨t, hmem, hc⟩ := List.mem_flatMap.mp hx
  obtain ⟨c, -, rfl⟩ := List.mem_map.mp hc
  exact ht t hmem

/-- A database of the second version, from before `devin_assets` and `metrics_snapshots`. -/
def secondVersion : DbFile where
  columns := (modelColumns.filter fun x => x.1 ∉ ["devin_assets", "metrics_snapshots"]).filter
      (· ∉ (changesTo 6).map Change.gains) ++ (changesTo 6).filterMap Change.loses
  events := ["verification_level", "merged"]
  versions := some [2]

theorem atVersion_second : AtVersion 2 secondVersion := by
  refine ⟨⟨fun c hc => absurd hc List.not_mem_nil, fun c hc => absurd hc List.not_mem_nil, ?_, ?_⟩, ?_, ?_⟩
  · show ∀ c ∈ changesAfter 2, c.gains ∉ secondVersion.columns
    decide +kernel
  · show ∀ c ∈ changesAfter 2, c.Applies secondVersion.columns
    decide +kernel
  · show ∀ x ∈ modelColumns, x.1 ∈ secondVersion.columns.map Prod.fst →
      x ∈ secondVersion.columns ∨ x ∈ (changesAfter 2).map Change.gains
    decide +kernel
  · show "events" ∈ secondVersion.tables
    decide +kernel

section Migrations

variable {f f' : DbFile} {version m : Nat} {statements : List Statement}

/-- The statements of a transaction change the columns as their changes do. -/
theorem foldlM_execute (h : statements.foldlM DbFile.execute f = some f') :
    applyAll f.columns (statements.filterMap Statement.change?) = some f'.columns ∧ f'.versions = f.versions := by
  induction statements generalizing f with
  | nil =>
    obtain rfl := Option.some.inj h
    exact ⟨rfl, rfl⟩
  | cons st statements ih =>
    rw [List.foldlM_cons] at h
    obtain ⟨f₁, h₁, hrest⟩ := Option.bind_eq_some_iff.mp h
    obtain ⟨hcolumns, hversions⟩ := ih hrest
    cases st with
    | alter c =>
      obtain ⟨columns, hc, rfl⟩ := Option.map_eq_some_iff.mp h₁
      refine ⟨?_, hversions⟩
      rw [List.filterMap_cons_some (show (Statement.alter c).change? = some c from rfl), applyAll, List.foldlM_cons, hc]
      exact hcolumns
    | renameEvents old new =>
      simp only [DbFile.execute] at h₁
      split at h₁
      · obtain rfl := Option.some.inj h₁
        exact ⟨hcolumns, hversions⟩
      · cases h₁

/-- They go through if the changes do. -/
theorem foldlM_execute_isSome {columns : List (String × String)} (he : "events" ∈ f.tables)
    (h : applyAll f.columns (statements.filterMap Statement.change?) = some columns) :
    ∃ f', statements.foldlM DbFile.execute f = some f' ∧ "events" ∈ f'.tables := by
  induction statements generalizing f with
  | nil => exact ⟨f, rfl, he⟩
  | cons st statements ih =>
    cases st with
    | alter c =>
      rw [List.filterMap_cons_some (show (Statement.alter c).change? = some c from rfl), applyAll,
        List.foldlM_cons] at h
      obtain ⟨columns₁, hc, hrest⟩ := Option.bind_eq_some_iff.mp h
      have he₁ : "events" ∈ ({ f with columns := columns₁ } : DbFile).tables := by
        unfold Change.apply at hc
        split at hc
        · obtain rfl := Option.some.inj hc
          exact Change.table_mem_columns he
        · cases hc
      obtain ⟨f', hf', he'⟩ := ih (f := { f with columns := columns₁ }) he₁ hrest
      refine ⟨f', ?_, he'⟩
      rw [List.foldlM_cons, DbFile.execute, hc]
      exact hf'
    | renameEvents old new =>
      obtain ⟨f', hf', he'⟩ := ih (f := { f with events := f.events.map fun e => if e = old then new else e }) he h
      refine ⟨f', ?_, he'⟩
      rw [List.foldlM_cons, DbFile.execute, if_pos he]
      exact hf'

theorem changesTo_append (h : 2 ≤ m) (hm : m ≤ 6) : changesTo m ++ changesAfter m = changesTo 6 := by
  interval_cases m <;> rfl

/-- A version's own changes are the next ones. -/
theorem changes_next (h : 2 ≤ m) (hm : m < 6) : changesAfter m = versionChanges (m + 1) ++ changesAfter (m + 1) ∧
    changesTo (m + 1) = changesTo m ++ versionChanges (m + 1) ∧
        ∃ statements, Dict.get? migrations (m + 1) = some statements := by
  interval_cases m <;> exact ⟨rfl, rfl, _, rfl⟩

theorem versionChanges_subset {n : Nat} (hn : 3 ≤ n) (hnm : n ≤ m) (hm : m ≤ 6) : versionChanges n ⊆ changesTo m := by
  intro c hc
  refine List.mem_flatMap.mpr ⟨n, List.mem_filter.mpr ⟨?_, decide_eq_true hnm⟩, hc⟩
  have hle : n ≤ 6 := hnm.trans hm
  interval_cases n <;> decide

/-- A transaction that goes through: the changes of its version, and its row. -/
theorem migrate_eq_some (h : f.migrate version = some f') :
    ∃ statements, Dict.get? migrations version = some statements ∧
    applyAll f.columns (statements.filterMap Statement.change?) = some f'.columns ∧
    ∃ rows, f.versions = some rows ∧ f'.versions = some (rows ++ [version]) := by
  obtain ⟨statements, hs, hrest⟩ := Option.bind_eq_some_iff.mp h
  obtain ⟨f₁, h₁, hrecord⟩ := Option.bind_eq_some_iff.mp hrest
  obtain ⟨hcolumns, hversions⟩ := foldlM_execute h₁
  obtain ⟨rows, hrows, rfl⟩ := Option.map_eq_some_iff.mp hrecord
  exact ⟨statements, hs, hcolumns, rows, hversions ▸ hrows, rfl⟩

/-- **The next version goes through.** -/
theorem migrate_next {rows : List Nat} (h2 : 2 ≤ m) (hm : m < 6) (h : AtVersion m f) (hrows : f.versions = some rows) :
    ∃ f', f.migrate (m + 1) = some f' ∧ AtVersion (m + 1) f' ∧ f'.versions = some (rows ++ [m + 1]) := by
  obtain ⟨hafter, hto, statements, hget⟩ := changes_next h2 hm
  have hchanges : versionChanges (m + 1) = statements.filterMap Statement.change? := by rw [versionChanges, hget]; rfl
  have hd := distinct_changes
  rw [← changesTo_append h2 hm.le, hafter] at hd
  obtain ⟨columns, happly, hbetween⟩ := Between.applyAll hd (hafter ▸ h.between)
  have hcovers : Covers modelColumns (changesAfter (m + 1)) columns := by
    refine Covers.applyAll (hafter ▸ h.covers) happly fun c hc => modelColumns_kept c ?_
    exact versionChanges_subset (by omega) hm le_rfl hc
  rw [hchanges] at happly
  obtain ⟨f₁, h₁, he₁⟩ := foldlM_execute_isSome h.events happly
  obtain ⟨hcolumns, hversions⟩ := foldlM_execute h₁
  obtain rfl := Option.some.inj (happly.symm.trans hcolumns)
  refine ⟨{ f₁ with versions := some (rows ++ [m + 1]) }, ?_, ⟨hto ▸ hbetween, hcovers, he₁⟩, rfl⟩
  rw [DbFile.migrate, hget, Option.bind_some, h₁, Option.bind_some, DbFile.record, hversions, hrows, Option.map_some]

/-- **A version that was made does not go through again**, unless it changes no column. -/
theorem migrate_again {n : Nat} (hn : 3 ≤ n) (hnm : n ≤ m) (hm : m ≤ 6) (h : AtVersion m f)
    (hf : f.migrate n = some f') :
    AtVersion m f' := by
  obtain ⟨statements, hget, happly, -⟩ := migrate_eq_some hf
  have hchanges : versionChanges n = statements.filterMap Statement.change? := by rw [versionChanges, hget]; rfl
  rw [← hchanges] at happly
  have hsame : f'.columns = f.columns := by
    cases hcs : versionChanges n with
    | nil =>
      rw [hcs] at happly
      exact (Option.some.inj happly).symm
    | cons c cs =>
      have hmade : c ∈ changesTo m := versionChanges_subset hn hnm hm (hcs ▸ List.mem_cons_self)
      rw [hcs, h.between.refuses hmade] at happly
      cases happly
  exact ⟨hsame ▸ h.between, hsame ▸ h.covers, by rw [DbFile.tables, hsame]; exact h.events⟩

end Migrations

/-! ## Any number of openings -/

/-- The file is empty, or its columns are those of the highest version recorded; one that was just created has no row
yet. -/
inductive Consistent (f : DbFile) : Prop
  | empty (columns : f.columns = []) (versions : f.versions = none)
  | built (m : Nat) (rows : List Nat) (columns : AtVersion m f) (versions : f.versions = some rows)
      (known : ∀ v ∈ rows, 2 ≤ v ∧ v ≤ m) (current : m ≤ 6) (highest : m ∈ rows ∨ rows = [] ∧ m = 6)

/-- There is no table for `create_all` to create. -/
structure Complete (f : DbFile) : Prop where
  tables : ∀ t ∈ metadata, t.1 ∈ f.tables
  rows : f.versions.isSome = true

/-- What a process knows of the file: it migrates no further than the next version, records a version only of a new
database, comes to an end at the current one, and misses no table once it has created them. -/
def OpenStage.Fits (f : DbFile) (o : OpenStage) : Prop :=
  match o with
  | .migrating n => ∃ rows, f.versions = some rows ∧ 3 ≤ n ∧ ∃ v ∈ rows, n ≤ v + 1
  | .checking => Complete f
  | .recording => Complete f ∧ ∃ rows, f.versions = some rows ∧ (rows = [] ∨ 6 ∈ rows)
  | .opened => Complete f ∧ ∃ rows, f.versions = some rows ∧ 6 ∈ rows
  | _ => True

/-- Tables and rows are only added; the first row of a new database is the current version. -/
structure FileGrows (f f' : DbFile) : Prop where
  tables : f.tables ⊆ f'.tables
  rows : ∀ rows, f.versions = some rows → ∃ new, f'.versions = some (rows ++ new) ∧ (rows = [] → new = [] ∨ 6 ∈ new)

section Openings

variable {f f' : DbFile} {o : OpenStage}

theorem FileGrows.refl (f : DbFile) : FileGrows f f :=
  ⟨fun _ h => h, fun rows h => ⟨[], by rw [h, List.append_nil], fun _ => .inl rfl⟩⟩

theorem Complete.grow (h : FileGrows f f') (hf : Complete f) : Complete f' := by
  obtain ⟨rows, hrows⟩ := Option.isSome_iff_exists.mp hf.rows
  obtain ⟨new, hnew, -⟩ := h.rows rows hrows
  exact ⟨fun t ht => h.tables (hf.tables t ht), Option.isSome_iff_exists.mpr ⟨_, hnew⟩⟩

theorem OpenStage.Fits.grow (h : FileGrows f f') (ho : o.Fits f) : o.Fits f' := by
  cases o with
  | migrating n =>
    obtain ⟨rows, hrows, hn, v, hv, hnv⟩ := ho
    obtain ⟨new, hnew, -⟩ := h.rows rows hrows
    exact ⟨_, hnew, hn, v, List.mem_append_left _ hv, hnv⟩
  | checking => exact Complete.grow h ho
  | recording =>
    obtain ⟨hcomplete, rows, hrows, hsix⟩ := ho
    obtain ⟨new, hnew, hfirst⟩ := h.rows rows hrows
    refine ⟨hcomplete.grow h, _, hnew, ?_⟩
    rcases hsix with rfl | hsix
    · exact (hfirst rfl).imp (fun hn => by rw [hn, List.append_nil]) fun hn => List.mem_append_right _ hn
    · exact .inr (List.mem_append_left _ hsix)
  | opened =>
    obtain ⟨hcomplete, rows, hrows, hsix⟩ := ho
    obtain ⟨new, hnew, -⟩ := h.rows rows hrows
    exact ⟨hcomplete.grow h, _, hnew, List.mem_append_left _ hsix⟩
  | _ => trivial

theorem Consistent.of_versions (h : Consistent f) {rows : List Nat} (hrows : f.versions = some rows) :
    ∃ m, AtVersion m f ∧ (∀ v ∈ rows, 2 ≤ v ∧ v ≤ m) ∧ m ≤ 6 ∧ (m ∈ rows ∨ rows = [] ∧ m = 6) := by
  cases h with
  | empty _ hv => rw [hv] at hrows; cases hrows
  | built m rows' hat hv known hm highest =>
    obtain rfl := Option.some.inj (hv.symm.trans hrows)
    exact ⟨m, hat, known, hm, highest⟩

/-- A database with a row of the current version has its columns. -/
theorem Consistent.current_columns (h : Consistent f) {rows : List Nat} (hrows : f.versions = some rows)
    (hsix : 6 ∈ rows) : AtVersion 6 f := by
  obtain ⟨m, hat, known, hm, -⟩ := h.of_versions hrows
  rwa [Nat.le_antisymm hm (known 6 hsix).2] at hat

theorem known_concat {rows : List Nat} {m k n : Nat} (known : ∀ v ∈ rows, 2 ≤ v ∧ v ≤ m) (hm : m ≤ k)
    (hn : 2 ≤ n ∧ n ≤ k) : ∀ v ∈ rows ++ [n], 2 ≤ v ∧ v ≤ k := by
  rw [List.forall_mem_append, List.forall_mem_singleton]
  exact ⟨fun v hv => ⟨(known v hv).1, (known v hv).2.trans hm⟩, hn⟩

theorem migrating_step {n : Nat} (h : Consistent f) (hn : n ≤ 6) (hfits : (OpenStage.migrating n).Fits f)
    (hf : f.migrate n = some f') :
    Consistent f' ∧ (OpenStage.migrating (n + 1)).Fits f' ∧ FileGrows f f' := by
  obtain ⟨rows, hrows, h3, v, hv, hnv⟩ := hfits
  obtain ⟨statements, -, happly, rows', hrows', hnew⟩ := migrate_eq_some hf
  obtain rfl := Option.some.inj (hrows.symm.trans hrows')
  refine ⟨?_, ⟨_, hnew, by omega, n, List.mem_append_right _ List.mem_cons_self, le_rfl⟩,
    fun t ht => (applyAll_tables happly).mpr ht, fun rows' hr => ⟨[n], ?_, fun hnil => ?_⟩⟩
  · obtain ⟨m, hat, known, hm, highest⟩ := h.of_versions hrows
    have hvm := known v hv
    rcases Nat.lt_or_ge m n with hlt | hge
    · -- the next version
      obtain rfl : n = m + 1 := by omega
      obtain ⟨f₁, hf₁, hat₁, -⟩ := migrate_next (by omega) (by omega) hat hrows
      obtain rfl := Option.some.inj (hf₁.symm.trans hf)
      exact .built (m + 1) _ hat₁ hnew (known_concat known (Nat.le_succ m) ⟨by omega, le_rfl⟩) hn
        (.inl (List.mem_append_right _ List.mem_cons_self))
    · -- a version that another process has made
      refine .built m _ (migrate_again h3 hge hm hat hf) hnew (known_concat known le_rfl ⟨by omega, hge⟩) hm
        (.inl (List.mem_append_left _ ?_))
      rcases highest with hmem | ⟨rfl, -⟩
      · exact hmem
      · cases hv
  · rw [Option.some.inj (hr.symm.trans hrows)]
    exact hnew
  · rw [Option.some.inj (hr.symm.trans hrows)] at hnil
    rw [hnil] at hv
    cases hv

/-- `create_all` leaves the tables that are there. -/
theorem AtVersion.createAll {m : Nat} (h : AtVersion m f) : AtVersion m f.createAll := by
  refine ⟨h.between.extend fun x hx => ?_, h.covers.extend fun x hx htable => ?_, ?_⟩
  · obtain ⟨t, ht, hx⟩ := List.mem_flatMap.mp hx
    obtain ⟨c, -, rfl⟩ := List.mem_map.mp hx
    exact of_decide_eq_true (List.mem_filter.mp ht).2
  · obtain ⟨t, ht, hc⟩ := List.mem_flatMap.mp hx
    obtain ⟨c, -, rfl⟩ := List.mem_map.mp hc
    exact List.mem_flatMap.mpr ⟨t, List.mem_filter.mpr ⟨ht, decide_eq_true htable⟩, hc⟩
  · rw [DbFile.tables, DbFile.createAll, List.map_append]
    exact List.mem_append_left _ h.events

/-- It builds an empty file as the models have it. -/
theorem createAll_empty (hc : f.columns = []) : AtVersion 6 f.createAll := by
  have hall : metadata.filter (fun t => t.1 ∉ f.tables) = metadata := by
    refine List.filter_eq_self.mpr fun t _ => ?_
    rw [DbFile.tables, hc]
    rfl
  rw [DbFile.createAll, hall, hc]
  exact atVersion_metadata _ _

theorem createAll_tables (f : DbFile) : Complete f.createAll := by
  refine ⟨fun t ht => ?_, rfl⟩
  have hcolumns : ∀ t ∈ metadata, t.2 ≠ [] := by decide +kernel
  rw [DbFile.tables, DbFile.createAll, List.map_append]
  by_cases hin : t.1 ∈ f.tables
  · exact List.mem_append_left _ hin
  · obtain ⟨c, hc⟩ := List.exists_mem_of_ne_nil t.2 (hcolumns t ht)
    refine List.mem_append_right _ (List.mem_map.mpr ⟨(t.1, c), ?_, rfl⟩)
    exact List.mem_flatMap.mpr ⟨t, List.mem_filter.mpr ⟨ht, decide_eq_true hin⟩, List.mem_map_of_mem hc⟩

theorem createAll_grows (f : DbFile) : FileGrows f f.createAll := by
  refine ⟨fun t ht => ?_, fun rows hrows => ⟨[], ?_, fun _ => .inl rfl⟩⟩
  · rw [DbFile.tables, DbFile.createAll, List.map_append]
    exact List.mem_append_left _ ht
  · rw [DbFile.createAll, hrows, List.append_nil]
    rfl

theorem createAll_step (h : Consistent f) : Consistent f.createAll := by
  cases h with
  | empty hc hv =>
    exact .built 6 [] (createAll_empty hc) (by rw [DbFile.createAll, hv]; rfl) (fun v hv => by cases hv) le_rfl
      (.inr ⟨rfl, rfl⟩)
  | built m rows hat hv known hm highest =>
    exact .built m rows hat.createAll (by rw [DbFile.createAll, hv]; rfl) known hm highest

/-- The version recorded last is one of the rows. -/
theorem current_eq_some {v : Nat} (h : f.current = some v) : ∃ rows, f.versions = some rows ∧ rows.getLast? = some v ∧
    v ∈ rows := by
  obtain ⟨rows, hrows, hlast⟩ := Option.bind_eq_some_iff.mp h
  exact ⟨rows, hrows, hlast, List.mem_of_getLast? hlast⟩

theorem recording_step (h : Consistent f) (hfits : OpenStage.recording.Fits f) :
    Consistent (f.initDb .recording).1 ∧ (f.initDb .recording).2.Fits (f.initDb .recording).1 ∧
      FileGrows f (f.initDb .recording).1 := by
  obtain ⟨hcomplete, rows, hrows, hsix⟩ := hfits
  have hrecord : f.record currentSchema = some { f with versions := some (rows ++ [6]) } := by
    rw [DbFile.record, hrows]
    rfl
  have hmem : 6 ∈ rows ++ [6] := List.mem_append_right _ List.mem_cons_self
  obtain ⟨m, hat, known, hm, highest⟩ := h.of_versions hrows
  have hm6 : m = 6 := by
    rcases hsix with rfl | hsix
    · exact (highest.resolve_left List.not_mem_nil).2
    · exact Nat.le_antisymm hm (known 6 hsix).2
  subst hm6
  unfold DbFile.initDb
  rw [hrecord]
  refine ⟨?_, ⟨⟨hcomplete.tables, rfl⟩, _, rfl, hmem⟩, fun _ ht => ht,
    fun rows' hr => ⟨[6], ?_, fun _ => .inr List.mem_cons_self⟩⟩
  · exact .built 6 _ ⟨hat.between, hat.covers, hat.events⟩ rfl (known_concat known le_rfl ⟨by decide, le_rfl⟩) le_rfl
      (.inl hmem)
  · rw [Option.some.inj (hr.symm.trans hrows)]

/-- **A transaction of an opening** keeps the columns those of the highest version. -/
theorem initDb_step (h : Consistent f) (ho : o.Fits f) :
    Consistent (f.initDb o).1 ∧ (f.initDb o).2.Fits (f.initDb o).1 ∧ FileGrows f (f.initDb o).1 := by
  cases o with
  | starting =>
    refine ⟨h, ?_, .refl f⟩
    unfold DbFile.initDb
    dsimp only
    split <;> trivial
  | reading =>
    refine ⟨h, ?_, .refl f⟩
    unfold DbFile.initDb
    dsimp only
    split <;> trivial
  | rereading =>
    unfold DbFile.initDb
    cases hcurrent : f.current with
    | none => exact ⟨h, trivial, .refl f⟩
    | some v =>
      refine ⟨h, ?_, .refl f⟩
      obtain ⟨rows, hrows, -, hv⟩ := current_eq_some hcurrent
      dsimp only
      split
      · trivial
      · obtain ⟨m, -, known, -⟩ := h.of_versions hrows
        have := known v hv
        exact ⟨rows, hrows, by omega, v, hv, le_rfl⟩
  | migrating n =>
    unfold DbFile.initDb
    dsimp only
    split
    · exact ⟨h, trivial, .refl f⟩
    · rename_i hn
      have hn6 : n ≤ 6 := not_lt.mp hn
      cases hf : f.migrate n with
      | none => exact ⟨h, trivial, .refl f⟩
      | some f' => exact migrating_step h hn6 ho hf
  | creating => exact ⟨createAll_step h, createAll_tables f, createAll_grows f⟩
  | checking =>
    have hcomplete : Complete f := ho
    obtain ⟨rows, hrows⟩ := Option.isSome_iff_exists.mp hcomplete.rows
    unfold DbFile.initDb
    cases hcurrent : f.current with
    | none =>
      refine ⟨h, ⟨hcomplete, rows, hrows, .inl ?_⟩, .refl f⟩
      rw [DbFile.current, hrows, Option.bind_some, List.getLast?_eq_none_iff] at hcurrent
      exact hcurrent
    | some v =>
      refine ⟨h, ?_, .refl f⟩
      obtain ⟨rows', hrows', -, hv⟩ := current_eq_some hcurrent
      dsimp only
      split
      · rename_i hsix
        exact ⟨hcomplete, rows', hrows', (show v = 6 from hsix) ▸ hv⟩
      · trivial
  | recording => exact recording_step h ho
  | opened => exact ⟨h, ho, .refl f⟩
  | failed => exact ⟨h, trivial, .refl f⟩

end Openings

/-- **However the openings interleave.** Any number of processes open a consistent file, each may die between any two of
its transactions: the columns stay those of the highest version recorded, no version having been made twice, and every
process that comes to an end finds the schema of the current one, whole. -/
theorem opening_consistent {f : DbFile} (h : Consistent f) (trace : List OpenAction) :
    let s := Machine.run Openings.exec { file := f } trace
    Consistent s.file ∧ ∀ p, s.processes p = .opened → AtVersion 6 s.file ∧ Whole s.file := by
  intro s
  have hstart : ∀ p, (({ file := f } : Openings).processes p).Fits f := fun p => trivial
  have hboth : Consistent s.file ∧ ∀ p, (s.processes p).Fits s.file := by
    refine Machine.run_invariant (fun s : Openings => Consistent s.file ∧ ∀ p, (s.processes p).Fits s.file) ?_
      ⟨h, hstart⟩ trace
    rintro s a ⟨hc, hfits⟩
    cases a with
    | step p =>
      obtain ⟨hc', hfits', hgrow⟩ := initDb_step hc (hfits p)
      refine ⟨hc', fun q => ?_⟩
      show (Function.update s.processes p (s.file.initDb (s.processes p)).2 q).Fits (s.file.initDb (s.processes p)).1
      by_cases hq : q = p
      · rw [hq, Function.update_self]
        exact hfits'
      · rw [Function.update_of_ne hq]
        exact (hfits q).grow hgrow
    | die p =>
      refine ⟨hc, fun q => ?_⟩
      show (Function.update s.processes p .failed q).Fits s.file
      by_cases hq : q = p
      · rw [hq, Function.update_self]
        trivial
      · rw [Function.update_of_ne hq]
        exact hfits q
  refine ⟨hboth.1, fun p hp => ?_⟩
  have hopened := hboth.2 p
  rw [hp] at hopened
  obtain ⟨hcomplete, rows, hrows, hsix⟩ := hopened
  have hat := hboth.1.current_columns hrows hsix
  exact ⟨hat, hat.whole hcomplete.tables hrows hsix⟩

theorem opening_consistent_second :
    let s := Machine.run Openings.exec { file := secondVersion }
      [.step 0, .step 0, .step 0, .step 1, .step 0, .step 1, .step 1, .die 0, .step 1, .step 1, .step 1,
       .step 1, .step 1]
    Consistent s.file ∧ ∀ p, s.processes p = .opened → AtVersion 6 s.file ∧ Whole s.file :=
  opening_consistent (.built 2 [2] atVersion_second rfl (by decide) (by decide) (.inl List.mem_cons_self)) _

/-- The version recorded last need not be the highest: the fifth one has no statement that could fail a second time.
Here process 1 records it again after process 0 has gone on to the sixth, and neither it nor any later process opens the
file. -/
example :
    let s := Machine.run Openings.exec { file := secondVersion }
      ([0, 0, 0, 0, 0, 1, 1, 1, 0, 0, 0, 0, 0, 1, 1, 2, 2, 2, 2].map OpenAction.step)
    s.processes 0 = .opened ∧ s.processes 1 = .failed ∧ s.processes 2 = .failed ∧
        s.file.versions = some [2, 3, 4, 5, 6, 5] := by
  decide +kernel

/-! ## One process at a time -/

/-- The version `_check_schema_version` takes the file for; it records one where there is no row. -/
def DbFile.shown (f : DbFile) : Nat := f.current.getD currentSchema

/-- The file is empty, or its columns are those of the version recorded last. -/
inductive Sound (f : DbFile) : Prop
  | empty (columns : f.columns = []) (versions : f.versions = none)
  | built (rows : f.versions.isSome = true) (known : 2 ≤ f.shown) (current : f.shown ≤ 6)
    (columns : AtVersion f.shown f)

/-- What a process finds that is alone with the file. -/
def Alone (s : DbFile × OpenStage) : Prop :=
  Sound s.1 ∧ match s.2 with
    | .starting => True
    | .reading => s.1.versions.isSome = true
    | .rereading => ∃ m, s.1.current = some m ∧ m < 6
    | .migrating n => ∃ m, s.1.current = some m ∧ n = m + 1
    | .creating => s.1.shown = 6
    | .checking => Complete s.1 ∧ s.1.shown = 6
    | .recording => Complete s.1 ∧ s.1.current = none
    | .opened => Complete s.1 ∧ s.1.current = some 6
    | .failed => False

/-- The transactions to the end, at most. -/
def OpenStage.left : OpenStage → Nat
  | .starting => 11
  | .reading => 10
  | .rereading => 9
  | .migrating n => 11 - n
  | .creating => 3
  | .checking => 2
  | .recording => 1
  | .opened => 0
  | .failed => 0

/-- A transaction of a process alone. -/
def openStep (s : DbFile × OpenStage) : DbFile × OpenStage := s.1.initDb s.2

section Alone

variable {f f' : DbFile}

theorem Complete.createAll_eq (h : Complete f) : f.createAll = f := by
  have hnone : metadata.filter (fun t => t.1 ∉ f.tables) = [] :=
    List.filter_eq_nil_iff.mpr fun t ht hno => of_decide_eq_true hno (h.tables t ht)
  obtain ⟨rows, hrows⟩ := Option.isSome_iff_exists.mp h.rows
  rw [DbFile.createAll, hnone, List.flatMap_nil, List.append_nil, hrows]
  show ({ columns := f.columns, events := f.events, versions := some rows } : DbFile) = f
  rw [← hrows]

theorem createAll_current (f : DbFile) : f.createAll.current = f.current := by
  unfold DbFile.current DbFile.createAll
  cases f.versions with
  | none => rfl
  | some rows => rfl

theorem createAll_shown (f : DbFile) : f.createAll.shown = f.shown := by
  rw [DbFile.shown, createAll_current, DbFile.shown]

theorem shown_of_current {v : Nat} (h : f.current = some v) : f.shown = v := by rw [DbFile.shown, h]; rfl

/-- A file with a row is built. -/
theorem Sound.current (h : Sound f) {v : Nat} (hv : f.current = some v) : 2 ≤ v ∧ v ≤ 6 ∧ AtVersion v f := by
  cases h with
  | empty _ hnone =>
    rw [DbFile.current, hnone] at hv
    cases hv
  | built _ h2 h6 hat =>
    rw [shown_of_current hv] at h2 h6 hat
    exact ⟨h2, h6, hat⟩

theorem createAll_sound (h : Sound f) (hshown : f.shown = 6) : Sound f.createAll := by
  have hat : AtVersion 6 f.createAll := by
    cases h with
    | empty hc _ => exact createAll_empty hc
    | built _ _ _ hat => exact (hshown ▸ hat).createAll
  have hsix : f.createAll.shown = 6 := (createAll_shown f).trans hshown
  exact .built rfl (by omega) (by omega) (hsix.symm ▸ hat)

theorem shown_of_none (h : f.current = none) : f.shown = 6 := by rw [DbFile.shown, h]; rfl

/-! What the transactions come to. -/

theorem initDb_starting (h : f.versions.isSome = true) : f.initDb .starting = (f, .reading) :=
  congrArg (Prod.mk f) (if_pos h)

theorem initDb_starting_none (h : f.versions = none) : f.initDb .starting = (f, .creating) := by
  refine congrArg (Prod.mk f) (if_neg ?_)
  rw [h]
  exact Bool.false_ne_true

theorem initDb_reading {m : Nat} (h : f.current = some m) (hm : m < 6) : f.initDb .reading = (f, .rereading) := by
  refine congrArg (Prod.mk f) (if_pos ?_)
  rw [h]
  exact decide_eq_true hm

theorem initDb_reading_shown (h : f.shown = 6) : f.initDb .reading = (f, .creating) := by
  refine congrArg (Prod.mk f) (if_neg ?_)
  cases hcurrent : f.current with
  | none => exact Bool.false_ne_true
  | some v =>
    obtain rfl : v = 6 := (shown_of_current hcurrent).symm.trans h
    exact Bool.false_ne_true

theorem initDb_rereading {m : Nat} (h : f.current = some m) (hm : m ≤ 6) :
    f.initDb .rereading = (f, .migrating (m + 1)) := by
  simp only [DbFile.initDb, h]
  rw [if_neg (show ¬ m > currentSchema from not_lt.mpr hm)]

theorem initDb_migrating {n : Nat} (h : f.migrate n = some f') (hn : n ≤ 6) : f.initDb (.migrating n) =
    (f', .migrating (n + 1)) := by
  simp only [DbFile.initDb, h]
  rw [if_neg (show ¬ n > currentSchema from not_lt.mpr hn)]

theorem initDb_checking (h : f.current = some 6) : f.initDb .checking = (f, .opened) := by
  simp only [DbFile.initDb, h]
  rfl

theorem initDb_checking_none (h : f.current = none) : f.initDb .checking = (f, .recording) := by
  simp only [DbFile.initDb, h]

theorem initDb_recording {rows : List Nat} (h : f.versions = some rows) :
    f.initDb .recording = ({ f with versions := some (rows ++ [6]) }, .opened) := by
  simp only [DbFile.initDb, DbFile.record, h, Option.map_some]
  rfl

theorem Sound.of_current {v : Nat} (hv : f.current = some v) (h2 : 2 ≤ v) (h6 : v ≤ 6) (hat : AtVersion v f) :
    Sound f := by
  obtain ⟨rows, hrows, -, -⟩ := current_eq_some hv
  have hshown := shown_of_current hv
  exact .built (Option.isSome_iff_exists.mpr ⟨rows, hrows⟩) (by omega) (by omega) (hshown.symm ▸ hat)

theorem openStep_of {o o' : OpenStage} (he : f.initDb o = (f', o')) (h : Alone (f', o')) (hl : o'.left < o.left) :
    Alone (openStep (f, o)) ∧ (o.left ≠ 0 → (openStep (f, o)).2.left < o.left) := by
  have hstep : openStep (f, o) = (f', o') := he
  rw [hstep]
  exact ⟨h, fun _ => hl⟩

/-- **A transaction of a process alone** goes through, and brings it nearer to its end. -/
theorem openStep_alone {o : OpenStage} (h : Alone (f, o)) :
    Alone (openStep (f, o)) ∧ (o.left ≠ 0 → (openStep (f, o)).2.left < o.left) := by
  obtain ⟨hsound, ho⟩ := h
  cases o with
  | starting =>
    cases hrows : f.versions with
    | none =>
      have hshown : f.shown = 6 := shown_of_none (by rw [DbFile.current, hrows]; rfl)
      exact openStep_of (initDb_starting_none hrows) ⟨hsound, hshown⟩ (by decide)
    | some rows =>
      have hsome : f.versions.isSome = true := by rw [hrows]; rfl
      exact openStep_of (initDb_starting hsome) ⟨hsound, hsome⟩ (by decide)
  | reading =>
    by_cases hshown : f.shown = 6
    · exact openStep_of (initDb_reading_shown hshown) ⟨hsound, hshown⟩ (by decide)
    · cases hcurrent : f.current with
      | none => exact absurd (shown_of_none hcurrent) hshown
      | some m =>
        obtain ⟨-, h6, -⟩ := hsound.current hcurrent
        rw [shown_of_current hcurrent] at hshown
        have hm : m < 6 := by omega
        exact openStep_of (initDb_reading hcurrent hm) ⟨hsound, m, hcurrent, hm⟩ (by decide)
  | rereading =>
    obtain ⟨m, hm, hlt⟩ := ho
    obtain ⟨h2, -, -⟩ := hsound.current hm
    refine openStep_of (initDb_rereading hm hlt.le) ⟨hsound, m, hm, rfl⟩ ?_
    show 11 - (m + 1) < 9
    omega
  | migrating n =>
    obtain ⟨m, hm, rfl⟩ := ho
    obtain ⟨h2, h6, hat⟩ := hsound.current hm
    obtain ⟨rows, hrows, -, -⟩ := current_eq_some hm
    by_cases hlast : m = 6
    · subst hlast
      exact openStep_of (show f.initDb (.migrating 7) = (f, .creating) from rfl) ⟨hsound, shown_of_current hm⟩
        (by decide)
    · have hlt : m < 6 := by omega
      obtain ⟨f', hf', hat', hnew⟩ := migrate_next h2 hlt hat hrows
      have hcurrent : f'.current = some (m + 1) := by rw [DbFile.current, hnew, Option.bind_some, List.getLast?_concat]
      refine openStep_of (initDb_migrating hf' hlt) ⟨.of_current hcurrent (by omega) hlt hat', m + 1, hcurrent, rfl⟩ ?_
      show 11 - (m + 1 + 1) < 11 - (m + 1)
      omega
  | creating =>
    exact openStep_of (show f.initDb .creating = (f.createAll, .checking) from rfl)
      ⟨createAll_sound hsound ho, createAll_tables f, (createAll_shown f).trans ho⟩ (by decide)
  | checking =>
    obtain ⟨hcomplete, hshown⟩ := ho
    cases hcurrent : f.current with
    | none => exact openStep_of (initDb_checking_none hcurrent) ⟨hsound, hcomplete, hcurrent⟩ (by decide)
    | some v =>
      obtain rfl : v = 6 := (shown_of_current hcurrent).symm.trans hshown
      exact openStep_of (initDb_checking hcurrent) ⟨hsound, hcomplete, hcurrent⟩ (by decide)
  | recording =>
    obtain ⟨hcomplete, hnone⟩ := ho
    obtain ⟨rows, hrows⟩ := Option.isSome_iff_exists.mp hcomplete.rows
    have hat : AtVersion 6 f := by
      cases hsound with
      | empty _ hv => rw [hv] at hrows; cases hrows
      | built _ _ _ hat => rwa [shown_of_none hnone] at hat
    have hcurrent : ({ f with versions := some (rows ++ [6]) } : DbFile).current = some 6 := List.getLast?_concat
    have hnew := Sound.of_current hcurrent (by decide) le_rfl ⟨hat.between, hat.covers, hat.events⟩
    exact openStep_of (initDb_recording hrows) ⟨hnew, ⟨hcomplete.tables, rfl⟩, hcurrent⟩ (by decide)
  | opened => exact ⟨⟨hsound, ho⟩, fun hne => absurd rfl hne⟩
  | failed => exact ho.elim

/-- A process that starts on what another one left comes by the stage it was in, or the one after it. -/
theorem openStep_restarts {o : OpenStage} (h : Alone (f, o)) :
    Alone (f, .starting) ∧ ∃ k j, openStep^[k] (f, .starting) = openStep^[j] (f, o) := by
  obtain ⟨hsound, ho⟩ := h
  have hstarting : Alone (f, .starting) := ⟨hsound, trivial⟩
  have hreading (hrows : f.versions.isSome = true) : openStep^[1] (f, .starting) = (f, .reading) :=
    initDb_starting hrows
  have hshown_creating (hrows : f.versions.isSome = true) (hshown : f.shown = 6) : openStep^[2] (f, .starting) =
      (f, .creating) := by
    rw [Function.iterate_succ_apply', hreading hrows]
    exact initDb_reading_shown hshown
  have hchecking (hcomplete : Complete f) (hshown : f.shown = 6) : openStep^[3] (f, .starting) = (f, .checking) := by
    rw [Function.iterate_succ_apply', hshown_creating hcomplete.rows hshown]
    exact congrArg (fun g => (g, OpenStage.checking)) hcomplete.createAll_eq
  have hrereading {m : Nat} (hm : f.current = some m) (hlt : m < 6) :
      openStep^[2] (f, .starting) = (f, .rereading) := by
    obtain ⟨rows, hrows, -, -⟩ := current_eq_some hm
    rw [Function.iterate_succ_apply', hreading (Option.isSome_iff_exists.mpr ⟨rows, hrows⟩)]
    exact initDb_reading hm hlt
  refine ⟨hstarting, ?_⟩
  cases o with
  | starting => exact ⟨0, 0, rfl⟩
  | reading => exact ⟨1, 0, hreading ho⟩
  | rereading =>
    obtain ⟨m, hm, hlt⟩ := ho
    exact ⟨2, 0, hrereading hm hlt⟩
  | migrating n =>
    obtain ⟨m, hm, rfl⟩ := ho
    obtain ⟨h2, h6, -⟩ := hsound.current hm
    obtain ⟨rows, hrows, -, -⟩ := current_eq_some hm
    by_cases hlast : m = 6
    · subst hlast
      exact ⟨2, 1, hshown_creating (Option.isSome_iff_exists.mpr ⟨rows, hrows⟩) (shown_of_current hm)⟩
    · have hlt : m < 6 := by omega
      refine ⟨3, 0, ?_⟩
      rw [Function.iterate_succ_apply', hrereading hm hlt]
      exact initDb_rereading hm h6
  | creating =>
    cases hrows : f.versions with
    | none => exact ⟨1, 0, initDb_starting_none hrows⟩
    | some rows => exact ⟨2, 0, hshown_creating (by rw [hrows]; rfl) ho⟩
  | checking => exact ⟨3, 0, hchecking ho.1 ho.2⟩
  | recording =>
    obtain ⟨hcomplete, hnone⟩ := ho
    refine ⟨4, 0, ?_⟩
    rw [Function.iterate_succ_apply', hchecking hcomplete (shown_of_none hnone)]
    exact initDb_checking_none hnone
  | opened =>
    obtain ⟨hcomplete, hsix⟩ := ho
    refine ⟨4, 0, ?_⟩
    rw [Function.iterate_succ_apply', hchecking hcomplete (shown_of_current hsix)]
    exact initDb_checking hsix
  | failed => exact ho.elim

theorem opened_of_left {o : OpenStage} (h : Alone (f, o)) (hleft : o.left = 0) : o = .opened := by
  obtain ⟨hsound, ho⟩ := h
  cases o with
  | opened => rfl
  | failed => exact ho.elim
  | migrating n =>
    obtain ⟨m, hm, rfl⟩ := ho
    obtain ⟨-, h6, -⟩ := hsound.current hm
    have hpending : 11 - (m + 1) = 0 := hleft
    omega
  | _ => cases hleft

theorem openStep_recovers : Restart.Recovers openStep .starting Alone fun s => s.2.left where
  keeps := fun s h => (openStep_alone (f := s.1) (o := s.2) h).1
  nearer := fun s h hne => (openStep_alone (f := s.1) (o := s.2) h).2 hne
  rests := fun s h hleft => by
    obtain ⟨f, o⟩ := s
    obtain rfl := opened_of_left h hleft
    rfl
  restarts := fun _ _ h => openStep_restarts h

end Alone

/-- **However often an opening is cut short**, by processes that die one at a time after any number of transactions: the
next one that is not comes to its end, at the current version and with the whole schema, and leaves the file that one
opening in one go leaves. -/
theorem opens_after_deaths {f : DbFile} (h : Sound f) (deaths : List Nat) :
    let s := openStep^[11] (deaths.foldl (Restart.cut openStep .starting) f, .starting)
    s.2 = .opened ∧ s.1.current = some 6 ∧ AtVersion 6 s.1 ∧ Whole s.1 ∧ s = openStep^[11] (f, .starting) := by
  intro s
  have hstart : Alone (f, .starting) := ⟨h, trivial⟩
  have hsame : s = openStep^[11] (f, .starting) :=
    openStep_recovers.run_cuts (n := 11) (fun d _ => le_rfl) hstart deaths
  have halone : Alone s := by
    rw [hsame]
    exact openStep_recovers.keeps_all hstart 11
  have hopened : s.2 = .opened := by
    refine opened_of_left halone ?_
    rw [hsame]
    exact openStep_recovers.ends hstart le_rfl
  obtain ⟨hsound, hstage⟩ := halone
  rw [hopened] at hstage
  obtain ⟨hcomplete, hsix⟩ := hstage
  obtain ⟨rows, hrows, -, hmem⟩ := current_eq_some hsix
  obtain ⟨-, -, hat⟩ := hsound.current hsix
  exact ⟨hopened, hsix, hat, hat.whole hcomplete.tables hrows hmem, hsame⟩

theorem opens_after_deaths_second :
    let s := openStep^[11] ([2, 4, 7].foldl (Restart.cut openStep .starting) secondVersion, .starting)
    s.2 = .opened ∧ s.1.current = some 6 ∧ AtVersion 6 s.1 ∧ Whole s.1 ∧ s = openStep^[11] (secondVersion, .starting) :=
  opens_after_deaths (.of_current (v := 2) rfl (by decide) (by decide) atVersion_second) [2, 4, 7]

end HardeningLoop
