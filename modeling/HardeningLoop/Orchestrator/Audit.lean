import HardeningLoop.Orchestrator.Interleaving

/-!
# The audit of the findings

Every change of a finding's state is meant to be on the log: the entry `opened` gives its first state, and each event
takes it from the state it is in to the one its table has. `replay` reads a log this way, strictly: an entry that does
not continue the ones before it leaves no state.

- `Acts.accounted`: what a unit does to the states of findings is what its entries replay to;
- `ingestRun_accounted_iff`: of an ingestion this holds exactly when it reclassifies no finding that is there;
- `audit_run_iff`: so the log is complete in every state of a run exactly when no scan of the run reclassifies a
  finding.
-/

namespace HardeningLoop

open Rows (Table)

/-! ## Replay -/

/-- What an entry says of the state of a finding. -/
def Event.replay (fid : Nat) (s : Option FindingState) (e : Event) : Option FindingState :=
  if e.entityType = .finding ∧ e.entityId = fid then
    match e.event, s with
    | .log name, none =>
      if name = "opened" then [FindingState.«open», .unclassified].find? fun s => e.toState == some s.value else none
    | .log name, some s => if name = "opened" then none else some s
    | .finding ev, some s =>
      if e.fromState = some s.value then (nextFindingState s ev).filter fun s' => e.toState == some s'.value else none
    | .finding _, none => none
    | .workItem _, s => s
  else s

/-- What a log says of the state of a finding that was in `s` before it. -/
def replay (fid : Nat) (s : Option FindingState) (l : List Event) : Option FindingState := l.foldl (Event.replay fid) s

section Replay

variable {fid : Nat} {s : Option FindingState} {l l' : List Event}

theorem replay_append : replay fid s (l ++ l') = replay fid (replay fid s l) l' := List.foldl_append

theorem Event.replay_other {e : Event} (h : ¬ (e.entityType = .finding ∧ e.entityId = fid)) : e.replay fid s = s :=
  if_neg h

/-- Entries that are not about the finding. -/
theorem replay_others (h : ∀ e ∈ l, ¬ (e.entityType = .finding ∧ e.entityId = fid)) : replay fid s l = s := by
  induction l generalizing s with
  | nil => rfl
  | cons e l ih =>
    have he : e.replay fid s = s := Event.replay_other (h e List.mem_cons_self)
    rw [replay, List.foldl_cons, he]
    exact ih fun e' he' => h e' (List.mem_cons_of_mem _ he')

end Replay

/-- The log tells the state of every finding. -/
def Audited (db : Db) : Prop := ∀ fid, replay fid none db.events = db.findingState fid

/-- The entries that were added tell what became of the states of the findings. -/
def Accounted (db db' : Db) : Prop :=
  ∃ l, db'.events = db.events ++ l ∧ ∀ fid, replay fid (db.findingState fid) l = db'.findingState fid

section Accounts

variable {db db' db'' : Db}

theorem Accounted.of_same (he : db'.events = db.events) (hs : ∀ fid, db'.findingState fid = db.findingState fid) :
    Accounted db db' := ⟨[], by rw [he, List.append_nil], fun fid => (hs fid).symm⟩

theorem Accounted.refl (db : Db) : Accounted db db := .of_same rfl fun _ => rfl

theorem Accounted.trans (h : Accounted db db') (h' : Accounted db' db'') : Accounted db db'' := by
  obtain ⟨l, hl, hreplay⟩ := h
  obtain ⟨l', hl', hreplay'⟩ := h'
  refine ⟨l ++ l', by rw [hl', hl, List.append_assoc], fun fid => ?_⟩
  rw [replay_append, hreplay, hreplay']

/-- Entries about other things than findings. -/
theorem Accounted.log {l : List Event} (he : db'.events = db.events ++ l) (hl : ∀ e ∈ l, e.entityType ≠ .finding)
    (hs : ∀ fid, db'.findingState fid = db.findingState fid) : Accounted db db' :=
  ⟨l, he, fun fid => (replay_others fun e hm hfid => hl e hm hfid.1).trans (hs fid).symm⟩

theorem Audited.step (ha : Audited db) (h : Accounted db db') : Audited db' := by
  obtain ⟨l, hl, hreplay⟩ := h
  intro fid
  rw [hl, replay_append, ha fid, hreplay fid]

end Accounts

/-! ## The units of the engine -/

section Units

variable {env : Env} {S : Scope} {tx t : Tx}

theorem Tx.wiLog_type {wid : Nat} {event : WorkItemEvent} {reason actor : String} {item : WorkItem} {e : Event}
    (he : e ∈ Tx.wiLog env wid event reason actor item) : e.entityType = .workItem := by
  unfold Tx.wiLog at he
  dsimp only at he
  split at he
  · obtain rfl := List.mem_singleton.mp he
    rfl
  · rcases List.mem_cons.mp he with rfl | he
    · rfl
    · split at he
      · split at he
        · cases he
        · obtain rfl := List.mem_singleton.mp he
          rfl
      · cases he

theorem findingState_findingFrom (t : Tx) (fid : Nat) (before : FindingState) (event : FindingEvent)
    (reason actor : String) (runId : Option Nat) (k : Nat) :
    (t.findingFrom env fid before event reason actor runId).1.db.findingState k =
      if k = fid then (t.db.findingState k).map fun s => (nextFindingState before event).getD s
      else t.db.findingState k := by
  simp only [Tx.findingFrom_db, Db.findingState, Table.get?_modify]
  split
  · rw [Option.map_map, Option.map_map]
    refine Option.map_congr fun f _ => ?_
    unfold Tx.findingRow Function.comp
    dsimp only
    cases nextFindingState before event <;> rfl
  · rfl

/-- An event fired from the state that is stored. -/
theorem accounted_findingFrom {t : Tx} {fid : Nat} {before : FindingState} (hb : t.db.findingState fid = some before)
    (event : FindingEvent) (reason actor : String) (runId : Option Nat) :
    Accounted t.db (t.findingFrom env fid before event reason actor runId).1.db := by
  refine ⟨[Tx.findingLog env fid before event reason actor runId], by rw [Tx.findingFrom_db], fun k => ?_⟩
  show Event.replay k _ _ = _
  rw [findingState_findingFrom]
  by_cases hk : k = fid
  · subst hk
    rw [if_pos rfl, hb, Option.map_some]
    unfold Tx.findingLog Event.replay
    cases hn : nextFindingState before event with
    | none => simp
    | some after => simp [hn, Option.filter]
  · rw [if_neg hk]
    refine Event.replay_other fun h => hk ?_
    unfold Tx.findingLog at h
    split at h <;> exact h.2.symm

/-- **What a unit does to the states of findings is on the log**, if it fires no event from a state loaded before. -/
theorem Acts.accounted (hr : ¬ S.deeds .recall) (h : Acts env S tx t) : Accounted tx.db t.db := by
  induction h with
  | refl => exact .refl _
  | quiet _ hq ih =>
    obtain ⟨logs, hlogs, hall⟩ := hq.events
    exact ih.trans (.log hlogs (fun e he => (hall e he).2.2) fun fid => by rw [Db.findingState, hq.findings]; rfl)
  | editItem _ _ _ ih => exact ih.trans (.of_same rfl fun _ => rfl)
  | editPull _ _ _ _ _ ih => exact ih.trans (.of_same rfl fun _ => rfl)
  | insertPull _ _ _ _ ih => exact ih.trans (.of_same rfl fun _ => rfl)
  | insertItem _ _ _ ih => exact ih.trans (.of_same rfl fun _ => rfl)
  | @wi t _ w _ e _ reason actor ih =>
    refine ih.trans (.log (by rw [Tx.wi_db]) (fun entry hentry => ?_) fun fid => by rw [Tx.wi_db]; rfl)
    cases hi : t.db.workItems.get? w with
    | none => rw [hi] at hentry; cases hentry
    | some item =>
      rw [hi] at hentry
      rw [Tx.wiLog_type hentry]
      intro h
      cases h
  | findingFrom _ _ hb _ reason actor runId ih =>
    exact ih.trans (accounted_findingFrom (hb.resolve_left hr) _ reason actor runId)
  | @own t _ k _ owner _ ih =>
    refine ih.trans (.of_same rfl fun fid => ?_)
    rw [Db.findingState, Tx.modifyFinding, Table.get?_modify]
    split
    · rw [Option.map_map]
      rfl
    · rfl

/-- The members are there in the states they were read in. -/
def StillAsRead (members : List (Nat × Finding)) (db : Db) : Prop :=
  ∀ m ∈ members, db.findingState m.1 = some m.2.state

/-- A session created for members that are still as they were read. -/
theorem createSession_current {wid : Nat} {members : List (Nat × Finding)} (hnd : (members.map Prod.fst).Nodup)
    (hread : StillAsRead members tx.db) (answer : Except String SessionSnapshot) (commented : Except String Unit) :
    Acts env (.sweeping fun _ => False) tx (createSession env tx wid members answer commented) := by
  have hloop (reason : String) : ∀ {members : List (Nat × Finding)} {t : Tx}, (members.map Prod.fst).Nodup →
      StillAsRead members t.db →
      Acts env (.sweeping fun _ => False) t (members.foldl (startRemediation env reason) t) := by
    intro members
    induction members with
    | nil => exact fun _ _ => .refl
    | cons m members ih =>
      intro t hnd hread
      rw [List.map_cons, List.nodup_cons] at hnd
      have hone : Acts env (.sweeping fun _ => False) t (startRemediation env reason t m) :=
        Acts.refl.findingFrom trivial (Or.inr (hread m List.mem_cons_self)) (Or.inr (by decide)) ..
      refine hone.trans (ih hnd.2 fun m' hm' => ?_)
      have hne : m'.1 ≠ m.1 := fun h => hnd.1 (h ▸ List.mem_map_of_mem hm')
      rw [startRemediation, findingState_findingFrom, if_neg hne]
      exact hread m' (List.mem_cons_of_mem _ hm')
  unfold createSession
  split
  · exact (dispatchFailed_does env tx wid _).widen (Scope.item_within_sweeping ..)
  · rename_i snap
    dsimp only
    have hbefore (call : Call) : OnItem env wid tx
        ((recordSession env (tx.answered call) wid snap false).wi env wid .sessionCreated snap.sessionId
        "controller") :=
      ((Acts.refl.answered call).trans (recordSession_does env _ wid snap false)).fire .sessionCreated _ _ (by decide)
    set t := members.foldl _ _ with ht
    have h : Acts env (.sweeping fun _ => False) tx t := by
      refine ((hbefore _).widen (Scope.item_within_sweeping ..)).trans (hloop snap.sessionId hnd fun m hm => ?_)
      rw [findingState_of_history ((hbefore _).history (S := .item wid fun _ => False) not_false)]
      exact hread m hm
    split
    · exact h
    · split
      · exact h.answered _
      · exact h.log _ _ _ _ (by decide)
      · exact h

end Units

/-! ## Ingestion -/

section Ingestion

variable {ext : External} {db db' : Db} {scan : Scan} {ts : DateTime} {result : IngestResult}

/-- An ingestion into `start` adds entries about new findings alone, and they tell the states of these. -/
def LogsNew (start db : Db) : Prop :=
  ∃ l, db.events = start.events ++ l ∧
    (∀ e ∈ l, e.entityType = .finding → start.findings.get? e.entityId = none) ∧
    ∀ fid, start.findings.get? fid = none → replay fid none l = db.findingState fid

/-- The findings of `start` are in `db`, and the others have keys that are not in `keys`. -/
structure Opens (start db : Db) (keys : List String) : Prop where
  old : ∀ fid f, start.findings.get? fid = some f → ∃ f', db.findings.get? fid = some f'
  new : ∀ fid f, start.findings.get? fid = none → db.findings.get? fid = some f → f.dedupeKey ∉ keys

theorem LogsNew.refl (db : Db) : LogsNew db db := by
  refine ⟨[], (List.append_nil _).symm, fun _ h => absurd h List.not_mem_nil, fun fid hfid => ?_⟩
  rw [Db.findingState, hfid]
  rfl

theorem Opens.refl (db : Db) (keys : List String) : Opens db db keys := by
  refine ⟨fun _ f hf => ⟨f, hf⟩, fun _ _ hnone hf => ?_⟩
  rw [hnone] at hf
  cases hf

section Loop

variable {start : Db} {rid : Nat} {run : ScanRun} {raw : ScanJobEvidence} {policy : Option (List NormalizedFinding)}
  {ctx : ClassificationContext}

/-- A new finding is open or unclassified. -/
theorem opened_state (rid : Nat) (raw : ScanJobEvidence) (nf : NormalizedFinding) (cls : Classification)
    (ts ts' : DateTime) :
    ((newFinding rid raw nf ts).refresh rid raw nf cls ts').state ∈ [FindingState.«open», .unclassified] := by
  show reportedState .«open» cls.kind ∈ _
  cases hkind : cls.kind with
  | none => decide
  | some kind => cases kind <;> decide

theorem find?_opened {s : FindingState} (hs : s ∈ [FindingState.«open», .unclassified]) :
    [FindingState.«open», .unclassified].find? (fun s' => some s.value == some s'.value) = some s := by
  revert hs
  cases s <;> decide

/-- One finding of a scan. -/
theorem ingestFinding_logsNew {acc : Ingest} {nf : NormalizedFinding} {keys : List String} (hkey : nf.dedupeKey ∉ keys)
    (ho : Opens start acc.1 (nf.dedupeKey :: keys)) (h : LogsNew start acc.1) :
    Opens start (ingestFinding ext rid run raw policy ctx ts acc nf).1 keys ∧
      LogsNew start (ingestFinding ext rid run raw policy ctx ts acc nf).1 := by
  obtain ⟨l, hl, hnew, hreplay⟩ := h
  unfold ingestFinding upsertFinding
  dsimp only
  cases hfirst : acc.1.findings.first fun f => f.dedupeKey == nf.dedupeKey with
  | none =>
    dsimp only
    rw [if_pos rfl]
    have hfresh : start.findings.get? acc.1.findings.nextId = none := by
      cases hf : start.findings.get? acc.1.findings.nextId with
      | none => rfl
      | some f =>
        obtain ⟨f', hf'⟩ := ho.old _ f hf
        rw [Table.get?_nextId] at hf'
        cases hf'
    refine ⟨⟨fun fid f hf => ?_, fun fid f hnone hf => ?_⟩,
      l ++ [_], by rw [hl, List.append_assoc], ?_, fun fid hnone => ?_⟩
    · obtain ⟨f', hf'⟩ := ho.old fid f hf
      exact ⟨f', Table.get?_insert_of_some _ hf'⟩
    · rw [Table.get?_insert] at hf
      split at hf
      · cases hf
        exact hkey
      · exact fun hmem => ho.new fid f hnone hf (List.mem_cons_of_mem _ hmem)
    · intro e he hfinding
      rcases List.mem_append.mp he with he | he
      · exact hnew e he hfinding
      · obtain rfl := List.mem_singleton.mp he
        exact hfresh
    · rw [replay_append, hreplay fid hnone]
      show Event.replay fid _ _ = _
      by_cases hfid : fid = acc.1.findings.nextId
      · subst hfid
        simp only [Event.replay, Db.findingState, Table.get?_nextId, Table.get?_insert, Option.map_none,
          Option.map_some,
          and_self, if_true]
        exact find?_opened (opened_state _ _ _ _ _ _)
      · rw [Event.replay_other fun h => hfid h.2.symm]
        simp only [Db.findingState, Table.get?_insert, if_neg hfid]
  | some i =>
    dsimp only
    rw [if_neg Bool.false_ne_true]
    obtain ⟨g, hg, hgkey⟩ := Table.first_eq_some hfirst
    have hold : ∀ fid, start.findings.get? fid = none → fid ≠ i := by
      rintro _ hnone rfl
      exact ho.new _ g hnone hg (by rw [eq_of_beq hgkey]; exact List.mem_cons_self)
    refine ⟨⟨fun fid f hf => ?_, fun fid f hnone hf => ?_⟩, l, hl, hnew, fun fid hnone => ?_⟩
    · obtain ⟨f', hf'⟩ := ho.old fid f hf
      rw [Table.get?_modify, hf']
      split
      · exact ⟨_, rfl⟩
      · exact ⟨f', rfl⟩
    · rw [Table.get?_modify_of_ne _ (hold fid hnone)] at hf
      exact fun hmem => ho.new fid f hnone hf (List.mem_cons_of_mem _ hmem)
    · rw [hreplay fid hnone, Db.findingState, Db.findingState, Table.get?_modify_of_ne _ (hold fid hnone)]

theorem ingestLoop_logsNew {nfs : List NormalizedFinding} (hnd : (nfs.map NormalizedFinding.dedupeKey).Nodup) :
    ∀ {acc : Ingest}, Opens start acc.1 (nfs.map NormalizedFinding.dedupeKey) → LogsNew start acc.1 →
      LogsNew start (nfs.foldl (ingestFinding ext rid run raw policy ctx ts) acc).1 := by
  induction nfs with
  | nil => exact fun _ h => h
  | cons nf nfs ih =>
    intro acc ho h
    rw [List.map_cons, List.nodup_cons] at hnd
    obtain ⟨ho', h'⟩ := @ingestFinding_logsNew ext ts start rid run raw policy ctx acc nf _ hnd.1 ho h
    rw [List.foldl_cons]
    exact ih hnd.2 ho' h'

end Loop

theorem ingestRun_logsNew (h : ingestRun ext db scan.run scan.jobs scan.upperBounds ts = .ok (db', result)) :
    LogsNew db db' := by
  unfold ingestRun at h
  cases hfirst : db.scanRuns.first fun r => r.externalRunId == scan.run.externalRunId with
  | some rid =>
    simp only [hfirst, Except.ok.injEq, Prod.mk.injEq] at h
    exact h.1 ▸ .refl db
  | none =>
    rw [hfirst] at h
    cases hcheck : checkJobs scan.run scan.jobs with
    | error e => simp [hcheck] at h
    | ok scans =>
      simp only [hcheck] at h
      split at h
      · simp only [Except.ok.injEq, Prod.mk.injEq] at h
        obtain ⟨rfl, -⟩ := h
        set start : Db := { db with
          scanRuns := db.scanRuns.insert (runRow scan.run scan.jobs scans ts)
          scanJobs := ⟨db.scanJobs.rows ++ runJobRows db.scanRuns.nextId scan.run scans⟩ } with hstart
        obtain ⟨l, hl, hnew, hreplay⟩ := @ingestLoop_logsNew ext ts start db.scanRuns.nextId
          (runRow scan.run scan.jobs scans ts) scans.raw (scans.policy.map fun p => normalize p.vulns p.configs)
          (scans.context scan.upperBounds)
          (normalize scans.raw.vulns scans.raw.configs) (normalize_keys_nodup _ _)
          (start, { scanRunId := db.scanRuns.nextId, created := true }) (.refl _ _) (.refl _)
        refine ⟨l ++ [_], by rw [hl, List.append_assoc], fun e he hfinding => ?_, fun fid hnone => ?_⟩
        · rcases List.mem_append.mp he with he | he
          · exact hnew e he hfinding
          · obtain rfl := List.mem_singleton.mp he
            cases hfinding
        · rw [replay_append, hreplay fid hnone]
          refine replay_others fun e he hfinding => ?_
          obtain rfl := List.mem_singleton.mp he
          cases hfinding.1
      · cases h

/-- **An ingestion is on the log exactly when it reclassifies no finding that is there.** -/
theorem ingestRun_accounted_iff (h : ingestRun ext db scan.run scan.jobs scan.upperBounds ts = .ok (db', result))
    (hu : KeysUnique db) :
    Accounted db db' ↔ ∀ fid f, db.findings.get? fid = some f → scan.reclassifies ext db f = false := by
  obtain ⟨l, hl, hnew, hreplay⟩ := ingestRun_logsNew h
  have hold {fid : Nat} {f : Finding} (hf : db.findings.get? fid = some f) :
      replay fid (db.findingState fid) l = some f.state := by
    rw [replay_others, Db.findingState, hf, Option.map_some]
    rintro e he ⟨hfinding, rfl⟩
    rw [hnew e he hfinding] at hf
    cases hf
  constructor
  · rintro ⟨l', hl', hreplay'⟩ fid f hf
    obtain rfl : l' = l := List.append_cancel_left (hl'.symm.trans hl)
    exact (ingestRun_keeps_iff h hu hf).mp ((hreplay' fid).symm.trans (hold hf))
  · intro hkeeps
    refine ⟨l, hl, fun fid => ?_⟩
    cases hf : db.findings.get? fid with
    | none =>
      rw [Db.findingState, hf]
      exact hreplay fid hf
    | some f => exact (hold hf).trans ((ingestRun_keeps_iff h hu hf).mpr (hkeeps fid f hf)).symm

end Ingestion

/-! ## Runs -/

section Runs

variable {c : Controller} {s : Sys}

/-- What a controller that waits for Devin has read is still so. -/
def Current (s : Sys) : Prop :=
  ∀ wid members, s.flight = some (.creating wid members) →
    (members.map Prod.fst).Nodup ∧ StillAsRead members s.db

/-- A scan that the step ingests reclassifies no finding that is there. -/
def Unclassifying (c : Controller) (s : Sys) (a : Action) : Prop :=
  ∀ scan ∈ a.scan?, ∀ fid f, s.db.findings.get? fid = some f → scan.reclassifies c.ext s.db f = false

theorem Current.step {a : Action} (hu : KeysUnique s.db) (hcur : Current s) (ha : Unclassifying c s a) :
    Current (exec c s a) := by
  intro wid members hflight
  rcases exec_waiting hflight with ⟨hbefore, hends⟩ | ⟨now, remote, rfl, hbefore⟩
  · obtain ⟨hnd, hread⟩ := hcur wid members hbefore
    refine ⟨hnd, fun m hm => ?_⟩
    cases hscan : a.scan? with
    | none =>
      rw [exec_creating hbefore hends hscan]
      exact hread m hm
    | some scan =>
      obtain ⟨f, hf, hstate⟩ := Option.map_eq_some_iff.mp (hread m hm)
      obtain ⟨-, f', hf', hleaves⟩ := @exec_scan c s a scan hscan hu m.1 f hf
      have hkeeps := ha scan hscan m.1 f hf
      rw [Scan.reclassifies_eq] at hkeeps
      rw [Db.findingState, hf', Option.map_some, hleaves.state, ← hstate]
      cases htaken : scan.taken c.ext s.db <;> simp_all
  · obtain ⟨hdb, rfl⟩ := (@adopt_loads c s wid now remote hbefore).2 members hflight
    refine ⟨s.db.nodup_loaded wid, fun m hm => ?_⟩
    rw [hdb, Db.findingState, Db.mem_loaded hm, Option.map_some]

theorem applyScanRun_accounted (env : Env) (cmp : Compare) (rid : Nat) (db : Db) :
    Accounted db (applyScanRun env cmp rid { db := db }).db := by
  unfold applyScanRun
  split
  · split
    · exact .refl _
    · exact ((evaluation_does env cmp _ _).accounted (show Deed.recall ∉ [Deed.settle, .reopen] by decide)).trans
        (.of_same rfl fun _ => rfl)
  · exact .refl _

/-- What a step other than an ingestion does to the states of findings is on the log. -/
theorem exec_accounted {a : Action} (hscan : a.scan? = none) (hcur : Current s) : Accounted s.db (exec c s a).db := by
  have hworked (ha : a.brings = false) (hr : ¬ a.licence.deeds .recall) : Accounted s.db (exec c s a).db := by
    obtain ⟨env, tx, h, hdb⟩ := exec_licensed c s ha
    rw [← hdb]
    exact h.accounted hr
  cases a with
  | ingest run jobs upperBounds now => cases hscan
  | applyRun now compare =>
    dsimp only [exec, stepFree]
    split
    · exact .refl _
    · split
      · exact applyScanRun_accounted (c.env now) compare _ _
      · exact .refl _
  | create now answer commented =>
    dsimp only [exec, stepCreate]
    split
    · rename_i wid members hflight
      obtain ⟨hnd, hread⟩ := hcur wid members hflight
      exact (@createSession_current _ { db := s.db } wid members hnd hread answer commented).accounted id
    · exact .refl _
  | pollPullRequest now wid number pr checks answers =>
    exact hworked rfl (show Deed.recall ∉ [Deed.settle, .retry] by decide)
  | launch now wid operator answers => exact hworked rfl (show Deed.recall ∉ [Deed.bind, .retry] by decide)
  | _ => exact hworked rfl fun h => by cases h

/-- **What a step does to the states of findings is on the log exactly when it ingests no scan that reclassifies
one.** -/
theorem exec_accounted_iff {a : Action} (hu : KeysUnique s.db) (hcur : Current s) :
    Accounted s.db (exec c s a).db ↔ Unclassifying c s a := by
  cases hscan : a.scan? with
  | none => exact iff_of_true (exec_accounted hscan hcur) fun scan h => by rw [hscan] at h; cases h
  | some scan =>
    have hiff : Accounted s.db (exec c s a).db ↔
        ∀ fid f, s.db.findings.get? fid = some f → scan.reclassifies c.ext s.db f = false := by
      cases a with
      | ingest run jobs upperBounds now =>
        cases hscan
        dsimp only [exec]
        split
        · rename_i db' result hrun
          exact @ingestRun_accounted_iff _ _ _ ⟨run, jobs, upperBounds⟩ _ _ hrun hu
        · rename_i e hrun
          refine iff_of_true (.refl _) fun fid f _ => ?_
          rw [Scan.reclassifies, @taken_of_error c.ext s.db ⟨run, jobs, upperBounds⟩ now e hrun]
          rfl
      | _ => cases hscan
    rw [hiff]
    constructor
    · intro h scan' hscan'
      cases hscan.symm.trans hscan'
      exact h
    · exact fun h => h scan hscan

/-- **The log of the findings is complete exactly in the runs in which no scan reclassifies a finding**: it tells the
state of every finding after every step, and each step's entries tell what the step did to the states. -/
theorem audit_run_iff (c : Controller) (tr : List Action) :
    Machine.AllSteps (exec c) (fun s a => Audited (exec c s a).db ∧ Accounted s.db (exec c s a).db) .initial tr ↔
      Machine.AllSteps (exec c) (Unclassifying c) .initial tr := by
  refine Machine.AllSteps.congr_invariant (fun s => Audited s.db ∧ KeysUnique s.db ∧ Current s) ?_ ?_ ?_
  · rintro s a ⟨haudited, hu, hcur⟩ ha
    exact ⟨haudited.step ((exec_accounted_iff hu hcur).mpr ha), (exec_commits c s a).keysUnique hu, hcur.step hu ha⟩
  · rintro s a ⟨haudited, hu, hcur⟩
    rw [← exec_accounted_iff hu hcur]
    exact ⟨And.right, fun h => ⟨haudited.step h, h⟩⟩
  · refine ⟨fun fid => ?_, KeysUnique.empty, nofun⟩
    rw [Db.findingState, show Sys.initial.db.findings.get? fid = none from Table.get?_empty fid]
    rfl

/-- A grouped finding that a scan reports without its fix becomes unclassified, and the log has no entry of it. -/
theorem reclassification_unlogged :
    let s := exec sampleController reservedState unfixedIngest
    Reachable sampleController s ∧ reservedState.db.findingState 1 = some .grouped ∧
      s.db.findingState 1 = some .unclassified ∧ replay 1 none s.db.events = some .grouped ∧ ¬ Audited s.db ∧
      ∀ ev, nextFindingState .grouped ev ≠ some .unclassified := by
  intro s
  have hbefore : reservedState.db.findingState 1 = some .grouped := by decide +kernel
  have hafter : s.db.findingState 1 = some .unclassified := by decide +kernel
  have hlog : replay 1 none s.db.events = some .grouped := by decide +kernel
  refine ⟨(sampleState_reachable _).step _, hbefore, hafter, hlog, fun haudited => ?_, fun ev => ?_⟩
  · have hone := haudited 1
    rw [hafter, hlog] at hone
    cases hone
  · cases ev <;> decide

end Runs

end HardeningLoop
