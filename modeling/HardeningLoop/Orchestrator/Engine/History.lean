import HardeningLoop.Orchestrator.Engine.Units

/-!
# The history of a finding

A transition of a finding writes its row and one entry of the log. `Db.history` is the row together with the transitions
the log has of it, so that what a unit does to a finding is one function on its history:

- `history_finding`: firing an event is `fired`;
- `Acts.history`: a unit leaves the histories outside its scope alone.
-/

namespace HardeningLoop

open Rows (Table)

/-- The entry records a transition of the finding. -/
def Event.moves (fid : Nat) (e : Event) : Bool :=
  match e.event with
  | .finding _ => e.entityType == .finding && e.entityId == fid
  | _ => false

/-- The transitions of a finding that the log has. -/
def Db.transitions (db : Db) (fid : Nat) : List Event := db.events.filter (Event.moves fid)

/-- A finding and its transitions. -/
abbrev History := Finding × List Event

def Db.history (db : Db) (fid : Nat) : Option History := (db.findings.get? fid).map fun f => (f, db.transitions fid)

/-- The event of a finding in its history: nothing if the table does not have it. -/
def fired (env : Env) (fid : Nat) (event : FindingEvent) (reason actor : String) (runId : Option Nat) (h : History) :
    History :=
  match nextFindingState h.1.state event with
  | none => h
  | some after =>
    (Tx.settled env after runId h.1, h.2 ++ [⟨env.now, actor, .finding, fid, .finding event, some h.1.state.value,
      some after.value, some reason, runId.toList⟩])

/-- The event of a finding in its history, fired from the state `before` that was loaded. -/
def recalled (env : Env) (fid : Nat) (before : FindingState) (event : FindingEvent) (reason actor : String)
    (runId : Option Nat) (h : History) : History :=
  match nextFindingState before event with
  | none => h
  | some after =>
    (Tx.settled env after runId h.1, h.2 ++ [⟨env.now, actor, .finding, fid, .finding event, some before.value,
      some after.value, some reason, runId.toList⟩])

section Histories

variable {env : Env} {tx t t' : Tx} {fid : Nat}

theorem history_eq_some {db : Db} {h : History} :
    db.history fid = some h ↔ db.findings.get? fid = some h.1 ∧ db.transitions fid = h.2 := by
  obtain ⟨f, l⟩ := h
  cases hf : db.findings.get? fid <;> simp [Db.history, hf]

theorem row_of_history {db db' : Db} (h : db'.history fid = db.history fid) :
    db'.findings.get? fid = db.findings.get? fid := by
  have := congrArg (Option.map Prod.fst) h
  simpa [Db.history, Option.map_map, Function.comp_def] using this

theorem history_congr {db db' : Db} (hf : db'.findings.get? fid = db.findings.get? fid)
    (hl : db'.transitions fid = db.transitions fid) : db'.history fid = db.history fid := by
  simp only [Db.history, hf, hl]

/-- Entries that move no finding. -/
theorem transitions_append {db : Db} {logs : List Event} (h : ∀ e ∈ logs, ∀ ev, e.event ≠ .finding ev) :
    (db.events ++ logs).filter (Event.moves fid) = db.transitions fid := by
  have hnil : logs.filter (Event.moves fid) = [] := by
    rw [List.filter_eq_nil_iff]
    intro e he
    unfold Event.moves
    cases hev : e.event with
    | finding ev => exact absurd hev (h e he ev)
    | workItem _ => simp
    | log _ => simp
  rw [List.filter_append, hnil, List.append_nil]
  rfl

theorem Quiet.history (hq : Quiet t t') : t'.db.history fid = t.db.history fid := by
  obtain ⟨logs, he, hlogs⟩ := hq.events
  refine history_congr (by rw [hq.findings]) ?_
  rw [Db.transitions, he]
  refine transitions_append fun e hm ev hev => ?_
  obtain ⟨⟨name, hname⟩, -⟩ := hlogs e hm
  rw [hname] at hev
  cases hev

/-- What an event of a work item records is no transition of a finding. -/
theorem wiLog_event {wid : Nat} {event : WorkItemEvent} {reason actor : String} {item : WorkItem} {e : Event}
    (he : e ∈ Tx.wiLog env wid event reason actor item) (ev : FindingEvent) : e.event ≠ .finding ev := by
  unfold Tx.wiLog at he
  dsimp only at he
  split at he
  · obtain rfl := List.mem_singleton.mp he
    nofun
  · rcases List.mem_cons.mp he with rfl | he
    · nofun
    · split at he
      · split at he
        · cases he
        · obtain rfl := List.mem_singleton.mp he
          nofun
      · cases he

theorem history_wi (t : Tx) (wid : Nat) (event : WorkItemEvent) (reason actor : String) :
    (t.wi env wid event reason actor).db.history fid = t.db.history fid := by
  rw [Tx.wi_db]
  refine history_congr rfl (transitions_append fun e he ev => ?_)
  cases hi : t.db.workItems.get? wid with
  | none => rw [hi] at he; cases he
  | some item => rw [hi] at he; exact wiLog_event he ev

/-- An event fired from a state that was loaded. -/
theorem history_recall (t : Tx) (k : Nat) (before : FindingState) (event : FindingEvent) (reason actor : String)
    (runId : Option Nat) : (t.findingFrom env k before event reason actor runId).1.db.history fid =
      if fid = k then (t.db.history fid).map (recalled env k before event reason actor runId) else
      t.db.history fid := by
  rw [Tx.findingFrom_db]
  unfold Tx.findingLog recalled
  cases hn : nextFindingState before event with
  | none =>
    have hsame : t.db.findings.modify k (Tx.findingRow env before event runId) = t.db.findings :=
      Table.modify_eq_self fun _ _ => by simp only [Tx.findingRow, hn]
    have hhist : ({ t.db with findings := t.db.findings.modify k (Tx.findingRow env before event runId), events :=
        t.db.events ++ [⟨env.now, "controller", .finding, k, .log "invalid_transition", some before.value,
          some before.value, some (Tx.invalidText before.value event.value reason), []⟩] } : Db).history fid =
        t.db.history fid :=
      history_congr (by rw [hsame])
        (transitions_append fun e he ev h => by obtain rfl := List.mem_singleton.mp he; cases h)
    rw [hhist]
    split
    · exact Option.map_id'.symm
    · rfl
  | some after =>
    dsimp only
    simp only [Db.history, Db.transitions, Table.get?_modify, List.filter_append]
    split
    · rename_i hk
      subst hk
      rw [Option.map_map, Option.map_map]
      refine Option.map_congr fun f _ => ?_
      simp [hn, Tx.findingRow, Event.moves]
    · rename_i hk
      have hm : Event.moves fid ⟨env.now, actor, .finding, k, .finding event, some before.value, some after.value,
          some reason, runId.toList⟩ = false := by
        simp [Event.moves, Ne.symm hk]
      simp [hm]

/-- An event fired at the row that was loaded. -/
theorem history_findingFrom (t : Tx) {k : Nat} {f : Finding} (hf : t.db.findings.get? k = some f) (event : FindingEvent)
    (reason actor : String) (runId : Option Nat) :
    (t.findingFrom env k f.state event reason actor runId).1.db.history fid =
      if fid = k then (t.db.history fid).map (fired env k event reason actor runId) else t.db.history fid := by
  rw [history_recall]
  split
  · rename_i hk
    subst hk
    have hh : t.db.history fid = some (f, t.db.transitions fid) := history_eq_some.mpr ⟨hf, rfl⟩
    rw [hh]
    rfl
  · rfl

theorem history_finding (t : Tx) (k : Nat) (event : FindingEvent) (reason actor : String) (runId : Option Nat) :
    (t.finding env k event reason actor runId).1.db.history fid =
      if fid = k then (t.db.history fid).map (fired env k event reason actor runId) else t.db.history fid := by
  unfold Tx.finding
  cases hf : t.db.findings.get? k with
  | none =>
    dsimp only
    split
    · rename_i hk
      subst hk
      simp [Db.history, hf]
    · rfl
  | some f => exact history_findingFrom t hf event reason actor runId

theorem history_own (t : Tx) (k : Nat) (owner : Option Nat) :
    (t.modifyFinding k (Finding.giveTo owner)).db.history fid =
      if fid = k then (t.db.history fid).map fun h => (Finding.giveTo owner h.1, h.2) else t.db.history fid := by
  simp only [Db.history, Tx.modifyFinding, Table.get?_modify]
  split
  · simp only [Option.map_map, Function.comp_def]
    rfl
  · rfl

/-- A unit leaves the histories outside its scope alone. -/
theorem Acts.history {S : Scope} (h : Acts env S tx t) (hfid : ¬ S.findings fid) :
    t.db.history fid = tx.db.history fid := by
  induction h with
  | refl => rfl
  | quiet _ hq ih => exact hq.history.trans ih
  | editItem _ _ _ ih => exact ih
  | editPull _ _ _ _ _ ih => exact ih
  | insertPull _ _ _ _ ih => exact ih
  | insertItem _ _ _ ih => exact ih
  | @wi t _ w _ e _ reason actor ih => exact (history_wi t w e reason actor).trans ih
  | @findingFrom t _ k hk before _ e _ reason actor runId ih =>
    have hne : fid ≠ k := fun h => hfid (h ▸ hk)
    rw [← ih, Tx.findingFrom_db]
    refine history_congr (Table.get?_modify_of_ne _ hne) ?_
    have hm : Event.moves fid (Tx.findingLog env k before e reason actor runId) = false := by
      unfold Tx.findingLog Event.moves
      cases nextFindingState before e with
      | none => rfl
      | some after => simp [Ne.symm hne]
    simp [Db.transitions, List.filter_append, hm]
  | @own t _ k hk owner _ ih =>
    have hne : fid ≠ k := fun h => hfid (h ▸ hk)
    rw [history_own, if_neg hne]
    exact ih

/-- A unit takes no finding away. -/
theorem Acts.history_isSome {S : Scope} (h : Acts env S tx t) {hist : History} (hh : tx.db.history fid = some hist) :
    ∃ hist', t.db.history fid = some hist' := by
  have hcore : (t.db.findings.get? fid).map Finding.core = (tx.db.findings.get? fid).map Finding.core := by
    rw [← Table.get?_map, ← Table.get?_map, h.findings_core]
  rw [(history_eq_some.mp hh).1, Option.map_some] at hcore
  obtain ⟨f, hf, -⟩ := Option.map_eq_some_iff.mp hcore
  exact ⟨(f, t.db.transitions fid), history_eq_some.mpr ⟨hf, rfl⟩⟩

/-- A finding that is there afterwards was there before, with the same core. -/
theorem Acts.finding_back {S : Scope} (h : Acts env S tx t) {f' : Finding} (hf' : t.db.findings.get? fid = some f') :
    ∃ f, tx.db.findings.get? fid = some f ∧ f'.core = f.core := by
  have hcore : (t.db.findings.get? fid).map Finding.core = (tx.db.findings.get? fid).map Finding.core := by
    rw [← Table.get?_map, ← Table.get?_map, h.findings_core]
  rw [hf', Option.map_some] at hcore
  obtain ⟨f, hf, hsame⟩ := Option.map_eq_some_iff.mp hcore.symm
  exact ⟨f, hf, hsame.symm⟩

/-- What holds of a finding after a unit that creates no work item held of it before, if no event of the unit brings it
about and no finding without an owner has it. -/
theorem Acts.row_back {S : Scope} (h : Acts env S tx t) (hins : ¬ S.inserts) (P : Finding → Prop)
    (hfire : ∀ f before event runId, (S.deeds .recall ∨ f.state = before) →
      (S.deeds .reopen ∨ event ∉ reopeningEvents) → P (Tx.findingRow env before event runId f) → P f)
    (hown : ∀ f, ¬ P (Finding.giveTo none f)) {f' : Finding} (hf' : t.db.findings.get? fid = some f') (hP : P f') :
    ∃ f, tx.db.findings.get? fid = some f ∧ P f := by
  induction h generalizing f' with
  | refl => exact ⟨f', hf', hP⟩
  | quiet _ hq ih => exact ih (hq.findings ▸ hf') hP
  | editItem _ _ _ ih => exact ih hf' hP
  | editPull _ _ _ _ _ ih => exact ih hf' hP
  | insertPull _ _ _ _ ih => exact ih hf' hP
  | insertItem _ _ _ ih => exact ih hf' hP
  | wi _ _ _ reason actor ih => rw [Tx.wi_db] at hf'; exact ih hf' hP
  | @findingFrom t _ k _ before hb e he reason actor runId ih =>
    rw [Tx.findingFrom_db] at hf'
    dsimp only at hf'
    rw [Table.get?_modify] at hf'
    split at hf'
    · rename_i hk
      obtain ⟨f, hf, rfl⟩ := Option.map_eq_some_iff.mp hf'
      refine ih hf (hfire f before e runId (hb.imp_right fun hstate => ?_) he hP)
      rw [Db.findingState, ← hk, hf, Option.map_some] at hstate
      exact Option.some.inj hstate
    · exact ih hf' hP
  | @own t _ k _ owner ho ih =>
    rw [Tx.modifyFinding] at hf'
    dsimp only at hf'
    rw [Table.get?_modify] at hf'
    split at hf'
    · obtain ⟨f, hf, rfl⟩ := Option.map_eq_some_iff.mp hf'
      obtain rfl := ho.resolve_left hins
      exact absurd hP (hown f)
    · exact ih hf' hP

end Histories

end HardeningLoop
